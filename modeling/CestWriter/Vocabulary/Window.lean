import CestWriter.Decimal.Floor
import CestWriter.Vocabulary.Context

/-!
# Frames and windows

Commands that switch to a frame or a window, and the lines around a command that opens a window.
-/

namespace CestWriter.Vocabulary

/-- Emits a callback that switches to a frame: the top one, one by its number, or one by its
element. -/
def selectFrame : Emitter := fun ctx c =>
  if c.targetText = "relative=top" || c.targetText = "relative=parent" then
    .ok (.callback ["$webdriver->switchTo()->defaultContent();"] none)
  else
    match Text.after? "index=" c.targetText with
    | some index =>
      .ok (.callback ["$webdriver->switchTo()->frame(" ++ floorText index ++ ");"] none)
    | none =>
      onDriver (fun element => [
        "$element = $webdriver->findElement(" ++ element ++ ");",
        "$webdriver->switchTo()->frame($element);"]) ctx c

/-- Whether a text is a whole number of 64 bits without sign. -/
def isWord64 (s : String) : Bool :=
  !s.isEmpty && s.toList.all Char.isDigit && Numeral.ofDigits s.toList < Nat.pow 2 64

/-- The number of a window that is selected by its order of opening. -/
def windowNumber (index : String) : String :=
  if index = "local" then "0" else floorText index

/-- Emits the switch to a window by its number. -/
def selectNumbered (index : String) : Except Error Emission :=
  let number := windowNumber index
  if isWord64 number then
    .ok (.callback [
      "$handles = $webdriver->getWindowHandles();",
      "$webdriver->switchTo()->window($handles[" ++ number ++ "]);"] none)
  else .error .windowSelection

/-- The handle of a window as an expression. One that begins with a variable stands as it is. -/
def handleExpr (handle : String) : String :=
  let text := Text.interpolate handle
  if Literal.startsWithVariable text then text else Literal.text text

/-- Emits the switch to a window: by its handle, by its name, or by its number. -/
def selectWindow : Emitter := fun _ c =>
  match Text.after? "handle=" c.targetText with
  | some handle => .ok (callStatement "switchToWindow" (handleExpr handle))
  | none =>
    match Text.after? "name=" c.targetText with
    | some name => .ok (callStatement "switchToWindow" (Literal.text name))
    | none =>
      match Text.after? "win_ser_" c.targetText with
      | some index => selectNumbered index
      | none => .error .windowSelection

/-- The line that remembers the windows that are open. -/
def snapshotLine : Line :=
  ⟨0, "$windowHandles = " ++ Emission.callbackOpen ++
    " return $webdriver->getWindowHandles(); \x7d);"⟩

/-- The line that waits for a new window and stores its handle. -/
def awaitLine (c : Command) (config : Config) : Line :=
  ⟨0, Literal.variableOf c.windowHandleName ++ " = $this->waitForWindow($I, $windowHandles, " ++
    (c.windowTimeout.getD config.defaultWindowTimeout).toNat.repr ++ ");"⟩

/-- The emission of a command with the lines for the window that it opens, if it does and there is
something to write. -/
def withWindow (c : Command) (config : Config) (e : Emission) : Emission :=
  if c.opensWindow && !e.isEmpty then
    .block (snapshotLine :: e.lines ++ [awaitLine c config]) e.before e.after
  else e

end CestWriter.Vocabulary
