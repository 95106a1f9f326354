import CestWriter.Decimal.Floor
import CestWriter.Recording.Script
import CestWriter.Text.Identifier
import CestWriter.Vocabulary.Context

/-!
# Acting on the page

Commands that click, type, choose options, move the mouse, open pages, answer dialogs and run other
tests.
-/

namespace CestWriter.Vocabulary

/-- The label of an option such as `label=Norway`: what stands after the first equals sign, up to
the next one. -/
def optionLabel (c : Command) : Except Error String :=
  match Text.pieces '=' c.valueText.toList with
  | _ :: label :: _ => .ok (String.ofList label)
  | _ => .error (.malformed c.name (.option c.valueText))

/-- Emits a call on the target that takes the label of an option. -/
def optionCall (method : String) : Emitter := fun ctx c => do
  onElement method ctx c.targetText (Literal.text (← optionLabel c))

/-- Emits the call that drags the target to the element that the value locates. -/
def dragAndDrop : Emitter := fun ctx c => do
  let dragged ← ctx.resolver.strict c.targetText
  let dropped ← ctx.resolver.strict c.valueText
  return callStatement "dragAndDrop" (dragged ++ ", " ++ dropped)

/-- The script that replaces the content of an editable element. -/
def editScript (content : String) : String :=
  String.join [
    "if(arguments[0].contentEditable === 'true') \x7barguments[0].innerText = ",
    Literal.singleQuote content, "\x7d"]

/-- Emits a callback that replaces the content of an editable element. -/
def editContent : Emitter := fun ctx c =>
  onDriver (fun element => [
    "$element = $webdriver->findElement(" ++ element ++ ");",
    "$webdriver->executeScript(" ++
      Literal.quote (editScript (Text.interpolate c.valueText)) ++ ", [$element]);"]) ctx c

/-- Emits a callback that presses or releases the mouse button over the target. -/
def mouseButton (method : String) : Emitter :=
  onDriver fun element => [
    "$coordinates = $webdriver->findElement(" ++ element ++ ")->getCoordinates();",
    "$webdriver->getMouse()->" ++ method ++ "($coordinates);"]

/-- Emits the call that moves the mouse over the target. -/
def mouseMove : Emitter :=
  targetCall "moveMouseOver"

/-- Emits the call that moves the mouse over the target, at an offset if one is recorded. -/
def mouseMoveAt : Emitter := fun ctx c =>
  if c.valueText.isEmpty then mouseMove ctx c
  else
    match Text.splitFirst ',' c.valueText with
    | none => .error (.malformed c.name (.offset c.valueText))
    | some (x, y) =>
      onElement "moveMouseOver" ctx c.targetText (floorText x ++ ", " ++ floorText y)

/-- Emits the call that moves the mouse off any element. -/
def mouseOut : Emitter := fun _ _ =>
  .ok (callStatement "moveMouseOver" "\"body\", 0, 0")

/-- Whether a target is a full address and not a page of the site. -/
def isAddress (target : String) : Bool :=
  Text.startsWith "file://" target || Text.startsWith "http://" target ||
    Text.startsWith "https://" target

/-- Emits the call that opens an address or a page of the site. -/
def openPage : Emitter := fun _ c =>
  .ok (callStatement (if isAddress c.targetText then "amOnUrl" else "amOnPage")
    (Literal.text c.targetText))

/-- Emits the call that waits. -/
def pause : Emitter := fun _ c =>
  .ok (callStatement "wait" (floorText c.targetText))

/-- Emits the call of another test's method. -/
def run : Emitter := fun _ c =>
  .ok (.statement ("$this->" ++ Identifier.method c.targetText ++ "($I);"))

/-- Emits the call that presses keys. -/
def sendKeys : Emitter := fun ctx c =>
  onElement "pressKey" ctx c.targetText
    (Literal.arguments ((KeyPart.ofRecorded c.valueText).map KeyPart.argument))

/-- Emits a remark: the speed of the recorder has no counterpart. -/
def setSpeed : Emitter := fun _ _ =>
  .ok (callStatement "comment"
    "\"`set speed` is a no-op in code export, use `pause` instead\"")

/-- Emits the call that resizes the window to a size such as `1280x800`. -/
def setWindowSize : Emitter := fun _ c =>
  match Text.splitFirst 'x' c.targetText with
  | none => .error (.malformed c.name (.size c.targetText))
  | some (width, height) =>
    .ok (callStatement "resizeWindow" (Text.trimmed width ++ ", " ++ Text.trimmed height))

/-- Emits a remark. One that begins with a variable is taken for an expression. -/
def echo : Emitter := fun _ c =>
  let message := Text.interpolate c.targetText
  .ok (callStatement "comment"
    (if Literal.startsWithVariable message then message else Literal.quote message))

/-- Emits the calls that answer a visible prompt and accept it. -/
def answerPrompt : Emitter := fun _ c =>
  .ok (.block [
    ⟨0, call "typeInPopup" (Literal.text c.targetText) ++ ";"⟩,
    ⟨0, call "acceptPopup" "" ++ ";"⟩] 0 0)

end CestWriter.Vocabulary
