import CestWriter.Recording.Script
import CestWriter.Vocabulary.Context

/-!
# Storing values and running scripts

Commands whose result goes to a variable of the generated code, and scripts.
-/

namespace CestWriter.Vocabulary

/-- Emits the assignment of a text. -/
def store : Emitter := fun _ c =>
  .ok (.statement (Literal.assign c.valueText (Literal.text c.targetText)))

/-- Emits the assignment of an attribute, such as `id=home@href`, inside a block of its own. -/
def storeAttribute : Emitter := fun ctx c =>
  match Text.splitLast '@' c.targetText with
  | none => .error (.malformed c.name (.attribute c.targetText))
  | some (element, name) => do
    let grab ← callOn ctx "grabAttributeFrom" element (Literal.text name)
    return .block [
      ⟨0, "\x7b"⟩,
      ⟨1, "$attribute = " ++ grab ++ ";"⟩,
      ⟨1, Literal.assign c.valueText "$attribute"⟩,
      ⟨0, "\x7d"⟩] 0 0

/-- Emits the assignment of a decoded document. -/
def storeJson : Emitter := fun _ c =>
  .ok (.statement (Literal.assign c.valueText
    ("json_decode(" ++ Literal.singleQuote c.targetText ++ ")")))

/-- Emits the assignment of what a call on the target gives. -/
def storeGrabbed (method : String) : Emitter := fun ctx c => do
  return .statement (Literal.assign c.valueText (← callOn ctx method c.targetText ""))

/-- Emits the assignment of the page title. The variable is the value, or the target if no value is
recorded. -/
def storeTitle : Emitter := fun _ c =>
  .ok (.statement (Literal.assign
    (if c.valueText.isEmpty then c.targetText else c.valueText) (call "grabTitle" "")))

/-- Emits a callback that gives the handle of the current window. -/
def storeWindowHandle : Emitter := fun _ c =>
  .ok (.callbackTo c.targetText ["return $webdriver->getWindowHandle();"])

/-- Emits the assignment of the number of elements. -/
def storeCount : Emitter := fun ctx c => do
  return .statement (Literal.assign c.valueText
    ("count(" ++ (← callOn ctx "grabMultiple" c.targetText "") ++ ")"))

/-- Emits the call that runs a script and stores its result. -/
def executeScript : Emitter := fun _ c =>
  .ok (.statement (Literal.assign c.valueText
    (call "executeJS" ((Script.ofRecorded c.targetText).callArguments ""))))

/-- The script that runs another one and hands its result, or its failure, to the callback that the
driver passes as the last argument. -/
def asyncScript (script : Script) : Script :=
  { script with
    body := String.join ["var callback = arguments[arguments.length - 1];", script.body,
      ".then(callback).catch(callback);"] }

/-- Emits the call that runs a script, waits for it and stores its result. -/
def executeAsyncScript : Emitter := fun _ c =>
  .ok (.statement (Literal.assign c.valueText
    (call "executeAsyncJS" ((asyncScript (Script.ofRecorded c.targetText)).callArguments ""))))

/-- Emits the call that runs a script. -/
def runScript : Emitter := fun _ c =>
  .ok (callStatement "executeJS" ((Script.ofRecorded c.targetText).callArguments ""))

end CestWriter.Vocabulary
