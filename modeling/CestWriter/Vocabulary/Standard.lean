import CestWriter.Vocabulary.Assertion
import CestWriter.Vocabulary.ControlFlow
import CestWriter.Vocabulary.Interaction
import CestWriter.Vocabulary.Storage
import CestWriter.Vocabulary.Waiting
import CestWriter.Vocabulary.Window

/-!
# The standard vocabulary

The commands that are known from the start, each with its emitter. Commands that check the page
come in two names, one that stops the test and one that does not; both emit the same.
-/

namespace CestWriter.Vocabulary

/-- The names of the commands that only concern the recorder. -/
def recorderOnly : List String :=
  ["answerOnNextPrompt", "chooseCancelOnNextConfirmation", "chooseCancelOnNextPrompt",
    "chooseOkOnNextConfirmation", "debugger"]

/-- Commands that act on the page. -/
def interactions : List (String × Emitter) := [
  ("addSelection", optionCall "selectOption"),
  ("check", targetCall "checkOption"),
  ("click", targetCall "click"),
  ("clickAt", targetCall "click"),
  ("close", bareCall "closeTab"),
  ("doubleClick", targetCall "doubleClick"),
  ("doubleClickAt", targetCall "doubleClick"),
  ("dragAndDropToObject", dragAndDrop),
  ("echo", echo),
  ("editContent", editContent),
  ("mouseDown", mouseButton "mouseDown"),
  ("mouseDownAt", mouseButton "mouseDown"),
  ("mouseMove", mouseMove),
  ("mouseMoveAt", mouseMoveAt),
  ("mouseOver", mouseMove),
  ("mouseOut", mouseOut),
  ("mouseUp", mouseButton "mouseUp"),
  ("mouseUpAt", mouseButton "mouseUp"),
  ("open", openPage),
  ("pause", pause),
  ("removeSelection", optionCall "unselectOption"),
  ("run", run),
  ("select", optionCall "selectOption"),
  ("selectFrame", selectFrame),
  ("selectWindow", selectWindow),
  ("sendKeys", sendKeys),
  ("setSpeed", setSpeed),
  ("setWindowSize", setWindowSize),
  ("submit", targetCall "click"),
  ("type", targetAndTextCall "fillField"),
  ("uncheck", targetCall "uncheckOption"),
  ("webdriverAnswerOnVisiblePrompt", answerPrompt),
  ("webdriverChooseCancelOnVisibleConfirmation", bareCall "cancelPopup"),
  ("webdriverChooseCancelOnVisiblePrompt", bareCall "cancelPopup"),
  ("webdriverChooseOkOnVisibleConfirmation", bareCall "acceptPopup")]

/-- Commands that check the page, by the part of their names after `assert` or `verify`. -/
def checks : List (String × Emitter) := [
  ("", assertVariable),
  ("Checked", targetCall "seeCheckboxIsChecked"),
  ("Editable", assertEnabled "assertTrue"),
  ("ElementPresent", targetCall "seeElementInDOM"),
  ("ElementNotPresent", targetCall "dontSeeElementInDOM"),
  ("NotChecked", targetCall "dontSeeCheckboxIsChecked"),
  ("NotEditable", assertEnabled "assertFalse"),
  ("NotSelectedValue", targetAndTextCall "dontSeeInField"),
  ("NotText", textCheck "dontSee"),
  ("SelectedLabel", targetAndTextCall "seeOptionIsSelected"),
  ("SelectedValue", targetAndTextCall "seeInField"),
  ("Text", textCheck "see"),
  ("Title", textCall "seeInTitle"),
  ("Value", targetAndTextCall "seeInField")]

/-- Commands that check the text of a dialog. -/
def dialogChecks : List (String × Emitter) := [
  ("assertAlert", textCall "seeInPopup"),
  ("assertConfirmation", textCall "seeInPopup"),
  ("assertPrompt", textCall "seeInPopup")]

/-- Commands that store values and run scripts. -/
def storing : List (String × Emitter) := [
  ("executeAsyncScript", executeAsyncScript),
  ("executeScript", executeScript),
  ("runScript", runScript),
  ("store", store),
  ("storeAttribute", storeAttribute),
  ("storeJson", storeJson),
  ("storeText", storeGrabbed "grabTextFrom"),
  ("storeTitle", storeTitle),
  ("storeValue", storeGrabbed "grabValueFrom"),
  ("storeWindowHandle", storeWindowHandle),
  ("storeXpathCount", storeCount)]

/-- Commands that wait. -/
def waiting : List (String × Emitter) := [
  ("waitForElementEditable", waitUntil (expectedCondition "elementToBeClickable")),
  ("waitForElementNotEditable",
    waitUntil fun element =>
      expectedCondition "not" (expectedCondition "elementToBeClickable" element)),
  ("waitForElementNotPresent",
    waitUntil fun element =>
      expectedCondition "not" (expectedCondition "presenceOfElementLocated" element)),
  ("waitForElementNotVisible", waitFor "waitForElementNotVisible"),
  ("waitForElementPresent", waitFor "waitForElement"),
  ("waitForElementVisible", waitFor "waitForElementVisible"),
  ("waitForText", waitForText)]

/-- All commands that are known from the start. -/
def standard : List (String × Emitter) :=
  recorderOnly.map (·, skip) ++
    Keyword.all.map (fun k => (k.name, controlFlow k)) ++
    interactions ++
    checks.map (fun (name, emitter) => ("assert" ++ name, emitter)) ++
    checks.map (fun (name, emitter) => ("verify" ++ name, emitter)) ++
    dialogChecks ++ storing ++ waiting

end CestWriter.Vocabulary
