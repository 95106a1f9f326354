import CestWriter.Decimal.Floor
import CestWriter.Vocabulary.Context

/-!
# Waiting for the page

Commands that wait until an element or a text is there, or is gone.
-/

namespace CestWriter.Vocabulary

/-- Emits the call that waits for the target, the value giving the time. -/
def waitFor (method : String) : Emitter := fun ctx c =>
  onElement method ctx c.targetText (floorText c.valueText)

/-- A condition of the driver. -/
def expectedCondition (name argument : String) : String :=
  String.join ["\\Facebook\\WebDriver\\WebDriverExpectedCondition::", name, "(", argument, ")"]

/-- Emits a callback that waits until a condition on the target holds. -/
def waitUntil (condition : String → String) : Emitter := fun ctx c =>
  onDriver (fun element => [
    "$webdriver->wait(" ++ floorText c.valueText ++ ")->until(" ++ condition element ++ ");"]) ctx c

/-- Emits the call that waits for a text, for the time that the configuration gives. -/
def waitForText : Emitter := fun ctx c => do
  let locator ← ctx.resolver.strict c.targetText
  return callStatement "waitForText" (Literal.text c.valueText ++ ", " ++
    ctx.config.waitForTextTimeout.toNat.repr ++ ", " ++ locator)

end CestWriter.Vocabulary
