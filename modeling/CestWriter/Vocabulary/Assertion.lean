import CestWriter.Vocabulary.Context

/-!
# Checking the page

Commands that check variables, texts, fields and elements.
-/

namespace CestWriter.Vocabulary

/-- Emits the comparison of a variable with a value. -/
def assertVariable : Emitter := fun _ c =>
  .ok (callStatement "assertEquals"
    (Literal.variableOf c.targetText ++ ", " ++ Literal.value c.valueText))

/-- Emits a callback that checks whether the target can be edited. -/
def assertEnabled (assertion : String) : Emitter :=
  onDriver fun element => [
    "\\PHPUnit\\Framework\\Assert::" ++ assertion ++ "($webdriver->findElement(" ++ element ++
      ")->isEnabled());"]

/-- Arguments of a call that looks for a text: the text and then the locator. What is empty is left
out; without a locator the recorded text stands as it is. -/
def textArguments (ctx : Context) (target value : String) : Except Error String :=
  if target.isEmpty then .ok value
  else do
    let locator ← ctx.resolver.strict target
    return if value.isEmpty then locator else Literal.text value ++ ", " ++ locator

/-- Emits the call that looks for the value as a text in the target. -/
def textCheck (method : String) : Emitter := fun ctx c => do
  return callStatement method (← textArguments ctx c.targetText c.valueText)

end CestWriter.Vocabulary
