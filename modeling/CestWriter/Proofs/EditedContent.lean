import CestWriter.Proofs.Cuts
import CestWriter.Proofs.LiteralReading
import CestWriter.Proofs.Pieces
import CestWriter.Proofs.StandardTable

/-!
# Content of editable elements

The content of an editable element is set by a script that runs on the driver. In the script the
content is a literal in single quotes, and the script itself is a literal in double quotes, so
backslashes and quotes of the content are escaped twice. Read back one layer after the other, the
line gives the content as it was: neither of the two literals ends too early or too late.
-/

namespace CestWriter

namespace Literal

/-- The text of the literal that stands between `before` and `after`, for a text that is made up of
these three. -/
def literalBetween? (delimiter : Char) (before after text : String) : Option String :=
  ((Text.after? before text).bind (readLiteral delimiter)).bind fun r =>
    if r.2 = after then some r.1 else none

/-- A literal that is read back in front of anything is read back between any two texts. -/
theorem literalBetween?_eq_some {delimiter : Char} {write : String → String}
    (h : ∀ s t, readLiteral delimiter (write s ++ t) = some (s, t)) (before after s : String) :
    literalBetween? delimiter before after (before ++ (write s ++ after)) = some s := by
  have hbehind : Text.after? before (before ++ (write s ++ after)) = some (write s ++ after) :=
    Text.after?_eq_some_iff.mpr rfl
  rw [literalBetween?, hbehind, Option.bind_some, h, Option.bind_some, if_pos rfl]

end Literal

namespace EditedContent

open Vocabulary

/-- What stands before the script in the line that runs it on the element. -/
def callOpening : String :=
  "$webdriver->executeScript("

/-- What stands behind the script in that line. -/
def callClosing : String :=
  ", [$element]);"

/-- What stands before the content in the script. -/
def scriptOpening : String :=
  "if(arguments[0].contentEditable === 'true') \x7barguments[0].innerText = "

/-- What stands behind the content in the script. -/
def scriptClosing : String :=
  "\x7d"

/-- The script that a line runs on the element. -/
def scriptOf? (line : String) : Option String :=
  Literal.literalBetween? '"' callOpening callClosing line

/-- The content that a script gives to the element if it can be edited. -/
def contentOf? (script : String) : Option String :=
  Literal.literalBetween? '\'' scriptOpening scriptClosing script

/-- The line that runs a script on the element. -/
def scriptLine (script : String) : String :=
  callOpening ++ Literal.quote script ++ callClosing

theorem scriptOf?_scriptLine (script : String) : scriptOf? (scriptLine script) = some script := by
  rw [scriptLine, String.append_assoc]
  exact Literal.literalBetween?_eq_some Literal.readLiteral_quote callOpening callClosing script

theorem editScript_eq (content : String) :
    editScript content = scriptOpening ++ (Literal.singleQuote content ++ scriptClosing) := by
  rw [editScript, String.join_cons, String.join_cons, String.join_cons, String.join_nil,
    String.append_empty]
  rfl

theorem contentOf?_editScript (content : String) :
    contentOf? (editScript content) = some content := by
  rw [editScript_eq]
  exact Literal.literalBetween?_eq_some Literal.readLiteral_singleQuote scriptOpening scriptClosing
    content

/-- The callback that sets the content of an element has two lines. -/
theorem emit_editContent {t : Table} (ht : t.IsStandard) {depth : Nat} {c : Command}
    (hname : c.name = "editContent") {element : String}
    (htarget : t.resolver.driver c.targetText = .ok element) :
    t.emit depth c = .ok (withWindow c t.config (.callback [
      "$element = $webdriver->findElement(" ++ element ++ ");",
      scriptLine (editScript (Text.interpolate c.valueText))] none)) := by
  have hmem : (c.name, editContent) ∈ Vocabulary.standard := by
    simp [Vocabulary.standard, interactions, hname]
  rw [Table.emit_of_mem_standard ht hmem, editContent, onDriver, htarget]
  rfl

/-- Content is quoted twice without loss. A command that sets the content of an element, with any
value and a target that can be resolved, is emitted as a callback of two lines, with the lines for a
window that the command opens. The second line runs the script that sets the content, and what the
script sets is the recorded value with its references written as variables. -/
theorem editContent_read_back (config : Config) (resolver : Resolver) (depth : Nat) (c : Command)
    (hname : c.name = "editContent") (element : String)
    (htarget : resolver.driver c.targetText = .ok element) :
    ∃ line script,
      ((Table.standard config).withResolver resolver).emit depth c =
        .ok (withWindow c config (.callback
          ["$element = $webdriver->findElement(" ++ element ++ ");", line] none)) ∧
      scriptOf? line = some script ∧
      contentOf? script = some (Text.interpolate c.valueText) :=
  ⟨_, _, emit_editContent (Table.isStandard_withResolver config resolver) hname htarget,
    scriptOf?_scriptLine _, contentOf?_editScript _⟩

/-- A value with a reference, both kinds of quotes and a backslash in front of a quote. -/
def quotedPath : Command :=
  { name := "editContent", target := some "id=box", value := some "$\x7bwho\x7d's \"C:\\\"" }

theorem interpolate_quotedPath : Text.interpolate quotedPath.valueText = "$who's \"C:\\\"" := by
  have hreference : Text.reference? quotedPath.valueText.toList =
      some ("who".toList, "'s \"C:\\\"".toList) := by decide
  rw [Text.interpolate, Text.Piece.decompose_of_reference hreference,
    Text.Piece.decompose_of_not_mem (by decide) (by decide)]
  decide

theorem editContent_read_back_quotedPath :
    quotedPath.name = "editContent" ∧
      Resolver.standard.driver quotedPath.targetText =
        .ok "\\Facebook\\WebDriver\\WebDriverBy::id(\"box\")" ∧
      ∃ line script,
        ((Table.standard {}).withResolver .standard).emit 0 quotedPath = .ok (.callback [
          "$element = $webdriver->findElement(\\Facebook\\WebDriver\\WebDriverBy::id(\"box\"));",
          line] none) ∧
        scriptOf? line = some script ∧ contentOf? script = some "$who's \"C:\\\"" := by
  have htarget : Resolver.standard.driver quotedPath.targetText =
      .ok ("\\Facebook\\WebDriver\\WebDriverBy::id(" ++ Literal.text "box" ++ ")") := rfl
  have htext : Literal.text "box" = "\"box\"" := by
    rw [Literal.text, Text.interpolate, Text.Piece.decompose_of_not_mem (by decide) (by decide)]
    decide
  rw [htext] at htarget
  have hread := editContent_read_back {} .standard 0 quotedPath rfl _ htarget
  rw [interpolate_quotedPath] at hread
  exact ⟨rfl, htarget, hread⟩

end EditedContent

end CestWriter
