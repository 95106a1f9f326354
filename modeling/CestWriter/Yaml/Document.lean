import CestWriter.Yaml.Node

/-!
# Documents

A text with at most one document, read by way of its tokens.
-/

namespace CestWriter.Yaml

/-- Whether a character may stand in a document. -/
def isAllowed (c : Char) : Bool :=
  let n := c.toNat
  n == 9 || n == 10 || n == 13 || (0x20 ≤ n && n ≤ 0x7E) || n == 0x85 ||
    (0xA0 ≤ n && n ≤ 0xFFFD) || 0x10000 ≤ n

/-- Reads a text with at most one document. -/
def parse (s : String) : Except Fault Node := do
  match s.toList.find? (!isAllowed ·) with
  | some c => throw (.control c)
  | none => Node.ofTokens (← Token.scan (unifyBreaks s.toList))

end CestWriter.Yaml
