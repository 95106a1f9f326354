/-!
# Blank characters

The characters that count as white space in recorded parameters, and trimming by them. The set is
the `White_Space` property of the character standard: it holds the no-break space and the
ideographic space, but neither the zero-width space nor the byte-order mark.
-/

namespace CestWriter.Text

/-- The 25 characters with the `White_Space` property. -/
def isBlank (c : Char) : Bool :=
  let n := c.toNat
  (9 ≤ n && n ≤ 13) || n == 0x20 || n == 0x85 || n == 0xA0 || n == 0x1680 ||
    (0x2000 ≤ n && n ≤ 0x200A) || n == 0x2028 || n == 0x2029 || n == 0x202F || n == 0x205F ||
    n == 0x3000

/-- Characters without the blanks at the end. -/
def trimEnd (cs : List Char) : List Char :=
  (cs.reverse.dropWhile isBlank).reverse

/-- Characters without the blanks at either end. -/
def trim (cs : List Char) : List Char :=
  trimEnd (cs.dropWhile isBlank)

/-- Text without the blanks at either end. -/
def trimmed (s : String) : String :=
  String.ofList (trim s.toList)

end CestWriter.Text
