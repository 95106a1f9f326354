/-!
# Cutting text

Ways to take a text apart: at the first or the last occurrence of a character, after a fixed
beginning, at every occurrence of a character, and into lines.
-/

namespace CestWriter.Text

/-- What stands before and after the first `mark`, if there is one. -/
def cutFirst (mark : Char) : List Char → Option (List Char × List Char)
  | [] => none
  | c :: cs =>
    if c = mark then some ([], cs)
    else (cutFirst mark cs).map fun (before, after) => (c :: before, after)

/-- What stands before and after the last `mark`, if there is one. -/
def cutLast (mark : Char) : List Char → Option (List Char × List Char)
  | [] => none
  | c :: cs =>
    match cutLast mark cs with
    | some (before, after) => some (c :: before, after)
    | none => if c = mark then some ([], cs) else none

/-- `cutFirst` on texts. -/
def splitFirst (mark : Char) (s : String) : Option (String × String) :=
  (cutFirst mark s.toList).map fun (before, after) => (String.ofList before, String.ofList after)

/-- `cutLast` on texts. -/
def splitLast (mark : Char) (s : String) : Option (String × String) :=
  (cutLast mark s.toList).map fun (before, after) => (String.ofList before, String.ofList after)

/-- What follows `start` in a list of characters that begins with it. -/
def rest? : List Char → List Char → Option (List Char)
  | [], cs => some cs
  | _ :: _, [] => none
  | s :: start, c :: cs => if s = c then rest? start cs else none

theorem rest?_eq_some_iff {start cs rest : List Char} :
    rest? start cs = some rest ↔ cs = start ++ rest := by
  fun_induction rest? start cs with
  | case1 => simp
  | case2 => simp
  | case3 start c cs ih => simp [ih]
  | case4 s start c cs hne => simp [Ne.symm hne]

theorem length_dropWhile_le (p : Char → Bool) (cs : List Char) :
    (cs.dropWhile p).length ≤ cs.length :=
  (List.dropWhile_suffix p).length_le

/-- What follows `start` in a text that begins with it. -/
def after? (start s : String) : Option String :=
  (rest? start.toList s.toList).map String.ofList

/-- Whether a text begins with `start`. -/
def startsWith (start s : String) : Bool :=
  (rest? start.toList s.toList).isSome

/-- A text without the occurrences of `mark` at its beginning. -/
def dropLeading (mark : Char) (s : String) : String :=
  String.ofList (s.toList.dropWhile (· == mark))

/-- The pieces of a text between the occurrences of `mark`. -/
def pieces (mark : Char) : List Char → List (List Char)
  | [] => [[]]
  | c :: cs =>
    match pieces mark cs with
    | [] => [[]]
    | piece :: rest => if c = mark then [] :: piece :: rest else (c :: piece) :: rest

/-- The lines of a text, where `line` holds the characters of the current line in reverse. A line
ends at a line feed, and a carriage return directly before it belongs to the line end; a text that
ends with a line feed has no further line after it. -/
def linesFrom (line : List Char) : List Char → List (List Char)
  | [] => if line.isEmpty then [] else [line.reverse]
  | c :: cs =>
    if c = '\n' then
      (match line with
        | '\r' :: rest => rest.reverse
        | _ => line.reverse) :: linesFrom [] cs
    else linesFrom (c :: line) cs

/-- The lines of a text. -/
def lines (cs : List Char) : List (List Char) :=
  linesFrom [] cs

/-- Puts `unit` in front of every non-empty line. Lines are joined by single line feeds, so a line
feed at the end is dropped. -/
def indent (unit text : String) : String :=
  "\n".intercalate <| (lines text.toList).map fun line =>
    if line.isEmpty then "" else unit ++ String.ofList line

end CestWriter.Text
