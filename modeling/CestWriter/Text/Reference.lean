import CestWriter.Text.Cut
import CestWriter.Text.Word

/-!
# References to variables in recorded text

A recorded parameter may refer to variables: `${name}`, where the name is one or more word
characters. Reading such a text from left to right gives its decomposition into literal pieces and
references, or the references alone with the places where they stand.
-/

namespace CestWriter.Text

/-- A part of a recorded text. -/
inductive Piece where
  /-- Literal characters, standing for themselves. -/
  | literal (chars : List Char)
  /-- A reference to the variable of this name. -/
  | reference (name : List Char)
deriving Repr, DecidableEq

/-- The name of a reference at the beginning of a text, and what follows the reference. -/
def reference? : List Char → Option (List Char × List Char)
  | '$' :: '\x7b' :: cs =>
    match cs.takeWhile isWord, cs.dropWhile isWord with
    | c :: name, '\x7d' :: rest => some (c :: name, rest)
    | _, _ => none
  | _ => none

theorem reference?_length {cs name rest : List Char} (h : reference? cs = some (name, rest)) :
    rest.length < cs.length := by
  unfold reference? at h
  split at h
  · next cs =>
    split at h
    · next hrest =>
      cases h
      have hle := length_dropWhile_le isWord cs
      rw [hrest] at hle
      simp only [List.length_cons] at hle ⊢
      omega
    · exact nomatch h
  · exact nomatch h

/-- Puts a literal character in front of a decomposition. -/
def Piece.push (c : Char) : List Piece → List Piece
  | .literal cs :: rest => .literal (c :: cs) :: rest
  | rest => .literal [c] :: rest

/-- The decomposition of a text into literal pieces and references. References are taken leftmost
first, and literal pieces are as long as possible. -/
def decompose : List Char → List Piece
  | [] => []
  | c :: cs =>
    match h : reference? (c :: cs) with
    | some (name, rest) =>
      have := reference?_length h
      .reference name :: decompose rest
    | none => Piece.push c (decompose cs)
termination_by cs => cs.length
decreasing_by
  · assumption
  · exact Nat.lt_succ_self _

/-- A reference and where it stands in a text. -/
structure Occurrence where
  /-- The place of its first character. -/
  start : Nat
  /-- The place behind its last character. -/
  stop : Nat
  name : List Char
deriving Repr, DecidableEq

/-- The references in a text whose first character stands at this place: leftmost first, and each
behind the one before. -/
def occurrences (place : Nat) : List Char → List Occurrence
  | [] => []
  | c :: cs =>
    match h : reference? (c :: cs) with
    | some (name, rest) =>
      have := reference?_length h
      let stop := place + ((c :: cs).length - rest.length)
      ⟨place, stop, name⟩ :: occurrences stop rest
    | none => occurrences (place + 1) cs
termination_by cs => cs.length
decreasing_by
  · assumption
  · exact Nat.lt_succ_self _

/-- A piece with a reference written as a variable of the generated code. -/
def Piece.interpolated : Piece → List Char
  | .literal cs => cs
  | .reference name => '$' :: name

/-- A text with every reference written as a variable of the generated code. -/
def interpolate (s : String) : String :=
  String.ofList ((decompose s.toList).flatMap Piece.interpolated)

end CestWriter.Text
