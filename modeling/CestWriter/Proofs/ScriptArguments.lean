import CestWriter.Proofs.WrittenPieces
import CestWriter.Recording.Script
import Mathlib.Data.List.Forall2
import Mathlib.Data.List.Induction

/-!
# Arguments of scripts

The references of a recorded script are lifted into arguments. The names that are passed are those
of the references, in order of first appearance and each once. A script is written in one pass, in
which a name has its place among the names so far or gets the next one. Since names are only
appended, this place is also the one that the name has in the end, so every reference is to the
argument of its name.
-/

namespace CestWriter.Script

open Text (Piece HasReference Bars)

/-- An argument inside a script. -/
def argument (i : Nat) : String :=
  String.join ["arguments[", i.repr, "]"]

/-- What stands for a piece in a script that is passed these names: literal text for itself, and for
a reference the argument at a place where its name stands. -/
inductive Lifts (names : List String) : Piece → String → Prop
  | literal (cs : List Char) : Lifts names (.literal cs) (String.ofList cs)
  | reference {name : List Char} {i : Nat} (h : names[i]? = some (String.ofList name)) :
    Lifts names (.reference name) (argument i)

/-- The name that a piece refers to. -/
def nameOf? : Piece → Option String
  | .literal _ => none
  | .reference name => some (String.ofList name)

/-- The names of all references, in order and with repetitions. -/
def referenced (pieces : List Piece) : List String :=
  pieces.filterMap nameOf?

/-- The place of a name among the names so far, and the names after that. A new name gets the next
place. -/
def place (names : List String) (name : String) : Nat × List String :=
  if name ∈ names then (names.idxOf name, names) else (names.length, names ++ [name])

/-- Writes one piece behind the script so far. -/
def scanPiece (script : Script) : Piece → Script
  | .literal cs => ⟨script.body ++ String.ofList cs, script.names⟩
  | .reference name =>
    ⟨script.body ++ argument (place script.names (String.ofList name)).1,
      (place script.names (String.ofList name)).2⟩

/-- Writes pieces in one pass. -/
def scan (pieces : List Piece) : Script :=
  pieces.foldl scanPiece ⟨"", []⟩

/-! ## Names -/

theorem nodup_addName {names : List String} (h : names.Nodup) (name : String) :
    (addName names name).Nodup := by
  rw [addName]
  split
  · exact h
  · next hnew =>
    rw [List.nodup_append]
    refine ⟨h, List.pairwise_singleton _ name, fun a ha b hb heq => hnew ?_⟩
    rw [List.mem_singleton] at hb
    rwa [← hb, ← heq]

/-- A name keeps its place when another one is added. -/
theorem idxOf_addName {names : List String} {name : String} (h : name ∈ names) (other : String) :
    (addName names other).idxOf name = names.idxOf name := by
  rw [addName]
  split
  · rfl
  · exact List.idxOf_append_of_mem h

/-- The place that a name gets is its place among the names after that. -/
theorem place_eq (names : List String) (name : String) :
    place names name = ((addName names name).idxOf name, addName names name) := by
  by_cases h : name ∈ names
  · rw [place, addName, if_pos h, if_pos h]
  · rw [place, addName, if_neg h, if_neg h, List.idxOf_append, if_neg h, List.idxOf_cons_self,
      Nat.zero_add]

theorem namesOf_concat_literal (pieces : List Piece) (cs : List Char) :
    namesOf (pieces ++ [.literal cs]) = namesOf pieces := by
  rw [namesOf, List.foldl_append]
  rfl

theorem namesOf_concat_reference (pieces : List Piece) (name : List Char) :
    namesOf (pieces ++ [.reference name]) = addName (namesOf pieces) (String.ofList name) := by
  rw [namesOf, List.foldl_append]
  rfl

theorem referenced_concat_literal (pieces : List Piece) (cs : List Char) :
    referenced (pieces ++ [.literal cs]) = referenced pieces := by
  simp [referenced, nameOf?]

theorem referenced_concat_reference (pieces : List Piece) (name : List Char) :
    referenced (pieces ++ [.reference name]) = referenced pieces ++ [String.ofList name] := by
  simp [referenced, nameOf?]

theorem mem_referenced {pieces : List Piece} {name : List Char} :
    String.ofList name ∈ referenced pieces ↔ .reference name ∈ pieces := by
  rw [referenced, List.mem_filterMap]
  constructor
  · rintro ⟨piece, hpiece, hname⟩
    cases piece with
    | literal cs => cases hname
    | reference other =>
      have heq : other = name := String.ofList_injective (Option.some.inj hname)
      rwa [← heq]
  · intro h
    exact ⟨_, h, rfl⟩

/-- The names are those of the references in order of first appearance. -/
theorem namesOf_eq_eraseDups (pieces : List Piece) :
    namesOf pieces = (referenced pieces).eraseDups := by
  induction pieces using List.reverseRecOn with
  | nil => rfl
  | append_singleton pieces piece ih =>
    cases piece with
    | literal cs => rw [namesOf_concat_literal, referenced_concat_literal, ih]
    | reference name =>
      rw [namesOf_concat_reference, referenced_concat_reference, List.eraseDups_append, ih, addName]
      by_cases h : String.ofList name ∈ referenced pieces
      · rw [if_pos (List.mem_eraseDups.mpr h)]
        simp [List.removeAll, h]
      · rw [if_neg (mt List.mem_eraseDups.mp h)]
        simp [List.removeAll, h, List.eraseDups_cons]

theorem nodup_namesOf (pieces : List Piece) : (namesOf pieces).Nodup := by
  induction pieces using List.reverseRecOn with
  | nil => exact List.nodup_nil
  | append_singleton pieces piece ih =>
    cases piece with
    | literal cs => rwa [namesOf_concat_literal]
    | reference name =>
      rw [namesOf_concat_reference]
      exact nodup_addName ih _

theorem mem_namesOf {pieces : List Piece} {name : List Char} :
    String.ofList name ∈ namesOf pieces ↔ .reference name ∈ pieces := by
  rw [namesOf_eq_eraseDups, List.mem_eraseDups, mem_referenced]

/-! ## Arguments -/

theorem toList_argument (i : Nat) :
    (argument i).toList = argumentsName ++ '[' :: (i.repr.toList ++ [']']) := by
  simp [argument, argumentsName]

theorem ofList_writePiece (names : List String) (name : List Char) :
    String.ofList (writePiece names (.reference name)) =
      argument (names.idxOf (String.ofList name)) := by
  apply String.toList_injective
  rw [String.toList_ofList, toList_argument, writePiece, List.append_assoc, List.cons_append]

theorem lifts_writePiece {names : List String} {piece : Piece}
    (h : ∀ name, piece = .reference name → String.ofList name ∈ names) :
    Lifts names piece (String.ofList (writePiece names piece)) := by
  cases piece with
  | literal cs => exact .literal cs
  | reference name =>
    rw [ofList_writePiece]
    exact .reference (List.getElem?_idxOf (h name rfl))

/-- A piece is written alike with one more name. -/
theorem writePiece_addName {names : List String} {piece : Piece}
    (h : ∀ name, piece = .reference name → String.ofList name ∈ names) (other : String) :
    writePiece (addName names other) piece = writePiece names piece := by
  cases piece with
  | literal cs => rfl
  | reference name => rw [writePiece, writePiece, idxOf_addName (h name rfl)]

/-- References around an argument lie before or behind it. -/
theorem bars_argument (i : Nat) : Bars (argument i).toList := by
  intro before after h
  have hsplit : before ++ ((argument i).toList ++ after) =
      (before ++ argumentsName) ++ ('[' :: (i.repr.toList ++ [']']) ++ after) := by
    rw [toList_argument]
    simp
  have hborder : ∀ c ∈ ('[' :: (i.repr.toList ++ [']']) ++ after).head?, Text.IsBorder c := by
    intro c hc
    cases hc
    decide
  have hdigits : '$' ∉ Nat.toDigits 10 i := by
    intro hmem
    exact absurd (Nat.isDigit_of_mem_toDigits (by decide) (by decide) hmem) (by decide)
  rw [hsplit] at h
  rcases h.of_border hborder with hbefore | hbehind
  · exact .inl (hbefore.of_append_right (by decide))
  · refine .inr (hbehind.of_append_left ?_)
    simp [hdigits]

/-! ## The script -/

theorem scan_concat (pieces : List Piece) (piece : Piece) :
    scan (pieces ++ [piece]) = scanPiece (scan pieces) piece := by
  rw [scan, List.foldl_append]
  rfl

/-- The pass knows the same names, and what it has written is right for the names so far. -/
theorem scan_eq (pieces : List Piece) :
    scan pieces =
      ⟨String.ofList (pieces.flatMap (writePiece (namesOf pieces))), namesOf pieces⟩ := by
  induction pieces using List.reverseRecOn with
  | nil => rfl
  | append_singleton pieces piece ih =>
    rw [scan_concat, ih]
    cases piece with
    | literal cs =>
      rw [scanPiece, namesOf_concat_literal, List.flatMap_append, String.ofList_append]
      simp [writePiece]
    | reference name =>
      -- a new name does not move the names of the pieces written before
      have hbefore : pieces.flatMap (writePiece (addName (namesOf pieces) (String.ofList name))) =
          pieces.flatMap (writePiece (namesOf pieces)) := by
        refine List.flatMap_congr fun piece hpiece => writePiece_addName (fun other heq => ?_) _
        exact mem_namesOf.mpr (heq ▸ hpiece)
      rw [scanPiece, place_eq, namesOf_concat_reference, List.flatMap_append, hbefore,
        String.ofList_append, List.flatMap_singleton, ofList_writePiece]

/-- A script is lifted correctly. The trimmed text has a decomposition into literal pieces and
references. The names that are passed are those of the references, each once, in order of first
appearance. The script is made up of the literal pieces and, for every reference, the argument at
the place of its name. It has no reference any more. One pass over the pieces, in which every name
gets its place when it is met first, gives the same script and the same names. -/
theorem ofRecorded_lifts (raw : String) :
    ∃ pieces parts,
      Piece.Canonical pieces ∧ pieces.flatMap Piece.recorded = Text.trim raw.toList ∧
      (ofRecorded raw).names = (referenced pieces).eraseDups ∧
      (ofRecorded raw).names.Nodup ∧
      (∀ name, String.ofList name ∈ (ofRecorded raw).names ↔ .reference name ∈ pieces) ∧
      List.Forall₂ (Lifts (ofRecorded raw).names) pieces parts ∧
      (ofRecorded raw).body = String.join parts ∧
      ¬ HasReference (ofRecorded raw).body.toList ∧
      ofRecorded raw = scan pieces := by
  let pieces := Text.decompose (Text.trim raw.toList)
  let names := namesOf pieces
  have hcanonical : Piece.Canonical pieces := Piece.canonical_decompose _
  refine ⟨pieces, pieces.map fun piece => String.ofList (writePiece names piece), hcanonical,
    Piece.flatMap_recorded_decompose _, namesOf_eq_eraseDups pieces, nodup_namesOf pieces,
    fun name => mem_namesOf, ?_, ?_, ?_, (scan_eq pieces).symm⟩
  · rw [List.forall₂_map_right_iff, List.forall₂_same]
    exact fun piece hpiece => lifts_writePiece fun name heq => mem_namesOf.mpr (heq ▸ hpiece)
  · apply String.toList_injective
    rw [String.toList_join, List.flatMap_map]
    simp [ofRecorded, pieces, names]
  · change ¬ HasReference (String.ofList (pieces.flatMap (writePiece names))).toList
    rw [String.toList_ofList]
    refine Piece.not_hasReference_flatMap (fun _ => rfl) hcanonical fun name hname => ?_
    have hbars := bars_argument (names.idxOf (String.ofList name))
    rwa [← ofList_writePiece, String.toList_ofList] at hbars

-- A name that is referred to again keeps its argument.
example : scan [.literal "return ".toList, .reference ['b'], .literal " + ".toList,
      .reference ['a'], .reference ['b']] =
    ⟨"return arguments[0] + arguments[1]arguments[0]", ["b", "a"]⟩ := by
  decide

end CestWriter.Script
