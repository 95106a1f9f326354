import CestWriter.Proofs.Pieces
import Mathlib.Data.List.Chain

/-!
# Canonical decompositions

The decomposition of a text is the only list of pieces that makes up the text again and is
canonical: literal pieces are not empty, not adjacent and hold no reference, and references are to
words. That no other list does rests on the border between two pieces: what follows literal text
begins with a dollar sign, and inside a reference there is none, so no reference reaches over the
border.
-/

namespace CestWriter.Text

/-- Somewhere in the text there is a reference. -/
def HasReference (cs : List Char) : Prop :=
  ∃ before name after, cs = before ++ '$' :: '\x7b' :: (name ++ '\x7d' :: after) ∧ name ≠ [] ∧
    ∀ c ∈ name, isWord c = true

theorem not_hasReference_nil : ¬ HasReference [] := by
  rintro ⟨before, name, after, heq, -⟩
  simp at heq

/-- A reference stands at the beginning of a text or after its first character. -/
theorem hasReference_cons {c : Char} {cs : List Char} :
    HasReference (c :: cs) ↔ reference? (c :: cs) ≠ none ∨ HasReference cs := by
  constructor
  · rintro ⟨before, name, after, heq, hne, hword⟩
    cases before with
    | nil =>
      have hfound := reference?_eq_some_iff.mpr ⟨heq, hne, hword⟩
      exact .inl (by simp [hfound])
    | cons b before => exact .inr ⟨before, name, after, (List.cons.inj heq).2, hne, hword⟩
  · rintro (hfound | ⟨before, name, after, rfl, hne, hword⟩)
    · obtain ⟨⟨name, after⟩, hsome⟩ := Option.ne_none_iff_exists'.mp hfound
      obtain ⟨heq, hne, hword⟩ := reference?_eq_some_iff.mp hsome
      exact ⟨[], name, after, heq, hne, hword⟩
    · exact ⟨c :: before, name, after, rfl, hne, hword⟩

instance decidableHasReference : (cs : List Char) → Decidable (HasReference cs)
  | [] => isFalse not_hasReference_nil
  | c :: cs =>
    have := decidableHasReference cs
    decidable_of_iff (reference? (c :: cs) ≠ none ∨ HasReference cs) hasReference_cons.symm

/-- What may follow literal text: nothing, or what begins with a dollar sign. -/
def BeginsReference (cs : List Char) : Prop :=
  ∀ c ∈ cs.head?, c = '$'

/-- No reference reaches over the border behind literal text. -/
theorem reference?_eq_none_of_border {cs rest : List Char} (hne : cs ≠ [])
    (hnone : reference? cs = none) (hrest : BeginsReference rest) :
    reference? (cs ++ rest) = none := by
  refine reference?_append_of_isBorder hne hnone fun c hc => ?_
  rw [hrest c hc]
  decide

namespace Piece

/-- Whether a piece is literal text. -/
def isLiteral : Piece → Bool
  | .literal _ => true
  | .reference _ => false

/-- A literal piece holds characters and no reference; a reference is to a word. -/
def IsProper : Piece → Prop
  | .literal cs => cs ≠ [] ∧ ¬ HasReference cs
  | .reference name => name ≠ [] ∧ ∀ c ∈ name, isWord c = true

/-- A decomposition as it is made of a text. -/
structure Canonical (pieces : List Piece) : Prop where
  proper : ∀ piece ∈ pieces, piece.IsProper
  apart : pieces.IsChain fun piece next => ¬ (piece.isLiteral = true ∧ next.isLiteral = true)

theorem beginsLiteral_eq_false_iff {pieces : List Piece} :
    beginsLiteral pieces = false ↔ ∀ piece ∈ pieces.head?, piece.isLiteral = false := by
  cases pieces with
  | nil => simp [beginsLiteral]
  | cons piece rest => cases piece <;> simp [beginsLiteral, isLiteral]

theorem apart_of_normal {pieces : List Piece} (h : Normal pieces) :
    pieces.IsChain fun piece next => ¬ (piece.isLiteral = true ∧ next.isLiteral = true) := by
  induction pieces with
  | nil => exact List.isChain_nil
  | cons piece rest ih =>
    rw [List.isChain_cons]
    cases piece with
    | literal cs =>
      obtain ⟨-, hbegins, hrest⟩ := h
      refine ⟨fun next hnext => ?_, ih hrest⟩
      simp [beginsLiteral_eq_false_iff.mp hbegins next hnext]
    | reference name => exact ⟨fun next _ => by simp [isLiteral], ih h⟩

theorem normal_of_canonical {pieces : List Piece} (h : Canonical pieces) : Normal pieces := by
  obtain ⟨hproper, hapart⟩ := h
  induction pieces with
  | nil => trivial
  | cons piece rest ih =>
    rw [List.isChain_cons] at hapart
    have hrest : Normal rest := ih (fun p hp => hproper p (List.mem_cons_of_mem _ hp)) hapart.2
    cases piece with
    | literal cs =>
      have hcs : cs ≠ [] := (hproper _ List.mem_cons_self).1
      refine ⟨hcs, beginsLiteral_eq_false_iff.mpr fun next hnext => ?_, hrest⟩
      have hnot := hapart.1 next hnext
      simpa [isLiteral] using hnot
    | reference name => exact hrest

/-! ## The decomposition of a text is canonical -/

/-- A literal character in front of a decomposition keeps its literal pieces free of references. -/
theorem isProper_push {c : Char} {pieces : List Piece} (h : ∀ piece ∈ pieces, piece.IsProper)
    (hnone : reference? (c :: pieces.flatMap recorded) = none) :
    ∀ piece ∈ push c pieces, piece.IsProper := by
  -- a reference in the literal characters would be one of the whole text
  have hclear : ∀ cs rest, pieces.flatMap recorded = cs ++ rest → ¬ HasReference cs →
      ¬ HasReference (c :: cs) := by
    intro cs rest hsplit hcs hhas
    rcases hasReference_cons.mp hhas with hfound | hinner
    · obtain ⟨⟨name, after⟩, hsome⟩ := Option.ne_none_iff_exists'.mp hfound
      have hwhole := reference?_append hsome rest
      rw [List.cons_append, ← hsplit, hnone] at hwhole
      cases hwhole
    · exact hcs hinner
  cases hb : beginsLiteral pieces with
  | false =>
    rw [push_of_beginsLiteral_eq_false hb]
    intro piece hpiece
    rcases List.mem_cons.mp hpiece with rfl | hrest
    · exact ⟨List.cons_ne_nil c [], hclear [] _ rfl not_hasReference_nil⟩
    · exact h piece hrest
  | true =>
    obtain ⟨cs, rest, rfl⟩ := exists_literal_of_beginsLiteral hb
    intro piece hpiece
    have hfirst : (Piece.literal cs).IsProper := h _ List.mem_cons_self
    rcases List.mem_cons.mp hpiece with rfl | hrest
    · exact ⟨List.cons_ne_nil c cs, hclear cs _ rfl hfirst.2⟩
    · exact h piece (List.mem_cons_of_mem _ hrest)

theorem isProper_of_mem_decompose (cs : List Char) :
    ∀ piece ∈ decompose cs, piece.IsProper := by
  fun_induction decompose cs with
  | case1 => simp
  | case2 c cs name rest h hlength ih =>
    intro piece hpiece
    rcases List.mem_cons.mp hpiece with rfl | hrest
    · exact (reference?_eq_some_iff.mp h).2
    · exact ih piece hrest
  | case3 c cs h ih =>
    refine isProper_push ih ?_
    rw [flatMap_recorded_decompose]
    exact h

theorem canonical_decompose (cs : List Char) : Canonical (decompose cs) :=
  ⟨isProper_of_mem_decompose cs, apart_of_normal (normal_decompose cs)⟩

/-! ## A canonical list of pieces is the decomposition of its text -/

theorem beginsReference_of_beginsLiteral_eq_false {pieces : List Piece}
    (h : beginsLiteral pieces = false) : BeginsReference (pieces.flatMap recorded) := by
  cases pieces with
  | nil => simp [BeginsReference]
  | cons piece rest =>
    cases piece with
    | literal cs => cases h
    | reference name => simp [BeginsReference, recorded]

/-- Literal text without references is taken as it is up to the border behind it. -/
theorem decompose_literal_append {cs rest : List Char} (hcs : ¬ HasReference cs)
    (hrest : BeginsReference rest) :
    decompose (cs ++ rest) = cs.foldr push (decompose rest) := by
  induction cs with
  | nil => rfl
  | cons c cs ih =>
    rw [hasReference_cons, not_or, not_not] at hcs
    have hnone := reference?_eq_none_of_border (List.cons_ne_nil c cs) hcs.1 hrest
    rw [List.cons_append] at hnone ⊢
    rw [decompose_cons_of_none hnone, ih hcs.2, List.foldr_cons]

/-- Pieces in canonical form are found again in the text that they make up. -/
theorem decompose_flatMap_recorded {pieces : List Piece} (hnormal : Normal pieces)
    (hproper : ∀ piece ∈ pieces, piece.IsProper) :
    decompose (pieces.flatMap recorded) = pieces := by
  induction pieces with
  | nil => rw [List.flatMap_nil, decompose]
  | cons piece rest ih =>
    have hpiece := hproper piece List.mem_cons_self
    have hrest : ∀ p ∈ rest, p.IsProper := fun p hp => hproper p (List.mem_cons_of_mem _ hp)
    rw [List.flatMap_cons]
    cases piece with
    | literal cs =>
      obtain ⟨hne, hbegins, hnormal'⟩ := hnormal
      rw [recorded, decompose_literal_append hpiece.2
        (beginsReference_of_beginsLiteral_eq_false hbegins), ih hnormal' hrest,
        foldr_push hne hbegins]
    | reference name =>
      have hfound : reference? (recorded (.reference name) ++ rest.flatMap recorded) =
          some (name, rest.flatMap recorded) :=
        reference?_eq_some_iff.mpr ⟨by simp [recorded], hpiece⟩
      rw [decompose_of_reference hfound, ih hnormal hrest]

/-- The decomposition of a text is the only canonical list of pieces that makes it up. -/
theorem decompose_eq_iff {cs : List Char} {pieces : List Piece} :
    decompose cs = pieces ↔ pieces.flatMap recorded = cs ∧ Canonical pieces := by
  constructor
  · rintro rfl
    exact ⟨flatMap_recorded_decompose cs, canonical_decompose cs⟩
  · rintro ⟨rfl, hcanonical⟩
    exact decompose_flatMap_recorded (normal_of_canonical hcanonical) hcanonical.proper

end Piece

end CestWriter.Text
