import CestWriter.Proofs.References

/-!
# Texts without references

The pieces of a text are written one after the other, literal text as it is and references in
another way. What is written holds no reference if what stands for a reference is a bar, that is, if
references around it lie before or behind it as a whole: the literal pieces hold none, and none
arises where pieces meet. A text without references is its own only piece, so it is written as it
is.
-/

namespace CestWriter.Text

theorem HasReference.append_left {cs : List Char} (h : HasReference cs) (before : List Char) :
    HasReference (before ++ cs) := by
  obtain ⟨start, name, after, rfl, hname⟩ := h
  exact ⟨before ++ start, name, after, (List.append_assoc before start _).symm, hname⟩

/-- A reference begins with a dollar sign. -/
theorem HasReference.of_append_left {cs rest : List Char} (h : HasReference (cs ++ rest))
    (hcs : '$' ∉ cs) : HasReference rest := by
  induction cs with
  | nil => exact h
  | cons c cs ih =>
    rw [List.mem_cons, not_or] at hcs
    rcases hasReference_cons.mp h with hfound | hrest
    · exact absurd (Piece.reference?_eq_none_of_ne (Ne.symm hcs.1) (cs ++ rest)) hfound
    · exact ih hrest hcs.2

/-- A reference ends with a brace. -/
theorem HasReference.of_append_right {cs rest : List Char} (h : HasReference (cs ++ rest))
    (hrest : '\x7d' ∉ rest) : HasReference cs := by
  obtain ⟨before, name, after, heq, hname⟩ := h
  have hsplit : cs ++ rest = (before ++ '$' :: '\x7b' :: name) ++ '\x7d' :: after := by
    simpa using heq
  rcases List.append_eq_append_iff.mp hsplit with ⟨gap, -, hgap⟩ | ⟨gap, hcs, hgap⟩
  · exact absurd (hgap ▸ List.mem_append_right gap List.mem_cons_self) hrest
  · cases gap with
    | nil =>
      rw [List.nil_append] at hgap
      exact absurd (hgap ▸ List.mem_cons_self) hrest
    | cons brace gap =>
      obtain ⟨rfl, -⟩ := List.cons.inj hgap
      exact ⟨before, name, gap, by simpa using hcs, hname⟩

/-- At a border a text falls into two parts, and every reference lies in one of them. -/
theorem HasReference.of_border {cs rest : List Char} (h : HasReference (cs ++ rest))
    (hrest : ∀ c ∈ rest.head?, IsBorder c) : HasReference cs ∨ HasReference rest := by
  induction cs with
  | nil => exact .inr h
  | cons c cs ih =>
    rcases hasReference_cons.mp h with hfound | hbehind
    · refine .inl (hasReference_cons.mpr (.inl fun hnone => hfound ?_))
      exact reference?_append_of_isBorder (List.cons_ne_nil c cs) hnone hrest
    · rcases ih hbehind with hcs | hother
      · exact .inl (hasReference_cons.mpr (.inr hcs))
      · exact .inr hother

/-- References around these characters lie before or behind them as a whole. -/
def Bars (cs : List Char) : Prop :=
  ∀ before after, HasReference (before ++ (cs ++ after)) → HasReference before ∨ HasReference after

namespace Piece

variable {f : Piece → List Char} (hf : ∀ cs, f (.literal cs) = cs)

include hf

/-- Pieces with a bar for every reference are written without references. -/
theorem not_hasReference_flatMap {pieces : List Piece} (hcanonical : Canonical pieces)
    (hbars : ∀ name, .reference name ∈ pieces → Bars (f (.reference name))) :
    ¬ HasReference (pieces.flatMap f) := by
  have hnormal := normal_of_canonical hcanonical
  have hproper := hcanonical.proper
  clear hcanonical
  induction pieces with
  | nil => exact not_hasReference_nil
  | cons piece rest ih =>
    have hrest : Normal rest → ¬ HasReference (rest.flatMap f) := fun h =>
      ih (fun name hname => hbars name (List.mem_cons_of_mem _ hname)) h
        (fun p hp => hproper p (List.mem_cons_of_mem _ hp))
    intro hhas
    rw [List.flatMap_cons] at hhas
    cases piece with
    | reference name =>
      rcases hbars name List.mem_cons_self [] _ hhas with hnil | hbehind
      · exact not_hasReference_nil hnil
      · exact hrest hnormal hbehind
    | literal cs =>
      obtain ⟨-, hbegins, hnormal'⟩ := hnormal
      have hcs : ¬ HasReference cs := (hproper _ List.mem_cons_self).2
      rw [hf] at hhas
      -- what follows literal text is nothing or a bar
      cases rest with
      | nil =>
        rw [List.flatMap_nil, List.append_nil] at hhas
        exact hcs hhas
      | cons next rest =>
        cases next with
        | literal ds => cases hbegins
        | reference name =>
          have hbar := hbars name (List.mem_cons_of_mem _ List.mem_cons_self)
          rw [List.flatMap_cons] at hhas
          rcases hbar cs _ hhas with hbefore | hbehind
          · exact hcs hbefore
          · exact hrest hnormal' (hbehind.append_left _)

theorem flatMap_foldr_push (cs : List Char) (pieces : List Piece) :
    (cs.foldr push pieces).flatMap f = cs ++ pieces.flatMap f := by
  induction cs with
  | nil => rfl
  | cons c cs ih => rw [List.foldr_cons, flatMap_push f hf, ih, List.cons_append]

/-- A text without references is written as it is. -/
theorem flatMap_decompose_of_not_hasReference {cs : List Char} (h : ¬ HasReference cs) :
    (decompose cs).flatMap f = cs := by
  have hwhole : decompose (cs ++ []) = cs.foldr push (decompose []) :=
    decompose_literal_append h (by simp [BeginsReference])
  rw [List.append_nil, decompose] at hwhole
  rw [hwhole, flatMap_foldr_push hf, List.flatMap_nil, List.append_nil]

end Piece

end CestWriter.Text
