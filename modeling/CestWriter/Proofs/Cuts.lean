import CestWriter.Text.Cut

/-!
# What cutting a text gives

The parts that a cut gives make up the text again, and a cut is at the first or at the last mark
because one of the parts is free of it. So two texts that are cut alike have the same parts. The
pieces between the marks of two texts in a row are those of the one and then those of the other.
-/

namespace CestWriter.Text

/-! ## At the first or the last mark -/

section Mark

variable {mark : Char}

theorem cutFirst_append {before : List Char} (h : mark ∉ before) (after : List Char) :
    cutFirst mark (before ++ mark :: after) = some (before, after) := by
  induction before with
  | nil => rw [List.nil_append, cutFirst, if_pos rfl]
  | cons c before ih =>
    rw [List.mem_cons, not_or] at h
    rw [List.cons_append, cutFirst, if_neg (Ne.symm h.1), ih h.2]
    rfl

theorem cutFirst_eq_some {cs before after : List Char}
    (h : cutFirst mark cs = some (before, after)) : cs = before ++ mark :: after := by
  induction cs generalizing before with
  | nil => exact nomatch h
  | cons c cs ih =>
    rw [cutFirst] at h
    split at h
    · next hc =>
      cases h
      rw [hc, List.nil_append]
    · obtain ⟨⟨inner, rest⟩, hcut, heq⟩ := Option.map_eq_some_iff.mp h
      cases heq
      rw [ih hcut, List.cons_append]

theorem cutFirst_eq_none_iff {cs : List Char} : cutFirst mark cs = none ↔ mark ∉ cs := by
  induction cs with
  | nil => simp [cutFirst]
  | cons c cs ih =>
    rw [cutFirst, List.mem_cons, not_or]
    by_cases hc : c = mark
    · simp [hc]
    · simp [hc, Ne.symm hc, ih]

theorem cutLast_eq_none {cs : List Char} (h : mark ∉ cs) : cutLast mark cs = none := by
  induction cs with
  | nil => rfl
  | cons c cs ih =>
    rw [List.mem_cons, not_or] at h
    rw [cutLast, ih h.2]
    exact if_neg (Ne.symm h.1)

theorem cutLast_eq_some {cs before after : List Char}
    (h : cutLast mark cs = some (before, after)) : cs = before ++ mark :: after := by
  induction cs generalizing before with
  | nil => exact nomatch h
  | cons c cs ih =>
    rw [cutLast] at h
    split at h
    · next inner rest hcut =>
      cases h
      rw [ih hcut, List.cons_append]
    · split at h
      · next hc =>
        cases h
        rw [hc, List.nil_append]
      · exact nomatch h

theorem cutLast_eq_none_iff {cs : List Char} : cutLast mark cs = none ↔ mark ∉ cs := by
  constructor
  · intro h
    induction cs with
    | nil => exact List.not_mem_nil
    | cons c cs ih =>
      rw [cutLast] at h
      split at h
      · cases h
      · next hcut =>
        split at h
        · cases h
        · next hc => exact List.not_mem_cons_of_ne_of_not_mem (Ne.symm hc) (ih hcut)
  · exact cutLast_eq_none

/-- The cut is at the last mark. -/
theorem not_mem_of_cutLast {cs before after : List Char}
    (h : cutLast mark cs = some (before, after)) : mark ∉ after := by
  induction cs generalizing before with
  | nil => cases h
  | cons c cs ih =>
    rw [cutLast] at h
    split at h
    · next inner rest hcut =>
      cases h
      exact ih hcut
    · next hcut =>
      split at h
      · cases h
        exact cutLast_eq_none_iff.mp hcut
      · cases h

/-- What stands before the first mark is determined. -/
theorem eq_of_append_mark {a b r s : List Char} (ha : mark ∉ a) (hb : mark ∉ b)
    (h : a ++ mark :: r = b ++ mark :: s) : a = b := by
  have hcut := cutFirst_append ha r
  rw [h, cutFirst_append hb s] at hcut
  cases hcut
  rfl

theorem splitFirst_eq_some {s before after : String}
    (h : splitFirst mark s = some (before, after)) :
    s.toList = before.toList ++ mark :: after.toList := by
  obtain ⟨⟨first, second⟩, hcut, heq⟩ := Option.map_eq_some_iff.mp h
  cases heq
  rw [String.toList_ofList, String.toList_ofList]
  exact cutFirst_eq_some hcut

theorem splitFirst_append {before : String} (h : mark ∉ before.toList) (after : String) :
    splitFirst mark (before ++ String.singleton mark ++ after) = some (before, after) := by
  have hchars : (before ++ String.singleton mark ++ after).toList =
      before.toList ++ mark :: after.toList := by simp
  rw [splitFirst, hchars, cutFirst_append h]
  simp only [Option.map_some, String.ofList_toList]

theorem splitLast_eq_some {s before after : String}
    (h : splitLast mark s = some (before, after)) :
    s.toList = before.toList ++ mark :: after.toList := by
  obtain ⟨⟨first, second⟩, hcut, heq⟩ := Option.map_eq_some_iff.mp h
  cases heq
  rw [String.toList_ofList, String.toList_ofList]
  exact cutLast_eq_some hcut

theorem splitFirst_eq_none_iff {s : String} : splitFirst mark s = none ↔ mark ∉ s.toList := by
  rw [splitFirst, Option.map_eq_none_iff, cutFirst_eq_none_iff]

theorem splitLast_eq_none_iff {s : String} : splitLast mark s = none ↔ mark ∉ s.toList := by
  rw [splitLast, Option.map_eq_none_iff, cutLast_eq_none_iff]

theorem not_mem_of_splitLast {s before after : String}
    (h : splitLast mark s = some (before, after)) : mark ∉ after.toList := by
  obtain ⟨⟨first, second⟩, hcut, heq⟩ := Option.map_eq_some_iff.mp h
  cases heq
  rw [String.toList_ofList]
  exact not_mem_of_cutLast hcut

end Mark

/-! ## After a beginning -/

theorem after?_eq_some {start s rest : String} (h : after? start s = some rest) :
    s.toList = start.toList ++ rest.toList := by
  obtain ⟨chars, hrest, rfl⟩ := Option.map_eq_some_iff.mp h
  rw [String.toList_ofList]
  exact rest?_eq_some_iff.mp hrest

theorem after?_eq_some_iff {start s rest : String} :
    after? start s = some rest ↔ s = start ++ rest := by
  constructor
  · intro h
    apply String.toList_injective
    rw [after?_eq_some h, String.toList_append]
  · rintro rfl
    rw [after?, String.toList_append, rest?_eq_some_iff.mpr rfl, Option.map_some,
      String.ofList_toList]

theorem startsWith_iff {start s : String} :
    startsWith start s = true ↔ ∃ rest, s = start ++ rest := by
  have hsome : startsWith start s = (after? start s).isSome := by
    rw [startsWith, after?, Option.isSome_map]
  rw [hsome, Option.isSome_iff_exists]
  exact exists_congr fun rest => after?_eq_some_iff

theorem mem_of_mem_dropLeading {mark : Char} {s : String} {c : Char}
    (h : c ∈ (dropLeading mark s).toList) : c ∈ s.toList := by
  rw [dropLeading, String.toList_ofList] at h
  exact (List.dropWhile_sublist _).subset h

/-! ## At every mark -/

theorem pieces_ne_nil (mark : Char) (cs : List Char) : pieces mark cs ≠ [] := by
  cases cs with
  | nil => exact List.cons_ne_nil _ _
  | cons c cs =>
    rw [pieces]
    split
    · exact List.cons_ne_nil _ _
    · split
      · exact List.cons_ne_nil _ _
      · exact List.cons_ne_nil _ _

theorem pieces_mark_cons (mark : Char) (cs : List Char) :
    pieces mark (mark :: cs) = [] :: pieces mark cs := by
  rw [pieces]
  split
  · next hnil => exact absurd hnil (pieces_ne_nil mark cs)
  · next piece rest hpieces => rw [if_pos rfl, hpieces]

theorem pieces_cons {mark c : Char} (hc : c ≠ mark) {cs piece : List Char}
    {rest : List (List Char)} (h : pieces mark cs = piece :: rest) :
    pieces mark (c :: cs) = (c :: piece) :: rest := by
  rw [pieces, h]
  exact if_neg hc

theorem pieces_append_mark (mark : Char) (cs rest : List Char) :
    pieces mark (cs ++ mark :: rest) = pieces mark cs ++ pieces mark rest := by
  induction cs with
  | nil => rw [List.nil_append, pieces_mark_cons, pieces, List.singleton_append]
  | cons c cs ih =>
    rw [List.cons_append]
    by_cases hc : c = mark
    · subst hc
      rw [pieces_mark_cons, pieces_mark_cons, ih, List.cons_append]
    · obtain ⟨piece, more, hpieces⟩ := List.exists_cons_of_ne_nil (pieces_ne_nil mark cs)
      rw [hpieces, List.cons_append] at ih
      rw [pieces_cons hc ih, pieces_cons hc hpieces, List.cons_append]

/-- Text without the mark goes to the first piece of what follows it. -/
theorem pieces_append_of_not_mem {mark : Char} {cs rest piece : List Char}
    {more : List (List Char)} (hcs : mark ∉ cs) (h : pieces mark rest = piece :: more) :
    pieces mark (cs ++ rest) = (cs ++ piece) :: more := by
  induction cs with
  | nil => exact h
  | cons c cs ih =>
    rw [List.mem_cons, not_or] at hcs
    exact pieces_cons (Ne.symm hcs.1) (ih hcs.2)

theorem pieces_of_not_mem {mark : Char} {cs : List Char} (h : mark ∉ cs) :
    pieces mark cs = [cs] := by
  have hpieces : pieces mark (cs ++ []) = [cs ++ []] := pieces_append_of_not_mem h rfl
  rwa [List.append_nil] at hpieces

theorem pieces_intercalate (mark : Char) {parts : List (List Char)} (h : parts ≠ []) :
    pieces mark ([mark].intercalate parts) = parts.flatMap (pieces mark) := by
  induction parts with
  | nil => exact absurd rfl h
  | cons part parts ih =>
    cases parts with
    | nil => simp
    | cons next parts =>
      rw [List.flatMap_cons, ← ih (List.cons_ne_nil _ _), List.intercalate_cons_cons,
        List.append_assoc, List.singleton_append, pieces_append_mark]

/-- A text with a mark in it has a second piece. -/
theorem pieces_of_mem {mark : Char} {cs : List Char} (h : mark ∈ cs) :
    ∃ first second rest, pieces mark cs = first :: second :: rest := by
  obtain ⟨before, after, rfl⟩ := List.append_of_mem h
  obtain ⟨first, more, hbefore⟩ := List.exists_cons_of_ne_nil (pieces_ne_nil mark before)
  obtain ⟨next, rest, hafter⟩ := List.exists_cons_of_ne_nil (pieces_ne_nil mark after)
  rw [pieces_append_mark, hbefore, hafter]
  cases more with
  | nil => exact ⟨first, next, rest, rfl⟩
  | cons second more => exact ⟨first, second, more ++ next :: rest, rfl⟩

/-- The pieces between the marks make up the text again. -/
theorem intercalate_pieces (mark : Char) (cs : List Char) :
    [mark].intercalate (pieces mark cs) = cs := by
  induction cs with
  | nil => rfl
  | cons c cs ih =>
    obtain ⟨piece, rest, hpieces⟩ := List.exists_cons_of_ne_nil (pieces_ne_nil mark cs)
    by_cases hc : c = mark
    · subst hc
      rw [pieces_mark_cons, hpieces, List.intercalate_cons_cons, ← hpieces, ih]
      rfl
    · rw [pieces_cons hc hpieces]
      rw [hpieces] at ih
      cases rest with
      | nil =>
        rw [List.intercalate_singleton] at ih ⊢
        rw [ih]
      | cons next rest =>
        rw [List.intercalate_cons_cons] at ih ⊢
        rw [← ih]
        rfl

theorem not_mem_intercalate {c : Char} {separator : String} {parts : List String}
    (hseparator : c ∉ separator.toList) (hparts : ∀ part ∈ parts, c ∉ part.toList) :
    c ∉ (separator.intercalate parts).toList := by
  induction parts with
  | nil => simp
  | cons part parts ih =>
    rw [List.forall_mem_cons] at hparts
    cases parts with
    | nil =>
      rw [String.intercalate_singleton]
      exact hparts.1
    | cons next parts =>
      rw [String.intercalate_cons_cons, String.toList_append, String.toList_append]
      simp only [List.mem_append, not_or]
      exact ⟨⟨hparts.1, hseparator⟩, ih hparts.2⟩

end CestWriter.Text
