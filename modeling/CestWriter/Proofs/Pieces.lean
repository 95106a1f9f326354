import CestWriter.Text.Reference

/-!
# Decompositions in normal form

In a decomposition of a text the literal pieces are as long as possible: none is empty and no two of
them are adjacent. Literal characters are put in front of a decomposition one at a time, and the
result is again of this form. The pieces make up the text again. A character that can be no part of
a reference divides a text into parts that are decomposed on their own.
-/

namespace CestWriter.Text.Piece

/-- Whether the first piece is literal text. -/
def beginsLiteral : List Piece → Bool
  | .literal _ :: _ => true
  | _ => false

/-- Literal pieces are not empty and no two of them are adjacent. -/
def Normal : List Piece → Prop
  | [] => True
  | .literal cs :: rest => cs ≠ [] ∧ beginsLiteral rest = false ∧ Normal rest
  | .reference _ :: rest => Normal rest

theorem exists_literal_of_beginsLiteral {pieces : List Piece} (h : beginsLiteral pieces = true) :
    ∃ cs rest, pieces = .literal cs :: rest := by
  cases pieces with
  | nil => cases h
  | cons piece rest =>
    cases piece with
    | literal cs => exact ⟨cs, rest, rfl⟩
    | reference name => cases h

theorem push_of_beginsLiteral_eq_false {pieces : List Piece} (h : beginsLiteral pieces = false)
    (c : Char) : push c pieces = .literal [c] :: pieces := by
  cases pieces with
  | nil => rfl
  | cons piece rest =>
    cases piece with
    | literal cs => exact nomatch h
    | reference name => rfl

theorem normal_push {pieces : List Piece} (h : Normal pieces) (c : Char) :
    Normal (push c pieces) := by
  by_cases hb : beginsLiteral pieces = true
  · obtain ⟨cs, rest, rfl⟩ := exists_literal_of_beginsLiteral hb
    exact ⟨List.cons_ne_nil _ _, h.2⟩
  · rw [Bool.not_eq_true] at hb
    rw [push_of_beginsLiteral_eq_false hb]
    exact ⟨List.cons_ne_nil _ _, hb, h⟩

theorem foldr_push_literal (cs ds : List Char) (rest : List Piece) :
    cs.foldr push (.literal ds :: rest) = .literal (cs ++ ds) :: rest := by
  induction cs with
  | nil => rfl
  | cons c cs ih => rw [List.foldr_cons, ih]; rfl

/-- Characters put in front of a decomposition that does not begin with literal text are a literal
piece of their own. -/
theorem foldr_push {cs : List Char} {pieces : List Piece} (hcs : cs ≠ [])
    (h : beginsLiteral pieces = false) : cs.foldr push pieces = .literal cs :: pieces := by
  obtain ⟨before, c, rfl⟩ := List.eq_nil_or_concat cs |>.resolve_left hcs
  rw [List.concat_eq_append, List.foldr_append, List.foldr_cons, List.foldr_nil,
    push_of_beginsLiteral_eq_false h, foldr_push_literal]

/-- The decomposition of every text is in normal form. -/
theorem normal_decompose (cs : List Char) : Normal (decompose cs) := by
  fun_induction decompose cs with
  | case1 => trivial
  | case2 c cs name rest h hlength ih => exact ih
  | case3 c cs h ih => exact normal_push ih c

theorem decompose_of_reference {cs name rest : List Char} (h : reference? cs = some (name, rest)) :
    decompose cs = .reference name :: decompose rest := by
  fun_cases decompose cs with
  | case1 => exact nomatch h
  | case2 c cs name' rest' h' hlength =>
    rw [h] at h'
    cases h'
    rfl
  | case3 c cs h' =>
    rw [h] at h'
    exact nomatch h'

theorem decompose_cons_of_none {c : Char} {cs : List Char} (h : reference? (c :: cs) = none) :
    decompose (c :: cs) = push c (decompose cs) := by
  generalize hall : c :: cs = all at h ⊢
  fun_cases decompose all with
  | case1 => exact nomatch hall
  | case2 c' cs' name rest h' hlength =>
    rw [h] at h'
    exact nomatch h'
  | case3 c' cs' h' =>
    cases hall
    rfl

theorem reference?_eq_none_of_ne {c : Char} (h : c ≠ '$') (cs : List Char) :
    reference? (c :: cs) = none := by
  unfold reference?
  split
  · next heq => exact absurd (List.cons.inj heq).1 h
  · rfl

/-- Characters before the first dollar sign are literal text. -/
theorem decompose_append_of_not_mem {cs : List Char} (h : '$' ∉ cs) (rest : List Char) :
    decompose (cs ++ rest) = cs.foldr push (decompose rest) := by
  induction cs with
  | nil => rfl
  | cons c cs ih =>
    rw [List.mem_cons, not_or] at h
    have hnone := reference?_eq_none_of_ne (Ne.symm h.1) (cs ++ rest)
    rw [List.cons_append, decompose_cons_of_none hnone, List.foldr_cons, ih h.2]

theorem decompose_of_not_mem {cs : List Char} (h : '$' ∉ cs) (hcs : cs ≠ []) :
    decompose cs = [.literal cs] := by
  have hpushed := decompose_append_of_not_mem h []
  rw [List.append_nil, decompose, foldr_push hcs rfl] at hpushed
  exact hpushed

end CestWriter.Text.Piece

namespace CestWriter.Text

/-! ## References and what stands between them -/

theorem occurrences_of_reference {cs name rest : List Char}
    (h : reference? cs = some (name, rest)) (place : Nat) :
    occurrences place cs =
      ⟨place, place + (cs.length - rest.length), name⟩ ::
        occurrences (place + (cs.length - rest.length)) rest := by
  fun_cases occurrences place cs with
  | case1 => cases h
  | case2 c cs name' rest' h' hlength stop =>
    rw [h] at h'
    cases h'
    rfl
  | case3 c cs h' =>
    rw [h] at h'
    cases h'

theorem occurrences_cons_of_none {c : Char} {cs : List Char} (h : reference? (c :: cs) = none)
    (place : Nat) : occurrences place (c :: cs) = occurrences (place + 1) cs := by
  rw [occurrences]
  split
  · next hfound =>
    rw [h] at hfound
    cases hfound
  · rfl

/-- A reference at the beginning of a text is a dollar sign and a word in braces. -/
theorem reference?_eq_some_iff {cs name rest : List Char} :
    reference? cs = some (name, rest) ↔
      cs = '$' :: '\x7b' :: (name ++ '\x7d' :: rest) ∧ name ≠ [] ∧
        ∀ c ∈ name, isWord c = true := by
  constructor
  · intro h
    unfold reference? at h
    split at h
    · next cs =>
      split at h
      · next c word rest' hword hrest =>
        cases h
        refine ⟨?_, List.cons_ne_nil _ _, fun d hd => ?_⟩
        · rw [← hword, ← hrest, List.takeWhile_append_dropWhile]
        · rw [← hword] at hd
          exact List.all_eq_true.mp List.all_takeWhile d hd
      · exact nomatch h
    · exact nomatch h
  · rintro ⟨rfl, hne, hword⟩
    have hstop : isWord '\x7d' = false := by decide
    have htake : (name ++ '\x7d' :: rest).takeWhile isWord = name := by
      rw [List.takeWhile_append_of_pos hword, List.takeWhile_cons_of_neg (by simp [hstop]),
        List.append_nil]
    have hdrop : (name ++ '\x7d' :: rest).dropWhile isWord = '\x7d' :: rest := by
      rw [List.dropWhile_append_of_pos hword, List.dropWhile_cons_of_neg (by simp [hstop])]
    obtain ⟨c, word, rfl⟩ := List.exists_cons_of_ne_nil hne
    simp only [reference?, htake, hdrop]

/-- A reference at the beginning of a text is there whatever follows the text. -/
theorem reference?_append {cs name rest : List Char} (h : reference? cs = some (name, rest))
    (more : List Char) : reference? (cs ++ more) = some (name, rest ++ more) := by
  obtain ⟨rfl, hne, hword⟩ := reference?_eq_some_iff.mp h
  refine reference?_eq_some_iff.mpr ⟨?_, hne, hword⟩
  simp

/-- A character that no reference has behind its dollar sign. Where it stands, a reference may
begin and none goes on. -/
def IsBorder (c : Char) : Prop :=
  isWord c = false ∧ c ≠ '\x7b' ∧ c ≠ '\x7d'

instance (c : Char) : Decidable (IsBorder c) :=
  inferInstanceAs (Decidable (_ ∧ _))

theorem IsBorder.not_mem {c : Char} (h : IsBorder c) {name : List Char}
    (hname : ∀ d ∈ name, isWord d = true) : c ∉ '\x7b' :: (name ++ ['\x7d']) := by
  simp only [List.mem_cons, List.mem_append, List.not_mem_nil, or_false, not_or]
  refine ⟨h.2.1, fun hletter => ?_, h.2.2⟩
  have hword := hname c hletter
  rw [h.1] at hword
  cases hword

/-- No reference reaches over a border. -/
theorem reference?_append_of_isBorder {cs rest : List Char} (hne : cs ≠ [])
    (hnone : reference? cs = none) (hrest : ∀ c ∈ rest.head?, IsBorder c) :
    reference? (cs ++ rest) = none := by
  cases hfound : reference? (cs ++ rest) with
  | none => rfl
  | some found =>
    exfalso
    obtain ⟨name, after⟩ := found
    obtain ⟨heq, hname⟩ := reference?_eq_some_iff.mp hfound
    have hinside : ∀ more, cs = ('$' :: '\x7b' :: (name ++ ['\x7d'])) ++ more → False := by
      intro more hcs
      have hsome : reference? cs = some (name, more) :=
        reference?_eq_some_iff.mpr ⟨by simpa using hcs, hname⟩
      rw [hnone] at hsome
      cases hsome
    have hsplit : cs ++ rest = ('$' :: '\x7b' :: (name ++ ['\x7d'])) ++ after := by simpa using heq
    rcases List.append_eq_append_iff.mp hsplit with ⟨gap, hwhole, hgap⟩ | ⟨more, hcs, -⟩
    · cases gap with
      | nil => exact hinside [] (by simpa using hwhole.symm)
      | cons d gap =>
        -- the border would stand inside the reference
        obtain ⟨c, tail, rfl⟩ := List.exists_cons_of_ne_nil hne
        refine (hrest d (by simp [hgap])).not_mem hname.2 ?_
        rw [(List.cons.inj hwhole).2]
        exact List.mem_append_right tail List.mem_cons_self
    · exact hinside more hcs

namespace Piece

/-- A piece as it was recorded. -/
def recorded : Piece → List Char
  | .literal cs => cs
  | .reference name => '$' :: '\x7b' :: (name ++ ['\x7d'])

theorem flatMap_push (f : Piece → List Char) (hf : ∀ cs, f (.literal cs) = cs) (c : Char)
    (pieces : List Piece) : (push c pieces).flatMap f = c :: pieces.flatMap f := by
  cases pieces with
  | nil => simp [push, hf]
  | cons piece rest =>
    cases piece with
    | literal cs => simp [push, hf]
    | reference name => simp [push, hf]

/-- The pieces of a text make up the text again. -/
theorem flatMap_recorded_decompose (cs : List Char) :
    (decompose cs).flatMap recorded = cs := by
  fun_induction decompose cs with
  | case1 => rfl
  | case2 c cs name rest h hlength ih =>
    rw [List.flatMap_cons, ih, (reference?_eq_some_iff.mp h).1]
    simp [recorded]
  | case3 c cs h ih => rw [flatMap_push recorded (fun _ => rfl), ih]

theorem reference_mem_push {name : List Char} {c : Char} {pieces : List Piece}
    (h : .reference name ∈ push c pieces) : .reference name ∈ pieces := by
  cases pieces with
  | nil => simp [push] at h
  | cons piece rest =>
    cases piece with
    | literal cs => simpa [push] using h
    | reference other => simpa [push] using h

/-- References are to words. -/
theorem isWord_of_reference_mem {cs name : List Char} (h : .reference name ∈ decompose cs) :
    ∀ c ∈ name, isWord c = true := by
  fun_induction decompose cs with
  | case1 => exact nomatch h
  | case2 c cs other rest hother hlength ih =>
    rcases List.mem_cons.mp h with heq | hrest
    · cases heq
      exact (reference?_eq_some_iff.mp hother).2.2
    · exact ih hrest
  | case3 c cs hnone ih => exact ih (reference_mem_push h)

end Piece

/-- A character that is no part of any reference. -/
def IsSeparator (c : Char) : Prop :=
  isWord c = false ∧ c ≠ '$' ∧ c ≠ '\x7b' ∧ c ≠ '\x7d'

instance (c : Char) : Decidable (IsSeparator c) :=
  inferInstanceAs (Decidable (_ ∧ _))

theorem IsSeparator.isBorder {c : Char} (h : IsSeparator c) : IsBorder c :=
  ⟨h.1, h.2.2⟩

/-- A separator divides a text into two parts that are decomposed on their own, for every way to
write pieces that leaves literal characters as they are. -/
theorem flatMap_decompose_append {mark : Char} (hmark : IsSeparator mark) {f : Piece → List Char}
    (hf : ∀ cs, f (.literal cs) = cs) (before after : List Char) :
    (decompose (before ++ mark :: after)).flatMap f =
      (decompose before).flatMap f ++ mark :: (decompose after).flatMap f := by
  fun_induction decompose before with
  | case1 =>
    have hnone := Piece.reference?_eq_none_of_ne hmark.2.1 after
    rw [List.nil_append, Piece.decompose_cons_of_none hnone, Piece.flatMap_push f hf]
    rfl
  | case2 c cs name rest h hlength ih =>
    rw [Piece.decompose_of_reference (reference?_append h (mark :: after)), List.flatMap_cons,
      List.flatMap_cons, ih, List.append_assoc]
  | case3 c cs h ih =>
    have hnone : reference? (c :: cs ++ mark :: after) = none := by
      refine reference?_append_of_isBorder (List.cons_ne_nil c cs) h fun d hd => ?_
      cases hd
      exact hmark.isBorder
    rw [List.cons_append] at hnone ⊢
    rw [Piece.decompose_cons_of_none hnone, Piece.flatMap_push f hf,
      Piece.flatMap_push f hf, ih]
    rfl

end CestWriter.Text
