import CestWriter.Text.Identifier

/-!
# Names of methods are identifiers

The words of a recorded name are made of ASCII letters and digits, and changing the case of a
letter keeps it a letter. With a fixed text in front where this is needed, a name therefore begins
with a letter, whatever was recorded.
-/

namespace CestWriter.Identifier

/-! ## Characters -/

theorem isUpper_iff {c : Char} : c.isUpper = true ↔ 'A'.val ≤ c.val ∧ c.val ≤ 'Z'.val :=
  decide_eq_true_iff

theorem isLower_iff {c : Char} : c.isLower = true ↔ 'a'.val ≤ c.val ∧ c.val ≤ 'z'.val := by
  change (decide ('a'.val ≤ c.val) && decide (c.val ≤ 'z'.val)) = true ↔ _
  rw [Bool.and_eq_true, decide_eq_true_iff, decide_eq_true_iff]

theorem isAlpha_iff {c : Char} : c.isAlpha = true ↔ c.isUpper = true ∨ c.isLower = true := by
  change (c.isUpper || c.isLower) = true ↔ _
  rw [Bool.or_eq_true]

theorem isAlphanum_of_isAlpha {c : Char} (h : c.isAlpha = true) : c.isAlphanum = true := by
  rw [Char.isAlphanum, h, Bool.true_or]

/-- A character is its own upper case, or gets a capital letter. -/
theorem toUpper_eq_or_isUpper (c : Char) : c.toUpper = c ∨ c.toUpper.isUpper = true := by
  unfold Char.toUpper
  split
  · right
    rw [isUpper_iff]
    grind
  · exact .inl rfl

/-- A character is its own lower case, or gets a small letter. -/
theorem toLower_eq_or_isLower (c : Char) : c.toLower = c ∨ c.toLower.isLower = true := by
  unfold Char.toLower
  split
  · right
    rw [isLower_iff]
    grind
  · exact .inl rfl

theorem isAlpha_toLower {c : Char} (h : c.isAlpha = true) : c.toLower.isAlpha = true := by
  rcases toLower_eq_or_isLower c with hsame | hlower
  · rw [hsame]
    exact h
  · exact isAlpha_iff.mpr (.inr hlower)

theorem isAlphanum_toUpper {c : Char} (h : c.isAlphanum = true) : c.toUpper.isAlphanum = true := by
  rcases toUpper_eq_or_isUpper c with hsame | hupper
  · rw [hsame]
    exact h
  · exact isAlphanum_of_isAlpha (isAlpha_iff.mpr (.inl hupper))

theorem isAlphanum_toLower {c : Char} (h : c.isAlphanum = true) : c.toLower.isAlphanum = true := by
  rcases toLower_eq_or_isLower c with hsame | hlower
  · rw [hsame]
    exact h
  · exact isAlphanum_of_isAlpha (isAlpha_iff.mpr (.inr hlower))

/-! ## Names -/

theorem isAlphanum_of_mem_joinWords {start : Bool} {name : List Char} {c : Char}
    (h : c ∈ joinWords start name) : c.isAlphanum = true := by
  fun_induction joinWords start name with
  | case1 => exact nomatch h
  | case2 start d cs hd ih =>
    rcases List.mem_cons.mp h with rfl | hrest
    · split
      · exact isAlphanum_toUpper hd
      · exact hd
    · exact ih hrest
  | case3 start d cs hd ih => exact ih h

theorem isAlphanum_of_mem_camel {name : String} {c : Char} (h : c ∈ (camel name).toList) :
    c.isAlphanum = true := by
  unfold camel at h
  split at h
  · exact nomatch h
  · next d cs hwords =>
    have hjoined : ∀ e ∈ d :: cs, e.isAlphanum = true := by
      intro e he
      rw [← hwords] at he
      exact isAlphanum_of_mem_joinWords he
    rw [String.toList_ofList] at h
    rcases List.mem_cons.mp h with rfl | hrest
    · exact isAlphanum_toLower (hjoined d List.mem_cons_self)
    · exact hjoined c (List.mem_cons_of_mem _ hrest)

theorem isAlpha_of_not_isDigit {c : Char} (h : c.isAlphanum = true) (hdigit : ¬ c.isDigit = true) :
    c.isAlpha = true := by
  rw [Char.isAlphanum, Bool.or_eq_true] at h
  exact h.resolve_right hdigit

/-! ## Identifiers -/

/-- An identifier of ASCII letters and digits. -/
structure IsIdentifier (s : String) : Prop where
  ne_empty : s ≠ ""
  alphanum : ∀ c ∈ s.toList, c.isAlphanum = true
  head : ∀ c ∈ s.toList.head?, c.isDigit = false

/-- A text with `start` in front if it is empty or begins with a digit. -/
def lettered (start base : String) : String :=
  if base.isEmpty || startsWithDigit base then start ++ base else base

theorem startsWithDigit_eq_false_iff {s : String} :
    startsWithDigit s = false ↔ ∀ c ∈ s.toList.head?, c.isDigit = false := by
  rw [startsWithDigit]
  cases s.toList with
  | nil => simp
  | cons c rest => simp

/-- Nothing is put in front of a text that begins with a letter. -/
theorem lettered_cases (start base : String) :
    lettered start base = start ++ base ∨
      lettered start base = base ∧ base ≠ "" ∧ ∀ c ∈ base.toList.head?, c.isDigit = false := by
  unfold lettered
  split
  · exact .inl rfl
  · next h =>
    rw [Bool.or_eq_true, not_or, String.isEmpty_iff, Bool.not_eq_true,
      startsWithDigit_eq_false_iff] at h
    exact .inr ⟨rfl, h⟩

theorem IsIdentifier.append {s t : String} (h : IsIdentifier s)
    (ht : ∀ c ∈ t.toList, c.isAlphanum = true) : IsIdentifier (s ++ t) := by
  obtain ⟨c, rest, hchars⟩ := List.exists_cons_of_ne_nil
    (mt String.toList_eq_nil_iff.mp h.ne_empty)
  have happend : (s ++ t).toList = c :: (rest ++ t.toList) := by
    rw [String.toList_append, hchars, List.cons_append]
  refine ⟨?_, ?_, ?_⟩
  · intro hempty
    rw [hempty] at happend
    cases happend
  · rw [String.toList_append]
    exact List.forall_mem_append.mpr ⟨h.alphanum, ht⟩
  · intro d hd
    rw [happend] at hd
    exact h.head d (by rw [hchars]; exact hd)

theorem isIdentifier_lettered {start base : String} (hstart : IsIdentifier start)
    (hbase : ∀ c ∈ base.toList, c.isAlphanum = true) : IsIdentifier (lettered start base) := by
  obtain heq | ⟨heq, hempty, hhead⟩ := lettered_cases start base
  · rw [heq]
    exact hstart.append hbase
  · rw [heq]
    exact ⟨hempty, hbase, hhead⟩

theorem IsIdentifier.exists_cons {s : String} (h : IsIdentifier s) :
    ∃ c rest, s.toList = c :: rest ∧ c.isAlpha = true := by
  obtain ⟨c, rest, hchars⟩ := List.exists_cons_of_ne_nil
    (mt String.toList_eq_nil_iff.mp h.ne_empty)
  have hhead : c ∈ s.toList.head? := by rw [hchars]; rfl
  refine ⟨c, rest, hchars, isAlpha_of_not_isDigit (h.alphanum c (List.mem_of_mem_head? hhead)) ?_⟩
  rw [h.head c hhead]
  exact Bool.false_ne_true

theorem isIdentifier_of_all {s : String} (hempty : s ≠ "")
    (hall : s.toList.all Char.isAlphanum = true) (hdigit : startsWithDigit s = false) :
    IsIdentifier s :=
  ⟨hempty, List.all_eq_true.mp hall, startsWithDigit_eq_false_iff.mp hdigit⟩

theorem isIdentifier_test : IsIdentifier "test" :=
  isIdentifier_of_all (by decide) (by decide) (by decide)

theorem method_eq_lettered (s : String) : method s = lettered "test" (camel s) := by
  simp only [method, lettered]
  by_cases hempty : (camel s).isEmpty = true
  · rw [if_pos hempty, hempty, String.isEmpty_iff.mp hempty]
    rfl
  · simp [hempty]

theorem isIdentifier_method (s : String) : IsIdentifier (method s) := by
  rw [method_eq_lettered]
  exact isIdentifier_lettered isIdentifier_test fun _ => isAlphanum_of_mem_camel

/-- A method name begins with a letter. -/
theorem method_toList_eq_cons (name : String) :
    ∃ c rest, (method name).toList = c :: rest ∧ c.isAlpha = true :=
  (isIdentifier_method name).exists_cons

end CestWriter.Identifier
