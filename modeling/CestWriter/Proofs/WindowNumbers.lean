import CestWriter.Vocabulary.Window

/-!
# Numbers of windows

A window is selected by its number if the parameter, made a whole number, is one of 64 bits without
sign. Such a number may also be written with a plus in front. Whether that is allowed makes no
difference here: a parameter that is made a whole number has no plus, and one that is left as it is
with a plus and digits is too large for 64 bits.
-/

namespace CestWriter

/-- The text writes a whole number of 64 bits without sign: one or more digits, perhaps with a plus
in front. -/
def WritesWord64 (s : String) : Prop :=
  ∃ digits, (s.toList = digits ∨ s.toList = '+' :: digits) ∧ digits ≠ [] ∧
    (∀ c ∈ digits, c.isDigit = true) ∧ Numeral.ofDigits digits < Nat.pow 2 64

namespace Dyadic

/-- Rounding adds less than one divisor. -/
theorem roundDiv_mul_le (num den : Nat) : roundDiv num den * den ≤ num + den := by
  have hup : roundDiv num den ≤ num / den + 1 := by
    simp only [roundDiv]
    split
    · omega
    · split
      · omega
      · split <;> omega
  calc roundDiv num den * den
      ≤ (num / den + 1) * den := Nat.mul_le_mul_right den hup
    _ = num / den * den + den := Nat.succ_mul _ _
    _ ≤ num + den := Nat.add_le_add_right (Nat.div_mul_le_self num den) den

theorem log2Div_one_le (num : Nat) : log2Div num 1 ≤ num.log2 := by
  have hone : (1 : Nat).log2 = 0 := rfl
  simp only [log2Div, hone]
  split <;> omega

theorem lastBit_le {num : Nat} (h : num < Nat.pow 2 64) : lastBit num 1 ≤ 11 := by
  have hlog : num.log2 < 64 := by
    by_cases hzero : num = 0
    · rw [hzero]
      decide
    · exact (Nat.log2_lt hzero).mpr h
  have hle := log2Div_one_le num
  simp only [lastBit]
  omega

theorem lt_pow_two_of_le {num m n : Nat} (hmn : m ≤ n) (h : num < Nat.pow 2 m) :
    num < Nat.pow 2 n :=
  Nat.lt_of_lt_of_le h (Nat.pow_le_pow_right (by decide) hmn)

/-- A whole number of 64 bits is near to a finite double. -/
theorem nearest?_isSome {num : Nat} (h : num < Nat.pow 2 64) : (nearest? num 1).isSome = true := by
  have hlast := lastBit_le h
  simp only [nearest?]
  split
  · rfl
  · rw [if_neg]
    · rfl
    · simp only [Bool.and_eq_true, decide_eq_true_eq, not_and, Nat.not_le]
      intro hnonneg
      rw [if_pos hnonneg, Nat.one_mul]
      have hunit : Nat.pow 2 (lastBit num 1).toNat ≤ Nat.pow 2 11 :=
        Nat.pow_le_pow_right (by decide) (by omega)
      have hsum : num + Nat.pow 2 (lastBit num 1).toNat < Nat.pow 2 65 :=
        Nat.lt_of_lt_of_le (Nat.add_lt_add_of_lt_of_le h hunit) (by decide)
      apply lt_pow_two_of_le _ (Nat.lt_of_le_of_lt (roundDiv_mul_le _ _) hsum)
      decide

end Dyadic

namespace Decimal

/-- A whole number of 64 bits has a floor. -/
theorem floor?_isSome {digits : Nat} (negative : Bool) (h : digits < Nat.pow 2 64) :
    (floor? ⟨negative, digits, 0⟩).isSome = true := by
  have hnearest : (nearest? ⟨negative, digits, 0⟩).isSome = true := by
    simp only [nearest?]
    split
    · rfl
    · rw [if_neg (by omega), if_neg (by omega), if_pos (by omega)]
      exact Dyadic.nearest?_isSome (by simpa using h)
  rw [floor?, Option.isSome_map]
  exact hnearest

end Decimal

namespace Numeral

variable {digits : List Char}

/-- A run of digits is a number without fraction and without power of ten. -/
theorem magnitude?_digits (hne : digits ≠ []) (hdigits : ∀ c ∈ digits, c.isDigit = true) :
    magnitude? digits = some (ofDigits digits, 0) := by
  have htake := @List.takeWhile_append_of_pos _ _ digits [] hdigits
  have hdrop := @List.dropWhile_append_of_pos _ _ digits [] hdigits
  rw [List.append_nil, List.takeWhile_nil, List.append_nil] at htake
  rw [List.append_nil, List.dropWhile_nil] at hdrop
  simp [magnitude?, htake, hdrop, fraction, exponent?, hne]

theorem parse?_plus_digits (hne : digits ≠ []) (hdigits : ∀ c ∈ digits, c.isDigit = true) :
    parse? ('+' :: digits) = some (.finite ⟨false, ofDigits digits, 0⟩) := by
  simp only [parse?, sign, magnitude?_digits hne hdigits]

end Numeral

theorem head_intRepr_ne_plus (n : Int) (rest : List Char) : n.repr.toList ≠ '+' :: rest := by
  intro h
  cases n with
  | ofNat m =>
    have hmem : '+' ∈ m.repr.toList := by
      rw [show m.repr.toList = '+' :: rest from h]
      exact List.mem_cons_self
    rw [Nat.toList_repr] at hmem
    exact absurd (Nat.isDigit_of_mem_toDigits (by decide) (by decide) hmem) (by decide)
  | negSucc m =>
    have hhead := congrArg List.head? h
    simp [Int.repr] at hhead

/-- A parameter that was made a whole number is not a plus and a number of 64 bits. -/
theorem floorText_ne_plus {digits : List Char} (hne : digits ≠ [])
    (hdigits : ∀ c ∈ digits, c.isDigit = true) (hsmall : Numeral.ofDigits digits < Nat.pow 2 64)
    (s : String) : (floorText s).toList ≠ '+' :: digits := by
  intro h
  have hparse := Numeral.parse?_plus_digits hne hdigits
  simp only [floorText] at h
  split at h
  · next d hd =>
    split at h
    · exact head_intRepr_ne_plus _ _ h
    · next hfloor =>
      rw [String.toList_ofList] at h
      rw [h, hparse] at hd
      cases hd
      have hsome := Decimal.floor?_isSome false hsmall
      rw [hfloor] at hsome
      cases hsome
  · next hfinite =>
    rw [String.toList_ofList] at h
    rw [h] at hfinite
    exact hfinite _ hparse

namespace Vocabulary

theorem isWord64_iff {s : String} :
    isWord64 s = true ↔ s.toList ≠ [] ∧ (∀ c ∈ s.toList, c.isDigit = true) ∧
      Numeral.ofDigits s.toList < Nat.pow 2 64 := by
  simp [isWord64, and_assoc]

/-- A parameter that was made a whole number is accepted exactly if it writes one of 64 bits. -/
theorem isWord64_floorText_iff (s : String) :
    isWord64 (floorText s) = true ↔ WritesWord64 (floorText s) := by
  rw [isWord64_iff]
  constructor
  · intro h
    exact ⟨(floorText s).toList, .inl rfl, h⟩
  · rintro ⟨digits, hplain | hplus, hne, hdigits, hsmall⟩
    · rw [hplain]
      exact ⟨hne, hdigits, hsmall⟩
    · exact absurd hplus (floorText_ne_plus hne hdigits hsmall s)

end Vocabulary

end CestWriter
