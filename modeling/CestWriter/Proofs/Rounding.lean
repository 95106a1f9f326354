import CestWriter.Decimal.Floor
import CestWriter.Proofs.Doubles

/-!
# The rounded quotient of whole numbers

The computation of the nearest double: the binary logarithm of a quotient gives the unit in the last
place, and dividing by this unit is a division of whole numbers again. So every number is rounded to
exactly one double, or it is too large.
-/

namespace CestWriter

namespace Dyadic

/-- The exact value of a dyadic. -/
def value (d : Dyadic) : ℚ :=
  d.significand * 2 ^ d.exponent

/-! ## Division -/

/-- A quotient is a whole number and a part below one; the part decides which of its neighbours it
is rounded to. -/
theorem roundDiv_cases (num : Nat) {den : Nat} (hden : 0 < den) :
    ∃ (n : Nat) (part : ℚ), (num / den : ℚ) = n + part ∧ 0 ≤ part ∧ part < 1 ∧
      (part < 1 / 2 ∧ roundDiv num den = n ∨ 1 / 2 < part ∧ roundDiv num den = n + 1 ∨
        part = 1 / 2 ∧ Even (roundDiv num den) ∧
          (roundDiv num den = n ∨ roundDiv num den = n + 1)) := by
  have hpos : (0 : ℚ) < den := by exact_mod_cast hden
  have hsum : (num : ℚ) = (num / den : ℕ) * den + (num % den : ℕ) := by
    exact_mod_cast (Nat.div_add_mod' num den).symm
  refine ⟨num / den, (num % den : ℕ) / den, ?_, by positivity, ?_, ?_⟩
  · rw [div_eq_iff hpos.ne', add_mul, div_mul_cancel₀ _ hpos.ne']
    exact hsum
  · rw [div_lt_one hpos]
    exact_mod_cast Nat.mod_lt num hden
  · simp only [roundDiv]
    split
    · next hlow =>
      refine .inl ⟨?_, rfl⟩
      have hcast : (2 : ℚ) * (num % den : ℕ) < den := by exact_mod_cast hlow
      rw [div_lt_iff₀ hpos]
      linarith
    · split
      · next hhigh =>
        refine .inr (.inl ⟨?_, rfl⟩)
        have hcast : (den : ℚ) < 2 * (num % den : ℕ) := by exact_mod_cast hhigh
        rw [lt_div_iff₀ hpos]
        linarith
      · next hlow hhigh =>
        have hcast : (2 : ℚ) * (num % den : ℕ) = den := by
          exact_mod_cast le_antisymm (not_lt.mp hhigh) (not_lt.mp hlow)
        refine .inr (.inr ⟨?_, ?_⟩)
        · rw [div_eq_iff hpos.ne']
          linarith
        · split
          · next heven => exact ⟨Nat.even_iff.mpr heven, .inl rfl⟩
          · next hodd => exact ⟨Nat.even_iff.mpr (by omega), .inr rfl⟩

theorem abs_sub_roundDiv_le {num den : Nat} (hden : 0 < den) :
    |(num / den : ℚ) - roundDiv num den| ≤ 1 / 2 := by
  obtain ⟨n, part, hx, hnonneg, hone, ⟨hpart, hm⟩ | ⟨hpart, hm⟩ | ⟨hpart, -, hm | hm⟩⟩ :=
    roundDiv_cases num hden
  all_goals
    rw [hx, hm, abs_le]
    push_cast
    constructor <;> linarith

theorem even_roundDiv {num den : Nat} (hden : 0 < den)
    (h : |(num / den : ℚ) - roundDiv num den| = 1 / 2) : Even (roundDiv num den) := by
  obtain ⟨n, part, hx, hnonneg, hone, ⟨hpart, hm⟩ | ⟨hpart, hm⟩ | ⟨-, heven, -⟩⟩ :=
    roundDiv_cases num hden
  · rw [hx, hm, add_sub_cancel_left, abs_of_nonneg hnonneg] at h
    linarith
  · rw [hx, hm, abs_of_neg (by push_cast; linarith)] at h
    push_cast at h
    linarith
  · exact heven

/-! ## Logarithm -/

theorem zpow_eq_pow_toNat {e : ℤ} (he : 0 ≤ e) : (2 : ℚ) ^ e = ((Nat.pow 2 e.toNat : ℕ) : ℚ) := by
  rw [Nat.pow_eq, Nat.cast_pow, Nat.cast_two, ← zpow_natCast, Int.toNat_of_nonneg he]

theorem reached_iff {num den : Nat} (hden : 0 < den) (g : ℤ) :
    (if 0 ≤ g then decide (den * Nat.pow 2 g.toNat ≤ num)
      else decide (den ≤ num * Nat.pow 2 (-g).toNat)) = true ↔ (2 : ℚ) ^ g ≤ num / den := by
  have hpos : (0 : ℚ) < den := by exact_mod_cast hden
  rw [le_div_iff₀ hpos]
  split
  · next hg =>
    rw [decide_eq_true_iff, zpow_eq_pow_toNat hg, ← Nat.cast_le (α := ℚ), Nat.cast_mul, mul_comm]
  · next hg =>
    rw [decide_eq_true_iff, ← Nat.cast_le (α := ℚ), Nat.cast_mul,
      ← zpow_eq_pow_toNat (by omega), zpow_neg, ← div_eq_mul_inv, le_div_iff₀ (unit_pos g),
      mul_comm]

theorem log2_bounds {n : Nat} (hn : 0 < n) :
    (2 : ℚ) ^ (n.log2 : ℤ) ≤ n ∧ (n : ℚ) < 2 ^ (n.log2 + 1 : ℤ) := by
  constructor
  · rw [zpow_natCast]
    exact_mod_cast Nat.log2_self_le hn.ne'
  · have h : n < 2 ^ (n.log2 + 1) := Nat.lt_log2_self
    exact_mod_cast h

/-- The logarithm of a quotient is the power of two that it has reached. -/
theorem log2Div_spec {num den : Nat} (hnum : 0 < num) (hden : 0 < den) :
    (2 : ℚ) ^ log2Div num den ≤ num / den ∧ (num / den : ℚ) < 2 ^ (log2Div num den + 1) := by
  have hpos : (0 : ℚ) < den := by exact_mod_cast hden
  obtain ⟨hnumLow, hnumHigh⟩ := log2_bounds hnum
  obtain ⟨hdenLow, hdenHigh⟩ := log2_bounds hden
  -- the logarithms of the two give the power up to one
  have hhigh : (num / den : ℚ) < 2 ^ ((num.log2 : ℤ) - den.log2 + 1) := by
    rw [div_lt_iff₀ hpos]
    calc (num : ℚ) < 2 ^ (num.log2 + 1 : ℤ) := hnumHigh
      _ = 2 ^ ((num.log2 : ℤ) - den.log2 + 1) * 2 ^ (den.log2 : ℤ) := by
        rw [← zpow_add₀ two_ne_zero]
        congr 1
        ring
      _ ≤ 2 ^ ((num.log2 : ℤ) - den.log2 + 1) * den :=
        mul_le_mul_of_nonneg_left hdenLow (unit_pos _).le
  have hlow : (2 : ℚ) ^ ((num.log2 : ℤ) - den.log2 - 1) ≤ num / den := by
    rw [le_div_iff₀ hpos]
    calc (2 : ℚ) ^ ((num.log2 : ℤ) - den.log2 - 1) * den
        ≤ 2 ^ ((num.log2 : ℤ) - den.log2 - 1) * 2 ^ (den.log2 + 1 : ℤ) :=
          mul_le_mul_of_nonneg_left hdenHigh.le (unit_pos _).le
      _ = 2 ^ (num.log2 : ℤ) := by
        rw [← zpow_add₀ two_ne_zero]
        congr 1
        ring
      _ ≤ num := hnumLow
  by_cases hreached : (2 : ℚ) ^ ((num.log2 : ℤ) - den.log2) ≤ num / den
  · rw [log2Div, if_pos ((reached_iff hden _).mpr hreached)]
    exact ⟨hreached, hhigh⟩
  · rw [log2Div, if_neg (mt (reached_iff hden _).mp hreached)]
    exact ⟨hlow, by simpa using hreached⟩

/-! ## The nearest double -/

/-- Counting in units of a power of two is a division as well. -/
theorem roundDiv_unit (num : Nat) {den : Nat} (hden : 0 < den) (e : ℤ) :
    ∃ num' den' : Nat, 0 < den' ∧ (num / den / 2 ^ e : ℚ) = num' / den' ∧
      (if 0 ≤ e then roundDiv num (den * Nat.pow 2 e.toNat)
        else roundDiv (num * Nat.pow 2 (-e).toNat) den) = roundDiv num' den' := by
  split
  · next he =>
    refine ⟨num, den * Nat.pow 2 e.toNat, Nat.mul_pos hden (Nat.pow_pos two_pos), ?_, rfl⟩
    rw [Nat.cast_mul, ← zpow_eq_pow_toNat he, div_div]
  · next he =>
    refine ⟨num * Nat.pow 2 (-e).toNat, den, hden, ?_, rfl⟩
    rw [Nat.cast_mul, ← zpow_eq_pow_toNat (by omega), zpow_neg, ← div_eq_mul_inv, div_right_comm]

/-- The last bit is such that a quotient has 53 bits, or less at the least exponent. -/
theorem lastBit_spec {num den : Nat} (hnum : 0 < num) (hden : 0 < den) :
    (num / den / 2 ^ lastBit num den : ℚ) < 2 ^ 53 ∧
      (lastBit num den = -1074 ∨ (2 : ℚ) ^ 52 ≤ num / den / 2 ^ lastBit num den) := by
  obtain ⟨hlow, hhigh⟩ := log2Div_spec hnum hden
  have hlog : log2Div num den - 52 ≤ lastBit num den := le_max_right _ _
  have hunit := unit_pos (lastBit num den)
  rw [div_lt_iff₀ hunit, le_div_iff₀ hunit, ← zpow_natCast, ← zpow_natCast,
    ← zpow_add₀ two_ne_zero, ← zpow_add₀ two_ne_zero]
  refine ⟨hhigh.trans_le (zpow_le_zpow_right₀ one_le_two ?_), ?_⟩
  · push_cast
    omega
  · rcases max_choice (-1074) (log2Div num den - 52) with hleast | hbit
    · exact .inl hleast
    · refine .inr (le_trans (zpow_le_zpow_right₀ one_le_two ?_) hlow)
      rw [lastBit, hbit]
      push_cast
      omega

/-- The computation stops at a power of two, which a significand reaches with an exponent only. -/
theorem overflows_iff {m bits : Nat} (top : Nat) (hm : m ≤ 2 ^ bits) (htop : bits < top) (e : ℤ) :
    (0 ≤ e && Nat.pow 2 top ≤ m * Nat.pow 2 e.toNat) = true ↔
      2 ^ (top : ℤ) ≤ (m : ℚ) * 2 ^ e := by
  rw [Bool.and_eq_true, decide_eq_true_iff, decide_eq_true_iff]
  by_cases he : 0 ≤ e
  · rw [zpow_eq_pow_toNat he, zpow_eq_pow_toNat (Int.natCast_nonneg top), ← Nat.cast_mul,
      Nat.cast_le, Int.toNat_natCast]
    exact and_iff_right he
  · have hsmall : (m : ℚ) * 2 ^ e < 2 ^ (top : ℤ) := by
      have hunit : (2 : ℚ) ^ e ≤ 1 := zpow_le_one_of_nonpos₀ one_le_two (by omega)
      calc (m : ℚ) * 2 ^ e ≤ m * 1 := mul_le_mul_of_nonneg_left hunit m.cast_nonneg
        _ < 2 ^ (top : ℤ) := by
          rw [mul_one, zpow_natCast]
          exact_mod_cast hm.trans_lt (Nat.pow_lt_pow_right one_lt_two htop)
    exact iff_of_false (fun h => he h.1) (not_le.mpr hsmall)

/-- The computation rounds the quotient in units of the last bit. -/
theorem nearest?_scaled {num den : Nat} (hnum : 0 < num) (hden : 0 < den) :
    ∃ m : Nat, Scaled (num / den / 2 ^ lastBit num den) m (lastBit num den) ∧
      nearest? num den = if 2 ^ (1024 : ℤ) ≤ (m : ℚ) * 2 ^ lastBit num den then none
        else some ⟨m, lastBit num den⟩ := by
  obtain ⟨hbound, hnormal⟩ := lastBit_spec hnum hden
  obtain ⟨num', den', hden', hunits, hrounded⟩ := roundDiv_unit num hden (lastBit num den)
  have hscaled : Scaled (num / den / 2 ^ lastBit num den) (roundDiv num' den')
      (lastBit num den) :=
    { low := le_max_left _ _
      nonneg := by
        have hunit := (unit_pos (lastBit num den)).le
        positivity
      bound := hbound
      normal := hnormal
      close := by
        rw [hunits]
        exact abs_sub_roundDiv_le hden'
      even := by
        rw [hunits]
        intro hhalf
        exact_mod_cast even_roundDiv hden' hhalf }
  refine ⟨roundDiv num' den', hscaled, ?_⟩
  have hm : roundDiv num' den' ≤ 2 ^ 53 := by exact_mod_cast hscaled.significand_le
  simp only [nearest?, hrounded, if_neg hnum.ne', overflows_iff 1024 hm (by norm_num),
    Nat.cast_ofNat]

/-- The computation finds what a quotient is rounded to. -/
theorem roundsTo_nearest? (num : Nat) {den : Nat} (hden : 0 < den) :
    RoundsTo (num / den) ((nearest? num den).map value) := by
  rcases Nat.eq_zero_or_pos num with rfl | hnum
  · have hzero : value ⟨0, 0⟩ = 0 := by simp [value]
    rw [Nat.cast_zero, zero_div, nearest?, if_pos rfl, Option.map_some, hzero]
    exact roundsTo_zero (by rw [abs_zero]; exact unit_pos _)
  obtain ⟨m, hscaled, hnearest⟩ := nearest?_scaled hnum hden
  have hvalue : (num / den / 2 ^ lastBit num den * 2 ^ lastBit num den : ℚ) = num / den :=
    div_mul_cancel₀ _ (unit_pos _).ne'
  have hiff := hscaled.tooLarge_iff
  rw [hvalue] at hiff
  by_cases hlarge : 2 ^ (1024 : ℤ) ≤ (m : ℚ) * 2 ^ lastBit num den
  · rw [hnearest, if_pos hlarge]
    exact .infinite (hiff.mp hlarge)
  · rw [hnearest, if_neg hlarge]
    have hdouble := hscaled.nearestDouble (not_le.mp hlarge)
    rw [hvalue] at hdouble
    exact .finite (mt hiff.mpr hlarge) hdouble

end Dyadic

/-! ## Uniqueness -/

theorem exists_scaled {q : ℚ} (hq : 0 < q) : ∃ x m e, Scaled x m e ∧ x * 2 ^ e = q := by
  have hnum : 0 < q.num.toNat := by
    have := Rat.num_pos.mpr hq
    omega
  obtain ⟨m, hscaled, -⟩ := Dyadic.nearest?_scaled hnum q.den_pos
  refine ⟨_, m, _, hscaled, ?_⟩
  have hcast : ((q.num.toNat : ℕ) : ℚ) = q.num := by
    exact_mod_cast Int.toNat_of_nonneg (Rat.num_pos.mpr hq).le
  rw [div_mul_cancel₀ _ (unit_pos _).ne', hcast, Rat.num_div_den]

theorem NearestDouble.unique_of_pos {q r r' : ℚ} (hq : 0 < q) (hsmall : ¬ IsTooLarge q)
    (h : NearestDouble q r) (h' : NearestDouble q r') : r = r' := by
  obtain ⟨x, m, e, hscaled, rfl⟩ := exists_scaled hq
  have hlt := not_le.mp (mt hscaled.tooLarge_iff.mp hsmall)
  rw [hscaled.eq_of_nearestDouble hlt h, hscaled.eq_of_nearestDouble hlt h']

theorem NearestDouble.unique {q r r' : ℚ} (hsmall : ¬ IsTooLarge q) (h : NearestDouble q r)
    (h' : NearestDouble q r') : r = r' := by
  rcases lt_trichotomy q 0 with hneg | rfl | hpos
  · exact neg_inj.mp
      (unique_of_pos (neg_pos.mpr hneg) (mt isTooLarge_neg.mp hsmall) h.neg h'.neg)
  · rw [h.eq_of_isDouble isDouble_zero, h'.eq_of_isDouble isDouble_zero]
  · exact unique_of_pos hpos hsmall h h'

/-- A number is rounded to one thing only. -/
theorem RoundsTo.unique {q : ℚ} {r r' : Option ℚ} (h : RoundsTo q r) (h' : RoundsTo q r') :
    r = r' := by
  cases h with
  | finite hsmall hnearest =>
    cases h' with
    | finite _ hnearest' => rw [hnearest.unique hsmall hnearest']
    | infinite hlarge => exact absurd hlarge hsmall
  | infinite hlarge =>
    cases h' with
    | finite hsmall _ => exact absurd hlarge hsmall
    | infinite _ => rfl

end CestWriter
