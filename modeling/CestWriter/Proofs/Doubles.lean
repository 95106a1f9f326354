import Mathlib.Algebra.Order.Field.Power
import Mathlib.Algebra.Order.Floor.Ring
import Mathlib.Data.Rat.Floor
import Mathlib.Tactic.FieldSimp
import Mathlib.Tactic.Linarith
import Mathlib.Tactic.NormNum
import Mathlib.Tactic.Positivity
import Mathlib.Tactic.Ring

/-!
# Rounding to double precision

What it means that a double is nearest to a rational number, said without a computation, and how it
is found: the number is divided by the unit in the last place and rounded to a whole number. A
double that is no multiple of this unit lies below the power of two that the number has reached, so
it is never nearer.
-/

namespace CestWriter

/-- The numbers of double precision: a significand of 53 bits, times a power of two. -/
def IsDouble (q : ℚ) : Prop :=
  ∃ m e : ℤ, |m| < 2 ^ 53 ∧ -1074 ≤ e ∧ e ≤ 971 ∧ q = m * 2 ^ e

/-- The doubles of which the significand is even when it has all its 53 bits, or as many as the
least exponent allows. -/
def IsEvenDouble (q : ℚ) : Prop :=
  ∃ m e : ℤ, |m| < 2 ^ 53 ∧ -1074 ≤ e ∧ e ≤ 971 ∧ q = m * 2 ^ e ∧
    (2 ^ 52 ≤ |m| ∨ e = -1074) ∧ Even m

/-- The double `r` is the one to which `q` is rounded: none is nearer, and if another one is as
near, the significand of `r` is even. -/
structure NearestDouble (q r : ℚ) : Prop where
  isDouble : IsDouble r
  nearest : ∀ s, IsDouble s → |q - r| ≤ |q - s|
  even : ∀ s, IsDouble s → s ≠ r → |q - s| = |q - r| → IsEvenDouble r

/-- The number is rounded to an infinite one: it is nearer to the next power of two than to the
largest double, or halfway between them. -/
def IsTooLarge (q : ℚ) : Prop :=
  2 ^ (1024 : ℤ) - 2 ^ (970 : ℤ) ≤ |q|

/-- What a number is rounded to: a double, or nothing if that is infinite. -/
inductive RoundsTo (q : ℚ) : Option ℚ → Prop
  | finite {r : ℚ} (hsmall : ¬ IsTooLarge q) (hnearest : NearestDouble q r) : RoundsTo q (some r)
  | infinite (hlarge : IsTooLarge q) : RoundsTo q none

/-! ## Signs -/

theorem IsDouble.neg {q : ℚ} (h : IsDouble q) : IsDouble (-q) := by
  obtain ⟨m, e, hm, hlow, hhigh, rfl⟩ := h
  exact ⟨-m, e, by rwa [abs_neg], hlow, hhigh, by push_cast; ring⟩

theorem IsEvenDouble.neg {q : ℚ} (h : IsEvenDouble q) : IsEvenDouble (-q) := by
  obtain ⟨m, e, hm, hlow, hhigh, rfl, hform, heven⟩ := h
  exact ⟨-m, e, by rwa [abs_neg], hlow, hhigh, by push_cast; ring, by rwa [abs_neg], heven.neg⟩

theorem NearestDouble.neg {q r : ℚ} (h : NearestDouble q r) : NearestDouble (-q) (-r) := by
  have hflip : ∀ s, |-q - s| = |q - -s| := by
    intro s
    rw [← abs_neg]
    ring_nf
  refine ⟨h.isDouble.neg, fun s hs => ?_, fun s hs hne heq => ?_⟩
  · rw [hflip, hflip, neg_neg]
    exact h.nearest _ hs.neg
  · rw [hflip, hflip, neg_neg] at heq
    refine (h.even _ hs.neg ?_ heq).neg
    rintro rfl
    exact hne (neg_neg s).symm

theorem isTooLarge_neg {q : ℚ} : IsTooLarge (-q) ↔ IsTooLarge q := by
  rw [IsTooLarge, IsTooLarge, abs_neg]

theorem RoundsTo.neg {q : ℚ} {r : Option ℚ} (h : RoundsTo q r) : RoundsTo (-q) (r.map (-·)) := by
  cases h with
  | finite hsmall hnearest => exact .finite (mt isTooLarge_neg.mp hsmall) hnearest.neg
  | infinite hlarge => exact .infinite (isTooLarge_neg.mpr hlarge)

/-! ## Doubles are their own nearest doubles -/

theorem isDouble_zero : IsDouble 0 :=
  ⟨0, 0, by norm_num, by norm_num, by norm_num, by norm_num⟩

theorem IsDouble.nearestDouble {q : ℚ} (h : IsDouble q) : NearestDouble q q where
  isDouble := h
  nearest s _ := by simp
  even s _ hne heq := by
    rw [sub_self, abs_zero, abs_eq_zero] at heq
    exact absurd (sub_eq_zero.mp heq).symm hne

theorem NearestDouble.eq_of_isDouble {q r : ℚ} (h : NearestDouble q r) (hq : IsDouble q) :
    r = q := by
  have hzero : |q - r| ≤ 0 := by simpa using h.nearest q hq
  linarith [abs_nonpos_iff.mp hzero]

/-! ## Whole multiples of a unit -/

theorem unit_pos (e : ℤ) : (0 : ℚ) < 2 ^ e :=
  zpow_pos two_pos e

/-- The number `x` in units of `2 ^ e` is rounded to the whole number `m`: the unit is that of the
last of 53 bits, or the least one. -/
structure Scaled (x : ℚ) (m e : ℤ) : Prop where
  low : -1074 ≤ e
  nonneg : 0 ≤ x
  bound : x < 2 ^ 53
  normal : e = -1074 ∨ 2 ^ 52 ≤ x
  close : |x - m| ≤ 1 / 2
  even : |x - m| = 1 / 2 → Even m

namespace Scaled

variable {x : ℚ} {m e : ℤ}

theorem significand_nonneg (h : Scaled x m e) : 0 ≤ m := by
  have hclose := (abs_le.mp h.close).2
  have hx := h.nonneg
  have hm : (-1 : ℚ) < m := by linarith
  have : -1 < m := by exact_mod_cast hm
  omega

theorem significand_le (h : Scaled x m e) : m ≤ 2 ^ 53 := by
  have hclose := (abs_le.mp h.close).1
  have hx := h.bound
  have hm : (m : ℚ) < 2 ^ 53 + 1 := by linarith
  have : m < 2 ^ 53 + 1 := by exact_mod_cast hm
  omega

theorem significand_normal (h : Scaled x m e) : e = -1074 ∨ 2 ^ 52 ≤ m := by
  refine h.normal.imp_right fun hx => ?_
  have hclose := (abs_le.mp h.close).2
  have hm : (2 ^ 52 - 1 : ℚ) < m := by linarith
  have : (2 ^ 52 - 1 : ℤ) < m := by exact_mod_cast hm
  omega

/-- A rounded number that is below the largest power of two has its bits in range. -/
theorem significand_cases (h : Scaled x m e) (hsmall : (m : ℚ) * 2 ^ e < 2 ^ (1024 : ℤ)) :
    m < 2 ^ 53 ∧ e ≤ 971 ∨ m = 2 ^ 53 ∧ e ≤ 970 := by
  have hexponent : ∀ k : ℤ, 0 ≤ k → (2 : ℤ) ^ k.toNat ≤ m → e + k < 1024 := by
    intro k hk hm
    by_contra hlarge
    have hcast : (2 : ℚ) ^ k ≤ m := by
      rw [← Int.toNat_of_nonneg hk, zpow_natCast]
      exact_mod_cast hm
    have hpow : (2 : ℚ) ^ (1024 : ℤ) ≤ 2 ^ k * 2 ^ e := by
      rw [← zpow_add₀ two_ne_zero]
      exact zpow_le_zpow_right₀ (by norm_num) (by omega)
    have hmul := mul_le_mul_of_nonneg_right hcast (unit_pos e).le
    linarith
  rcases h.significand_le.lt_or_eq with hlt | heq
  · refine .inl ⟨hlt, ?_⟩
    rcases h.significand_normal with hleast | hnormal
    · omega
    · have := hexponent 52 (by norm_num) hnormal
      omega
  · refine .inr ⟨heq, ?_⟩
    have := hexponent 53 (by norm_num) heq.ge
    omega

theorem isDouble (h : Scaled x m e) (hsmall : (m : ℚ) * 2 ^ e < 2 ^ (1024 : ℤ)) :
    IsDouble (m * 2 ^ e) := by
  rcases h.significand_cases hsmall with ⟨hm, he⟩ | ⟨rfl, he⟩
  · exact ⟨m, e, by rwa [abs_of_nonneg h.significand_nonneg], h.low, he, rfl⟩
  · refine ⟨2 ^ 52, e + 1, by norm_num, by linarith [h.low], by omega, ?_⟩
    rw [zpow_add₀ two_ne_zero]
    push_cast
    ring

theorem isEvenDouble (h : Scaled x m e) (hsmall : (m : ℚ) * 2 ^ e < 2 ^ (1024 : ℤ))
    (heven : Even m) : IsEvenDouble (m * 2 ^ e) := by
  rcases h.significand_cases hsmall with ⟨hm, he⟩ | ⟨rfl, he⟩
  · have hform : 2 ^ 52 ≤ |m| ∨ e = -1074 := by
      rw [abs_of_nonneg h.significand_nonneg]
      exact h.significand_normal.symm
    exact ⟨m, e, by rwa [abs_of_nonneg h.significand_nonneg], h.low, he, rfl, hform, heven⟩
  · refine ⟨2 ^ 52, e + 1, by norm_num, by linarith [h.low], by omega, ?_, .inl (by norm_num),
      ⟨2 ^ 51, by norm_num⟩⟩
    rw [zpow_add₀ two_ne_zero]
    push_cast
    ring

/-- No whole number is nearer. -/
theorem close_le (h : Scaled x m e) (k : ℤ) : |x - m| ≤ |x - k| := by
  by_cases heq : k = m
  · rw [heq]
  · have hgap : (1 : ℚ) ≤ |(k : ℚ) - m| := by
      exact_mod_cast Int.one_le_abs (sub_ne_zero.mpr heq)
    have hsum := abs_sub_le (k : ℚ) x m
    rw [abs_sub_comm (k : ℚ) x] at hsum
    linarith [h.close]

theorem even_of_eq (h : Scaled x m e) {k : ℤ} (hne : k ≠ m) (heq : |x - k| = |x - m|) :
    Even m := by
  have hgap : (1 : ℚ) ≤ |(k : ℚ) - m| := by
    exact_mod_cast Int.one_le_abs (sub_ne_zero.mpr hne)
  have hsum := abs_sub_le (k : ℚ) x m
  rw [abs_sub_comm (k : ℚ) x] at hsum
  exact h.even (le_antisymm h.close (by linarith))

end Scaled

theorem zpow_eq_mul {e e' : ℤ} (h : e ≤ e') : (2 : ℚ) ^ e' = 2 ^ (e' - e).toNat * 2 ^ e := by
  rw [← zpow_natCast, Int.toNat_of_nonneg (by omega), ← zpow_add₀ two_ne_zero, sub_add_cancel]

/-- A double is a multiple of a unit, or lies below 2 ^ 52 of them. -/
theorem IsDouble.multiple_or {s : ℚ} (h : IsDouble s) (e : ℤ) :
    (∃ k : ℤ, s = k * 2 ^ e) ∨ -1074 < e ∧ s < 2 ^ 52 * 2 ^ e := by
  obtain ⟨m, e', hm, hlow, -, rfl⟩ := h
  by_cases he : e ≤ e'
  · refine .inl ⟨m * 2 ^ (e' - e).toNat, ?_⟩
    rw [zpow_eq_mul he]
    push_cast
    ring
  · refine .inr ⟨by omega, ?_⟩
    have hm' : (m : ℚ) < 2 ^ 53 := by exact_mod_cast (abs_lt.mp hm).2
    calc (m : ℚ) * 2 ^ e' < 2 ^ 53 * 2 ^ e' := mul_lt_mul_of_pos_right hm' (unit_pos e')
      _ ≤ 2 ^ 53 * 2 ^ (e - 1) := by
        gcongr
        · norm_num
        · omega
      _ = 2 ^ 52 * 2 ^ e := by
        rw [zpow_sub₀ two_ne_zero]
        ring

namespace Scaled

variable {x : ℚ} {m e : ℤ}

theorem abs_sub_mul (y : ℚ) : |x * 2 ^ e - y * 2 ^ e| = |x - y| * 2 ^ e := by
  rw [← sub_mul, abs_mul, abs_of_pos (unit_pos e)]

/-- What lies below a whole multiple that the number has reached is not as near. -/
theorem lt_of_below (h : Scaled x m e) {b : ℤ} (hb : (b : ℚ) ≤ x) {s : ℚ} (hs : s < b * 2 ^ e) :
    |x * 2 ^ e - m * 2 ^ e| < |x * 2 ^ e - s| := by
  have hunit := unit_pos e
  have hreached : (b : ℚ) * 2 ^ e ≤ x * 2 ^ e := mul_le_mul_of_nonneg_right hb hunit.le
  calc |x * 2 ^ e - m * 2 ^ e| = |x - m| * 2 ^ e := abs_sub_mul _
    _ ≤ |x - b| * 2 ^ e := mul_le_mul_of_nonneg_right (h.close_le b) hunit.le
    _ = x * 2 ^ e - b * 2 ^ e := by rw [abs_of_nonneg (by linarith), sub_mul]
    _ < x * 2 ^ e - s := by linarith
    _ ≤ |x * 2 ^ e - s| := le_abs_self _

/-- A double that is no multiple of the unit is not as near. -/
theorem lt_of_isDouble (h : Scaled x m e) {s : ℚ} (he : -1074 < e) (hs : s < 2 ^ 52 * 2 ^ e) :
    |x * 2 ^ e - m * 2 ^ e| < |x * 2 ^ e - s| := by
  have hx : (2 : ℚ) ^ 52 ≤ x := h.normal.resolve_left (by omega)
  exact h.lt_of_below (b := 2 ^ 52) (by exact_mod_cast hx) (by exact_mod_cast hs)

/-- Rounding the multiple of a unit to a whole number gives the nearest double. -/
theorem nearestDouble (h : Scaled x m e) (hsmall : (m : ℚ) * 2 ^ e < 2 ^ (1024 : ℤ)) :
    NearestDouble (x * 2 ^ e) (m * 2 ^ e) := by
  have hunit := unit_pos e
  refine ⟨h.isDouble hsmall, fun s hs => ?_, fun s hs hne heq => h.isEvenDouble hsmall ?_⟩
  · rcases hs.multiple_or e with ⟨k, rfl⟩ | ⟨he, hbelow⟩
    · rw [abs_sub_mul, abs_sub_mul]
      exact mul_le_mul_of_nonneg_right (h.close_le k) hunit.le
    · exact (h.lt_of_isDouble he hbelow).le
  · rcases hs.multiple_or e with ⟨k, rfl⟩ | ⟨he, hbelow⟩
    · rw [abs_sub_mul, abs_sub_mul] at heq
      refine h.even_of_eq ?_ (mul_right_cancel₀ hunit.ne' heq)
      rintro rfl
      exact hne rfl
    · exact absurd heq (h.lt_of_isDouble he hbelow).ne'

/-- Another multiple that is as near is odd. -/
theorem odd_of_eq (h : Scaled x m e) {k : ℤ} (hne : k ≠ m) (heq : |x - k| = |x - m|) : Odd k := by
  have hsum := abs_sub_le (k : ℚ) x m
  rw [abs_sub_comm (k : ℚ) x, heq] at hsum
  have hle : |k - m| ≤ 1 := by
    have hcast : |(k : ℚ) - m| ≤ 1 := by linarith [h.close]
    exact_mod_cast hcast
  obtain ⟨half, hhalf⟩ := h.even_of_eq hne heq
  have hbounds := abs_le.mp hle
  rw [← Int.not_even_iff_odd]
  rintro ⟨half', hhalf'⟩
  omega

/-- So it is no double with an even significand: with all its bits, its own is an odd one. -/
theorem not_isEvenDouble (h : Scaled x m e) {k : ℤ} (hne : k ≠ m) (heq : |x - k| = |x - m|) :
    ¬ IsEvenDouble (k * 2 ^ e) := by
  have hodd := h.odd_of_eq hne heq
  rintro ⟨m', e', hm', hlow, -, hvalue, -, heven⟩
  rcases le_or_gt e e' with he | he
  · have hk : k = m' * 2 ^ (e' - e).toNat := by
      rw [zpow_eq_mul he, ← mul_assoc] at hvalue
      exact_mod_cast mul_right_cancel₀ (unit_pos e).ne' hvalue
    rw [← Int.not_even_iff_odd, hk] at hodd
    exact hodd (heven.mul_right _)
  · -- the multiple has 53 bits in a larger unit, so it has too many in this one
    have hk : m' = k * 2 ^ (e - e').toNat := by
      rw [zpow_eq_mul he.le, ← mul_assoc] at hvalue
      exact_mod_cast (mul_right_cancel₀ (unit_pos e').ne' hvalue).symm
    have hreached : 2 ^ 52 ≤ k := by
      have hx : (2 : ℚ) ^ 52 ≤ x := h.normal.resolve_left (by omega)
      have hclose : |x - k| ≤ 1 / 2 := heq.trans_le h.close
      have hcast : (2 ^ 52 - 1 : ℚ) < k := by linarith [(abs_le.mp hclose).2]
      have : (2 ^ 52 - 1 : ℤ) < k := by exact_mod_cast hcast
      omega
    have hpow : (2 : ℤ) ≤ 2 ^ (e - e').toNat := le_self_pow₀ one_le_two (by omega)
    have hlarge : (2 ^ 52 * 2 : ℤ) ≤ m' := by
      rw [hk]
      exact mul_le_mul hreached hpow (by norm_num) (by omega)
    have hsmall := (abs_lt.mp hm').2
    omega

/-- There is only one nearest double. -/
theorem eq_of_nearestDouble (h : Scaled x m e) (hsmall : (m : ℚ) * 2 ^ e < 2 ^ (1024 : ℤ)) {r : ℚ}
    (hr : NearestDouble (x * 2 ^ e) r) : r = m * 2 ^ e := by
  have hunit := unit_pos e
  have hm := h.nearestDouble hsmall
  have heq : |x * 2 ^ e - r| = |x * 2 ^ e - m * 2 ^ e| :=
    le_antisymm (hr.nearest _ hm.isDouble) (hm.nearest _ hr.isDouble)
  rcases hr.isDouble.multiple_or e with ⟨k, rfl⟩ | ⟨he, hbelow⟩
  · by_cases hk : k = m
    · rw [hk]
    · rw [abs_sub_mul, abs_sub_mul] at heq
      have heq' := mul_right_cancel₀ hunit.ne' heq
      exfalso
      refine h.not_isEvenDouble hk heq' (hr.even _ hm.isDouble ?_ ?_)
      · intro hsame
        exact hk (by exact_mod_cast (mul_right_cancel₀ hunit.ne' hsame).symm)
      · rw [abs_sub_mul, abs_sub_mul, heq']
  · exact absurd heq (h.lt_of_isDouble he hbelow).ne'

theorem pow_1024 : (2 : ℚ) ^ (1024 : ℤ) = 2 ^ 54 * 2 ^ (970 : ℤ) := by
  rw [← zpow_natCast, ← zpow_add₀ two_ne_zero]
  rfl

/-- At the last unit, the rounded number reaches the next power of two from half a unit below it. -/
theorem significand_eq_iff (h : Scaled x m e) : 2 ^ 53 ≤ m ↔ 2 ^ 53 - 1 / 2 ≤ x := by
  have hclose := abs_le.mp h.close
  constructor
  · intro hm
    have hcast : (2 : ℚ) ^ 53 ≤ m := by exact_mod_cast hm
    linarith
  · intro hx
    by_contra hm
    -- then the number lies halfway between the two, and the lower one is odd
    have hle : (m : ℚ) ≤ 2 ^ 53 - 1 := by
      have : m ≤ 2 ^ 53 - 1 := by omega
      exact_mod_cast this
    have hhalf : |x - m| = 1 / 2 := by
      rw [abs_of_nonneg (by linarith)]
      linarith
    have heq : m = 2 ^ 53 - 1 := by
      have hcast : (m : ℚ) = 2 ^ 53 - 1 := by linarith
      exact_mod_cast hcast
    have hodd := h.even hhalf
    rw [heq] at hodd
    exact absurd hodd (by decide)

/-- The rounded number reaches the power of two beyond all doubles exactly if the number is too
large. -/
theorem tooLarge_iff (h : Scaled x m e) :
    2 ^ (1024 : ℤ) ≤ (m : ℚ) * 2 ^ e ↔ IsTooLarge (x * 2 ^ e) := by
  have hnonneg : 0 ≤ x * 2 ^ e := mul_nonneg h.nonneg (unit_pos e).le
  have hlast := unit_pos 970
  rw [IsTooLarge, abs_of_nonneg hnonneg, pow_1024]
  rcases lt_trichotomy e 971 with hbelow | rfl | habove
  · -- the unit is too small for 53 bits to reach so far
    have hunit : (2 : ℚ) ^ e ≤ 2 ^ (970 : ℤ) := zpow_le_zpow_right₀ one_le_two (by omega)
    have hm : (m : ℚ) ≤ 2 ^ 53 := by exact_mod_cast h.significand_le
    have hrounded := mul_le_mul hm hunit (unit_pos e).le (by norm_num)
    have hexact := mul_le_mul h.bound.le hunit (unit_pos e).le (by norm_num)
    generalize (2 : ℚ) ^ (970 : ℤ) = last at *
    exact iff_of_false (by linarith) (by linarith)
  · have hunit : (2 : ℚ) ^ (971 : ℤ) = 2 * 2 ^ (970 : ℤ) := zpow_one_add₀ two_ne_zero 970
    rw [hunit]
    generalize (2 : ℚ) ^ (970 : ℤ) = last at hlast
    have hdouble : 0 < 2 * last := by linarith
    have hpower : 2 ^ 54 * last = 2 ^ 53 * (2 * last) := by ring
    have hhalfway : 2 ^ 54 * last - last = (2 ^ 53 - 1 / 2) * (2 * last) := by ring
    rw [hhalfway, hpower, mul_le_mul_iff_of_pos_right hdouble, mul_le_mul_iff_of_pos_right hdouble,
      ← h.significand_eq_iff]
    norm_cast
  · -- the unit is so large that 53 bits are beyond
    have hunit : (4 : ℚ) * 2 ^ (970 : ℤ) ≤ 2 ^ e := by
      have hfour : (4 : ℚ) * 2 ^ (970 : ℤ) = 2 ^ (972 : ℤ) := by
        rw [show (972 : ℤ) = 2 + 970 from rfl, zpow_add₀ two_ne_zero]
        norm_num
      rw [hfour]
      exact zpow_le_zpow_right₀ one_le_two (by omega)
    have hm : (2 : ℚ) ^ 52 ≤ m := by
      exact_mod_cast h.significand_normal.resolve_left (by omega)
    have hx : (2 : ℚ) ^ 52 ≤ x := h.normal.resolve_left (by omega)
    generalize (2 : ℚ) ^ (970 : ℤ) = last at *
    have hrounded := mul_le_mul hm hunit (by linarith) (by linarith)
    have hexact := mul_le_mul hx hunit (by linarith) (by linarith)
    exact iff_of_true (by linarith) (by linarith)

end Scaled

/-! ## Doubles and whole numbers -/

theorem isDouble_of_abs_le {n : ℤ} (hn : |n| ≤ 2 ^ 53) : IsDouble n := by
  rcases hn.lt_or_eq with hlt | heq
  · exact ⟨n, 0, hlt, by norm_num, by norm_num, by simp⟩
  · -- the significand of this power of two has one bit
    rcases eq_or_eq_neg_of_abs_eq heq with rfl | rfl
    · exact ⟨1, 53, by norm_num, by norm_num, by norm_num, by norm_num⟩
    · exact ⟨-1, 53, by norm_num, by norm_num, by norm_num, by norm_num⟩

theorem isDouble_least64 : IsDouble (-2 ^ 63 : ℤ) :=
  ⟨-1, 63, by norm_num, by norm_num, by norm_num, by norm_num⟩

/-- The floor of a double is a double. -/
theorem IsDouble.floor {r : ℚ} (h : IsDouble r) : IsDouble ⌊r⌋ := by
  obtain ⟨m, e, hm, hlow, hhigh, rfl⟩ := h
  by_cases he : 0 ≤ e
  · -- a whole multiple of a whole number
    have hwhole : (m : ℚ) * 2 ^ e = (m * 2 ^ e.toNat : ℤ) := by
      rw [Int.cast_mul, Int.cast_pow, Int.cast_ofNat, ← zpow_natCast, Int.toNat_of_nonneg he]
    rw [hwhole, Int.floor_intCast, ← hwhole]
    exact ⟨m, e, hm, hlow, hhigh, rfl⟩
  · -- a fraction of the significand
    have hunit : (2 : ℚ) ^ e ≤ 1 := zpow_le_one_of_nonpos₀ one_le_two (by omega)
    have hsmall : |(m : ℚ) * 2 ^ e| ≤ |m| := by
      rw [abs_mul, abs_of_pos (unit_pos e), Int.cast_abs]
      exact mul_le_of_le_one_right (abs_nonneg _) hunit
    obtain ⟨hleft, hright⟩ := abs_le.mp hsmall
    refine isDouble_of_abs_le (abs_le.mpr ⟨?_, ?_⟩)
    · refine Int.le_floor.mpr (le_trans ?_ hleft)
      exact_mod_cast neg_le_neg hm.le
    · have hfloor := (Int.floor_le _).trans hright
      have hcast : ⌊(m : ℚ) * 2 ^ e⌋ ≤ |m| := by exact_mod_cast hfloor
      exact hcast.trans hm.le

/-- No double is too large. -/
theorem IsDouble.not_isTooLarge {r : ℚ} (h : IsDouble r) : ¬ IsTooLarge r := by
  obtain ⟨m, e, hm, -, hhigh, rfl⟩ := h
  have hlast := unit_pos 970
  have hunit : (2 : ℚ) ^ e ≤ 2 * 2 ^ (970 : ℤ) := by
    rw [← zpow_one_add₀ two_ne_zero 970]
    exact zpow_le_zpow_right₀ one_le_two (by omega)
  have hcast : (|m| : ℚ) ≤ 2 ^ 53 - 1 := by
    have hle : |m| ≤ 2 ^ 53 - 1 := by omega
    exact_mod_cast hle
  rw [IsTooLarge, abs_mul, abs_of_pos (unit_pos e), Scaled.pow_1024, not_le]
  generalize (2 : ℚ) ^ (970 : ℤ) = last at *
  calc |(m : ℚ)| * 2 ^ e ≤ (2 ^ 53 - 1) * (2 * last) :=
        mul_le_mul hcast hunit (unit_pos e).le (by norm_num)
    _ < 2 ^ 54 * last - last := by linarith

/-! ## Numbers that are out of range at sight -/

theorem IsDouble.eq_zero_or_le {s : ℚ} (h : IsDouble s) : s = 0 ∨ 2 ^ (-1074 : ℤ) ≤ |s| := by
  obtain ⟨m, e, -, hlow, -, rfl⟩ := h
  by_cases hm : m = 0
  · exact .inl (by simp [hm])
  · have hone : (1 : ℚ) ≤ |(m : ℚ)| := by exact_mod_cast Int.one_le_abs hm
    refine .inr ?_
    rw [abs_mul, abs_of_pos (unit_pos e)]
    calc (2 : ℚ) ^ (-1074 : ℤ) ≤ 2 ^ e := zpow_le_zpow_right₀ one_le_two hlow
      _ ≤ |(m : ℚ)| * 2 ^ e := le_mul_of_one_le_left (unit_pos e).le hone

/-- A number below half the least double is rounded to zero. -/
theorem nearestDouble_zero {q : ℚ} (h : |q| < 2 ^ (-1075 : ℤ)) : NearestDouble q 0 := by
  have hhalf : (2 : ℚ) ^ (-1074 : ℤ) = 2 * 2 ^ (-1075 : ℤ) := zpow_one_add₀ two_ne_zero (-1075)
  have hnearer : ∀ s, IsDouble s → s ≠ 0 → |q - 0| < |q - s| := by
    intro s hs hne
    have hle := hs.eq_zero_or_le.resolve_left hne
    have hsum := abs_sub_abs_le_abs_sub s q
    rw [abs_sub_comm s q] at hsum
    rw [sub_zero]
    linarith
  refine ⟨isDouble_zero, fun s hs => ?_, fun s hs hne heq => ?_⟩
  · by_cases hne : s = 0
    · rw [hne]
    · exact (hnearer s hs hne).le
  · exact absurd heq (hnearer s hs hne).ne'

theorem roundsTo_zero {q : ℚ} (h : |q| < 2 ^ (-1075 : ℤ)) : RoundsTo q (some 0) := by
  have hunit : (2 : ℚ) ^ (-1075 : ℤ) ≤ 2 ^ (970 : ℤ) := zpow_le_zpow_right₀ one_le_two (by norm_num)
  have hlast := unit_pos 970
  refine .finite ?_ (nearestDouble_zero h)
  rw [IsTooLarge, Scaled.pow_1024, not_le]
  generalize (2 : ℚ) ^ (970 : ℤ) = last at *
  linarith

/-- A double is rounded to itself. -/
theorem IsDouble.roundsTo {q : ℚ} {r : Option ℚ} (hq : IsDouble q) (h : RoundsTo q r) :
    r = some q := by
  cases h with
  | finite _ hnearest => rw [hnearest.eq_of_isDouble hq]
  | infinite hlarge => exact absurd hlarge hq.not_isTooLarge

end CestWriter
