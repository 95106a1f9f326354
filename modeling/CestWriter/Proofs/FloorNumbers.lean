import CestWriter.Proofs.Numerals
import CestWriter.Proofs.ProjectJson
import CestWriter.Proofs.Rounding
import CestWriter.Proofs.Trimming

/-!
# Whole numbers from numeric parameters

What a numeric parameter comes to, over exact numbers: the double nearest to the number that it
writes, the floor of that double, and the nearest whole number of 64 bits. A parameter that was made
a whole number stays as it is when this is done again. The floor of a double is a double, and so is
the least number of 64 bits; the largest is none, but the double next to it comes back to it.
-/

namespace CestWriter

open NumberLiteral (digitsIn)

/-! ## The nearest double of a decimal -/

namespace Decimal

/-- The exact value without the sign. -/
def magnitude (d : Decimal) : ℚ :=
  d.digits * 10 ^ d.exponent

theorem ten_zpow_eq {e : ℤ} (he : 0 ≤ e) : (10 : ℚ) ^ e = ((Nat.pow 10 e.toNat : ℕ) : ℚ) := by
  rw [Nat.pow_eq, Nat.cast_pow, Nat.cast_ofNat, ← zpow_natCast, Int.toNat_of_nonneg he]

theorem two_zpow_le {e : ℤ} (he : 0 ≤ e) : (2 : ℚ) ^ (3 * e) ≤ 10 ^ e := by
  rw [zpow_mul]
  exact zpow_le_zpow_left₀ he (by norm_num) (by norm_num)

/-- A digit and 400 zeros are too large. -/
theorem isTooLarge_of_exponent {digits : Nat} {e : ℤ} (hdigits : 0 < digits) (he : 400 < e) :
    IsTooLarge (digits * 10 ^ e) := by
  have hdigits : (1 : ℚ) ≤ digits := by exact_mod_cast hdigits
  have hpow : (2 : ℚ) ^ (1024 : ℤ) ≤ 10 ^ e :=
    (zpow_le_zpow_right₀ one_le_two (by omega)).trans (two_zpow_le (by omega))
  have hlast := unit_pos 970
  rw [IsTooLarge, abs_of_nonneg (by positivity)]
  generalize (2 : ℚ) ^ (970 : ℤ) = last at *
  generalize (2 : ℚ) ^ (1024 : ℤ) = top at *
  calc top - last ≤ 1 * 10 ^ e := by linarith
    _ ≤ digits * 10 ^ e := mul_le_mul_of_nonneg_right hdigits (by positivity)

/-- So many zeros after the point that the digits cannot make up for them. -/
theorem magnitude_lt_of_exponent {digits : Nat} {e : ℤ} (hdigits : 0 < digits)
    (he : e < -(400 + digits.log2 : ℤ)) : (digits * 10 ^ e : ℚ) < 2 ^ (-1075 : ℤ) := by
  have hpow : (10 : ℚ) ^ e ≤ 2 ^ (3 * e) := by
    have hinv := inv_anti₀ (unit_pos _) (two_zpow_le (show 0 ≤ -e by omega))
    rwa [← zpow_neg, ← zpow_neg, mul_neg, neg_neg, neg_neg] at hinv
  calc (digits * 10 ^ e : ℚ) ≤ digits * 2 ^ (3 * e) :=
        mul_le_mul_of_nonneg_left hpow digits.cast_nonneg
    _ < 2 ^ (digits.log2 + 1 : ℤ) * 2 ^ (3 * e) :=
        mul_lt_mul_of_pos_right (Dyadic.log2_bounds hdigits).2 (unit_pos _)
    _ = 2 ^ (digits.log2 + 1 + 3 * e : ℤ) := (zpow_add₀ two_ne_zero _ _).symm
    _ ≤ 2 ^ (-1075 : ℤ) := zpow_le_zpow_right₀ one_le_two (by omega)

theorem roundsTo_nearest? (d : Decimal) : RoundsTo d.magnitude (d.nearest?.map Dyadic.value) := by
  have hzero : Dyadic.value ⟨0, 0⟩ = 0 := by simp [Dyadic.value]
  rw [magnitude, nearest?]
  split
  · next hdigits =>
    rw [hdigits, Nat.cast_zero, zero_mul, Option.map_some, hzero]
    exact roundsTo_zero (by rw [abs_zero]; exact unit_pos _)
  · next hdigits =>
    have hdigits : 0 < d.digits := Nat.pos_of_ne_zero hdigits
    split
    · next he => exact .infinite (isTooLarge_of_exponent hdigits he)
    · split
      · next he =>
        rw [Option.map_some, hzero]
        refine roundsTo_zero ?_
        rw [abs_of_nonneg (by positivity)]
        exact magnitude_lt_of_exponent hdigits he
      · split
        · next he =>
          have hround := Dyadic.roundsTo_nearest? (d.digits * Nat.pow 10 d.exponent.toNat) one_pos
          rwa [Nat.cast_mul, ← ten_zpow_eq he, Nat.cast_one, div_one] at hround
        · next he =>
          have hden : 0 < Nat.pow 10 (-d.exponent).toNat := Nat.pow_pos (by norm_num)
          have hround := Dyadic.roundsTo_nearest? d.digits hden
          rwa [← ten_zpow_eq (by omega), zpow_neg, div_inv_eq_mul] at hround

end Decimal

/-! ## The floor -/

theorem Dyadic.floor_eq (negative : Bool) (d : Dyadic) :
    d.floor negative = ⌊signed negative d.value⌋ := by
  -- the sign belongs to the significand
  have hsigned : signed negative d.value =
      ((if negative then -(d.significand : ℤ) else d.significand : ℤ) : ℚ) * 2 ^ d.exponent := by
    cases negative <;> simp [signed, Dyadic.value]
  rw [hsigned]
  simp only [Dyadic.floor]
  generalize (if negative then -(d.significand : ℤ) else d.significand : ℤ) = m
  split
  · next he =>
    rw [Dyadic.zpow_eq_pow_toNat he, ← Int.cast_natCast, ← Int.cast_mul, Int.floor_intCast]
    exact congrArg (m * ·) (Nat.cast_pow 2 _).symm
  · next he =>
    have hunit : (2 : ℚ) ^ d.exponent = ((Nat.pow 2 (-d.exponent).toNat : ℕ) : ℚ)⁻¹ := by
      rw [← Dyadic.zpow_eq_pow_toNat (by omega), zpow_neg, inv_inv]
    rw [hunit, ← div_eq_mul_inv, Rat.floor_intCast_div_natCast]
    exact congrArg (m / ·) (Nat.cast_pow 2 _).symm

theorem RoundsTo.signed {q : ℚ} {r : Option ℚ} (negative : Bool) (h : RoundsTo q r) :
    RoundsTo (signed negative q) (r.map (signed negative)) := by
  cases negative with
  | false =>
    have hsame : CestWriter.signed false = id := rfl
    rwa [hsame, Option.map_id]
  | true => exact h.neg

/-- The floor of a decimal is that of the double to which it is rounded. -/
theorem Decimal.floor?_spec (d : Decimal) :
    ∃ r, RoundsTo d.value r ∧ d.floor? = r.map fun r => clamp64 ⌊r⌋ := by
  refine ⟨_, d.roundsTo_nearest?.signed d.negative, ?_⟩
  rw [floor?, Option.map_map, Option.map_map]
  congr 1
  funext x
  rw [Function.comp_apply, Function.comp_apply, Dyadic.floor_eq]

/-- What a numeric parameter comes to. -/
inductive FloorsTo (s : String) : String → Prop
  /-- The floor of the nearest double, as far as 64 bits go. -/
  | finite {q r : ℚ} (hread : Numeral.Denotes (Text.trim s.toList) q)
    (hround : RoundsTo q (some r)) : FloorsTo s (Decimal.clamp64 ⌊r⌋).repr
  /-- The text of a number that is too large stays, without the blanks around it. -/
  | infinite {q : ℚ} (hread : Numeral.Denotes (Text.trim s.toList) q) (hround : RoundsTo q none) :
    FloorsTo s (Text.trimmed s)
  /-- So does the text of what is no finite number. -/
  | other (hread : ∀ q, ¬ Numeral.Denotes (Text.trim s.toList) q) : FloorsTo s (Text.trimmed s)

theorem floorsTo_floorText (s : String) : FloorsTo s (floorText s) := by
  simp only [floorText]
  split
  · next d hread =>
    have hdenotes : Numeral.Denotes (Text.trim s.toList) d.value :=
      Numeral.denotes_iff.mpr ⟨d, hread, rfl⟩
    obtain ⟨r, hround, hfloor⟩ := d.floor?_spec
    cases r with
    | none =>
      rw [hfloor]
      exact .infinite hdenotes hround
    | some r =>
      rw [hfloor]
      exact .finite hdenotes hround
  · next hread =>
    refine .other fun q hdenotes => ?_
    obtain ⟨d, hd, -⟩ := Numeral.denotes_iff.mp hdenotes
    exact hread d hd

theorem FloorsTo.unique {s t t' : String} (h : FloorsTo s t) (h' : FloorsTo s t') : t = t' := by
  cases h with
  | finite hread hround =>
    cases h' with
    | finite hread' hround' =>
      cases hread.unique hread'
      cases hround.unique hround'
      rfl
    | infinite hread' hround' =>
      cases hread.unique hread'
      cases hround.unique hround'
    | other hread' => exact absurd hread (hread' _)
  | infinite hread hround =>
    cases h' with
    | finite hread' hround' =>
      cases hread.unique hread'
      cases hround.unique hround'
    | infinite _ _ => rfl
    | other _ => rfl
  | other hread =>
    cases h' with
    | finite hread' _ => exact absurd hread' (hread _)
    | infinite _ _ => rfl
    | other _ => rfl

/-- The computation gives what a numeric parameter comes to, and nothing else is. -/
theorem floorsTo_iff {s t : String} : FloorsTo s t ↔ t = floorText s := by
  refine ⟨fun h => h.unique (floorsTo_floorText s), ?_⟩
  rintro rfl
  exact floorsTo_floorText s

/-! ## Whole numbers as text -/

theorem isDigit_of_mem_natRepr {n : Nat} : ∀ c ∈ n.repr.toList, c.isDigit = true := by
  intro c hc
  rw [Nat.toList_repr] at hc
  exact Nat.isDigit_of_mem_toDigits (by decide) (by decide) hc

theorem mem_intRepr {n : ℤ} {c : Char} (h : c ∈ n.repr.toList) : c = '-' ∨ c.isDigit = true := by
  cases n with
  | ofNat m => exact .inr (isDigit_of_mem_natRepr c h)
  | negSucc m =>
    simp only [Int.repr, String.toList_append, List.mem_append] at h
    rcases h with h | h
    · exact .inl (by simpa using h)
    · exact .inr (isDigit_of_mem_natRepr c h)

theorem isBlank_of_mem_intRepr {n : ℤ} {c : Char} (h : c ∈ n.repr.toList) :
    Text.isBlank c = false := by
  rcases mem_intRepr h with rfl | hdigit
  · decide
  · have hbounds : 48 ≤ c.toNat ∧ c.toNat ≤ 57 := by
      simpa [Char.isDigit, UInt32.le_iff_toNat_le] using hdigit
    simp only [Text.isBlank, Bool.or_eq_false_iff, Bool.and_eq_false_imp, beq_eq_false_iff_ne,
      decide_eq_true_eq, decide_eq_false_iff_not]
    omega

theorem digitsIn_natRepr (n : Nat) : digitsIn 10 n.repr.toList = n := by
  rw [Nat.toList_repr]
  exact Json.Value.foldl_toDigits n

theorem denotes_natRepr {negative : Bool} {sign : List Char} (hsign : Numeral.IsSign negative sign)
    (n : Nat) : Numeral.Denotes (sign ++ n.repr.toList) (signed negative n) := by
  have hne : n.repr.toList ≠ [] := by
    rw [Nat.toList_repr]
    exact Nat.toDigits_ne_nil
  have h := Numeral.Denotes.decimal hsign isDigit_of_mem_natRepr .absent (.inl hne) .absent
  have hnone : digitsIn 10 [] = 0 := rfl
  rw [digitsIn_natRepr, hnone] at h
  simpa using h

/-- The text of a whole number denotes this number. -/
theorem denotes_intRepr (n : ℤ) : Numeral.Denotes n.repr.toList n := by
  cases n with
  | ofNat m => exact denotes_natRepr .absent m
  | negSucc m =>
    have hrepr : (Int.negSucc m).repr.toList = ['-'] ++ (m + 1).repr.toList := by
      rw [Int.repr, String.toList_append]
      rfl
    have h := denotes_natRepr .minus (m + 1)
    rw [hrepr]
    simpa [signed] using h

/-! ## Doing it again -/

theorem clamp64_eq_self {n : ℤ} (hlow : -2 ^ 63 ≤ n) (hhigh : n < 2 ^ 63) :
    Decimal.clamp64 n = n := by
  change max (-2 ^ 63) (min (2 ^ 63 - 1) n) = n
  omega

theorem clamp64_of_le {n : ℤ} (h : 2 ^ 63 ≤ n) : Decimal.clamp64 n = 2 ^ 63 - 1 := by
  change max (-2 ^ 63) (min (2 ^ 63 - 1) n) = 2 ^ 63 - 1
  omega

theorem clamp64_of_lt {n : ℤ} (h : n < -2 ^ 63) : Decimal.clamp64 n = -2 ^ 63 := by
  change max (-2 ^ 63) (min (2 ^ 63 - 1) n) = -2 ^ 63
  omega

/-- What the text of a whole number comes to, with any blanks around it. -/
theorem floorText_surrounded {n k : ℤ} {before after : String}
    (hbefore : ∀ c ∈ before.toList, Text.isBlank c = true)
    (hafter : ∀ c ∈ after.toList, Text.isBlank c = true)
    (hround : ∀ r, RoundsTo n r → r.map (fun r => Decimal.clamp64 ⌊r⌋) = some k) :
    floorText (before ++ n.repr ++ after) = k.repr := by
  have htrim : Text.trim (before ++ n.repr ++ after).toList = n.repr.toList := by
    rw [String.toList_append, String.toList_append]
    exact Text.trim_surrounded hbefore hafter
      (fun c hc => isBlank_of_mem_intRepr (List.mem_of_mem_head? hc))
      (fun c hc => isBlank_of_mem_intRepr (List.mem_of_getLast? hc))
  obtain ⟨d, hread, hvalue⟩ := Numeral.denotes_iff.mp (denotes_intRepr n)
  obtain ⟨r, hr, hfloor⟩ := d.floor?_spec
  rw [hvalue] at hr
  simp only [floorText, htrim, hread, hfloor, hround r hr]

theorem floorText_repr {n k : ℤ}
    (hround : ∀ r, RoundsTo n r → r.map (fun r => Decimal.clamp64 ⌊r⌋) = some k) :
    floorText n.repr = k.repr := by
  have h := @floorText_surrounded n k "" "" (by simp) (by simp) hround
  rwa [String.empty_append, String.append_empty] at h

theorem clamp64_of_isDouble {n : ℤ} (hn : IsDouble n) :
    ∀ r, RoundsTo n r → r.map (fun r => Decimal.clamp64 ⌊r⌋) = some (Decimal.clamp64 n) := by
  intro r hr
  rw [hn.roundsTo hr, Option.map_some, Int.floor_intCast]

theorem isDouble_next64 : IsDouble (2 ^ 63) :=
  ⟨1, 63, by norm_num, by norm_num, by norm_num, by norm_num⟩

/-- The largest number of 64 bits is no double; the one next to it lies above all of them. -/
theorem le_of_nearest_largest64 {r : ℚ} (h : NearestDouble (2 ^ 63 - 1 : ℤ) r) : 2 ^ 63 ≤ r := by
  have hclose := h.nearest _ isDouble_next64
  have hone : |((2 ^ 63 - 1 : ℤ) : ℚ) - 2 ^ 63| = 1 := by norm_num
  rw [hone] at hclose
  push_cast at hclose
  have hbounds := abs_le.mp hclose
  rcases h.isDouble.multiple_or 10 with ⟨k, rfl⟩ | ⟨-, hbelow⟩
  · -- doubles of this size are multiples of 1024
    have hk : (2 ^ 63 - 2 : ℤ) ≤ k * 1024 := by
      have hcast : (2 ^ 63 - 2 : ℚ) ≤ k * 1024 := by linarith
      exact_mod_cast hcast
    have hk' : (2 ^ 63 : ℤ) ≤ k * 1024 := by omega
    exact_mod_cast hk'
  · exfalso
    norm_num at hbelow
    linarith

theorem clamp64_of_largest64 :
    ∀ r, RoundsTo (2 ^ 63 - 1 : ℤ) r →
      r.map (fun r => Decimal.clamp64 ⌊r⌋) = some (2 ^ 63 - 1) := by
  intro r hr
  cases hr with
  | finite _ hnearest =>
    have hle := le_of_nearest_largest64 hnearest
    rw [Option.map_some, clamp64_of_le (Int.le_floor.mpr (by exact_mod_cast hle))]
  | infinite hlarge =>
    refine absurd (hlarge.trans ?_) isDouble_next64.not_isTooLarge
    norm_num

/-- A whole number that was limited to 64 bits after the floor of a double stays. -/
theorem floorText_clamp64 {r : ℚ} (hr : IsDouble r) :
    floorText (Decimal.clamp64 ⌊r⌋).repr = (Decimal.clamp64 ⌊r⌋).repr := by
  rcases lt_or_ge ⌊r⌋ (-2 ^ 63) with hlow | hlow
  · rw [clamp64_of_lt hlow]
    have h := floorText_repr (clamp64_of_isDouble isDouble_least64)
    rwa [clamp64_eq_self le_rfl (by norm_num)] at h
  · rcases lt_or_ge ⌊r⌋ (2 ^ 63) with hhigh | hhigh
    · have h := floorText_repr (clamp64_of_isDouble hr.floor)
      rwa [clamp64_eq_self hlow hhigh] at h ⊢
    · rw [clamp64_of_le hhigh]
      exact floorText_repr clamp64_of_largest64

theorem floorText_trimmed (s : String) : floorText (Text.trimmed s) = floorText s := by
  rw [floorText, floorText, Text.trimmed, String.toList_ofList, Text.trim_trim]

theorem floorText_floorText (s : String) : floorText (floorText s) = floorText s := by
  have h := floorsTo_floorText s
  generalize htext : floorText s = t at h ⊢
  cases h with
  | finite _ hround =>
    cases hround with
    | finite _ hnearest => exact floorText_clamp64 hnearest.isDouble
  | infinite _ _ => rw [floorText_trimmed, htext]
  | other _ => rw [floorText_trimmed, htext]

theorem floorText_of_abs_le {n : ℤ} (hn : |n| ≤ 2 ^ 53) {before after : String}
    (hbefore : ∀ c ∈ before.toList, Text.isBlank c = true)
    (hafter : ∀ c ∈ after.toList, Text.isBlank c = true) :
    floorText (before ++ n.repr ++ after) = n.repr := by
  have hbounds := abs_le.mp hn
  have hclamp : Decimal.clamp64 n = n := clamp64_eq_self (by linarith) (by linarith)
  have hround := clamp64_of_isDouble (isDouble_of_abs_le hn)
  rw [hclamp] at hround
  exact floorText_surrounded hbefore hafter hround

/-- A number that is a double is not rounded. -/
theorem floorsTo_of_isDouble {s : String} {q : ℚ} (hread : Numeral.Denotes (Text.trim s.toList) q)
    (hq : IsDouble q) : FloorsTo s (Decimal.clamp64 ⌊q⌋).repr :=
  .finite hread (.finite hq.not_isTooLarge hq.nearestDouble)

/-- A numeric parameter comes to the floor of the nearest double, as far as 64 bits go, or to itself
without the blanks around it; doing this again changes nothing. A whole number up to `2 ^ 53` stays,
whatever blanks are around it. -/
theorem floorText_stable_and_exact :
    (∀ s t, FloorsTo s t ↔ t = floorText s) ∧ (∀ s, floorText (floorText s) = floorText s) ∧
      ∀ n : ℤ, |n| ≤ 2 ^ 53 → ∀ before after : String,
        (∀ c ∈ before.toList, Text.isBlank c = true) →
          (∀ c ∈ after.toList, Text.isBlank c = true) →
            floorText (before ++ n.repr ++ after) = n.repr :=
  ⟨fun _ _ => floorsTo_iff, floorText_floorText,
    fun _ hn _ _ hbefore hafter => floorText_of_abs_le hn hbefore hafter⟩

/-- A negative fraction goes down to the next whole number. -/
theorem floorsTo_negativeFraction : FloorsTo " -2.5" "-3" := by
  have htrim : Text.trim " -2.5".toList = ['-'] ++ (['2'] ++ (['.', '5'] ++ [])) := by decide
  have hvalue : (-5 / 2 : ℚ) =
      signed true ((digitsIn 10 ['2'] + digitsIn 10 ['5'] / 10 ^ ['5'].length) * 10 ^ (0 : ℤ)) := by
    have htwo : digitsIn 10 ['2'] = 2 := by decide
    have hfive : digitsIn 10 ['5'] = 5 := by decide
    rw [htwo, hfive]
    norm_num [signed]
  have hread : Numeral.Denotes (Text.trim " -2.5".toList) (-5 / 2) := by
    rw [htrim, hvalue]
    exact .decimal .minus (by simp) (.point (by simp)) (.inl (by simp)) .absent
  have hdouble : IsDouble (-5 / 2) :=
    ⟨-5, -1, by norm_num, by norm_num, by norm_num, by norm_num⟩
  have hfloor : ⌊(-5 / 2 : ℚ)⌋ = -3 := by norm_num
  have h := floorsTo_of_isDouble hread hdouble
  rw [hfloor] at h
  exact h

/-- A power of ten beyond 64 bits is cut at their upper end. -/
theorem floorsTo_largePower : FloorsTo "1e22" "9223372036854775807" := by
  have htrim : Text.trim "1e22".toList = [] ++ (['1'] ++ ([] ++ 'e' :: ([] ++ ['2', '2']))) := by
    decide
  have hvalue : (10 ^ 22 : ℚ) =
      signed false ((digitsIn 10 ['1'] + digitsIn 10 [] / 10 ^ (0 : ℕ)) *
        10 ^ (digitsIn 10 ['2', '2'] : ℤ)) := by
    have hone : digitsIn 10 ['1'] = 1 := by decide
    have hnone : digitsIn 10 [] = 0 := by decide
    have hpower : digitsIn 10 ['2', '2'] = 22 := by decide
    rw [hone, hnone, hpower]
    norm_num [signed]
  have hread : Numeral.Denotes (Text.trim "1e22".toList) (10 ^ 22) := by
    rw [htrim, hvalue]
    exact .decimal .absent (by simp) .absent (.inl (by simp))
      (.power (.inl rfl) .absent (by simp) (by simp))
  have hdouble : IsDouble (10 ^ 22) :=
    ⟨5 ^ 22, 22, by norm_num, by norm_num, by norm_num, by norm_num⟩
  have hfloor : ⌊(10 ^ 22 : ℚ)⌋ = 10 ^ 22 := by norm_num
  have h := floorsTo_of_isDouble hread hdouble
  rw [hfloor, clamp64_of_le (by norm_num)] at h
  exact h

/-- At the least such number, between a no-break space and a line end; at a negative fraction; and
at a number beyond 64 bits, which stays at their upper end when this is done again. -/
theorem floorText_stable_and_exact_least :
    |(-2 ^ 53 : ℤ)| ≤ 2 ^ 53 ∧ (∀ c ∈ "\u00a0".toList, Text.isBlank c = true) ∧
      (∀ c ∈ "\n".toList, Text.isBlank c = true) ∧
        floorText ("\u00a0" ++ (-2 ^ 53 : ℤ).repr ++ "\n") = (-2 ^ 53 : ℤ).repr ∧
          floorText " -2.5" = "-3" ∧ floorText "1e22" = "9223372036854775807" ∧
            floorText "9223372036854775807" = "9223372036854775807" := by
  have hbefore : ∀ c ∈ "\u00a0".toList, Text.isBlank c = true := by
    simp [Text.isBlank]
  have hafter : ∀ c ∈ "\n".toList, Text.isBlank c = true := by
    simp [Text.isBlank]
  obtain ⟨hfloors, hstable, hexact⟩ := floorText_stable_and_exact
  have hlarge := ((hfloors _ _).mp floorsTo_largePower).symm
  have hagain := hstable "1e22"
  rw [hlarge] at hagain
  exact ⟨by norm_num, hbefore, hafter, hexact (-2 ^ 53) (by norm_num) _ _ hbefore hafter,
    ((hfloors _ _).mp floorsTo_negativeFraction).symm, hlarge, hagain⟩

end CestWriter
