import CestWriter.Proofs.InterpolatedText
import CestWriter.Proofs.LetterCase
import Mathlib.Algebra.Field.Rat
import Mathlib.Data.List.Induction
import Mathlib.Tactic.FieldSimp
import Mathlib.Tactic.NormNum
import Mathlib.Tactic.Ring

/-!
# Numbers without quotes

A recorded number made of digits, points and minus signs is written without quotes and as it is.
Where the generated code runs, a number is read in base ten, unless it has several digits, no point
and a zero in front: then it is read in base eight, and refused if an eight or a nine is among the
digits. So a number keeps its meaning exactly if it is not of this form. If it is, it keeps its
value only by chance, when all digits but the last are zeros.
-/

namespace CestWriter

/-- A value, or its negation. -/
def signed (negative : Bool) (q : ℚ) : ℚ :=
  if negative then -q else q

/-- The exact value of a decimal. -/
def Decimal.value (d : Decimal) : ℚ :=
  signed d.negative (d.digits * 10 ^ d.exponent)

namespace NumberLiteral

/-! ## How the generated code reads numbers -/

/-- The number that digits write in a base. -/
def digitsIn (base : Nat) (cs : List Char) : Nat :=
  cs.foldl (fun n c => n * base + (c.toNat - '0'.toNat)) 0

/-- Whether a character is a digit of base eight. -/
def isOctalDigit (c : Char) : Bool :=
  c.isDigit && c.toNat < '8'.toNat

/-- Whether a text is made of several digits of which the first is a zero. -/
def leadsWithZero : List Char → Bool
  | '0' :: c :: cs => (c :: cs).all Char.isDigit
  | _ => false

/-- A number without sign as the generated code reads it: the base, the characters and the value.
Digits are read in base ten, unless there are several and the first is a zero. A point stands
before, behind or between digits. -/
inductive Reads : Nat → List Char → ℚ → Prop
  | whole {digits : List Char} (hne : digits ≠ []) (hdigits : ∀ c ∈ digits, c.isDigit = true)
    (hplain : leadsWithZero digits = false) : Reads 10 digits (digitsIn 10 digits)
  | octal {digits : List Char} (hne : digits ≠ [])
    (hdigits : ∀ c ∈ digits, isOctalDigit c = true) : Reads 8 ('0' :: digits) (digitsIn 8 digits)
  | point {whole part : List Char} (hne : whole ≠ [] ∨ part ≠ [])
    (hwhole : ∀ c ∈ whole, c.isDigit = true) (hpart : ∀ c ∈ part, c.isDigit = true) :
    Reads 10 (whole ++ '.' :: part) (digitsIn 10 whole + digitsIn 10 part / 10 ^ part.length)

/-- A number with an optional minus as the generated code reads it. -/
def ReadsNumber (base : Nat) (cs : List Char) (q : ℚ) : Prop :=
  Reads base cs q ∨ ∃ rest r, cs = '-' :: rest ∧ Reads base rest r ∧ q = -r

/-- The text is read in base ten as this value, and in no other way. -/
def Keeps (cs : List Char) (q : ℚ) : Prop :=
  ∀ base r, ReadsNumber base cs r ↔ base = 10 ∧ r = q

/-- Whether a minus stands in front of a text. -/
def isNegative (cs : List Char) : Bool :=
  cs.head? == some '-'

/-- A text without the minus in front of it. -/
def unsigned : List Char → List Char
  | '-' :: cs => cs
  | cs => cs

/-! ## Digits -/

theorem isDigit_of_isOctalDigit {c : Char} (h : isOctalDigit c = true) : c.isDigit = true :=
  (Bool.and_eq_true_iff.mp h).1

theorem ofDigits_eq (cs : List Char) : Numeral.ofDigits cs = digitsIn 10 cs :=
  rfl

theorem digitsIn_concat (base : Nat) (cs : List Char) (c : Char) :
    digitsIn base (cs ++ [c]) = digitsIn base cs * base + (c.toNat - '0'.toNat) := by
  rw [digitsIn, List.foldl_append]
  rfl

theorem digitsIn_append (base : Nat) (cs ds : List Char) :
    digitsIn base (cs ++ ds) = digitsIn base cs * base ^ ds.length + digitsIn base ds := by
  induction ds using List.reverseRecOn with
  | nil => simp [digitsIn]
  | append_singleton ds c ih =>
    rw [← List.append_assoc, digitsIn_concat, ih, digitsIn_concat, List.length_append,
      List.length_singleton]
    ring

theorem digitsIn_zero_cons (base : Nat) (cs : List Char) :
    digitsIn base ('0' :: cs) = digitsIn base cs := by
  simp [digitsIn]

theorem digitsIn_eight_le (cs : List Char) : digitsIn 8 cs ≤ digitsIn 10 cs := by
  induction cs using List.reverseRecOn with
  | nil => rfl
  | append_singleton cs c ih =>
    rw [digitsIn_concat, digitsIn_concat]
    omega

theorem eq_zero_char_iff {c : Char} (h : c.isDigit = true) : c.toNat - '0'.toNat = 0 ↔ c = '0' := by
  obtain ⟨hlow, -⟩ := Char.isDigit_iff_toNat.mp h
  constructor
  · intro hzero
    apply Char.toNat_inj.mp
    omega
  · rintro rfl
    rfl

theorem digitsIn_ten_eq_zero_iff {cs : List Char} (h : ∀ c ∈ cs, c.isDigit = true) :
    digitsIn 10 cs = 0 ↔ ∀ c ∈ cs, c = '0' := by
  induction cs using List.reverseRecOn with
  | nil => simp [digitsIn]
  | append_singleton cs c ih =>
    have hcs := ih fun d hd => h d (List.mem_append_left _ hd)
    have hc := eq_zero_char_iff (h c (List.mem_append_right _ List.mem_cons_self))
    rw [digitsIn_concat, Nat.add_eq_zero_iff, Nat.mul_eq_zero, or_iff_left (by decide), hcs, hc]
    simp [or_imp, forall_and]

/-- Digits write the same number in base eight and in base ten if all but the last are zeros. -/
theorem digitsIn_eight_eq_iff {cs : List Char} (h : ∀ c ∈ cs, c.isDigit = true) :
    digitsIn 8 cs = digitsIn 10 cs ↔ ∀ c ∈ cs.dropLast, c = '0' := by
  rcases List.eq_nil_or_concat cs with rfl | ⟨before, c, rfl⟩
  · simp [digitsIn]
  · rw [List.concat_eq_append] at h ⊢
    have hzero := digitsIn_ten_eq_zero_iff fun d hd => h d (List.mem_append_left [c] hd)
    have hle := digitsIn_eight_le before
    rw [List.dropLast_concat, ← hzero, digitsIn_concat, digitsIn_concat]
    omega

/-! ## The forms of a number -/

theorem leadsWithZero_iff {cs : List Char} :
    leadsWithZero cs = true ↔
      ∃ digits, cs = '0' :: digits ∧ digits ≠ [] ∧ ∀ c ∈ digits, c.isDigit = true := by
  constructor
  · intro h
    unfold leadsWithZero at h
    split at h
    · next c digits => exact ⟨c :: digits, rfl, List.cons_ne_nil c digits, List.all_eq_true.mp h⟩
    · cases h
  · rintro ⟨digits, rfl, hne, hdigits⟩
    obtain ⟨c, rest, rfl⟩ := List.exists_cons_of_ne_nil hne
    exact List.all_eq_true.mpr hdigits

theorem isDigit_of_leadsWithZero {cs : List Char} (h : leadsWithZero cs = true) :
    ∀ c ∈ cs, c.isDigit = true := by
  obtain ⟨digits, rfl, -, hdigits⟩ := leadsWithZero_iff.mp h
  intro c hc
  rcases List.mem_cons.mp hc with rfl | hrest
  · rfl
  · exact hdigits c hrest

theorem point_not_mem {cs : List Char} (h : ∀ c ∈ cs, c.isDigit = true) : '.' ∉ cs := by
  intro hmem
  exact absurd (h '.' hmem) (by decide)

/-- A number without sign has digits and points only. -/
theorem mem_of_reads {base : Nat} {cs : List Char} {q : ℚ} (h : Reads base cs q) :
    ∀ c ∈ cs, c.isDigit = true ∨ c = '.' := by
  intro c hc
  cases h with
  | whole hne hdigits hplain => exact .inl (hdigits c hc)
  | octal hne hdigits =>
    rcases List.mem_cons.mp hc with rfl | hrest
    · exact .inl rfl
    · exact .inl (isDigit_of_isOctalDigit (hdigits c hrest))
  | point hne hwhole hpart =>
    rcases List.mem_append.mp hc with hfirst | hrest
    · exact .inl (hwhole c hfirst)
    · rcases List.mem_cons.mp hrest with rfl | hlast
      · exact .inr rfl
      · exact .inl (hpart c hlast)

theorem reads_digits_iff {cs : List Char} (hne : cs ≠ []) (hdigits : ∀ c ∈ cs, c.isDigit = true)
    (hplain : leadsWithZero cs = false) {base : Nat} {q : ℚ} :
    Reads base cs q ↔ base = 10 ∧ q = digitsIn 10 cs := by
  constructor
  · intro h
    cases h with
    | whole => exact ⟨rfl, rfl⟩
    | octal hne' hoctal =>
      have hzero := leadsWithZero_iff.mpr
        ⟨_, rfl, hne', fun c hc => isDigit_of_isOctalDigit (hoctal c hc)⟩
      rw [hplain] at hzero
      cases hzero
    | point =>
      exact absurd (List.mem_append_right _ List.mem_cons_self) (point_not_mem hdigits)
  · rintro ⟨rfl, rfl⟩
    exact .whole hne hdigits hplain

theorem reads_leadsWithZero_iff {cs : List Char} (hzero : leadsWithZero cs = true) {base : Nat}
    {q : ℚ} :
    Reads base cs q ↔
      base = 8 ∧ (∀ c ∈ cs, isOctalDigit c = true) ∧ q = digitsIn 8 cs := by
  constructor
  · intro h
    cases h with
    | whole hne hdigits hplain =>
      rw [hzero] at hplain
      cases hplain
    | octal hne hdigits =>
      rw [digitsIn_zero_cons]
      refine ⟨rfl, fun c hc => ?_, rfl⟩
      rcases List.mem_cons.mp hc with rfl | hrest
      · rfl
      · exact hdigits c hrest
    | point =>
      exact absurd (List.mem_append_right _ List.mem_cons_self)
        (point_not_mem (isDigit_of_leadsWithZero hzero))
  · rintro ⟨rfl, hoctal, rfl⟩
    obtain ⟨digits, rfl, hne, -⟩ := leadsWithZero_iff.mp hzero
    rw [digitsIn_zero_cons]
    exact .octal hne fun c hc => hoctal c (List.mem_cons_of_mem _ hc)

theorem reads_point_iff {whole part : List Char} (hne : whole ≠ [] ∨ part ≠ [])
    (hwhole : ∀ c ∈ whole, c.isDigit = true) (hpart : ∀ c ∈ part, c.isDigit = true) {base : Nat}
    {q : ℚ} :
    Reads base (whole ++ '.' :: part) q ↔
      base = 10 ∧ q = digitsIn 10 whole + digitsIn 10 part / 10 ^ part.length := by
  constructor
  · intro h
    have hpoint : '.' ∈ whole ++ '.' :: part := List.mem_append_right _ List.mem_cons_self
    generalize hcs : whole ++ '.' :: part = cs at h hpoint
    cases h with
    | whole _ hdigits _ => exact absurd hpoint (point_not_mem hdigits)
    | octal _ hdigits =>
      rcases List.mem_cons.mp hpoint with heq | hrest
      · exact absurd heq (by decide)
      · exact absurd (hdigits '.' hrest) (by decide)
    | point _ hwhole' _ =>
      have heq := Text.eq_of_append_mark (point_not_mem hwhole) (point_not_mem hwhole') hcs
      subst heq
      obtain ⟨-, rfl⟩ := List.cons.inj (List.append_cancel_left hcs)
      exact ⟨rfl, rfl⟩
  · rintro ⟨rfl, rfl⟩
    exact .point hne hwhole hpart

theorem unsigned_cases (cs : List Char) :
    (∃ rest, cs = '-' :: rest) ∨
      (∀ rest, cs ≠ '-' :: rest) ∧ isNegative cs = false ∧ unsigned cs = cs := by
  cases cs with
  | nil => exact .inr ⟨fun _ h => (List.cons_ne_nil _ _ h.symm).elim, rfl, rfl⟩
  | cons c rest =>
    by_cases hc : c = '-'
    · exact .inl ⟨rest, hc ▸ rfl⟩
    · have hne : ∀ other, c :: rest ≠ '-' :: other := fun _ h => hc (List.cons.inj h).1
      refine .inr ⟨hne, by simp [isNegative, hc], ?_⟩
      unfold unsigned
      split
      · next heq => exact absurd heq (hne _)
      · rfl

/-! ## Recorded numbers -/

/-- Whether a character may stand in a number that is written without quotes. -/
def isNumberChar (c : Char) : Bool :=
  c.isDigit || c == '.' || c == '-'

theorem isNumberChar_iff {c : Char} :
    isNumberChar c = true ↔ c.isDigit = true ∨ c = '.' ∨ c = '-' := by
  simp [isNumberChar, or_assoc]

theorem toLower_of_isNumberChar {c : Char} (h : isNumberChar c = true) : c.toLower = c := by
  rcases isNumberChar_iff.mp h with hdigit | rfl | rfl
  · exact toLower_of_isDigit hdigit
  · decide
  · decide

theorem fraction_of_ne {c : Char} (hc : c ≠ '.') (rest : List Char) :
    Numeral.fraction (c :: rest) = ([], c :: rest) := by
  unfold Numeral.fraction
  split
  · next heq => exact absurd (List.cons.inj heq).1 hc
  · rfl

section Recorded

variable {cs : List Char} (hchars : ∀ c ∈ cs, isNumberChar c = true)

include hchars

/-- A number without the letter for a power of ten has no power of ten. -/
theorem exponent?_eq_some {e : Int} (h : Numeral.exponent? cs = some e) : cs = [] ∧ e = 0 := by
  cases cs with
  | nil => exact ⟨rfl, (Option.some.inj h).symm⟩
  | cons c rest =>
    have hletter : (c = 'e' || c = 'E') = false := by
      have hc := hchars c List.mem_cons_self
      rw [Bool.or_eq_false_iff, decide_eq_false_iff_not, decide_eq_false_iff_not]
      constructor
      · rintro rfl
        exact absurd hc (by decide)
      · rintro rfl
        exact absurd hc (by decide)
    rw [Numeral.exponent?, hletter] at h
    cases h

/-- What follows the first digits of a number is nothing, or a point and digits. -/
theorem fraction_eq {part tail : List Char} (hfraction : Numeral.fraction cs = (part, tail))
    {e : Int} (h : Numeral.exponent? tail = some e) :
    e = 0 ∧ (∀ c ∈ part, c.isDigit = true) ∧ (cs = [] ∧ part = [] ∨ cs = '.' :: part) := by
  cases cs with
  | nil =>
    cases hfraction
    exact ⟨(Option.some.inj h).symm, List.forall_mem_nil _, .inl ⟨rfl, rfl⟩⟩
  | cons c rest =>
    by_cases hc : c = '.'
    · subst hc
      cases hfraction
      have htail : ∀ d ∈ rest.dropWhile Char.isDigit, isNumberChar d = true := fun d hd =>
        hchars d (List.mem_cons_of_mem _ ((List.dropWhile_suffix _).mem hd))
      obtain ⟨hnil, rfl⟩ := exponent?_eq_some htail h
      have hsplit := @List.takeWhile_append_dropWhile _ Char.isDigit rest
      rw [hnil, List.append_nil] at hsplit
      exact ⟨rfl, List.all_eq_true.mp List.all_takeWhile, .inr (congrArg _ hsplit.symm)⟩
    · rw [fraction_of_ne hc] at hfraction
      cases hfraction
      cases (exponent?_eq_some hchars h).1

/-- A number without sign is a run of digits, or has a point with digits before or behind it. -/
theorem magnitude?_eq_some {n : Nat} {e : Int} (h : Numeral.magnitude? cs = some (n, e)) :
    (cs ≠ [] ∧ (∀ c ∈ cs, c.isDigit = true) ∧ n = digitsIn 10 cs ∧ e = 0) ∨
      ∃ whole part, cs = whole ++ '.' :: part ∧ (whole ≠ [] ∨ part ≠ []) ∧
        (∀ c ∈ whole, c.isDigit = true) ∧ (∀ c ∈ part, c.isDigit = true) ∧
        n = digitsIn 10 (whole ++ part) ∧ e = -part.length := by
  have hsplit := @List.takeWhile_append_dropWhile _ Char.isDigit cs
  have hwhole : ∀ c ∈ cs.takeWhile Char.isDigit, c.isDigit = true :=
    List.all_eq_true.mp List.all_takeWhile
  have hrest : ∀ c ∈ cs.dropWhile Char.isDigit, isNumberChar c = true := fun c hc =>
    hchars c ((List.dropWhile_suffix _).mem hc)
  simp only [Numeral.magnitude?] at h
  generalize cs.takeWhile Char.isDigit = whole at hsplit hwhole h
  generalize cs.dropWhile Char.isDigit = rest at hsplit hrest h
  generalize hfraction : Numeral.fraction rest = found at h
  obtain ⟨part, tail⟩ := found
  split at h
  · cases h
  · next hsome =>
    obtain ⟨exponent, hexponent, heq⟩ := Option.map_eq_some_iff.mp h
    obtain ⟨rfl, rfl⟩ := Prod.mk.inj heq
    obtain ⟨rfl, hpart, hform⟩ := fraction_eq hrest hfraction hexponent
    rcases hform with ⟨rfl, rfl⟩ | rfl
    · rw [List.append_nil] at hsplit
      subst hsplit
      refine .inl ⟨fun hnil => hsome ?_, hwhole, ?_, by simp⟩
      · simp [hnil]
      · rw [List.append_nil, ofDigits_eq]
    · refine .inr ⟨whole, part, hsplit.symm, ?_, hwhole, hpart, ofDigits_eq _, by simp⟩
      rw [← not_and_or]
      rintro ⟨rfl, rfl⟩
      exact hsome rfl

/-- A number without sign is read in base ten as its value, unless it leads with a zero. -/
theorem reads_magnitude_iff {n : Nat} {e : Int} (h : Numeral.magnitude? cs = some (n, e))
    (hplain : leadsWithZero cs = false) {base : Nat} {q : ℚ} :
    Reads base cs q ↔ base = 10 ∧ q = n * 10 ^ e := by
  rcases magnitude?_eq_some hchars h with
    ⟨hne, hdigits, rfl, rfl⟩ | ⟨whole, part, rfl, hne, hwhole, hpart, rfl, rfl⟩
  · rw [reads_digits_iff hne hdigits hplain, zpow_zero, mul_one]
  · rw [reads_point_iff hne hwhole hpart, digitsIn_append, zpow_neg, zpow_natCast]
    have hpow : (10 : ℚ) ^ part.length ≠ 0 := pow_ne_zero _ (by decide)
    have hvalue : (digitsIn 10 whole + digitsIn 10 part / 10 ^ part.length : ℚ) =
        ((digitsIn 10 whole * 10 ^ part.length + digitsIn 10 part : ℕ) : ℚ) *
          (10 ^ part.length)⁻¹ := by
      push_cast
      field_simp
    rw [hvalue]

/-- A number that leads with a zero is a run of digits. -/
theorem magnitude?_of_leadsWithZero {n : Nat} {e : Int} (h : Numeral.magnitude? cs = some (n, e))
    (hzero : leadsWithZero cs = true) : n = digitsIn 10 cs ∧ e = 0 := by
  rcases magnitude?_eq_some hchars h with
    ⟨-, -, rfl, rfl⟩ | ⟨whole, part, rfl, -⟩
  · exact ⟨rfl, rfl⟩
  · exact absurd (List.mem_append_right whole List.mem_cons_self)
      (point_not_mem (isDigit_of_leadsWithZero hzero))

/-! ## Signs -/

theorem sign_eq : Numeral.sign cs = (isNegative cs, unsigned cs) := by
  rcases unsigned_cases cs with ⟨rest, rfl⟩ | ⟨hne, hnegative, hunsigned⟩
  · rfl
  · rw [hnegative, hunsigned]
    unfold Numeral.sign
    split
    · exact absurd rfl (hne _)
    · exact absurd (hchars '+' List.mem_cons_self) (by decide)
    · rfl

theorem isNumberChar_of_mem_unsigned : ∀ c ∈ unsigned cs, isNumberChar c = true := by
  intro c hc
  rcases unsigned_cases cs with ⟨rest, rfl⟩ | ⟨-, -, hunsigned⟩
  · exact hchars c (List.mem_cons_of_mem _ hc)
  · exact hchars c (hunsigned ▸ hc)

/-- A recorded number is finite, and its magnitude is what follows the sign. -/
theorem parse?_eq_finite (h : (Numeral.parse? cs).isSome = true) :
    ∃ n e, Numeral.magnitude? (unsigned cs) = some (n, e) ∧
      Numeral.parse? cs = some (.finite ⟨isNegative cs, n, e⟩) := by
  have hbody := isNumberChar_of_mem_unsigned hchars
  -- the words for what is no finite number have a letter
  have hword : ∀ word : String, 'n' ∈ word.toList →
      String.ofList ((unsigned cs).map Char.toLower) ≠ word := by
    rintro word hletter rfl
    rw [String.toList_ofList] at hletter
    obtain ⟨c, hc, hlower⟩ := List.mem_map.mp hletter
    rw [toLower_of_isNumberChar (hbody c hc)] at hlower
    exact absurd (hbody c hc) (hlower ▸ by decide)
  simp only [Numeral.parse?, sign_eq hchars] at h ⊢
  cases hmagnitude : Numeral.magnitude? (unsigned cs) with
  | some found => exact ⟨found.1, found.2, rfl, rfl⟩
  | none =>
    rw [hmagnitude] at h
    simp [hword "inf" (by decide), hword "infinity" (by decide), hword "nan" (by decide)] at h

end Recorded

theorem signed_signed (negative : Bool) (q : ℚ) : signed negative (signed negative q) = q := by
  cases negative with
  | false => rfl
  | true => exact neg_neg q

theorem signed_eq_iff {negative : Bool} {q r : ℚ} :
    signed negative q = r ↔ q = signed negative r := by
  constructor
  · rintro rfl
    exact (signed_signed negative q).symm
  · rintro rfl
    exact signed_signed negative r

/-- A number is read by reading what follows the sign. -/
theorem readsNumber_iff {base : Nat} {cs : List Char} {q : ℚ} :
    ReadsNumber base cs q ↔ Reads base (unsigned cs) (signed (isNegative cs) q) := by
  rcases unsigned_cases cs with ⟨rest, rfl⟩ | ⟨hne, hnegative, hunsigned⟩
  · change _ ↔ Reads base rest (-q)
    constructor
    · rintro (hplain | ⟨other, r, heq, hreads, rfl⟩)
      · -- a number without sign does not begin with a minus
        rcases mem_of_reads hplain '-' List.mem_cons_self with hdigit | hpoint
        · exact absurd hdigit (by decide)
        · exact absurd hpoint (by decide)
      · cases heq
        rwa [neg_neg]
    · intro h
      exact .inr ⟨rest, -q, rfl, h, (neg_neg q).symm⟩
  · rw [hnegative, hunsigned]
    constructor
    · rintro (hplain | ⟨rest, r, heq, -⟩)
      · exact hplain
      · exact absurd heq (hne rest)
    · exact .inl

/-- A number that leads with a zero is read in base eight or not at all. -/
theorem readsNumber_leadsWithZero_iff {cs : List Char} (hzero : leadsWithZero (unsigned cs) = true)
    {base : Nat} {q : ℚ} :
    ReadsNumber base cs q ↔ base = 8 ∧ (∀ c ∈ unsigned cs, isOctalDigit c = true) ∧
      q = signed (isNegative cs) (digitsIn 8 (unsigned cs)) := by
  rw [readsNumber_iff, reads_leadsWithZero_iff hzero, signed_eq_iff]

section Signed

variable {cs : List Char} (hchars : ∀ c ∈ cs, isNumberChar c = true) {d : Decimal}
  (hparse : Numeral.parse? cs = some (.finite d))

include hchars hparse

theorem magnitude?_of_parse? :
    Numeral.magnitude? (unsigned cs) = some (d.digits, d.exponent) ∧
      d.negative = isNegative cs := by
  obtain ⟨n, e, hmagnitude, hfinite⟩ :=
    parse?_eq_finite hchars (Option.isSome_iff_exists.mpr ⟨_, hparse⟩)
  rw [hparse] at hfinite
  cases hfinite
  exact ⟨hmagnitude, rfl⟩

/-- A number is read in base ten as its value and in no other way, unless it leads with a zero. -/
theorem keeps_value (hplain : leadsWithZero (unsigned cs) = false) : Keeps cs d.value := by
  obtain ⟨hmagnitude, hnegative⟩ := magnitude?_of_parse? hchars hparse
  intro base q
  rw [readsNumber_iff, reads_magnitude_iff (isNumberChar_of_mem_unsigned hchars) hmagnitude hplain,
    ← hnegative, signed_eq_iff, Decimal.value]

theorem value_of_leadsWithZero (hzero : leadsWithZero (unsigned cs) = true) :
    d.value = signed d.negative (digitsIn 10 (unsigned cs)) := by
  obtain ⟨hmagnitude, -⟩ := magnitude?_of_parse? hchars hparse
  obtain ⟨hdigits, hexponent⟩ :=
    magnitude?_of_leadsWithZero (isNumberChar_of_mem_unsigned hchars) hmagnitude hzero
  rw [Decimal.value, hdigits, hexponent, zpow_zero, mul_one]

/-- The meaning of a number is kept exactly if it does not lead with a zero. -/
theorem keeps_value_iff : Keeps cs d.value ↔ leadsWithZero (unsigned cs) = false := by
  refine ⟨fun h => ?_, keeps_value hchars hparse⟩
  by_contra hzero
  rw [Bool.not_eq_false] at hzero
  have hbase := ((readsNumber_leadsWithZero_iff hzero).mp ((h 10 d.value).mpr ⟨rfl, rfl⟩)).1
  exact absurd hbase (by decide)

/-- Whatever the base, the value is kept exactly if the number does not lead with a zero or has
nothing but zeros before its last digit, and that is one of base eight. -/
theorem readsNumber_value_iff :
    (∃ base, ReadsNumber base cs d.value) ↔
      (leadsWithZero (unsigned cs) = true →
        (∀ c ∈ unsigned cs, isOctalDigit c = true) ∧ ∀ c ∈ (unsigned cs).dropLast, c = '0') := by
  cases hzero : leadsWithZero (unsigned cs) with
  | false =>
    have hread := (keeps_value hchars hparse hzero 10 d.value).mpr ⟨rfl, rfl⟩
    exact iff_of_true ⟨10, hread⟩ fun h => absurd h (by decide)
  | true =>
    have hsame := digitsIn_eight_eq_iff (isDigit_of_leadsWithZero hzero)
    have hnegative := (magnitude?_of_parse? hchars hparse).2
    simp only [readsNumber_leadsWithZero_iff hzero, exists_eq_left, forall_const]
    rw [value_of_leadsWithZero hchars hparse hzero, hnegative, signed_eq_iff, signed_signed,
      Nat.cast_inj, eq_comm, hsame]

end Signed

/-! ## Values that are written as numbers -/

/-- The value is written without quotes, and neither as a variable nor as a constant. -/
def WrittenAsNumber (s : String) : Prop :=
  Literal.value s ≠ Literal.quote (Text.interpolate s) ∧
    Literal.startsWithVariable (Literal.value s) = false ∧
    Literal.isConstant (Literal.value s) = false

theorem isNumber_iff {s : String} :
    Literal.isNumber s = true ↔
      (Numeral.parse? s.toList).isSome = true ∧ ∀ c ∈ s.toList, isNumberChar c = true := by
  rw [Literal.isNumber, Bool.and_eq_true, List.all_eq_true]
  rfl

/-- What is written as a number is a number, and it is written as it was recorded. -/
theorem value_of_writtenAsNumber {s : String} (h : WrittenAsNumber s) :
    Literal.value s = s ∧ Literal.isNumber s = true := by
  obtain ⟨hbare, hvariable, hconstant⟩ := h
  have hvalue : Literal.value s = Text.interpolate s ∧
      Literal.isNumber (Text.interpolate s) = true := by
    simp only [Literal.value] at hbare hvariable hconstant ⊢
    split at hbare
    · next hcond =>
      rw [if_pos hcond] at hvariable hconstant ⊢
      rw [hvariable, hconstant] at hcond
      exact ⟨rfl, hcond⟩
    · exact absurd rfl hbare
  have hdollar : '$' ∉ (Text.interpolate s).toList := fun hmem =>
    absurd ((isNumber_iff.mp hvalue.2).2 '$' hmem) (by decide)
  rw [Text.interpolate_eq_self_of_not_mem hdollar] at hvalue
  exact hvalue

/-- Every number is written as a number. -/
theorem writtenAsNumber_of_isNumber {s : String} (h : Literal.isNumber s = true) :
    WrittenAsNumber s := by
  -- a text with any other character is not the number
  have hne : ∀ c word, isNumberChar c = false → c ∈ word.toList → s ≠ word := by
    rintro c word hc hmem rfl
    rw [(isNumber_iff.mp h).2 c hmem] at hc
    cases hc
  have hdollar : '$' ∉ s.toList := fun hmem => hne '$' s (by decide) hmem rfl
  have hreference : ¬ Text.HasReference s.toList := by
    intro hhas
    rw [← List.append_nil s.toList] at hhas
    exact Text.not_hasReference_nil (hhas.of_append_left hdollar)
  have hvalue : Literal.value s = s := by
    simp only [Literal.value, Text.interpolate_of_not_hasReference hreference, h, Bool.or_true,
      if_true]
  rw [WrittenAsNumber, hvalue, Text.interpolate_of_not_hasReference hreference]
  refine ⟨hne '"' _ (by decide) (by simp [Literal.quote]), ?_, ?_⟩
  · cases hstart : Literal.startsWithVariable s with
    | false => rfl
    | true =>
      obtain ⟨rest, hrest⟩ := Option.isSome_iff_exists.mp hstart
      rw [Text.rest?_eq_some_iff.mp hrest] at hdollar
      exact absurd (List.mem_append_left rest List.mem_cons_self) hdollar
  · simp [Literal.isConstant, hne 't' "true" (by decide) (by decide),
      hne 'f' "false" (by decide) (by decide), hne 'n' "null" (by decide) (by decide)]

/-- A recorded value that is written as a number stands as it was recorded, and is a number with an
optional minus. The generated code reads it in base ten as the number that was recorded, and in no
other way, exactly if it does not lead with a zero. If it does, it is read in base eight, or not at
all if an eight or a nine is among its digits. So the number has its value in the end exactly if it
does not lead with a zero, or has nothing but zeros before a last digit of base eight. -/
theorem number_kept_iff (s : String) (h : WrittenAsNumber s) :
    Literal.value s = s ∧ ∃ d, Numeral.parse? s.toList = some (.finite d) ∧
      (Keeps (Literal.value s).toList d.value ↔ leadsWithZero (unsigned s.toList) = false) ∧
      (leadsWithZero (unsigned s.toList) = true →
        ∀ base q, ReadsNumber base (Literal.value s).toList q ↔
          base = 8 ∧ (∀ c ∈ unsigned s.toList, isOctalDigit c = true) ∧
            q = signed d.negative (digitsIn 8 (unsigned s.toList))) ∧
      ((∃ base, ReadsNumber base (Literal.value s).toList d.value) ↔
        (leadsWithZero (unsigned s.toList) = true →
          (∀ c ∈ unsigned s.toList, isOctalDigit c = true) ∧
            ∀ c ∈ (unsigned s.toList).dropLast, c = '0')) := by
  obtain ⟨hvalue, hnumber⟩ := value_of_writtenAsNumber h
  obtain ⟨hsome, hchars⟩ := isNumber_iff.mp hnumber
  obtain ⟨n, e, -, hparse⟩ := parse?_eq_finite hchars hsome
  rw [hvalue]
  exact ⟨rfl, _, hparse, keeps_value_iff hchars hparse,
    fun hzero _ _ => readsNumber_leadsWithZero_iff hzero, readsNumber_value_iff hchars hparse⟩

/-- A negative number with a point, and one of which base eight makes no difference. -/
theorem number_kept_iff_samples :
    (WrittenAsNumber "-00.50" ∧ Keeps (Literal.value "-00.50").toList (-1 / 2)) ∧
      WrittenAsNumber "007" ∧ ¬ Keeps (Literal.value "007").toList 7 ∧
      ∃ base, ReadsNumber base (Literal.value "007").toList 7 := by
  have hpoint : WrittenAsNumber "-00.50" := writtenAsNumber_of_isNumber (by decide)
  have hseven : WrittenAsNumber "007" := writtenAsNumber_of_isNumber (by decide)
  obtain ⟨-, d, hparse, hkept, -⟩ := number_kept_iff "-00.50" hpoint
  obtain ⟨-, d', hparse', hkept', -, hvalue'⟩ := number_kept_iff "007" hseven
  have hread : Numeral.parse? "-00.50".toList = some (.finite ⟨true, 50, -2⟩) := by decide
  have hread' : Numeral.parse? "007".toList = some (.finite ⟨false, 7, 0⟩) := by decide
  obtain rfl := Numeral.finite.inj (Option.some.inj (hread.symm.trans hparse))
  obtain rfl := Numeral.finite.inj (Option.some.inj (hread'.symm.trans hparse'))
  have hhalf : Decimal.value ⟨true, 50, -2⟩ = -1 / 2 := by norm_num [Decimal.value, signed]
  have hwhole : Decimal.value ⟨false, 7, 0⟩ = 7 := by norm_num [Decimal.value, signed]
  rw [hhalf] at hkept
  rw [hwhole] at hkept' hvalue'
  refine ⟨⟨hpoint, hkept.mpr (by decide)⟩, hseven, fun h => ?_, hvalue'.mpr fun _ => ?_⟩
  · exact absurd (hkept'.mp h) (by decide)
  · have hzeros : (unsigned "007".toList).dropLast = List.replicate 2 '0' := by decide
    rw [hzeros]
    exact ⟨List.all_eq_true.mp (by decide), fun c hc => List.eq_of_mem_replicate hc⟩

/-- Of two numbers that lead with a zero, one is read as another number and one is not read. -/
theorem number_misread :
    (WrittenAsNumber "010" ∧ Literal.value "010" = "010" ∧
      Numeral.parse? "010".toList = some (.finite ⟨false, 10, 0⟩) ∧
      ReadsNumber 8 (Literal.value "010").toList 8 ∧
      ¬ ∃ base, ReadsNumber base (Literal.value "010").toList (Decimal.value ⟨false, 10, 0⟩)) ∧
    WrittenAsNumber "08" ∧ ¬ ∃ base q, ReadsNumber base (Literal.value "08").toList q := by
  have hten : WrittenAsNumber "010" := writtenAsNumber_of_isNumber (by decide)
  have height : WrittenAsNumber "08" := writtenAsNumber_of_isNumber (by decide)
  have hread : Numeral.parse? "010".toList = some (.finite ⟨false, 10, 0⟩) := by decide
  obtain ⟨hvalue, hnumber⟩ := value_of_writtenAsNumber hten
  rw [(value_of_writtenAsNumber height).1, hvalue]
  refine ⟨⟨hten, rfl, hread, ?_, ?_⟩, height, ?_⟩
  · have hsign : isNegative "010".toList = false := by decide
    have hoctal : digitsIn 8 (unsigned "010".toList) = 8 := by decide
    rw [readsNumber_leadsWithZero_iff (by decide), hsign, hoctal]
    exact ⟨rfl, List.all_eq_true.mp (by decide), by norm_num [signed]⟩
  · rw [readsNumber_value_iff (isNumber_iff.mp hnumber).2 hread]
    intro h
    exact absurd ((h (by decide)).2 '1' (by decide)) (by decide)
  · rintro ⟨base, q, h⟩
    rw [readsNumber_leadsWithZero_iff (by decide)] at h
    exact absurd (h.2.1 '8' (by decide)) (by decide)

end NumberLiteral

end CestWriter
