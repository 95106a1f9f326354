import CestWriter.Proofs.NumberLiterals

/-!
# What a numeric text denotes

A decimal number is written as an optional sign, digits with an optional point before, between or
behind them, and an optional power of ten: a letter, an optional sign and digits. Reading takes
exactly these texts for finite numbers, and gives their value.
-/

namespace CestWriter.Numeral

open NumberLiteral (digitsIn digitsIn_append fraction_of_ne ofDigits_eq)

/-- The text is a sign, or no sign at all; the flag is set for a minus. -/
inductive IsSign : Bool → List Char → Prop
  | absent : IsSign false []
  | plus : IsSign false ['+']
  | minus : IsSign true ['-']

/-- The text is a point and these digits, or nothing at all if there are none. -/
inductive IsFraction : List Char → List Char → Prop
  | absent : IsFraction [] []
  | point {part : List Char} (hpart : ∀ c ∈ part, c.isDigit = true) : IsFraction part ('.' :: part)

/-- The text is a letter and this power of ten, or nothing at all if it is zero. -/
inductive IsExponent : ℤ → List Char → Prop
  | absent : IsExponent 0 []
  | power {letter : Char} {negative : Bool} {sign digits : List Char}
    (hletter : letter = 'e' ∨ letter = 'E') (hsign : IsSign negative sign) (hne : digits ≠ [])
    (hdigits : ∀ c ∈ digits, c.isDigit = true) :
    IsExponent (if negative then -(digitsIn 10 digits) else digitsIn 10 digits)
      (letter :: (sign ++ digits))

/-- The text writes this number. -/
inductive Denotes : List Char → ℚ → Prop
  | decimal {negative : Bool} {sign whole part fraction exponent : List Char} {e : ℤ}
    (hsign : IsSign negative sign) (hwhole : ∀ c ∈ whole, c.isDigit = true)
    (hfraction : IsFraction part fraction) (hne : whole ≠ [] ∨ part ≠ [])
    (hexponent : IsExponent e exponent) :
    Denotes (sign ++ (whole ++ (fraction ++ exponent)))
      (signed negative ((digitsIn 10 whole + digitsIn 10 part / 10 ^ part.length) * 10 ^ e))

/-! ## Signs -/

/-- Whether a text begins with a sign. -/
def beginsWithSign (cs : List Char) : Bool :=
  cs.head? == some '+' || cs.head? == some '-'

theorem sign_of_beginsWithSign_eq_false {cs : List Char} (h : beginsWithSign cs = false) :
    sign cs = (false, cs) := by
  unfold sign
  split
  · cases h
  · cases h
  · rfl

theorem sign_append {negative : Bool} {text rest : List Char} (hsign : IsSign negative text)
    (hrest : beginsWithSign rest = false) : sign (text ++ rest) = (negative, rest) := by
  cases hsign with
  | absent => exact sign_of_beginsWithSign_eq_false hrest
  | plus => rfl
  | minus => rfl

theorem exists_isSign (cs : List Char) :
    ∃ text, IsSign (sign cs).1 text ∧ cs = text ++ (sign cs).2 := by
  unfold sign
  split
  · exact ⟨['-'], .minus, rfl⟩
  · exact ⟨['+'], .plus, rfl⟩
  · exact ⟨[], .absent, rfl⟩

theorem beginsWithSign_digits {digits rest : List Char} (hne : digits ≠ [])
    (hdigits : ∀ c ∈ digits, c.isDigit = true) : beginsWithSign (digits ++ rest) = false := by
  obtain ⟨c, cs, rfl⟩ := List.exists_cons_of_ne_nil hne
  have hc := hdigits c List.mem_cons_self
  simp only [beginsWithSign, List.cons_append, List.head?_cons, Bool.or_eq_false_iff,
    beq_eq_false_iff_ne, ne_eq, Option.some.injEq]
  constructor
  · rintro rfl
    exact absurd hc (by decide)
  · rintro rfl
    exact absurd hc (by decide)

/-! ## Powers of ten -/

theorem integer?_eq_some_iff {cs : List Char} {n : ℤ} :
    integer? cs = some n ↔
      ∃ negative text digits, IsSign negative text ∧ digits ≠ [] ∧
        (∀ c ∈ digits, c.isDigit = true) ∧ cs = text ++ digits ∧
          n = if negative then -(digitsIn 10 digits : ℤ) else digitsIn 10 digits := by
  constructor
  · intro h
    obtain ⟨text, hsign, hcs⟩ := exists_isSign cs
    simp only [integer?] at h
    split at h
    · cases h
    · next hdigits =>
      rw [Bool.not_eq_true, Bool.or_eq_false_iff, List.isEmpty_eq_false_iff,
        Bool.not_eq_false', List.all_eq_true] at hdigits
      exact ⟨_, text, _, hsign, hdigits.1, hdigits.2, hcs, (Option.some.inj h).symm⟩
  · rintro ⟨negative, text, digits, hsign, hne, hdigits, rfl, rfl⟩
    have hbegins := @beginsWithSign_digits digits [] hne hdigits
    rw [List.append_nil] at hbegins
    have hall : digits.all Char.isDigit = true := List.all_eq_true.mpr hdigits
    simp only [integer?, sign_append hsign hbegins, List.isEmpty_eq_false_iff.mpr hne, hall]
    rfl

theorem exponent?_eq_some_iff {cs : List Char} {e : ℤ} :
    exponent? cs = some e ↔ IsExponent e cs := by
  cases cs with
  | nil =>
    constructor
    · intro h
      cases h
      exact .absent
    · intro h
      cases h
      rfl
  | cons letter rest =>
    have hletter : (letter = 'e' || letter = 'E') = true ↔ letter = 'e' ∨ letter = 'E' := by simp
    constructor
    · intro h
      rw [exponent?] at h
      split at h
      · next hmark =>
        obtain ⟨negative, text, digits, hsign, hne, hdigits, rfl, rfl⟩ := integer?_eq_some_iff.mp h
        exact .power (hletter.mp hmark) hsign hne hdigits
      · cases h
    · intro h
      cases h with
      | power hmark hsign hne hdigits =>
        rw [exponent?, if_pos (hletter.mpr hmark)]
        exact integer?_eq_some_iff.mpr ⟨_, _, _, hsign, hne, hdigits, rfl, rfl⟩

/-! ## Digits and a point -/

/-- No digit and no point can follow a number: what does is a power of ten, or nothing. -/
theorem IsExponent.head_ne {e : ℤ} {cs : List Char} (h : IsExponent e cs) :
    ∀ c ∈ cs.head?, c.isDigit = false ∧ c ≠ '.' := by
  intro c hc
  cases h with
  | absent => cases hc
  | power hletter hsign hne hdigits =>
    cases hc
    rcases hletter with rfl | rfl
    · decide
    · decide

theorem takeWhile_digits {digits rest : List Char} (hdigits : ∀ c ∈ digits, c.isDigit = true)
    (hrest : ∀ c ∈ rest.head?, c.isDigit = false) :
    (digits ++ rest).takeWhile Char.isDigit = digits ∧
      (digits ++ rest).dropWhile Char.isDigit = rest := by
  rw [List.takeWhile_append_of_pos hdigits, List.dropWhile_append_of_pos hdigits]
  cases rest with
  | nil => simp
  | cons c cs => simp [hrest c rfl]

theorem fraction_append {part text rest : List Char} (hfraction : IsFraction part text)
    (hrest : ∀ c ∈ rest.head?, c.isDigit = false ∧ c ≠ '.') :
    fraction (text ++ rest) = (part, rest) := by
  cases hfraction with
  | absent =>
    cases rest with
    | nil => rfl
    | cons c cs => exact fraction_of_ne (hrest c rfl).2 cs
  | point hpart =>
    obtain ⟨htake, hdrop⟩ := takeWhile_digits hpart fun c hc => (hrest c hc).1
    rw [List.cons_append, fraction, htake, hdrop]

theorem exists_isFraction (cs : List Char) :
    ∃ text, IsFraction (fraction cs).1 text ∧ cs = text ++ (fraction cs).2 := by
  unfold fraction
  split
  · next rest =>
    refine ⟨_, .point (List.all_eq_true.mp List.all_takeWhile), ?_⟩
    rw [List.cons_append, List.takeWhile_append_dropWhile]
  · exact ⟨[], .absent, rfl⟩

theorem magnitude?_eq_some_iff {cs : List Char} {n : Nat} {k : ℤ} :
    magnitude? cs = some (n, k) ↔
      ∃ whole part fraction exponent e, (∀ c ∈ whole, c.isDigit = true) ∧
        IsFraction part fraction ∧ (whole ≠ [] ∨ part ≠ []) ∧ IsExponent e exponent ∧
          cs = whole ++ (fraction ++ exponent) ∧ n = digitsIn 10 (whole ++ part) ∧
            k = e - part.length := by
  constructor
  · intro h
    simp only [magnitude?] at h
    split at h
    · cases h
    · next hne =>
      obtain ⟨e, he, hvalue⟩ := Option.map_eq_some_iff.mp h
      cases hvalue
      obtain ⟨text, hfraction, htext⟩ := exists_isFraction (cs.dropWhile Char.isDigit)
      rw [Bool.not_eq_true, Bool.and_eq_false_iff, List.isEmpty_eq_false_iff,
        List.isEmpty_eq_false_iff] at hne
      refine ⟨_, _, text, _, e, List.all_eq_true.mp List.all_takeWhile, hfraction, hne,
        exponent?_eq_some_iff.mp he, ?_, ofDigits_eq _, rfl⟩
      rw [← htext, List.takeWhile_append_dropWhile]
  · rintro ⟨whole, part, text, exponent, e, hwhole, hfraction, hne, hexponent, rfl, rfl, rfl⟩
    have hhead : ∀ c ∈ (text ++ exponent).head?, c.isDigit = false := by
      intro c hc
      cases hfraction with
      | absent => exact (hexponent.head_ne c hc).1
      | point hpart =>
        cases hc
        decide
    obtain ⟨htake, hdrop⟩ := takeWhile_digits hwhole hhead
    have hsome : (whole.isEmpty && part.isEmpty) = false := by
      rwa [Bool.and_eq_false_iff, List.isEmpty_eq_false_iff, List.isEmpty_eq_false_iff]
    simp only [magnitude?, htake, hdrop, fraction_append hfraction hexponent.head_ne, hsome,
      exponent?_eq_some_iff.mpr hexponent]
    rfl

/-! ## Numbers -/

theorem parse?_eq_finite_iff {cs : List Char} {d : Decimal} :
    parse? cs = some (.finite d) ↔
      (sign cs).1 = d.negative ∧ magnitude? (sign cs).2 = some (d.digits, d.exponent) := by
  simp only [parse?]
  split
  · next digits exponent hmagnitude =>
    rw [hmagnitude]
    constructor
    · intro h
      cases h
      exact ⟨rfl, rfl⟩
    · rintro ⟨hsign, hsame⟩
      cases hsame
      rw [hsign]
  · next hnone =>
    rw [hnone]
    split_ifs <;> simp

/-- Digits and a power of ten have the value of the digits before and behind the point. -/
theorem value_eq (whole part : List Char) (e : ℤ) :
    (digitsIn 10 (whole ++ part) : ℚ) * 10 ^ (e - part.length) =
      (digitsIn 10 whole + digitsIn 10 part / 10 ^ part.length) * 10 ^ e := by
  rw [digitsIn_append, zpow_sub₀ (by norm_num), zpow_natCast]
  push_cast
  field_simp

/-- A text denotes a number if it is read as a decimal of this value. -/
theorem denotes_iff {cs : List Char} {q : ℚ} :
    Denotes cs q ↔ ∃ d : Decimal, parse? cs = some (.finite d) ∧ d.value = q := by
  constructor
  · rintro @⟨negative, text, whole, part, fraction, exponent, e, hsign, hwhole, hfraction, hne,
      hexponent⟩
    have hbegins : beginsWithSign (whole ++ (fraction ++ exponent)) = false := by
      by_cases hempty : whole = []
      · cases hfraction with
        | absent => exact absurd hne (by simp [hempty])
        | point hpart => simp [hempty, beginsWithSign]
      · exact beginsWithSign_digits hempty hwhole
    refine ⟨⟨negative, digitsIn 10 (whole ++ part), e - part.length⟩, ?_, ?_⟩
    · rw [parse?_eq_finite_iff, sign_append hsign hbegins]
      exact ⟨rfl, magnitude?_eq_some_iff.mpr
        ⟨whole, part, fraction, exponent, e, hwhole, hfraction, hne, hexponent, rfl, rfl, rfl⟩⟩
    · rw [Decimal.value, value_eq]
  · rintro ⟨d, hread, rfl⟩
    obtain ⟨hnegative, hmagnitude⟩ := parse?_eq_finite_iff.mp hread
    obtain ⟨text, hsign, hcs⟩ := exists_isSign cs
    obtain ⟨whole, part, fraction, exponent, e, hwhole, hfraction, hne, hexponent, hrest, hdigits,
      hpower⟩ := magnitude?_eq_some_iff.mp hmagnitude
    rw [hnegative] at hsign
    rw [Decimal.value, hdigits, hpower, value_eq, hcs, hrest]
    exact .decimal hsign hwhole hfraction hne hexponent

theorem Denotes.unique {cs : List Char} {q q' : ℚ} (h : Denotes cs q) (h' : Denotes cs q') :
    q = q' := by
  obtain ⟨d, hread, rfl⟩ := denotes_iff.mp h
  obtain ⟨d', hread', rfl⟩ := denotes_iff.mp h'
  cases hread.symm.trans hread'
  rfl

end CestWriter.Numeral
