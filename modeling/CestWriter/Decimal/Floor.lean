import CestWriter.Decimal.Numeral
import CestWriter.Text.Blank

/-!
# Whole numbers from numeric parameters

A numeric parameter is read as the nearest double-precision number, ties going to the even
significand, and then floored to a whole number of 64 bits. Everything is computed on exact
integers: a double is a significand times a power of two.
-/

namespace CestWriter

/-- The exact value `significand · 2 ^ exponent`. -/
structure Dyadic where
  significand : Nat
  exponent : Int
deriving Repr, DecidableEq

namespace Dyadic

/-- The quotient rounded to the nearest whole number, a half going to the even neighbour. -/
def roundDiv (num den : Nat) : Nat :=
  let quotient := num / den
  let twice := 2 * (num % den)
  if twice < den then quotient
  else if den < twice then quotient + 1
  else if quotient % 2 = 0 then quotient
  else quotient + 1

/-- The whole part of the binary logarithm of `num / den`, both positive. -/
def log2Div (num den : Nat) : Int :=
  let guess : Int := (num.log2 : Int) - den.log2
  let reached :=
    if 0 ≤ guess then decide (den * Nat.pow 2 guess.toNat ≤ num)
    else decide (den ≤ num * Nat.pow 2 (-guess).toNat)
  if reached then guess else guess - 1

/-- The exponent of the last bit of the double nearest to `num / den`: 53 bits of significand, and
no bit below `2 ^ -1074`. -/
def lastBit (num den : Nat) : Int :=
  max (-1074) (log2Div num den - 52)

/-- The double nearest to `num / den`, or nothing if that is beyond the largest one. -/
def nearest? (num den : Nat) : Option Dyadic :=
  if num = 0 then some ⟨0, 0⟩
  else
    let e := lastBit num den
    let m :=
      if 0 ≤ e then roundDiv num (den * Nat.pow 2 e.toNat)
      else roundDiv (num * Nat.pow 2 (-e).toNat) den
    if 0 ≤ e && Nat.pow 2 1024 ≤ m * Nat.pow 2 e.toNat then none else some ⟨m, e⟩

/-- The largest whole number that is not above the value, or above its negation. -/
def floor (negative : Bool) (d : Dyadic) : Int :=
  let m : Int := if negative then -(d.significand : Int) else d.significand
  if 0 ≤ d.exponent then m * Int.pow 2 d.exponent.toNat
  else m / Int.pow 2 (-d.exponent).toNat

end Dyadic

namespace Decimal

/-- The double nearest to the magnitude of a decimal, or nothing if that is infinite. Powers of ten
that are out of range for any digits are settled without being computed. -/
def nearest? (d : Decimal) : Option Dyadic :=
  if d.digits = 0 then some ⟨0, 0⟩
  else if 400 < d.exponent then none
  else if d.exponent < -(400 + d.digits.log2 : Int) then some ⟨0, 0⟩
  else if 0 ≤ d.exponent then Dyadic.nearest? (d.digits * Nat.pow 10 d.exponent.toNat) 1
  else Dyadic.nearest? d.digits (Nat.pow 10 (-d.exponent).toNat)

/-- The nearest number that fits in 64 bits with sign. -/
def clamp64 (n : Int) : Int :=
  max (-Int.pow 2 63) (min (Int.pow 2 63 - 1) n)

/-- The floor of the nearest double, limited to 64 bits; nothing if that double is infinite. -/
def floor? (d : Decimal) : Option Int :=
  d.nearest?.map fun x => clamp64 (x.floor d.negative)

end Decimal

/-- A numeric parameter as a whole number. A text that denotes no finite number is only trimmed. -/
def floorText (s : String) : String :=
  let body := Text.trim s.toList
  match Numeral.parse? body with
  | some (.finite d) =>
    match d.floor? with
    | some n => n.repr
    | none => String.ofList body
  | _ => String.ofList body

end CestWriter
