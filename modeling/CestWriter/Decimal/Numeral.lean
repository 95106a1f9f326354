/-!
# Numbers written in decimal

The grammar of a numeric parameter: an optional sign, then digits with an optional point, of which
at least one digit, and an optional power of ten; or one of the words for infinity and
not-a-number, in any letter case. Nothing may stand around it.
-/

namespace CestWriter

/-- The exact value `± digits · 10 ^ exponent`. -/
structure Decimal where
  negative : Bool
  digits : Nat
  exponent : Int
deriving Repr, DecidableEq

/-- What a numeric text denotes. -/
inductive Numeral where
  | finite (value : Decimal)
  | infinite (negative : Bool)
  | notANumber
deriving Repr, DecidableEq

namespace Numeral

/-- The number written by a run of decimal digits. -/
def ofDigits (cs : List Char) : Nat :=
  cs.foldl (fun n c => n * 10 + (c.toNat - '0'.toNat)) 0

/-- An optional sign and what follows it; the flag is set for a minus. -/
def sign : List Char → Bool × List Char
  | '-' :: cs => (true, cs)
  | '+' :: cs => (false, cs)
  | cs => (false, cs)

/-- A non-empty run of digits with an optional sign, and nothing else. -/
def integer? (cs : List Char) : Option Int :=
  let (negative, digits) := sign cs
  if digits.isEmpty || !digits.all Char.isDigit then none
  else
    let n := Int.ofNat (ofDigits digits)
    some (if negative then -n else n)

/-- The power of ten at the end of a number; nothing at all stands for zero. -/
def exponent? : List Char → Option Int
  | [] => some 0
  | c :: cs => if c = 'e' || c = 'E' then integer? cs else none

/-- The digits after a point, and what follows them. -/
def fraction : List Char → List Char × List Char
  | '.' :: cs => (cs.takeWhile Char.isDigit, cs.dropWhile Char.isDigit)
  | cs => ([], cs)

/-- A number without sign, as digits and a power of ten. -/
def magnitude? (cs : List Char) : Option (Nat × Int) :=
  let whole := cs.takeWhile Char.isDigit
  let (part, rest) := fraction (cs.dropWhile Char.isDigit)
  if whole.isEmpty && part.isEmpty then none
  else (exponent? rest).map fun e => (ofDigits (whole ++ part), e - part.length)

/-- Reads a numeric text. -/
def parse? (cs : List Char) : Option Numeral :=
  let (negative, body) := sign cs
  match magnitude? body with
  | some (digits, exponent) => some (.finite ⟨negative, digits, exponent⟩)
  | none =>
    let word := String.ofList (body.map Char.toLower)
    if word = "inf" || word = "infinity" then some (.infinite negative)
    else if word = "nan" then some .notANumber
    else none

end Numeral

end CestWriter
