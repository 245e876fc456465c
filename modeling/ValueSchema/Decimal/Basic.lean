import ValueSchema.Binary64

/-! # Decimal numbers

Literals may carry exponents of any size, so magnitudes that are certainly too large or too small
are told apart without computing the power. -/

namespace ValueSchema

/-- How many decimal digits a number is written with. -/
def decimalLength (n : Nat) : Nat := (Nat.toDigits 10 n).length

/-- The number `coefficient * 10 ^ exponent`. -/
structure Decimal where
  coefficient : Nat
  exponent : Int
deriving DecidableEq, Repr

namespace Decimal

/-- Numerator of the number as a fraction of natural numbers. -/
def num (d : Decimal) : Nat := d.coefficient * Nat.pow 10 d.exponent.toNat

/-- Denominator of the number as a fraction of natural numbers. -/
def den (d : Decimal) : Nat := Nat.pow 10 (-d.exponent).toNat

/-- The exponent of the first digit. -/
def leadingExponent (d : Decimal) : Int := d.exponent + decimalLength d.coefficient - 1

/-- Moves the zeros at the end of the coefficient into the exponent. -/
def trim (d : Decimal) : Decimal :=
  let zeros := ((Nat.toDigits 10 d.coefficient).reverse.takeWhile (· == '0')).length
  ⟨d.coefficient / Nat.pow 10 zeros, d.exponent + zeros⟩

/-- The binary64 number nearest to a signed decimal, unless it overflows. -/
def toBinary64? (negative : Bool) (d : Decimal) : Option Binary64 :=
  if d.coefficient = 0 ∨ d.leadingExponent < -330 then
    some { Binary64.zero with negative }
  else if 310 < d.leadingExponent then
    none
  else
    Binary64.ofFraction? negative d.num d.den

end Decimal

end ValueSchema
