import ValueSchema.Decimal.Basic

/-! # The shortest decimal of a binary64 number -/

namespace ValueSchema.Decimal

/-- Which of two equally near decimals is taken. -/
inductive Tie
  | toEven
  | up
deriving DecidableEq, Repr

/-- Whether a decimal rounds to the magnitude at a place. The midpoints towards both neighbours
belong to the even place. -/
def readsBack (place : Nat) (d : Decimal) : Bool :=
  let twice := 2 * d.num * Binary64.one
  let low := (Binary64.unitsAt (place - 1) + Binary64.unitsAt place) * d.den
  let high := (Binary64.unitsAt place + Binary64.unitsAt (place + 1)) * d.den
  if place % 2 = 0 then low ≤ twice && twice ≤ high else low < twice && twice < high

/-- The exponent of the first digit of a positive magnitude. The least one exceeds `10 ^ -324`.
-/
def firstExponent (place : Nat) : Int :=
  decimalLength (Binary64.unitsAt place * Nat.pow 10 324 / Binary64.one) - 325

/-- The decimal with a given exponent that reads back, if there is one. Only the two neighbours
of the magnitude among the multiples of the power of ten are candidates; of two the nearer is
taken. -/
def candidate? (tie : Tie) (place : Nat) (exponent : Int) : Option Decimal :=
  let num := Binary64.unitsAt place * Nat.pow 10 (-exponent).toNat
  let den := Binary64.one * Nat.pow 10 exponent.toNat
  let below := num / den
  let lower : Decimal := ⟨below, exponent⟩
  let upper : Decimal := ⟨below + 1, exponent⟩
  let twice := 2 * (num % den)
  let preferLower := twice < den || twice = den && tie = .toEven && below % 2 = 0
  match readsBack place lower, readsBack place upper with
  | true, true => some (if preferLower then lower else upper)
  | true, false => some lower
  | false, true => some upper
  | false, false => none

/-- The shortest decimal that reads back as the magnitude at a place. Seventeen digits always do.
-/
def shortest (tie : Tie) (place : Nat) : Decimal :=
  if place = 0 then
    ⟨0, 0⟩
  else
    let first := firstExponent place
    let found := (List.range 17).findSome? fun (count : Nat) => candidate? tie place (first - count)
    (found.getD ⟨0, 0⟩).trim

end ValueSchema.Decimal
