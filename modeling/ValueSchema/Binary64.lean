/-! # Finite binary64 numbers

A number is its sign and the place of its magnitude among all magnitudes, so neither an infinity
nor a NaN can be written down. Magnitudes are counted in units of `2 ^ -1074`. -/

namespace ValueSchema

/-- Divides and rounds to the nearest integer, a half to the even neighbour. -/
def roundHalfEven (num den : Nat) : Nat :=
  let quotient := num / den
  let twice := 2 * (num % den)
  if twice < den ∨ twice = den ∧ quotient % 2 = 0 then quotient else quotient + 1

namespace Binary64

/-- How many magnitudes there are from one power of two to the next, which is `2 ^ 52`. -/
def perBinade : Nat := 4503599627370496

/-- The number of finite magnitudes. -/
def places : Nat := 2047 * perBinade

/-- How many times the unit is halved from `1`. -/
def unitExponent : Nat := 1074

/-- How many units make up `1`. -/
def one : Nat := Nat.pow 2 unitExponent

/-- The magnitude at a place, in units. -/
def unitsAt (place : Nat) : Nat :=
  if place < perBinade then place
  else (perBinade + place % perBinade) * Nat.pow 2 (place / perBinade - 1)

/-- The place nearest to `num / den` units, a half to the even place. It can lie behind the last
finite one. -/
def nearest (num den : Nat) : Nat :=
  let shift := Nat.log2 (num / den) - 52
  shift * perBinade + roundHalfEven num (den * Nat.pow 2 shift)

end Binary64

/-- A finite binary64 number. -/
structure Binary64 where
  negative : Bool
  place : Nat
  finite : place < Binary64.places
deriving DecidableEq

namespace Binary64

def zero : Binary64 := ⟨false, 0, by decide⟩

instance : Inhabited Binary64 := ⟨zero⟩

/-- The magnitude in units. -/
def units (x : Binary64) : Nat := unitsAt x.place

def isZero (x : Binary64) : Bool := x.place == 0

def isIntegral (x : Binary64) : Bool := x.units % one == 0

/-- The integer part, towards zero. -/
def truncate (x : Binary64) : Int :=
  if x.negative then -((x.units / one : Nat) : Int) else ((x.units / one : Nat) : Int)

/-- Equality as numbers: the two zeros are equal. -/
def numEq (x y : Binary64) : Bool :=
  x.place == y.place && (x.negative == y.negative || x.place == 0)

/-- The number nearest to a signed fraction `num / den`, unless it overflows. -/
def ofFraction? (negative : Bool) (num den : Nat) : Option Binary64 :=
  let place := nearest (num * one) den
  if finite : place < places then some ⟨negative, place, finite⟩ else none

/-! ## Integers of 64 bits -/

theorem roundHalfEven_le (num den : Nat) : roundHalfEven num den ≤ num / den + 1 := by
  unfold roundHalfEven
  dsimp only
  split <;> omega

theorem div_pow_log2_lt (n : Nat) : n / Nat.pow 2 (Nat.log2 n - 52) < Nat.pow 2 53 := by
  rw [Nat.pow_eq, Nat.pow_eq, Nat.div_lt_iff_lt_mul (Nat.two_pow_pos _), ← Nat.pow_add]
  exact Nat.lt_of_lt_of_le Nat.lt_log2_self (Nat.pow_le_pow_right (by decide) (by omega))

theorem log2_mul_two_pow_lt (n bits shift : Nat) (hbits : 0 < bits) (h : n < Nat.pow 2 bits) :
    Nat.log2 (n * Nat.pow 2 shift) < bits + shift := by
  rw [Nat.pow_eq] at h ⊢
  by_cases hn : n = 0
  · rw [hn, Nat.zero_mul, Nat.log2_zero]
    omega
  · rw [Nat.log2_lt (Nat.mul_ne_zero hn (Nat.ne_of_gt (Nat.two_pow_pos shift))), Nat.pow_add]
    exact Nat.mul_lt_mul_of_pos_right h (Nat.two_pow_pos shift)

theorem nearest_lt_places (n : Nat) (h : n < 18446744073709551616) :
    nearest (n * one) 1 < places := by
  have hlog : Nat.log2 (n * one) < 64 + unitExponent := by
    unfold one
    exact log2_mul_two_pow_lt n 64 unitExponent (by decide) h
  have hround := roundHalfEven_le (n * one) (Nat.pow 2 (Nat.log2 (n * one) - 52))
  have hquotient : n * one / Nat.pow 2 (Nat.log2 (n * one) - 52) < 9007199254740992 :=
    div_pow_log2_lt (n * one)
  simp only [nearest, Nat.div_one, Nat.one_mul]
  generalize Nat.log2 (n * one) = log at *
  generalize roundHalfEven (n * one) (Nat.pow 2 (log - 52)) = rounded at *
  generalize n * one / Nat.pow 2 (log - 52) = quotient at *
  unfold unitExponent at hlog
  unfold places perBinade
  omega

/-- The number nearest to an integer whose magnitude is below `2 ^ 64`. -/
def ofInt (value : Int) (h : value.natAbs < 18446744073709551616) : Binary64 :=
  ⟨value < 0, nearest (value.natAbs * one) 1, nearest_lt_places value.natAbs h⟩

end Binary64

end ValueSchema
