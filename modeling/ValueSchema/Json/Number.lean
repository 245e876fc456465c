import ValueSchema.Decimal.Layout

/-! # JSON numbers

Integers and floats are kept apart: `1` and `1.0` are the same to `numEq` only. -/

namespace ValueSchema

/-- The integers from `-2 ^ 63` to below `2 ^ 64`, which are those of 64 bits, signed or
unsigned. -/
def Has64Bits (value : Int) : Prop := -9223372036854775808 ≤ value ∧ value < 18446744073709551616

instance (value : Int) : Decidable (Has64Bits value) := inferInstanceAs (Decidable (_ ∧ _))

/-- A JSON number. -/
inductive Number
  | integer (value : Int) (range : Has64Bits value)
  | float (value : Binary64)
deriving DecidableEq

namespace Number

/-- JSON text writes magnitudes from `10 ^ -5` to below `10 ^ 16` without an exponent, and every
float with a fraction or an exponent. -/
def jsonFormat : NumberFormat := ⟨.toEven, fun exponent => -5 ≤ exponent && exponent ≤ 15, true⟩

/-- Text for people has no exponent, and no fraction on whole numbers. -/
def plainFormat : NumberFormat := ⟨.up, fun _ => true, false⟩

def zero : Number := .integer 0 (by decide)

instance : Inhabited Number := ⟨zero⟩

/-- The number as JSON text. -/
def text : Number → String
  | .integer value _ => Int.repr value
  | .float value => jsonFormat.text value

/-- The number as plain text. Whole floats below `10 ^ 15` are written as integers, so that both
zeros give the same text. -/
def plainText : Number → String
  | .integer value _ => Int.repr value
  | .float value =>
      if value.isIntegral && value.truncate.natAbs < 1000000000000000 then Int.repr value.truncate
      else plainFormat.text value

/-- Whether the number is whole. -/
def isIntegral : Number → Bool
  | .integer _ _ => true
  | .float value => value.isIntegral

/-- The value of an integer in the signed range. -/
def toSigned? : Number → Option Int
  | .integer value _ => if value < 9223372036854775808 then some value else none
  | .float _ => none

theorem natAbs_lt {value : Int} (range : Has64Bits value) :
    value.natAbs < 18446744073709551616 := by
  unfold Has64Bits at range
  omega

/-- The number as a binary64 number; integers are rounded to the nearest one. -/
def toBinary64 : Number → Binary64
  | .integer value range => Binary64.ofInt value (natAbs_lt range)
  | .float value => value

def isNonzero : Number → Bool
  | .integer value _ => value != 0
  | .float value => !value.isZero

/-- Equality across kinds: exact on integers in the signed range, as binary64 numbers otherwise.
-/
def numEq (x y : Number) : Bool :=
  match x.toSigned?, y.toSigned? with
  | some a, some b => a == b
  | _, _ => x.toBinary64.numEq y.toBinary64

/-- Equality within a kind. -/
def same : Number → Number → Bool
  | .integer a _, .integer b _ => a == b
  | .float a, .float b => a.numEq b
  | _, _ => false

/-- The number of a decimal literal without fraction and exponent. An integer out of range is a
float, and so is a negative zero. -/
def ofInteger? (negative : Bool) (magnitude : Nat) : Option Number :=
  let value : Int := if negative then -(magnitude : Int) else magnitude
  if range : Has64Bits value then
    if negative && magnitude == 0 then some (.float { Binary64.zero with negative := true })
    else some (.integer value range)
  else
    (Decimal.toBinary64? negative ⟨magnitude, 0⟩).map .float

end Number

end ValueSchema
