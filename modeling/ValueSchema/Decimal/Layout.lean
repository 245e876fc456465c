import ValueSchema.Decimal.Shortest

/-! # Number text -/

namespace ValueSchema

/-- The decisions of a number format. -/
structure NumberFormat where
  /-- Which of two equally near shortest decimals is written. -/
  tie : Decimal.Tie
  /-- The exponents of the first digit for which no exponent is written. -/
  positional : Int → Bool
  /-- Whether a whole number is written with the fraction `.0`. -/
  keepsFraction : Bool

namespace Decimal

def zeros (count : Nat) : String := String.ofList (List.replicate count '0')

/-- The digits with the point in its place. -/
def positionalText (keepsFraction : Bool) (d : Decimal) : String :=
  let digits := Nat.toDigits 10 d.coefficient
  let whole := d.exponent + digits.length
  if 0 ≤ d.exponent then
    String.ofList digits ++ zeros d.exponent.toNat ++ (if keepsFraction then ".0" else "")
  else if 0 < whole then
    String.ofList (digits.take whole.toNat) ++ "." ++ String.ofList (digits.drop whole.toNat)
  else
    "0." ++ zeros (-whole).toNat ++ String.ofList digits

/-- One digit before the point and a signed exponent. A single digit has no point. -/
def scientificText (d : Decimal) : String :=
  let digits := Nat.toDigits 10 d.coefficient
  let fraction := String.ofList (digits.drop 1)
  let exponent := d.leadingExponent
  String.ofList (digits.take 1) ++ (if fraction.isEmpty then "" else "." ++ fraction) ++
    (if exponent < 0 then "e-" else "e+") ++ Nat.repr exponent.natAbs

end Decimal

/-- The text of a binary64 number in a format. -/
def NumberFormat.text (format : NumberFormat) (x : Binary64) : String :=
  let d := Decimal.shortest format.tie x.place
  (if x.negative then "-" else "") ++
    if format.positional d.leadingExponent then d.positionalText format.keepsFraction
    else d.scientificText

end ValueSchema
