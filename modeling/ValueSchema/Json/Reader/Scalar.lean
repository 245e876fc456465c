import ValueSchema.Json.Number
import ValueSchema.Json.Reader.Basic
import ValueSchema.Text.Digits

/-! # Numbers and strings in JSON text

The loops carry a number of rounds that is never used up: every round consumes a character. -/

namespace ValueSchema.Json.Reader

/-! ## Numbers -/

/-- A number as it is written. -/
structure Literal where
  negative : Bool
  whole : List Char
  fraction : Option (List Char)
  exponent : Option Int

def digits : Reader (List Char) := do
  let text ← get
  set (text.dropWhile Char.isDigit)
  return text.takeWhile Char.isDigit

/-- The number that decimal digits stand for. -/
def natOfDigits (digits : List Char) : Nat := (Text.natOfDigits? 10 digits).getD 0

/-- The digits that must follow. `cutOff` is reported if the text ends before them. -/
def someDigits (cutOff : Refusal) : Reader (List Char) := do
  let found ← digits
  if found.isEmpty then
    throw (if (← peek?).isNone then cutOff else .malformed)
  return found

/-- The digits before the point: no zero comes before another digit. -/
def wholeDigits (cutOff : Refusal) : Reader (List Char) := do
  let found ← someDigits cutOff
  if found.head? = some '0' && found.length != 1 then throw .malformed
  return found

/-- Reads a number. `cutOff` is reported if the text ends inside it. -/
def literal (cutOff : Refusal) : Reader Literal := do
  let negative := (← peek?) == some '-'
  if negative then
    let _ ← next
  let whole ← wholeDigits cutOff
  let mut fraction := none
  if (← peek?) == some '.' then
    let _ ← next
    fraction := some (← someDigits cutOff)
  let mut exponent := none
  if (← peek?) == some 'e' || (← peek?) == some 'E' then
    let _ ← next
    let sign ← peek?
    if sign == some '+' || sign == some '-' then
      let _ ← next
    let magnitude := (natOfDigits (← someDigits cutOff) : Int)
    exponent := some (if sign == some '-' then -magnitude else magnitude)
  return { negative, whole, fraction, exponent }

/-- The number that a literal stands for, unless it overflows. -/
def Literal.value? (l : Literal) : Option Number :=
  match l.fraction, l.exponent with
  | none, none => Number.ofInteger? l.negative (natOfDigits l.whole)
  | fraction, exponent =>
      let fraction := fraction.getD []
      let decimal : Decimal :=
        { coefficient := natOfDigits (l.whole ++ fraction)
          exponent := exponent.getD 0 - fraction.length }
      (decimal.toBinary64? l.negative).map .float

def number : Reader Number := do
  match (← literal .unfinished).value? with
  | some value => return value
  | none => throw .malformed

/-! ## Strings -/

/-- A code of four hexadecimal digits. The text must hold at least four more bytes. -/
def hexCode : Reader Nat := do
  let text ← get
  let code := text.take 4
  if code.foldl (fun size c => size + c.utf8Size) 0 < 4 then throw .unfinished
  match Text.natOfDigits? 16 code with
  | some code =>
      set (text.drop 4)
      return code
  | none => throw .malformed

/-- The character of a code, or of a pair of codes from the surrogate ranges. -/
def unicodeEscape : Reader Char := do
  let high ← hexCode
  if 0xdc00 ≤ high ∧ high ≤ 0xdfff then throw .malformed
  if 0xd800 ≤ high ∧ high ≤ 0xdbff then
    word ['\\', 'u']
    let low ← hexCode
    if 0xdc00 ≤ low ∧ low ≤ 0xdfff then
      return Char.ofNat (0x10000 + (high - 0xd800) * 0x400 + (low - 0xdc00))
    throw .malformed
  return Char.ofNat high

/-- The character of a short escape. -/
def shortEscape? : Char → Option Char
  | '"' => some '"'
  | '\\' => some '\\'
  | '/' => some '/'
  | 'b' => some '\x08'
  | 'f' => some '\x0c'
  | 'n' => some '\n'
  | 'r' => some '\r'
  | 't' => some '\t'
  | _ => none

def escape : Reader Char := do
  let c ← next
  if c = 'u' then unicodeEscape
  else match shortEscape? c with
    | some escaped => return escaped
    | none => throw .malformed

/-- An escape of which only the form matters. -/
def skipEscape : Reader Unit := do
  let c ← next
  if c = 'u' then
    let _ ← hexCode
  else if (shortEscape? c).isNone then throw .malformed

def stringLoop (found : List Char) : Nat → Reader String
  | 0 => throw .unfinished
  | rounds + 1 => do
      let c ← next
      if c = '"' then return String.ofList found.reverse
      else if c = '\\' then stringLoop ((← escape) :: found) rounds
      else if c.toNat < 0x20 then throw .malformed
      else stringLoop (c :: found) rounds

/-- The rest of a string after its opening quote. -/
def stringRest : Reader String := do stringLoop [] ((← rounds) + 1)

def skipStringLoop : Nat → Reader Unit
  | 0 => throw .unfinished
  | rounds + 1 => do
      let c ← next
      if c = '"' then return
      else if c = '\\' then
        skipEscape
        skipStringLoop rounds
      else if c.toNat < 0x20 then throw .malformed
      else skipStringLoop rounds

def skipStringRest : Reader Unit := do skipStringLoop ((← rounds) + 1)

end ValueSchema.Json.Reader
