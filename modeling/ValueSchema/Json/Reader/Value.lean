import ValueSchema.Json.Basic
import ValueSchema.Json.Reader.Scalar

/-! # Values in JSON text

Arrays and objects may be nested up to a depth, and without limit if they are skipped. -/

namespace ValueSchema.Json

namespace Reader

/-! ## Arrays and objects -/

/-- Whether an array has another item. A closing bracket is not consumed. -/
def hasItem (first : Bool) : Reader Bool := do
  let c ← peekToken
  if c = ']' then return false
  else if first then return true
  else if c = ',' then
    let _ ← next
    if (← peekToken) = ']' then throw .malformed else return true
  else throw .malformed

def itemsLoop {α : Type} (item : Reader α) (found : List α) : Nat → Reader (List α)
  | 0 => throw .unfinished
  | rounds + 1 => do
      if ← hasItem found.isEmpty then itemsLoop item ((← item) :: found) rounds
      else return found.reverse

/-- The end of an array. -/
def closeArray : Reader Unit := do
  if (← nextToken) = ']' then return else throw .malformed

/-- The items of an array after its opening bracket. -/
def items {α : Type} (item : Reader α) : Reader (List α) := do
  let found ← itemsLoop item [] ((← rounds) + 1)
  closeArray
  return found

/-- Whether an object has another member. Its opening quote is consumed, a closing brace is not.
-/
def hasMember (first : Bool) : Reader Bool := do
  let c ← peekToken
  if c = '\x7d' then return false
  else if c = ',' && !first then
    let _ ← next
    if (← nextToken) = '"' then return true else throw .malformed
  else if c = '"' && first then
    let _ ← next
    return true
  else throw .malformed

def membersLoop {σ : Type} (name : Reader String) (member : σ → String → Reader σ) (first : Bool)
    (state : σ) : Nat → Reader σ
  | 0 => throw .unfinished
  | rounds + 1 => do
      if ← hasMember first then
        membersLoop name member false (← member state (← name)) rounds
      else return state

/-- Reads the members of an object after its opening brace. `member` reads what follows a name.
-/
def members {σ : Type} (name : Reader String) (member : σ → String → Reader σ) (initial : σ) :
    Reader σ := do
  let state ← membersLoop name member true initial ((← rounds) + 1)
  let _ ← nextToken
  return state

/-- The value of a member, after a colon. -/
def afterColon {α : Type} (value : Reader α) : Reader α := do
  if (← nextToken) = ':' then value else throw .malformed

/-! ## Values -/

def startsNumber (c : Char) : Bool := c == '-' || c.isDigit

/-- Reads a value that starts with a character and is neither an array nor an object. -/
def leaf (c : Char) : Reader Json := do
  if c = 'n' then
    word ['n', 'u', 'l', 'l']
    return .null
  else if c = 't' then
    word ['t', 'r', 'u', 'e']
    return .bool true
  else if c = 'f' then
    word ['f', 'a', 'l', 's', 'e']
    return .bool false
  else if startsNumber c then
    return .number (← number)
  else if c = '"' then
    let _ ← next
    return .string (← stringRest)
  else throw .malformed

/-- Reads a value in which arrays and objects are nested up to a depth. -/
def value : Nat → Reader Json
  | 0 => do leaf (← peekToken)
  | depth + 1 => do
      let c ← peekToken
      if c = '[' then
        let _ ← next
        return .array (← items (value depth))
      else if c = '\x7b' then
        let _ ← next
        let insert (record : Record Json) (name : String) : Reader (Record Json) :=
          return record.insert name (← afterColon (value depth))
        return .object (← members stringRest insert ∅)
      else leaf c

/-- Skips a value that starts with a character and is neither an array nor an object. Numbers may
have any magnitude, and escapes need not denote characters. -/
def skipLeaf (c : Char) : Reader Unit := do
  if startsNumber c then
    let _ ← literal .malformed
  else if c = '"' then
    let _ ← next
    skipStringRest
  else
    let _ ← leaf c

/-- Skips a value in which arrays and objects are nested up to a depth. -/
def skip : Nat → Reader Unit
  | 0 => do skipLeaf (← peekToken)
  | depth + 1 => do
      let c ← peekToken
      if c = '[' then
        let _ ← next
        let _ ← items (skip depth)
      else if c = '\x7b' then
        let _ ← next
        let name : Reader String := do
          skipStringRest
          return ""
        members name (fun () _ => afterColon (skip depth)) ()
      else skipLeaf c

/-- Skips a value of any nesting. -/
def skipValue : Reader Unit := do skip (← rounds)

/-! ## Data of a wanted form -/

/-- Refuses a value that is not of the wanted form. If it is malformed itself, that comes first;
of an array or object only the opening is looked at. -/
def mismatch {α : Type} : Reader α := do
  let c ← peekToken
  if c = '[' || c = '\x7b' then throw .unsuitable
  let _ ← leaf c
  throw .unsuitable

def flag : Reader Bool := do
  let c ← peekToken
  if c = 't' then
    word ['t', 'r', 'u', 'e']
    return true
  else if c = 'f' then
    word ['f', 'a', 'l', 's', 'e']
    return false
  else mismatch

def string : Reader String := do
  if (← peekToken) = '"' then
    let _ ← next
    stringRest
  else mismatch

/-- Reads a value that is not `null`. -/
def optional {α : Type} (reader : Reader α) : Reader (Option α) := do
  skipBlanks
  if (← peek?) = some 'n' then
    word ['n', 'u', 'l', 'l']
    return none
  else return some (← reader)

/-- Reads a whole text; only blanks may follow. -/
def run {α : Type} (reader : Reader α) (text : String) : Except Refusal α := do
  let (result, rest) ← StateT.run reader text.toList
  if (rest.dropWhile isBlank).isEmpty then return result else throw .malformed

end Reader

/-- The value of a JSON text. -/
def ofText (text : String) : Except Refusal Json := (Reader.value Reader.maxNesting).run text

end ValueSchema.Json
