/-! # Readers of JSON text

Text is read from left to right, and the first problem decides why it is refused. -/

namespace ValueSchema.Json

/-- Why a text is refused. -/
inductive Refusal
  /-- The text ends too early. -/
  | unfinished
  /-- The text is no JSON. -/
  | malformed
  /-- The text is JSON but not of the wanted form. -/
  | unsuitable
deriving DecidableEq, Repr

/-- A reader consumes characters from the front of a text. -/
abbrev Reader (α : Type) := StateT (List Char) (Except Refusal) α

namespace Reader

/-- How deeply arrays and objects may be nested. -/
def maxNesting : Nat := 127

def isBlank (c : Char) : Bool := c == ' ' || c == '\t' || c == '\n' || c == '\r'

def skipBlanks : Reader Unit := modify fun text => text.dropWhile isBlank

/-- The next character, which is not consumed. -/
def peek? : Reader (Option Char) := return (← get).head?

/-- Consumes the next character. -/
def next? : Reader (Option Char) := do
  match ← get with
  | [] => return none
  | c :: rest =>
      set rest
      return some c

/-- Consumes the next character, which must be there. -/
def next : Reader Char := do
  match ← next? with
  | some c => return c
  | none => throw .unfinished

/-- The next character that is not blank, which must be there. It is not consumed. -/
def peekToken : Reader Char := do
  skipBlanks
  match ← peek? with
  | some c => return c
  | none => throw .unfinished

/-- Consumes the next character that is not blank. -/
def nextToken : Reader Char := do
  skipBlanks
  next

/-- Consumes exactly these characters. -/
def word : List Char → Reader Unit
  | [] => return
  | c :: rest => do
      if (← next) = c then word rest else throw .malformed

/-- How many characters are left. Each round of a loop consumes one of them. -/
def rounds : Reader Nat := return (← get).length

end Reader

end ValueSchema.Json
