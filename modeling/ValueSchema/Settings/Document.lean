import ValueSchema.Text.Digits

/-! # Settings documents

Of a document in the style of TOML, comments, blank lines and entries with a whole number are
read. -/

namespace ValueSchema.Settings.Document

def isBlank (c : Char) : Bool := c == ' ' || c == '\t'

/-- The lines of a text. A line ends with a line feed, before which a carriage return may stand. -/
def lines : List Char → List (List Char)
  | [] => [[]]
  | '\n' :: rest => [] :: lines rest
  | '\r' :: '\n' :: rest => [] :: lines rest
  | c :: rest =>
      match lines rest with
      | [] => [[c]]
      | line :: more => (c :: line) :: more

/-- Whether a character may stand in a comment or a quoted key. -/
def isPrintable (c : Char) : Bool := c == '\t' || (0x20 ≤ c.toNat && c.toNat != 0x7f)

/-- Whether nothing but blanks and a comment is left of a line. -/
def isLineEnd (line : List Char) : Bool :=
  match line.dropWhile isBlank with
  | [] => true
  | '#' :: comment => comment.all isPrintable
  | _ => false

def isBareKeyChar (c : Char) : Bool := c.isAlphanum || c == '_' || c == '-'

/-- The character with a code in hexadecimal digits. -/
def charOfHex? (digits : List Char) : Option Char := do
  let code ← Text.natOfDigits? 16 digits
  if code.isValidChar then some (Char.ofNat code) else none

/-- How many hexadecimal digits follow the letter of an escape. -/
def escapeLength? : Char → Option Nat
  | 'x' => some 2
  | 'u' => some 4
  | 'U' => some 8
  | _ => none

/-- The character of a short escape. -/
def shortEscape? : Char → Option Char
  | '"' => some '"'
  | '\\' => some '\\'
  | 'b' => some '\x08'
  | 'e' => some '\x1b'
  | 'f' => some '\x0c'
  | 'n' => some '\n'
  | 'r' => some '\r'
  | 't' => some '\t'
  | _ => none

/-- The character of an escape after its backslash, and what follows it. -/
def escape? : List Char → Option (Char × List Char)
  | [] => none
  | c :: rest =>
      match escapeLength? c with
      | some length =>
          if length ≤ rest.length then (charOfHex? (rest.take length)).map (·, rest.drop length)
          else none
      | none => (shortEscape? c).map (·, rest)

/-- A key in double quotes after the opening one, and what follows it. Each round consumes a
character. -/
def basicKey? (found : List Char) : Nat → List Char → Option (List Char × List Char)
  | _ + 1, '"' :: rest => some (found.reverse, rest)
  | rounds + 1, '\\' :: rest => do
      let (c, rest) ← escape? rest
      basicKey? (c :: found) rounds rest
  | rounds + 1, c :: rest => if isPrintable c then basicKey? (c :: found) rounds rest else none
  | _, _ => none

/-- The key at the start of a line, and what follows it. -/
def key? : List Char → Option (List Char × List Char)
  | '"' :: rest => basicKey? [] rest.length rest
  | '\'' :: rest =>
      let key := rest.takeWhile fun c => c != '\'' && isPrintable c
      match rest.drop key.length with
      | '\'' :: rest => some (key, rest)
      | _ => none
  | line =>
      let key := line.takeWhile isBareKeyChar
      if key.isEmpty then none else some (key, line.drop key.length)

/-- Digits without the underscores between them. An underscore stands only between two digits. -/
def ungrouped? : List Char → Option (List Char)
  | [] => none
  | [c] => if c = '_' then none else some [c]
  | c :: '_' :: rest => if c = '_' then none else (ungrouped? rest).map (c :: ·)
  | c :: rest => if c = '_' then none else (ungrouped? rest).map (c :: ·)

def natural? (base : Nat) (digits : List Char) : Option Nat := do
  Text.natOfDigits? base (← ungrouped? digits)

/-- A decimal number without zeros in front. -/
def decimal? (digits : List Char) : Option Nat :=
  match digits with
  | '0' :: _ :: _ => none
  | _ => natural? 10 digits

/-- A whole number that is not negative. A sign is only written before decimal digits. -/
def integer? : List Char → Option Nat
  | '0' :: 'x' :: digits => natural? 16 digits
  | '0' :: 'o' :: digits => natural? 8 digits
  | '0' :: 'b' :: digits => natural? 2 digits
  | '+' :: digits => decimal? digits
  | '-' :: digits => (decimal? digits).filter (· == 0)
  | digits => decimal? digits

/-- The key and the number of an entry. -/
def entry? (line : List Char) : Option (String × Nat) := do
  let (key, rest) ← key? (line.dropWhile isBlank)
  match rest.dropWhile isBlank with
  | '=' :: rest =>
      let rest := rest.dropWhile isBlank
      let digits := rest.takeWhile fun c => !isBlank c && c != '#'
      if isLineEnd (rest.drop digits.length) then
        return (String.ofList key, ← integer? digits)
      else none
  | _ => none

/-- The text without a byte order mark in front. -/
def unmarked : List Char → List Char
  | '\ufeff' :: rest => rest
  | text => text

/-- The entries of a document in order. -/
def entries? (text : String) : Option (List (String × Nat)) :=
  ((lines (unmarked text.toList)).filter fun line => !isLineEnd line).mapM entry?

end ValueSchema.Settings.Document
