import ValueSchema.Json.Basic

/-! # JSON text -/

namespace ValueSchema.Json

/-- A character inside quotes. Control characters without a short escape are written in
hexadecimal. -/
def escapeChar (c : Char) : List Char :=
  match c with
  | '"' => ['\\', '"']
  | '\\' => ['\\', '\\']
  | '\x08' => ['\\', 'b']
  | '\t' => ['\\', 't']
  | '\n' => ['\\', 'n']
  | '\x0c' => ['\\', 'f']
  | '\r' => ['\\', 'r']
  | c =>
      if c.toNat < 0x20 then
        ['\\', 'u', '0', '0', Nat.digitChar (c.toNat / 16), Nat.digitChar (c.toNat % 16)]
      else
        [c]

/-- A string in quotes. -/
def quote (s : String) : String := String.ofList ('"' :: s.toList.flatMap escapeChar ++ ['"'])

/-- The text of a value that is neither an array nor an object. -/
def leafText : Json → String
  | .bool true => "true"
  | .bool false => "false"
  | .number value => value.text
  | .string value => quote value
  | _ => "null"

/-- The compact JSON text of a value. -/
def text : Json → String :=
  fold fun value children =>
    match children with
    | .leaf => value.leafText
    | .items texts => "[" ++ String.intercalate "," texts ++ "]"
    | .members texts =>
        let members := texts.toList.map fun (name, text) => quote name ++ ":" ++ text
        "\x7b" ++ String.intercalate "," members ++ "\x7d"

end ValueSchema.Json
