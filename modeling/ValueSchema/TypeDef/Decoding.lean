import ValueSchema.Text.Quoted
import ValueSchema.TypeDef.Encoding

/-! # Definitions from data

The first fault in reading order is reported. A missing member is only noticed at the end. -/

namespace ValueSchema

/-- What was expected where data has a wrong form. -/
inductive Expected
  | definition
  | choice
  | text
  | flag
  | map
  | sequence
  | definitionElements
  | choiceElements
  | fewerElements
deriving DecidableEq, Repr

def Expected.message : Expected → String
  | .definition => "struct TypeDefinition"
  | .choice => "struct OneOfOption"
  | .text => "a string"
  | .flag => "a boolean"
  | .map => "a map"
  | .sequence => "a sequence"
  | .definitionElements => "struct TypeDefinition with 7 elements"
  | .choiceElements => "struct OneOfOption with 2 elements"
  | .fewerElements => "fewer elements in array"

/-- Why data is no definition. -/
inductive DecodeError
  | wrongType (found : Json) (expected : Expected)
  | wrongLength (length : Nat) (expected : Expected)
  | missingMember (name : String)
  | reservedName (name : String)

/-- The message for a registry name that is a built-in tag. -/
def reservedNameMessage (name : String) : String :=
  "type name is reserved for a built-in kind: " ++ name

/-- How a value is described where another form was expected. -/
def Json.description : Json → String
  | .null => "null"
  | .bool true => "boolean `true`"
  | .bool false => "boolean `false`"
  | .number (.integer value range) => "integer `" ++ (Number.integer value range).text ++ "`"
  | .number (.float value) => "floating point `" ++ (Number.float value).text ++ "`"
  | .string value => "string " ++ Text.quoted value
  | .array _ => "sequence"
  | .object _ => "map"

def DecodeError.message : DecodeError → String
  | .wrongType found expected =>
      "invalid type: " ++ found.description ++ ", expected " ++ expected.message
  | .wrongLength length expected =>
      "invalid length " ++ Nat.repr length ++ ", expected " ++ expected.message
  | .missingMember name => "missing field `" ++ name ++ "`"
  | .reservedName name => reservedNameMessage name

namespace Json

def asText : Json → Except DecodeError String
  | .string value => .ok value
  | other => .error (.wrongType other .text)

def asFlag : Json → Except DecodeError Bool
  | .bool value => .ok value
  | other => .error (.wrongType other .flag)

/-- Reads a value that is not `null`. -/
def optional {α : Type} (value : Json) (read : Except DecodeError α) :
    Except DecodeError (Option α) :=
  match value with
  | .null => .ok none
  | _ => read.map some

end Json

namespace Choice

/-- An option of which some members have been read. -/
structure Draft where
  textKey : Option String := none
  value : Option Json := none

def Draft.read (draft : Draft) (name : String) (member : Json) : Except DecodeError Draft :=
  if name = "textKey" then return { draft with textKey := ← member.optional member.asText }
  else if name = "value" then return { draft with value := some member }
  else return draft

/-- Reads an option in object or array form. -/
def ofJson : Json → Except DecodeError Choice
  | .object members => do
      let draft ← members.toList.foldlM (fun (draft : Draft) (name, member) =>
        draft.read name member) {}
      match draft.value with
      | some value => return { textKey := draft.textKey, value }
      | none => throw (.missingMember "value")
  | .array [] => throw (.wrongLength 1 .choiceElements)
  | .array (first :: rest) => do
      let textKey ← first.optional first.asText
      match rest with
      | [] => throw (.wrongLength 1 .choiceElements)
      | [value] => return { textKey, value }
      | _ => throw (.wrongLength (rest.length + 1) .fewerElements)
  | other => throw (.wrongType other .choice)

/-- Reads a list of options. -/
def listOfJson : Json → Except DecodeError (List Choice)
  | .array items => items.mapM ofJson
  | other => throw (.wrongType other .sequence)

end Choice

namespace TypeDef

/-- A value with what it means as a definition and as the fields of one. -/
structure Reading where
  value : Json
  definition : Except DecodeError TypeDef
  fields : Except DecodeError (Record TypeDef)

/-- The forms in which the value of an attribute can be read. -/
def Reading.attributeReader (reading : Reading) : AttributeReader (Except DecodeError) where
  kind := reading.value.asText.map Kind.ofName
  flag := reading.value.optional reading.value.asFlag
  definition := reading.value.optional reading.definition
  fields := reading.value.optional reading.fields
  choices := reading.value.optional (Choice.listOfJson reading.value)
  text := reading.value.optional reading.value.asText

/-- Reads the members of an object; those that are no attributes are ignored. -/
def ofMembers (members : Record Reading) : Except DecodeError TypeDef := do
  let draft ← members.toList.foldlM (fun (draft : Draft) (name, reading) =>
    match Attribute.ofKey? name with
    | some a => draft.read reading.attributeReader a
    | none => return draft) {}
  match draft.complete? with
  | some d => return d
  | none => throw (.missingMember Attribute.kind.key)

/-- Reads the attributes in their fixed order. -/
def ofItems (items : List Reading) : Except DecodeError TypeDef := do
  let draft ← (items.zip Attribute.all).foldlM (fun (draft : Draft) (reading, a) =>
    draft.read reading.attributeReader a) {}
  match draft.complete? with
  | none => throw (.wrongLength 0 .definitionElements)
  | some d =>
      if items.length ≤ Attribute.all.length then return d
      else throw (.wrongLength items.length .fewerElements)

/-- What a value means, given what its children mean. -/
def read (value : Json) : Json.Children Reading → Reading
  | .members members =>
      { value, definition := ofMembers members, fields := members.mapM Reading.definition }
  | .items items =>
      { value, definition := ofItems items, fields := throw (.wrongType value .map) }
  | .leaf =>
      { value
        definition := throw (.wrongType value .definition)
        fields := throw (.wrongType value .map) }

/-- Reads a definition. -/
def ofJson (value : Json) : Except DecodeError TypeDef := (value.fold read).definition

/-- Reads a record of definitions. -/
def recordOfJson (value : Json) : Except DecodeError (Record TypeDef) := (value.fold read).fields

end TypeDef

end ValueSchema
