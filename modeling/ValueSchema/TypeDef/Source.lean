import ValueSchema.Json.Reader.Value
import ValueSchema.Registry

/-! # Definitions from JSON text

The forms are those of definitions in data, but problems are met in the order of the text. -/

namespace ValueSchema

namespace TypeDef.Source

open Json.Reader

/-- Refuses any value, because nothing more may be opened. The characters are those that would
open a value of the wanted form. -/
def tooDeep {α : Type} (openings : List Char) : Json.Reader α := do
  if openings.contains (← peekToken) then throw .malformed else mismatch

/-- An option of which some members have been read. A member that is present may be `null`. -/
structure ChoiceDraft where
  textKey : Option (Option String) := none
  value : Option Json := none

/-- Reads the member of an option after its name. -/
def choiceMember (value : Json.Reader Json) (draft : ChoiceDraft) (name : String) :
    Json.Reader ChoiceDraft := do
  if name = "textKey" then
    if draft.textKey.isSome then throw .unsuitable
    return { draft with textKey := some (← afterColon (optional string)) }
  else if name = "value" then
    if draft.value.isSome then throw .unsuitable
    return { draft with value := some (← afterColon value) }
  else
    afterColon skipValue
    return draft

/-- Reads an option in which values are read by `value`. -/
def choice (value : Json.Reader Json) : Json.Reader Choice := do
  let c ← peekToken
  if c = '[' then
    let _ ← next
    let mut textKey := none
    if ← hasItem true then
      textKey ← optional string
      if ← hasItem false then
        let value ← value
        closeArray
        return { textKey, value }
    throw .unsuitable
  else if c = '\x7b' then
    let _ ← next
    let draft ← members stringRest (choiceMember value) {}
    match draft.value with
    | some value => return { textKey := draft.textKey.join, value }
    | none => throw .unsuitable
  else mismatch

/-- A draft with the attributes that have been read. -/
structure AttributesDraft where
  draft : Draft := {}
  seen : List Attribute := []

/-- Reads the member of a definition after its name. -/
def attributeMember (reader : AttributeReader Json.Reader) (state : AttributesDraft)
    (name : String) : Json.Reader AttributesDraft := do
  match Attribute.ofKey? name with
  | some a =>
      if state.seen.contains a then throw .unsuitable
      return { draft := ← afterColon (state.draft.read reader a), seen := a :: state.seen }
  | none =>
      afterColon skipValue
      return state

/-- Reads attributes in their order until the array ends. -/
def attributeItems (reader : AttributeReader Json.Reader) (draft : Draft) (first : Bool) :
    List Attribute → Json.Reader Draft
  | [] => return draft
  | a :: rest => do
      if ← hasItem first then attributeItems reader (← draft.read reader a) false rest
      else return draft

/-- The definition of a draft, which must be complete. -/
def complete (draft : Draft) : Json.Reader TypeDef :=
  match draft.complete? with
  | some d => return d
  | none => throw .unsuitable

/-- Reads a definition whose attributes are read by `reader`. -/
def definition (reader : AttributeReader Json.Reader) : Json.Reader TypeDef := do
  let c ← peekToken
  if c = '[' then
    let _ ← next
    let d ← complete (← attributeItems reader {} true Attribute.all)
    closeArray
    return d
  else if c = '\x7b' then
    let _ ← next
    complete (← members stringRest (attributeMember reader) {}).draft
  else mismatch

/-- Readers for all parts of a definition that are nested up to some depth. -/
structure Level where
  definition : Json.Reader TypeDef
  fields : Json.Reader (Record TypeDef)
  choice : Json.Reader Choice
  choices : Json.Reader (List Choice)

/-- The attributes of a definition whose parts are read by the level below. -/
def Level.attributeReader (below : Level) : AttributeReader Json.Reader where
  kind := return Kind.ofName (← string)
  flag := optional flag
  definition := optional below.definition
  fields := optional below.fields
  choices := optional below.choices
  text := optional string

/-- The readers for parts that are nested up to a depth. -/
def level : Nat → Level
  | 0 =>
      { definition := tooDeep ['[', '\x7b']
        fields := tooDeep ['\x7b']
        choice := tooDeep ['[', '\x7b']
        choices := tooDeep ['['] }
  | depth + 1 =>
      let below := level depth
      { definition := definition below.attributeReader
        fields := do
          if (← peekToken) = '\x7b' then
            let _ ← next
            let insert (record : Record TypeDef) (name : String) : Json.Reader (Record TypeDef) :=
              return record.insert name (← afterColon below.definition)
            members stringRest insert ∅
          else mismatch
        choice := choice (value depth)
        choices := do
          if (← peekToken) = '[' then
            let _ ← next
            items below.choice
          else mismatch }

end TypeDef.Source

open TypeDef.Source Json.Reader

/-- Reads a definition. -/
def TypeDef.ofText (text : String) : Except Json.Refusal TypeDef :=
  (level maxNesting).definition.run text

/-- Reads an option. -/
def Choice.ofText (text : String) : Except Json.Refusal Choice := (level maxNesting).choice.run text

/-- Reads a kind from its name. -/
def Kind.ofText (text : String) : Except Json.Refusal Kind :=
  Json.Reader.run (return Kind.ofName (← string)) text

/-- Reads a registry. -/
def Registry.ofText (text : String) : Except Json.Refusal Registry :=
  let reader : Json.Reader Registry := do
    match Registry.ofRecord (← (level maxNesting).fields) with
    | .ok registry => return registry
    | .error _ => throw .unsuitable
  reader.run text

end ValueSchema
