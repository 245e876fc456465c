import ValueSchema.TypeDef.Basic

/-! # Attributes of a definition in data

Attributes are read one by one into a draft, which is complete once it has a kind. -/

namespace ValueSchema.TypeDef

/-- The attributes of a definition. -/
inductive Attribute
  | kind
  | notNull
  | ofType
  | fields
  | options
  | required
  | name
deriving DecidableEq, Repr

namespace Attribute

/-- The attributes in the order in which they are written. -/
def all : List Attribute := [kind, notNull, ofType, fields, options, required, name]

/-- The name of an attribute in an object. -/
def key : Attribute → String
  | kind => "kind"
  | notNull => "notNull"
  | ofType => "ofType"
  | fields => "fields"
  | options => "options"
  | required => "required"
  | name => "name"

def ofKey? (name : String) : Option Attribute := all.find? fun entry => entry.key == name

end Attribute

/-- A definition of which some attributes have been read. -/
structure Draft where
  kind : Option Kind := none
  notNull : Option Bool := none
  ofType : Option TypeDef := none
  fields : Option (Record TypeDef) := none
  options : Option (List Choice) := none
  required : Option Bool := none
  name : Option String := none

/-- The definition of a draft that has a kind. -/
def Draft.complete? (draft : Draft) : Option TypeDef :=
  draft.kind.map fun kind =>
    { kind
      notNull := draft.notNull
      ofType := draft.ofType
      fields := draft.fields
      options := draft.options
      required := draft.required
      name := draft.name }

/-- How the value of an attribute is read in each of the forms that it can have. -/
structure AttributeReader (m : Type → Type) where
  kind : m Kind
  flag : m (Option Bool)
  definition : m (Option TypeDef)
  fields : m (Option (Record TypeDef))
  choices : m (Option (List Choice))
  text : m (Option String)

/-- Reads one attribute into a draft. -/
def Draft.read {m : Type → Type} [Monad m] (draft : Draft) (reader : AttributeReader m) :
    Attribute → m Draft
  | .kind => return { draft with kind := some (← reader.kind) }
  | .notNull => return { draft with notNull := ← reader.flag }
  | .ofType => return { draft with ofType := ← reader.definition }
  | .fields => return { draft with fields := ← reader.fields }
  | .options => return { draft with options := ← reader.choices }
  | .required => return { draft with required := ← reader.flag }
  | .name => return { draft with name := ← reader.text }

end ValueSchema.TypeDef
