import ValueSchema.Json.Printer
import ValueSchema.TypeDef.Attribute

/-! # Definitions as data -/

namespace ValueSchema

/-- An option as an object; an absent text key is left out. -/
def Choice.toJson (choice : Choice) : Json :=
  let textKey := choice.textKey.toList.map fun key => ("textKey", Json.string key)
  .object (Record.ofList (textKey ++ [("value", choice.value)]))

namespace TypeDef

/-- The member for an attribute, unless it is absent. -/
def Attribute.member (a : Attribute) (value : Option Json) : List (String × Json) :=
  value.toList.map fun value => (a.key, value)

/-- A definition as an object. -/
def toJson : TypeDef → Json :=
  fold fun d element fields =>
    .object (Record.ofList (
      Attribute.kind.member (some (.string d.kind.name)) ++
      Attribute.notNull.member (d.notNull.map .bool) ++
      Attribute.ofType.member element ++
      Attribute.fields.member (fields.map .object) ++
      Attribute.options.member (d.options.map fun choices => .array (choices.map Choice.toJson)) ++
      Attribute.required.member (d.required.map .bool) ++
      Attribute.name.member (d.name.map .string)))

/-- A definition as JSON text. -/
def text (d : TypeDef) : String := d.toJson.text

end TypeDef

end ValueSchema
