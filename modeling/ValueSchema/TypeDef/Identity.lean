import ValueSchema.TypeDef.Basic

/-! # Identity of definitions

Fields and the members of option values may differ in order. -/

namespace ValueSchema

def Choice.same (left right : Choice) : Bool :=
  left.textKey == right.textKey && left.value.same right.value

/-- Options are compared in order. -/
def Choice.sameList : List Choice → List Choice → Bool
  | [], [] => true
  | left :: lefts, right :: rights => left.same right && sameList lefts rights
  | _, _ => false

/-- Whether two optional parts are both absent or both pass the test of the first. -/
def sameOptional {α β : Type} (test : α → β → Bool) : Option α → Option β → Bool
  | none, none => true
  | some left, some right => test left right
  | _, _ => false

/-- Identity of definitions, up to the order of fields. -/
def TypeDef.same : TypeDef → TypeDef → Bool :=
  fold fun d element fields other =>
    d.kind == other.kind && d.notNull == other.notNull &&
      sameOptional (fun test part => test part) element other.ofType &&
      sameOptional (fun tests parts =>
        tests.size == parts.size &&
          tests.toList.all fun (name, test) => (parts.get? name).any test) fields other.fields &&
      sameOptional Choice.sameList d.options other.options &&
      d.required == other.required && d.name == other.name

end ValueSchema
