import ValueSchema.Resolution

/-! # Default values -/

namespace ValueSchema

/-- Which nullable types are filled in although they admit `null`. -/
structure Filling where
  /-- Fill in the value itself. -/
  nonNull : Bool := false
  /-- Fill in the fields of a filled shape, and theirs in turn. -/
  deepNonNull : Bool := false
deriving DecidableEq, Repr

namespace Filling

def nullable : Filling := ⟨false, false⟩

def outermost : Filling := ⟨true, false⟩

def deep : Filling := ⟨true, true⟩

/-- What is filled in inside a filled shape. -/
def forFields (filling : Filling) : Filling := if filling.deepNonNull then deep else nullable

end Filling

namespace TypeDef

/-- The default value of a definition of which no more than `depth` levels are filled in. -/
def defaultWithin (limit : Nat) (registry : Registry) :
    Nat → Filling → TypeDef → Except Failure Json
  | 0, _, _ => .error (.recursionLimit limit)
  | depth + 1, filling, d => do
      let resolved ← d.resolve limit registry
      let d := resolved.definition
      let filled := d.isNotNull || filling.nonNull
      match resolved.kind with
      | .string | .scalar => return .string ""
      | .bool => return .bool false
      | .int | .float => return .number .zero
      | .oneOf => do
          let choices ← d.choices
          return (choices.val.head choices.property).value
      | .array | .arrayOf => return .array []
      | .object | .objectOf => return if filled then .object ∅ else .null
      | .shape =>
          if filled then
            let fields ← d.declaredFields
            .object <$> fields.mapM (defaultWithin limit registry depth filling.forFields)
          else return .null
      | .func | .component => return .null

/-- The default value of a definition. -/
def defaultValue (limit : Nat) (registry : Registry) (filling : Filling) (d : TypeDef) :
    Except Failure Json :=
  d.defaultWithin limit registry limit filling

end TypeDef

end ValueSchema
