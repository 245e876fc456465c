import ValueSchema.Resolution

/-! # Coercion of values

The recursion follows the value, so the nesting of definitions needs no limit here. -/

namespace ValueSchema

/-- How values of one kind are turned into values of another. -/
inductive Conversion
  | unchanged
  | numberToText
  | textToTruth
  | numberToTruth
  | eachItem
  | eachMember
  | eachField
deriving DecidableEq, Repr

/-- The conversion between two kinds, if there is one. -/
def Conversion.between? (source target : Builtin) : Option Conversion :=
  match target, source with
  | .string, .string => some unchanged
  | .string, .int | .string, .float => some numberToText
  | .bool, .bool => some unchanged
  | .bool, .string => some textToTruth
  | .bool, .int | .bool, .float => some numberToTruth
  | .int, .int => some unchanged
  | .float, .float | .float, .int => some unchanged
  | .scalar, .scalar => some unchanged
  | .oneOf, .oneOf => some unchanged
  | .array, .array | .array, .arrayOf => some unchanged
  | .arrayOf, .arrayOf => some eachItem
  | .object, .object | .object, .objectOf | .object, .shape => some unchanged
  | .objectOf, .objectOf => some eachMember
  | .shape, .shape => some eachField
  | _, _ => none

/-- The coercion of one value from any type to any other. -/
abbrev Coerce := TypeDef → TypeDef → Except Failure Json

namespace Coerce

def numberToText : Json → Json
  | .number value => .string value.plainText
  | other => other

/-- Only the empty text is false. -/
def textToTruth : Json → Json
  | .string value => .bool !value.isEmpty
  | other => other

/-- Only zero is false. -/
def numberToTruth : Json → Json
  | .number value => .bool value.isNonzero
  | other => other

/-- The fields of the source with their definitions on both sides. Each must be declared by the
target. -/
def pairFields (sources targets : Record TypeDef) :
    Except Failure (List (String × TypeDef × TypeDef)) :=
  sources.toList.mapM fun (name, source) =>
    match targets.get? name with
    | some target => return (name, source, target)
    | none => throw (.missingTargetField name)

/-- The members of the source's fields, in the order of the source. Other members are dropped. -/
def fields (coercions : Record Coerce) (pairs : List (String × TypeDef × TypeDef)) :
    Except Failure Json := do
  let members ← pairs.mapM fun (name, source, target) =>
    match coercions.get? name with
    | some coerce => return some (name, ← coerce source target)
    | none => return none
  return .object (Record.ofList (members.filterMap id))

/-- Coerces a value, given the coercions of its children. -/
def ofValue (limit : Nat) (sourceRegistry targetRegistry : Registry) (value : Json)
    (children : Json.Children Coerce) : Coerce := fun source target => do
  let resolvedSource ← source.resolve limit sourceRegistry
  let resolvedTarget ← target.resolve limit targetRegistry
  let source := resolvedSource.definition
  let target := resolvedTarget.definition
  match Conversion.between? resolvedSource.kind resolvedTarget.kind with
  | none => throw (.uncoercible resolvedSource.kind resolvedTarget.kind)
  | some .unchanged => return value
  | some .numberToText => return numberToText value
  | some .textToTruth => return textToTruth value
  | some .numberToTruth => return numberToTruth value
  | some .eachItem => do
      let sourceElement ← source.element
      let targetElement ← target.element
      match children with
      | .items coercions =>
          .array <$> coercions.mapM fun coerce => coerce sourceElement targetElement
      | _ => return value
  | some .eachMember => do
      let sourceElement ← source.element
      let targetElement ← target.element
      match children with
      | .members coercions =>
          .object <$> coercions.mapM fun coerce => coerce sourceElement targetElement
      | _ => return value
  | some .eachField => do
      let sourceFields ← source.declaredFields
      let targetFields ← target.declaredFields
      let pairs ← pairFields sourceFields targetFields
      match children with
      | .members coercions => fields coercions pairs
      | _ => return value

end Coerce

/-- Turns a value of the source type into a value of the target type. -/
def Json.coerce (limit : Nat) (sourceRegistry targetRegistry : Registry) : Json → Coerce :=
  fold (Coerce.ofValue limit sourceRegistry targetRegistry)

end ValueSchema
