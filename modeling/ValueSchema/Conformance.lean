import ValueSchema.Json.Printer
import ValueSchema.Resolution
import ValueSchema.Violation

/-! # Conformance of values

The recursion follows the value, so the nesting of definitions needs no limit here. -/

namespace ValueSchema

/-- Whether a value is of the form that a kind demands. The options of a `oneOf` and the inside
of composite values are checked apart from this. -/
def Builtin.admits : Builtin → Json → Bool
  | .string, value => value.isString
  | .bool, value => value.isBool
  | .int, value => value.isIntegral
  | .float, value => value.isNumber
  | .scalar, value => value.isScalar
  | .array, value | .arrayOf, value => value.isArray
  | .object, value | .objectOf, value | .shape, value => value.isObject
  | .oneOf, _ | .func, _ | .component, _ => true

/-- The check of one value against any definition, at a position given by its text. -/
abbrev Check := TypeDef → String → Except Failure Report

namespace Check

/-- Checks items against their common type. -/
def items (checks : List Check) (element : TypeDef) (path : String) : Except Failure Report :=
  Report.join <$> checks.zipIdx.mapM fun (check, position) =>
    check element (path ++ (Step.index position).text)

/-- Checks members against their common type, in the order of the value. -/
def members (checks : Record Check) (element : TypeDef) (path : String) : Except Failure Report :=
  Report.join <$> checks.toList.mapM fun (name, check) =>
    check element (path ++ (Step.key name).text)

/-- Checks declared fields in the order of their declaration. Other members are not looked at. -/
def fields (checks : Record Check) (declared : Record TypeDef) (path : String) :
    Except Failure Report :=
  Report.join <$> declared.toList.mapM fun (name, field) =>
    let fieldPath := path ++ (Step.key name).text
    match checks.get? name with
    | some check => check field fieldPath
    | none =>
        return if field.isRequired then .single (.missingRequired fieldPath) else .success

/-- Checks a value against the options of a `oneOf`. -/
def options (value : Json) (d : TypeDef) (path : String) : Except Failure Report := do
  let choices ← d.choices
  return if choices.val.any fun choice => choice.value.valueEq value then .success
    else .single (.notAnOption path value.text)

/-- Checks the parts of a composite value. -/
def parts (children : Json.Children Check) (resolved : Resolved) (path : String) :
    Except Failure Report :=
  match resolved.kind, children with
  | .arrayOf, .items checks => do items checks (← resolved.definition.element) path
  | .objectOf, .members checks => do members checks (← resolved.definition.element) path
  | .shape, .members checks => do fields checks (← resolved.definition.declaredFields) path
  | _, _ => return .success

/-- Checks a value, given the checks of its children. -/
def ofValue (limit : Nat) (registry : Registry) (value : Json) (children : Json.Children Check) :
    Check := fun d path => do
  let resolved ← d.resolve limit registry
  if resolved.kind.isNullable && value.isNull then
    return if resolved.definition.isNotNull then .single (.nullNotAllowed path) else .success
  else if resolved.kind = .oneOf then
    options value resolved.definition path
  else if resolved.kind.admits value then
    parts children resolved path
  else
    return .single (.typeMismatch path resolved.kind.tag value.typeName)

end Check

namespace Json

/-- Checks a value at a position. -/
def check (limit : Nat) (registry : Registry) : Json → Check := fold (Check.ofValue limit registry)

/-- All violations of a type by a value. -/
def validate (limit : Nat) (registry : Registry) (value : Json) (d : TypeDef) :
    Except Failure Report :=
  value.check limit registry d (pathText [])

/-- Whether a value conforms to a type. -/
def conforms (limit : Nat) (registry : Registry) (value : Json) (d : TypeDef) :
    Except Failure Bool :=
  Report.valid <$> value.validate limit registry d

end Json

end ValueSchema
