import ValueSchema.Equivalence

/-! # Compatibility of types -/

namespace ValueSchema

/-- Whether values of the first kind can stand for values of the second, as far as the kinds
decide it. -/
def Builtin.widensTo : Builtin → Builtin → Bool
  | .string, .string | .int, .string | .float, .string => true
  | .bool, .bool | .string, .bool | .int, .bool | .float, .bool => true
  | .int, .int => true
  | .float, .float | .int, .float => true
  | .scalar, .scalar => true
  | .oneOf, .oneOf => true
  | .array, .array | .arrayOf, .array => true
  | .arrayOf, .arrayOf => true
  | .object, .object | .objectOf, .object | .shape, .object => true
  | .objectOf, .objectOf => true
  | .shape, .shape => true
  | .component, .component => true
  | _, _ => false

namespace TypeDef

/-- Compatibility of definitions nested no deeper than `depth`. -/
def compatibleWithin (limit : Nat) (sourceRegistry targetRegistry : Registry) :
    Nat → TypeDef → TypeDef → Except Failure Bool
  | 0, _, _ => .error (.recursionLimit limit)
  | depth + 1, source, target => do
      let resolvedSource ← source.resolve limit sourceRegistry
      let resolvedTarget ← target.resolve limit targetRegistry
      let source := resolvedSource.definition
      let target := resolvedTarget.definition
      -- A target that forbids `null` must not receive one.
      let nullFits := !target.isNotNull || source.isNotNull
      if !resolvedSource.kind.widensTo resolvedTarget.kind then
        return false
      match resolvedTarget.kind with
      | .string | .bool | .int | .float | .array | .component => return true
      | .func => return false
      | .scalar => return source.name == target.name
      | .oneOf => return Choice.sameValues (← source.choices).val (← target.choices).val
      | .object => return nullFits
      | .arrayOf =>
          compatibleWithin limit sourceRegistry targetRegistry depth (← source.element)
            (← target.element)
      | .objectOf =>
          if nullFits then
            compatibleWithin limit sourceRegistry targetRegistry depth (← source.element)
              (← target.element)
          else return false
      | .shape =>
          if nullFits then
            matchFields (fun source target =>
                if target.isRequired && !source.isRequired then return false
                else compatibleWithin limit sourceRegistry targetRegistry depth source target)
              (← source.declaredFields) (← target.declaredFields)
          else return false

/-- Whether values of the source type can be turned into values of the target type. -/
def compatible (limit : Nat) (sourceRegistry targetRegistry : Registry) (source target : TypeDef) :
    Except Failure Bool :=
  compatibleWithin limit sourceRegistry targetRegistry limit source target

end TypeDef

end ValueSchema
