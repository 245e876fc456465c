import ValueSchema.Json.Printer
import ValueSchema.Resolution

/-! # Signatures

A signature is a line such as `shape(id*:int, tags:arrayOf(string))!`. A star marks a required
field and an exclamation mark a type that forbids `null`. -/

namespace ValueSchema.TypeDef

/-- The signature of a definition nested no deeper than `depth`; `limit` is reported when it is
deeper. -/
def signatureWithin (limit : Nat) (registry : Registry) : Nat → TypeDef → Except Failure String
  | 0, _ => .error (.recursionLimit limit)
  | depth + 1, d => do
      let resolved ← d.resolve limit registry
      let d := resolved.definition
      let details ← match resolved.kind with
        | .scalar => pure (d.name.elim "" fun name => ":" ++ name)
        | .oneOf => do
            let values := (← d.choices).val.map fun choice => choice.value.text
            pure ("(" ++ String.intercalate ", " values ++ ")")
        | .arrayOf | .objectOf => do
            let element ← d.element
            pure ("(" ++ (← element.signatureWithin limit registry depth) ++ ")")
        | .shape => do
            let fields ← d.declaredFields
            let parts ← fields.toList.mapM fun (name, field) => do
              let mark := if field.isRequired then "*:" else ":"
              pure (name ++ mark ++ (← field.signatureWithin limit registry depth))
            pure ("(" ++ String.intercalate ", " parts ++ ")")
        | _ => pure ""
      let mark := if resolved.kind.isNullable && d.isNotNull then "!" else ""
      return resolved.kind.tag ++ details ++ mark

/-- The signature of a definition. -/
def signature (limit : Nat) (registry : Registry) (d : TypeDef) : Except Failure String :=
  d.signatureWithin limit registry limit

end ValueSchema.TypeDef
