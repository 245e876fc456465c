import ValueSchema.Resolution

/-! # Definitions inside a definition

Each definition on the way to a part is resolved, the one at the end is not. -/

namespace ValueSchema.TypeDef

/-- The definition of the part that one step leads to. -/
def child (limit : Nat) (registry : Registry) (d : TypeDef) (step : Step) :
    Except Failure TypeDef := do
  let resolved ← d.resolve limit registry
  match resolved.kind, step with
  | .objectOf, .key _ => resolved.definition.element
  | .arrayOf, .index _ => resolved.definition.element
  | .shape, .key name =>
      match (← resolved.definition.declaredFields).get? name with
      | some field => return field
      | none => throw (.incompatibleStep resolved.kind step)
  | _, _ => throw (.incompatibleStep resolved.kind step)

/-- The definition of the part that a path leads to. -/
def atPath (limit : Nat) (registry : Registry) (d : TypeDef) : List Step → Except Failure TypeDef
  | [] => return d
  | step :: path => do (← d.child limit registry step).atPath limit registry path

end ValueSchema.TypeDef
