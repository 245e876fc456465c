import ValueSchema.Registry

/-! # Resolution of references

Cycles are not detected as such: the number of references that are followed is limited. -/

namespace ValueSchema

namespace TypeDef

/-- The attributes of a reference over those of the entry that it names. The kind is the entry's.
-/
def overlay (reference entry : TypeDef) : TypeDef where
  kind := entry.kind
  notNull := reference.notNull <|> entry.notNull
  ofType := reference.ofType <|> entry.ofType
  fields := reference.fields <|> entry.fields
  options := reference.options <|> entry.options
  required := reference.required <|> entry.required
  name := reference.name <|> entry.name

end TypeDef

/-- A definition of a built-in kind. -/
structure Resolved where
  kind : Builtin
  definition : TypeDef
  kind_eq : definition.kind = .builtin kind

namespace TypeDef

/-- Follows at most `hops` references; `limit` is reported when that is not enough. -/
def resolveWithin (limit : Nat) (registry : Registry) (d : TypeDef) (hops : Nat) :
    Except Failure Resolved :=
  match h : d.kind with
  | .builtin kind => .ok ⟨kind, d, h⟩
  | .reference name =>
      match hops with
      | 0 => .error (.recursionLimit limit)
      | hops + 1 =>
          match registry.get? name with
          | none => .error (.unresolvedType name)
          | some entry => (d.overlay entry).resolveWithin limit registry hops
termination_by structural hops

/-- Turns a definition into one of a built-in kind by following at most `limit` references. -/
def resolve (limit : Nat) (registry : Registry) (d : TypeDef) : Except Failure Resolved :=
  d.resolveWithin limit registry limit

end TypeDef

end ValueSchema
