import ValueSchema.Resolution

/-! # Equivalence of types

No function type is equivalent to another, not even to itself. -/

namespace ValueSchema

/-- Whether each of the first options occurs among the second. -/
def Choice.covered (lefts rights : List Choice) : Bool :=
  lefts.all fun left => rights.any fun right => left.value.valueEq right.value

/-- Whether two lists of options have the same values, without regard to order and repetition. -/
def Choice.sameValues (lefts rights : List Choice) : Bool :=
  covered lefts rights && covered rights lefts

/-- Whether the fields of two shapes have the same names and each pair passes a test. Testing
stops at the first pair that does not. -/
def matchFields (test : TypeDef → TypeDef → Except Failure Bool) (lefts rights : Record TypeDef) :
    Except Failure Bool :=
  if lefts.size = rights.size then go lefts.toList else .ok false
where
  go : List (String × TypeDef) → Except Failure Bool
    | [] => .ok true
    | (name, left) :: rest =>
        match rights.get? name with
        | none => .ok false
        | some right => do if ← test left right then go rest else return false

namespace TypeDef

/-- Equivalence of definitions nested no deeper than `depth`. -/
def equivalentWithin (limit : Nat) (leftRegistry rightRegistry : Registry) :
    Nat → TypeDef → TypeDef → Except Failure Bool
  | 0, _, _ => .error (.recursionLimit limit)
  | depth + 1, left, right => do
      let resolvedLeft ← left.resolve limit leftRegistry
      let resolvedRight ← right.resolve limit rightRegistry
      let left := resolvedLeft.definition
      let right := resolvedRight.definition
      if resolvedLeft.kind ≠ resolvedRight.kind then
        return false
      match resolvedLeft.kind with
      | .string | .bool | .int | .float | .array | .component => return true
      | .func => return false
      | .scalar => return left.name == right.name
      | .oneOf => return Choice.sameValues (← left.choices).val (← right.choices).val
      | .object => return left.isNotNull == right.isNotNull
      | .arrayOf =>
          equivalentWithin limit leftRegistry rightRegistry depth (← left.element) (← right.element)
      | .objectOf =>
          if left.isNotNull = right.isNotNull then
            equivalentWithin limit leftRegistry rightRegistry depth (← left.element)
              (← right.element)
          else return false
      | .shape =>
          if left.isNotNull = right.isNotNull then
            matchFields (fun left right =>
                if left.isRequired = right.isRequired then
                  equivalentWithin limit leftRegistry rightRegistry depth left right
                else return false)
              (← left.declaredFields) (← right.declaredFields)
          else return false

/-- Whether two definitions stand for the same type. -/
def equivalent (limit : Nat) (leftRegistry rightRegistry : Registry) (left right : TypeDef) :
    Except Failure Bool :=
  equivalentWithin limit leftRegistry rightRegistry limit left right

end TypeDef

end ValueSchema
