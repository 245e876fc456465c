import ValueSchema.Failure

/-! # Type definitions

Which attributes a kind needs is not part of the type: a definition is read from data, and an
operation that needs an absent attribute fails with the defect. -/

namespace ValueSchema

/-- One value of a `oneOf` type, with an optional key of a text that describes it. -/
structure Choice where
  textKey : Option String := none
  value : Json

/-- A type definition. -/
structure TypeDef where
  kind : Kind
  /-- Whether `null` is forbidden, for kinds that admit it. -/
  notNull : Option Bool := none
  /-- The type of the items of an `arrayOf` or the values of an `objectOf`. -/
  ofType : Option TypeDef := none
  /-- The fields of a `shape`. -/
  fields : Option (Record TypeDef) := none
  /-- The values of a `oneOf`. -/
  options : Option (List Choice) := none
  /-- Whether a `shape` with this field demands its presence. -/
  required : Option Bool := none
  /-- What kind of scalar a `scalar` is. -/
  name : Option String := none

namespace TypeDef

/-! ## Construction -/

/-- A definition without attributes. -/
def ofKind (kind : Kind) : TypeDef := { kind }

instance : Inhabited TypeDef := ⟨ofKind (.builtin .string)⟩

def builtin (kind : Builtin) : TypeDef := ofKind (.builtin kind)

/-- A reference to a registry entry. A tag is no exception: no registry has an entry for it. -/
def reference (name : String) : TypeDef := ofKind (.reference name)

def oneOf (values : List Json) : TypeDef :=
  { builtin .oneOf with options := some (values.map fun value => { value }) }

def arrayOf (element : TypeDef) : TypeDef := { builtin .arrayOf with ofType := some element }

def objectOf (element : TypeDef) : TypeDef := { builtin .objectOf with ofType := some element }

/-- A shape; a repeated field name keeps its first position and takes its last definition. -/
def shape (fields : List (String × TypeDef)) : TypeDef :=
  { builtin .shape with fields := some (Record.ofList fields) }

def asNotNull (d : TypeDef) : TypeDef := { d with notNull := some true }

def asRequired (d : TypeDef) : TypeDef := { d with required := some true }

def named (d : TypeDef) (name : String) : TypeDef := { d with name := some name }

/-! ## Attributes -/

def isNotNull (d : TypeDef) : Bool := d.notNull.getD false

def isRequired (d : TypeDef) : Bool := d.required.getD false

/-- The failure that blames the definition. -/
def invalid (d : TypeDef) (defect : Defect) : Failure := .invalidDefinition d.kind defect

/-- The element type, whatever the kind. -/
def element (d : TypeDef) : Except Failure TypeDef :=
  match d.ofType with
  | some element => .ok element
  | none => .error (d.invalid .missingElementType)

/-- The fields, whatever the kind. -/
def declaredFields (d : TypeDef) : Except Failure (Record TypeDef) :=
  match d.fields with
  | some fields => .ok fields
  | none => .error (d.invalid .missingFields)

/-- The choices, of which there must be one, whatever the kind. -/
def choices (d : TypeDef) : Except Failure { choices : List Choice // choices ≠ [] } :=
  match d.options with
  | some (first :: rest) => .ok ⟨first :: rest, by simp⟩
  | some [] => .error (d.invalid .noOptions)
  | none => .error (d.invalid .missingOptions)

/-! ## Recursion -/

mutual

/-- The result of a definition, computed by `step` from the definition and the results for its
element type and its fields. -/
def fold {α : Type} (step : TypeDef → Option α → Option (Record α) → α) : TypeDef → α
  | ⟨kind, notNull, ofType, fields, options, required, name⟩ =>
      step ⟨kind, notNull, ofType, fields, options, required, name⟩
        (foldElement step ofType) (foldFields step fields)
termination_by structural d => d

def foldElement {α : Type} (step : TypeDef → Option α → Option (Record α) → α) :
    Option TypeDef → Option α
  | none => none
  | some element => some (fold step element)
termination_by structural element => element

def foldFields {α : Type} (step : TypeDef → Option α → Option (Record α) → α) :
    Option (Record TypeDef) → Option (Record α)
  | none => none
  | some fields => some (foldRecord step fields)
termination_by structural fields => fields

def foldRecord {α : Type} (step : TypeDef → Option α → Option (Record α) → α) :
    Record TypeDef → Record α
  | ⟨names, nodup, values⟩ => ⟨names, nodup, foldValues step values⟩
termination_by structural fields => fields

def foldValues {α : Type} (step : TypeDef → Option α → Option (Record α) → α) :
    {names : List String} → Values TypeDef names → Values α names
  | _, .nil => .nil
  | _, .cons value rest => .cons (fold step value) (foldValues step rest)
termination_by structural _ values => values

end

theorem foldValues_eq_map {α : Type} (step : TypeDef → Option α → Option (Record α) → α)
    {names : List String} (values : Values TypeDef names) :
    foldValues step values = values.map (fold step) := by
  induction values with
  | nil => rfl
  | cons value rest ih => rw [foldValues, ih, Values.map]

theorem foldElement_eq_map {α : Type} (step : TypeDef → Option α → Option (Record α) → α)
    (element : Option TypeDef) : foldElement step element = element.map (fold step) := by
  cases element <;> rfl

theorem foldFields_eq_map {α : Type} (step : TypeDef → Option α → Option (Record α) → α)
    (fields : Option (Record TypeDef)) :
    foldFields step fields = fields.map (Record.map (fold step)) := by
  cases fields with
  | none => rfl
  | some fields => rw [foldFields, foldRecord, foldValues_eq_map, Option.map_some, Record.map]

theorem fold_eq {α : Type} (step : TypeDef → Option α → Option (Record α) → α) (d : TypeDef) :
    fold step d =
      step d (d.ofType.map (fold step)) (d.fields.map (Record.map (fold step))) := by
  obtain ⟨kind, notNull, ofType, fields, options, required, name⟩ := d
  rw [fold, foldElement_eq_map, foldFields_eq_map]

end TypeDef

end ValueSchema
