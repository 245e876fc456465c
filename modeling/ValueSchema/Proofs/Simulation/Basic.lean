import ValueSchema.Proofs.Record
import ValueSchema.Resolution

/-! # Simulation of definitions -/

namespace ValueSchema

/-- Declared fields that are related and marked as required alike. The mark belongs to the field
as it is declared, so it is read before the field is resolved. -/
structure SimilarField (rel : TypeDef → TypeDef → Prop) (field field' : TypeDef) : Prop where
  required_eq : field.required = field'.required
  related : rel field field'

theorem SimilarField.isRequired_eq {rel : TypeDef → TypeDef → Prop} {field field' : TypeDef}
    (h : SimilarField rel field field') : field.isRequired = field'.isRequired := by
  rw [TypeDef.isRequired, TypeDef.isRequired, h.required_eq]

/-- Resolved definitions that agree in all that is read of them, up to a relation of their parts. -/
structure Similar (rel : TypeDef → TypeDef → Prop) (r r' : Resolved) : Prop where
  kind_eq : r.kind = r'.kind
  notNull_eq : r.definition.notNull = r'.definition.notNull
  options_eq : r.definition.options = r'.definition.options
  name_eq : r.definition.name = r'.definition.name
  ofType : r.kind = .arrayOf ∨ r.kind = .objectOf →
    Option.Rel rel r.definition.ofType r'.definition.ofType
  fields : r.kind = .shape →
    Option.Rel (Record.Related (SimilarField rel)) r.definition.fields r'.definition.fields

/-- Related definitions resolve to similar ones, or fail alike. Each side has its limit and its
registry. -/
def IsSimulation (aside : Failure → Prop) (limit limit' : Nat) (registry registry' : Registry)
    (rel : TypeDef → TypeDef → Prop) : Prop :=
  ∀ d d', rel d d' →
    Refines aside (Similar rel) (d.resolve limit registry) (d'.resolve limit' registry')

namespace Similar

variable {rel : TypeDef → TypeDef → Prop} {r r' : Resolved}

theorem invalid_eq (h : Similar rel r r') (defect : Defect) :
    r.definition.invalid defect = r'.definition.invalid defect := by
  rw [TypeDef.invalid, TypeDef.invalid, r.kind_eq, r'.kind_eq, h.kind_eq]

theorem isNotNull_eq (h : Similar rel r r') : r.definition.isNotNull = r'.definition.isNotNull := by
  rw [TypeDef.isNotNull, TypeDef.isNotNull, h.notNull_eq]

theorem choices_eq (h : Similar rel r r') : r.definition.choices = r'.definition.choices := by
  rw [TypeDef.choices, TypeDef.choices, h.options_eq, h.invalid_eq, h.invalid_eq]

theorem element (h : Similar rel r r') (aside : Failure → Prop)
    (kind : r.kind = .arrayOf ∨ r.kind = .objectOf) :
    Refines aside rel r.definition.element r'.definition.element := by
  rw [TypeDef.element, TypeDef.element, ← h.invalid_eq]
  have hrel := h.ofType kind
  generalize r.definition.ofType = element, r'.definition.ofType = element' at hrel
  cases hrel with
  | none => exact .error _
  | some hrel => exact .ok hrel

theorem declaredFields (h : Similar rel r r') (aside : Failure → Prop) (kind : r.kind = .shape) :
    Refines aside (Record.Related (SimilarField rel)) r.definition.declaredFields
      r'.definition.declaredFields := by
  rw [TypeDef.declaredFields, TypeDef.declaredFields, ← h.invalid_eq]
  have hrel := h.fields kind
  generalize r.definition.fields = fields, r'.definition.fields = fields' at hrel
  cases hrel with
  | none => exact .error _
  | some hrel => exact .ok hrel

theorem refl (r : Resolved) : Similar Eq r r where
  kind_eq := rfl
  notNull_eq := rfl
  options_eq := rfl
  name_eq := rfl
  ofType := by
    intro _
    cases r.definition.ofType with
    | none => exact .none
    | some element => exact .some rfl
  fields := by
    intro _
    cases r.definition.fields with
    | none => exact .none
    | some fields => exact .some (Record.Related.refl (fun _ => ⟨rfl, rfl⟩) fields)

end Similar

theorem IsSimulation.refl (aside : Failure → Prop) (limit : Nat) (registry : Registry) :
    IsSimulation aside limit limit registry registry Eq := by
  rintro d _ rfl
  exact Refines.refl Similar.refl _

end ValueSchema
