import ValueSchema.Proofs.Conformance.Equations
import ValueSchema.Proofs.Position
import ValueSchema.Signature

/-! # Rules of signatures

The rules leave the signatures of the parts to a relation, so one level is read off at a time. -/

namespace ValueSchema

/-- Texts in parentheses, separated by commas. -/
def enclosed (texts : List String) : String := "(" ++ String.intercalate ", " texts ++ ")"

/-- What stands before the signature of a field. -/
def fieldLabel (field : String × TypeDef) : String :=
  field.1 ++ if field.2.isRequired then "*:" else ":"

namespace Resolved

/-- What a type without options and parts has for details: the name of a scalar. -/
def nameText (resolved : Resolved) : String :=
  match resolved.kind with
  | .scalar => resolved.definition.name.elim "" fun name => ":" ++ name
  | _ => ""

/-- The mark of a type that forbids `null`. -/
def nullMark (resolved : Resolved) : String :=
  if resolved.kind.isNullable && resolved.definition.isNotNull then "!" else ""

/-- What stands between the tag and the mark. -/
inductive Details (parts : TypeDef → String → Prop) (resolved : Resolved) : String → Prop
  | plain (plain : resolved.kind.isPlain = true) : Details parts resolved resolved.nameText
  | choices {choices : { choices : List Choice // choices ≠ [] }} (kind : resolved.kind = .oneOf)
      (hchoices : resolved.definition.choices = .ok choices) :
      Details parts resolved (enclosed (choices.val.map fun choice => choice.value.text))
  | element {element : TypeDef} {text : String}
      (kind : resolved.kind = .arrayOf ∨ resolved.kind = .objectOf)
      (helement : resolved.definition.element = .ok element) (part : parts element text) :
      Details parts resolved (enclosed [text])
  | fields {fields : Record TypeDef} {texts : List String} (kind : resolved.kind = .shape)
      (hfields : resolved.definition.declaredFields = .ok fields)
      (each : List.Forall₂ (fun field text => ∃ part, parts field.2 part ∧
        fieldLabel field ++ part = text) fields.toList texts) :
      Details parts resolved (enclosed texts)

/-! The kind decides which rule applies. -/

namespace Details

variable {parts : TypeDef → String → Prop} {resolved : Resolved} {details : String}

theorem eq_nameText (h : Details parts resolved details) (plain : resolved.kind.isPlain = true) :
    details = resolved.nameText := by
  cases h with
  | plain => rfl
  | choices kind | fields kind => simp [kind, Builtin.isPlain] at plain
  | element kind => rcases kind with kind | kind <;> simp [kind, Builtin.isPlain] at plain

theorem exists_choices (h : Details parts resolved details) (kind : resolved.kind = .oneOf) :
    ∃ choices, resolved.definition.choices = .ok choices ∧
      details = enclosed (choices.val.map fun choice => choice.value.text) := by
  cases h with
  | choices kind' hchoices => exact ⟨_, hchoices, rfl⟩
  | plain plain => simp [kind, Builtin.isPlain] at plain
  | element kind' | fields kind' => simp [kind] at kind'

theorem exists_element (h : Details parts resolved details)
    (kind : resolved.kind = .arrayOf ∨ resolved.kind = .objectOf) :
    ∃ element text, resolved.definition.element = .ok element ∧ parts element text ∧
      details = enclosed [text] := by
  cases h with
  | element kind' helement part => exact ⟨_, _, helement, part, rfl⟩
  | plain plain => rcases kind with kind | kind <;> simp [kind, Builtin.isPlain] at plain
  | choices kind' | fields kind' => simp [kind'] at kind

theorem exists_fields (h : Details parts resolved details) (kind : resolved.kind = .shape) :
    ∃ fields texts, resolved.definition.declaredFields = .ok fields ∧
      List.Forall₂ (fun field text => ∃ part, parts field.2 part ∧ fieldLabel field ++ part = text)
        fields.toList texts ∧ details = enclosed texts := by
  cases h with
  | fields kind' hfields each => exact ⟨_, _, hfields, each, rfl⟩
  | plain plain => simp [kind, Builtin.isPlain] at plain
  | choices kind' | element kind' => simp [kind] at kind'

end Details

end Resolved

section Levels

variable {limit : Nat} {registry : Registry} {depth : Nat} {d : TypeDef} {text : String}

/-- A signature that is returned follows the rules, and so do those of the parts one level below.
-/
theorem exists_details_of_signatureWithin
    (h : d.signatureWithin limit registry (depth + 1) = .ok text) :
    ∃ resolved details, d.resolve limit registry = .ok resolved ∧
      resolved.Details (fun part text => part.signatureWithin limit registry depth = .ok text)
        details ∧ resolved.kind.tag ++ details ++ resolved.nullMark = text := by
  rw [TypeDef.signatureWithin] at h
  obtain ⟨resolved, resolves, h⟩ := bind_eq_ok_iff.mp h
  dsimp only at h
  -- The kind decides what is printed, so it is settled before the computation is taken apart.
  cases kind : resolved.kind <;> simp only [kind] at h
  case oneOf =>
    obtain ⟨choices, hchoices, h⟩ := bind_eq_ok_iff.mp h
    refine ⟨resolved, _, resolves, .choices kind hchoices, ?_⟩
    simpa [kind, Resolved.nullMark, enclosed, pure_eq_ok] using h
  case arrayOf | objectOf =>
    obtain ⟨element, helement, h⟩ := bind_eq_ok_iff.mp h
    obtain ⟨part, hpart, h⟩ := bind_eq_ok_iff.mp h
    refine ⟨resolved, _, resolves, .element (by simp [kind]) helement hpart, ?_⟩
    simpa [kind, Resolved.nullMark, enclosed, pure_eq_ok] using h
  case shape =>
    obtain ⟨fields, hfields, h⟩ := bind_eq_ok_iff.mp h
    obtain ⟨texts, htexts, h⟩ := bind_eq_ok_iff.mp h
    have each := mapM_eq_ok_iff.mp htexts
    simp only [bind_eq_ok_iff, pure_eq_ok, Except.ok.injEq] at each
    refine ⟨resolved, _, resolves, .fields kind hfields each, ?_⟩
    simpa [kind, Resolved.nullMark, enclosed, pure_eq_ok] using h
  all_goals
    have plain : resolved.kind.isPlain = true := by rw [kind]; rfl
    refine ⟨resolved, _, resolves, .plain plain, ?_⟩
    simpa [kind, Resolved.nameText, Resolved.nullMark, pure_eq_ok] using h

end Levels

end ValueSchema
