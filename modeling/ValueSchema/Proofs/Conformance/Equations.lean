import ValueSchema.Conformance
import ValueSchema.Proofs.Record
import ValueSchema.Proofs.Value

/-! # Equations of the check -/

namespace ValueSchema

namespace Builtin

/-- The kinds of which a value is judged by its form alone. -/
def isPlain : Builtin → Bool
  | .oneOf | .arrayOf | .objectOf | .shape => false
  | _ => true

theorem composite_of_not_isPlain {kind : Builtin} (h : kind.isPlain = false)
    (hoptions : kind ≠ .oneOf) : kind = .arrayOf ∨ kind = .objectOf ∨ kind = .shape := by
  cases kind <;> simp_all [isPlain]

/-- No nullable kind takes `null` for a filled in value. -/
theorem nullable_and_isNull_of_admits {kind : Builtin} {value : Json}
    (h : kind.admits value = true) : (kind.isNullable && value.isNull) = false := by
  cases value with
  | null => cases kind <;> first | rfl | cases h
  | _ => simp [Json.isNull]

end Builtin

namespace Report

theorem join_valid_iff {reports : List Report} :
    (join reports).valid = true ↔ ∀ report ∈ reports, report.valid = true := by
  induction reports with
  | nil => simp [join, success]
  | cons report reports ih => simp [join, merge, ih]

theorem join_eq_success {reports : List Report} (h : ∀ report ∈ reports, report = .success) :
    join reports = .success := by
  induction reports with
  | nil => rfl
  | cons report reports ih =>
      rw [List.forall_mem_cons] at h
      rw [join, h.1, ih h.2, success_merge]

theorem mem_join_iff {violation : Violation} {reports : List Report} :
    violation ∈ (join reports).violations ↔ ∃ report ∈ reports, violation ∈ report.violations := by
  induction reports with
  | nil => simp [join, success]
  | cons report reports ih => simp [join, merge, ih]

end Report

namespace Json

theorem check_eq (limit : Nat) (registry : Registry) (value : Json) :
    value.check limit registry =
      Check.ofValue limit registry value (value.childResults (check limit registry)) :=
  fold_eq _ value

/-- A check fails with the failure of its definition to resolve. -/
theorem check_of_resolve_error {limit : Nat} {registry : Registry} {d : TypeDef}
    {failure : Failure} (resolves : d.resolve limit registry = .error failure) (value : Json)
    (path : String) : value.check limit registry d path = .error failure := by
  rw [check_eq, Check.ofValue, resolves, error_bind]

/-- A check by the kind and the attributes of the resolved definition. -/
theorem check_of_resolve {limit : Nat} {registry : Registry} {d : TypeDef} {resolved : Resolved}
    (resolves : d.resolve limit registry = .ok resolved) (value : Json) (path : String) :
    value.check limit registry d path =
      if resolved.kind.isNullable && value.isNull then
        .ok (if resolved.definition.isNotNull then .single (.nullNotAllowed path) else .success)
      else if resolved.kind = .oneOf then
        Check.options value resolved.definition path
      else if resolved.kind.admits value then
        Check.parts (value.childResults (check limit registry)) resolved path
      else
        .ok (.single (.typeMismatch path resolved.kind.tag value.typeName)) := by
  rw [check_eq, Check.ofValue, resolves, ok_bind]
  rfl

/-- The check of a value of the right form is the check of its parts. -/
theorem check_of_admits {limit : Nat} {registry : Registry} {d : TypeDef} {resolved : Resolved}
    (resolves : d.resolve limit registry = .ok resolved) {value : Json}
    (hoptions : resolved.kind ≠ .oneOf) (admits : resolved.kind.admits value = true)
    (path : String) :
    value.check limit registry d path =
      Check.parts (value.childResults (check limit registry)) resolved path := by
  rw [check_of_resolve resolves, Builtin.nullable_and_isNull_of_admits admits]
  simp [hoptions, admits]

end Json

namespace Check

theorem options_of_choices {value : Json} {d : TypeDef}
    {choices : { choices : List Choice // choices ≠ [] }} (h : d.choices = .ok choices)
    (path : String) :
    options value d path =
      .ok (if choices.val.any fun choice => choice.value.valueEq value then .success
        else .single (.notAnOption path value.text)) := by
  rw [options, h, ok_bind]
  rfl

section Parts

variable {limit : Nat} {registry : Registry} {resolved : Resolved}

theorem parts_of_isPlain (plain : resolved.kind.isPlain = true) (children : Json.Children Check)
    (path : String) : parts children resolved path = .ok .success := by
  unfold parts
  split <;> simp_all [Builtin.isPlain, pure_eq_ok]

theorem parts_oneOf (kind : resolved.kind = .oneOf) (children : Json.Children Check)
    (path : String) : parts children resolved path = .ok .success := by
  unfold parts
  split <;> simp_all [pure_eq_ok]

theorem parts_leaf (resolved : Resolved) (path : String) :
    parts .leaf resolved path = .ok .success := by
  unfold parts
  split <;> simp_all [pure_eq_ok]

theorem parts_arrayOf {items : List Json} (kind : resolved.kind = .arrayOf) (path : String) :
    parts ((Json.array items).childResults (Json.check limit registry)) resolved path =
      resolved.definition.element >>= fun element =>
        Report.join <$> items.zipIdx.mapM fun (item, position) =>
          item.check limit registry element (path ++ (Step.index position).text) := by
  simp only [parts, kind, Json.childResults, Check.items, List.zipIdx_map, List.mapM_map]
  rfl

theorem parts_objectOf {members : Record Json} (kind : resolved.kind = .objectOf) (path : String) :
    parts ((Json.object members).childResults (Json.check limit registry)) resolved path =
      resolved.definition.element >>= fun element =>
        Report.join <$> members.toList.mapM fun (name, item) =>
          item.check limit registry element (path ++ (Step.key name).text) := by
  simp only [parts, kind, Json.childResults, Check.members, Record.toList_map, List.mapM_map]
  rfl

theorem parts_shape {members : Record Json} (kind : resolved.kind = .shape) (path : String) :
    parts ((Json.object members).childResults (Json.check limit registry)) resolved path =
      resolved.definition.declaredFields >>= fun declared =>
        Report.join <$> declared.toList.mapM fun (name, field) =>
          match members.get? name with
          | some item => item.check limit registry field (path ++ (Step.key name).text)
          | none =>
              .ok (if field.isRequired then
                .single (.missingRequired (path ++ (Step.key name).text)) else .success) := by
  simp only [parts, kind, Json.childResults, Check.fields, Record.get?_map]
  congr 1
  funext declared
  congr 2
  funext entry
  cases members.get? entry.1 with
  | none => rfl
  | some item => rfl

end Parts

end Check

/-- A value of the right form conforms to a kind that looks at nothing else. -/
theorem Json.check_of_isPlain {limit : Nat} {registry : Registry} {d : TypeDef}
    {resolved : Resolved} (resolves : d.resolve limit registry = .ok resolved) {value : Json}
    (plain : resolved.kind.isPlain = true) (admits : resolved.kind.admits value = true)
    (path : String) : value.check limit registry d path = .ok .success := by
  have hoptions : resolved.kind ≠ .oneOf := by
    intro kind
    rw [kind] at plain
    cases plain
  rw [check_of_admits resolves hoptions admits, Check.parts_of_isPlain plain]

end ValueSchema
