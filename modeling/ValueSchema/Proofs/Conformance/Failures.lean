import ValueSchema.Proofs.Conformance.Violations

/-! # Failures of the check -/

namespace ValueSchema

/-! ## Attributes that are not there -/

namespace Resolved

variable {resolved : Resolved} {failure : Failure}

theorem element_eq_error_iff (kind : resolved.kind = .arrayOf ∨ resolved.kind = .objectOf) :
    resolved.definition.element = .error failure ↔ resolved.Lacks failure := by
  constructor
  · exact lacks_of_element kind
  · intro lacks
    cases lacks with
    | element _ absent => simp only [TypeDef.element, absent, invalid_eq]
    | fields kind' | options kind' | noOptions kind' => simp [kind'] at kind

theorem declaredFields_eq_error_iff (kind : resolved.kind = .shape) :
    resolved.definition.declaredFields = .error failure ↔ resolved.Lacks failure := by
  constructor
  · exact lacks_of_declaredFields kind
  · intro lacks
    cases lacks with
    | fields _ absent => simp only [TypeDef.declaredFields, absent, invalid_eq]
    | element kind' | options kind' | noOptions kind' => simp [kind] at kind'

theorem choices_eq_error_iff (kind : resolved.kind = .oneOf) :
    resolved.definition.choices = .error failure ↔ resolved.Lacks failure := by
  constructor
  · exact (yields_choices kind).allowed_of_eq_error
  · intro lacks
    cases lacks with
    | options _ absent => simp only [TypeDef.choices, absent, invalid_eq]
    | noOptions _ empty => simp only [TypeDef.choices, empty, invalid_eq]
    | element kind' | fields kind' => simp [kind] at kind'

end Resolved

/-! ## One level of a check -/

/-- A definition with which the check of a value ends. Options are always looked at, an element
type only for the items of an array or the members of an object, and fields only for the members
of an object. -/
inductive Broken (limit : Nat) (registry : Registry) (d : TypeDef) (value : Json)
    (failure : Failure) : Prop
  | unresolved (h : d.resolve limit registry = .error failure)
  | options {resolved : Resolved} (resolves : d.resolve limit registry = .ok resolved)
      (kind : resolved.kind = .oneOf) (lacks : resolved.Lacks failure)
  | items {resolved : Resolved} (resolves : d.resolve limit registry = .ok resolved)
      (kind : resolved.kind = .arrayOf) (form : value.isArray = true)
      (lacks : resolved.Lacks failure)
  | members {resolved : Resolved} (resolves : d.resolve limit registry = .ok resolved)
      (kind : resolved.kind = .objectOf ∨ resolved.kind = .shape) (form : value.isObject = true)
      (lacks : resolved.Lacks failure)

section Level

variable {limit : Nat} {registry : Registry} {d : TypeDef} {resolved : Resolved} {value : Json}
  {base : String} {failure : Failure}

/-- A check ends with the failure of the definition that it is given. -/
theorem Broken.check (h : Broken limit registry d value failure) (base : String) :
    value.check limit registry d base = .error failure := by
  cases h with
  | unresolved h => exact Json.check_of_resolve_error h value base
  | options resolves kind lacks =>
      have hchoices := (Resolved.choices_eq_error_iff kind).mpr lacks
      rw [Json.check_of_resolve resolves]
      simp [kind, Builtin.isNullable, Check.options, hchoices]
  | items resolves kind form lacks =>
      obtain ⟨items, rfl⟩ := Json.isArray_iff.mp form
      have helement := (Resolved.element_eq_error_iff (.inl kind)).mpr lacks
      rw [Json.check_of_admits resolves (by simp [kind]) (by rw [kind]; rfl),
        Check.parts_arrayOf kind, helement, error_bind]
  | members resolves kind form lacks =>
      obtain ⟨members, rfl⟩ := Json.isObject_iff.mp form
      rcases kind with kind | kind
      · have helement := (Resolved.element_eq_error_iff (.inr kind)).mpr lacks
        rw [Json.check_of_admits resolves (by simp [kind]) (by rw [kind]; rfl),
          Check.parts_objectOf kind, helement, error_bind]
      · have hfields := (Resolved.declaredFields_eq_error_iff kind).mpr lacks
        rw [Json.check_of_admits resolves (by simp [kind]) (by rw [kind]; rfl),
          Check.parts_shape kind, hfields, error_bind]

/-- A definition is broken for a value if it lacks what leads to the parts of the value. -/
theorem Broken.of_visits (resolves : d.resolve limit registry = .ok resolved)
    (h : resolved.visits value = .error failure) : Broken limit registry d value failure := by
  obtain ⟨lacks, hoptions, admits⟩ := (yields_visits resolved value).allowed_of_eq_error h
  cases lacks with
  | element kind absent =>
      have lacks := Resolved.Lacks.element kind absent
      rcases kind with kind | kind
      · rw [kind] at admits
        exact .items resolves kind admits lacks
      · rw [kind] at admits
        exact .members resolves (.inl kind) admits lacks
  | fields kind absent =>
      rw [kind] at admits
      exact .members resolves (.inr kind) admits (.fields kind absent)
  | options kind | noOptions kind => exact absurd kind hoptions

/-- The check of the parts fails because the definition lacks what leads to them, or because the
check of a part fails. -/
theorem broken_or_descent_of_parts (resolves : d.resolve limit registry = .ok resolved)
    (h : Check.parts (value.childResults (Json.check limit registry)) resolved base =
      .error failure) :
    Broken limit registry d value failure ∨ ∃ step child part,
      Descent resolved value step child part ∧
        child.check limit registry part (base ++ step.text) = .error failure := by
  rw [Check.parts_eq_visits, bind_eq_error_iff] at h
  rcases h with hlacks | ⟨visits, hvisits, h⟩
  · exact .inl (.of_visits resolves hlacks)
  · obtain ⟨⟨step, part⟩, hmem, hfails⟩ := exists_of_mapM_eq_error (map_eq_error_iff.mp h)
    have finds := (yields_visits resolved value).good_of_eq_ok hvisits _ hmem
    cases hchild : value.child? step with
    | none =>
        -- A field that the value lacks is reported and does not fail.
        rw [Check.visit_of_absent hchild] at hfails
        cases hfails
    | some child =>
        rw [Check.visit_of_child hchild] at hfails
        exact .inr ⟨step, child, part, finds.descent child hchild, hfails⟩

/-- A check fails because of the definition that it is given or because the check of a part
fails. -/
theorem broken_or_child_of_check (h : value.check limit registry d base = .error failure) :
    Broken limit registry d value failure ∨ ∃ step child part,
      value.child? step = some child ∧ d.child limit registry step = .ok part ∧
        child.check limit registry part (base ++ step.text) = .error failure := by
  cases resolves : d.resolve limit registry with
  | error failure' =>
      rw [Json.check_of_resolve_error resolves] at h
      cases h
      exact .inl (.unresolved resolves)
  | ok resolved =>
      rw [Json.check_of_resolve resolves] at h
      split at h
      · cases h
      · split at h
        · next kind =>
            rcases bind_eq_error_iff.mp h with hchoices | ⟨choices, -, h⟩
            · exact .inl (.options resolves kind ((Resolved.choices_eq_error_iff kind).mp hchoices))
            · cases h
        · split at h
          · rcases broken_or_descent_of_parts resolves h with
              hbroken | ⟨step, child, part, descent, hfails⟩
            · exact .inl hbroken
            · obtain ⟨hchild, hpart⟩ := (descent_iff resolves).mp descent
              exact .inr ⟨step, child, part, hchild, hpart, hfails⟩
          · cases h

end Level

/-! ## The whole check -/

section Positions

variable {limit : Nat} {registry : Registry}

/-- A check that fails has come to a part with a broken definition, whose failure it returns. -/
theorem exists_broken_of_check (value : Json) :
    ∀ (d : TypeDef) (base : String) (failure : Failure),
      value.check limit registry d base = .error failure →
        ∃ (path : List Step) (part : Json) (definition : TypeDef), value.at? path = some part ∧
          d.atPath limit registry path = .ok definition ∧
            Broken limit registry definition part failure := by
  induction value using Json.child_induction with
  | value value ih =>
      intro d base failure h
      rcases broken_or_child_of_check h with hbroken | ⟨step, child, part, hchild, hpart, hfails⟩
      · exact ⟨[], value, d, rfl, rfl, hbroken⟩
      · obtain ⟨path, part', definition, hvalue, hdefinition, hbroken⟩ :=
          ih step child hchild part _ failure hfails
        refine ⟨step :: path, part', definition, ?_, ?_, hbroken⟩
        · rw [Json.at?_cons, hchild, Option.bind_some, hvalue]
        · rw [TypeDef.atPath_cons hpart, hdefinition]

/-- The check of a value does not pass over a part whose check fails. -/
theorem check_ne_ok_of_broken {path : List Step} {part : Json} {definition : TypeDef}
    {failure : Failure} (hbroken : Broken limit registry definition part failure) {value : Json}
    {d : TypeDef} (hvalue : value.at? path = some part)
    (hdefinition : d.atPath limit registry path = .ok definition) (base : String)
    (report : Report) : value.check limit registry d base ≠ .ok report := by
  induction path generalizing value d base report with
  | nil =>
      cases hvalue
      cases hdefinition
      rw [hbroken.check base]
      simp
  | cons step path ih =>
      obtain ⟨child, hchild, hvalue⟩ := Option.bind_eq_some_iff.mp hvalue
      obtain ⟨next, hnext, hdefinition⟩ := bind_eq_ok_iff.mp hdefinition
      intro hok
      obtain ⟨report', hcheck⟩ := exists_check_of_child hok hchild hnext
      exact ih hvalue hdefinition _ report' hcheck

end Positions

/-- The check of a value fails exactly if some part of it has a broken definition, whatever
mismatches there are elsewhere, and then with the failure of such a definition. -/
theorem validate_fails_iff_broken (limit : Nat) (registry : Registry) (value : Json)
    (d : TypeDef) :
    ((∃ failure, value.validate limit registry d = .error failure) ↔
      ∃ (path : List Step) (part : Json) (definition : TypeDef) (failure : Failure),
        value.at? path = some part ∧ d.atPath limit registry path = .ok definition ∧
          Broken limit registry definition part failure) ∧
    ∀ failure, value.validate limit registry d = .error failure →
      ∃ (path : List Step) (part : Json) (definition : TypeDef), value.at? path = some part ∧
        d.atPath limit registry path = .ok definition ∧
          Broken limit registry definition part failure := by
  have hreached : ∀ failure, value.validate limit registry d = .error failure → _ :=
    exists_broken_of_check value d (pathText [])
  refine ⟨⟨?_, ?_⟩, hreached⟩
  · rintro ⟨failure, h⟩
    obtain ⟨path, part, definition, hbroken⟩ := hreached failure h
    exact ⟨path, part, definition, failure, hbroken⟩
  · rintro ⟨path, part, definition, failure, hvalue, hdefinition, hbroken⟩
    cases h : value.validate limit registry d with
    | error failure' => exact ⟨failure', rfl⟩
    | ok report =>
        exact absurd h (check_ne_ok_of_broken hbroken hvalue hdefinition (pathText []) report)

section Tables

/-- The definition of a row lacks its element type. -/
def rowTypes : Registry := .ofList [("row", .builtin .objectOf)]

/-- The count is no number and the first row is `null`, but it is the second row that matters. -/
theorem validate_fails_iff_broken_table :
    let table := TypeDef.shape
      [("count", .builtin .int), ("rows", .arrayOf (.reference "row"))]
    let value := Json.object (.ofList
      [("count", .string "two"), ("rows", .array [.null, .object ∅])])
    let failure := Failure.invalidDefinition (.builtin .objectOf) .missingElementType
    value.validate 4 rowTypes table = .error failure ∧
    ∃ (path : List Step) (part : Json) (definition : TypeDef), value.at? path = some part ∧
      table.atPath 4 rowTypes path = .ok definition ∧
        Broken 4 rowTypes definition part failure := by
  intro table value failure
  have hfails : value.validate 4 rowTypes table = .error failure := rfl
  exact ⟨hfails, (validate_fails_iff_broken 4 rowTypes value table).2 failure hfails⟩

end Tables

end ValueSchema
