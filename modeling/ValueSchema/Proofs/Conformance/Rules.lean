import ValueSchema.Proofs.Conformance.Visits

/-! # Rules of conformance

The rules mention neither reports nor positions. -/

namespace ValueSchema

/-- A value conforms to a definition. -/
inductive Conforms (limit : Nat) (registry : Registry) : Json → TypeDef → Prop
  | null {d : TypeDef} {resolved : Resolved} (resolves : d.resolve limit registry = .ok resolved)
      (nullable : resolved.kind.isNullable = true)
      (admitted : resolved.definition.isNotNull = false) : Conforms limit registry .null d
  | choice {value : Json} {d : TypeDef} {resolved : Resolved}
      {choices : { choices : List Choice // choices ≠ [] }} {choice : Choice}
      (resolves : d.resolve limit registry = .ok resolved) (kind : resolved.kind = .oneOf)
      (hchoices : resolved.definition.choices = .ok choices) (mem : choice ∈ choices.val)
      (equal : choice.value.valueEq value = true) : Conforms limit registry value d
  | plain {value : Json} {d : TypeDef} {resolved : Resolved}
      (resolves : d.resolve limit registry = .ok resolved) (plain : resolved.kind.isPlain = true)
      (admits : resolved.kind.admits value = true) : Conforms limit registry value d
  | items {items : List Json} {d element : TypeDef} {resolved : Resolved}
      (resolves : d.resolve limit registry = .ok resolved) (kind : resolved.kind = .arrayOf)
      (helement : resolved.definition.element = .ok element)
      (each : ∀ item ∈ items, Conforms limit registry item element) :
      Conforms limit registry (.array items) d
  | members {members : Record Json} {d element : TypeDef} {resolved : Resolved}
      (resolves : d.resolve limit registry = .ok resolved) (kind : resolved.kind = .objectOf)
      (helement : resolved.definition.element = .ok element)
      (each : ∀ entry ∈ members.toList, Conforms limit registry entry.2 element) :
      Conforms limit registry (.object members) d
  | fields {members : Record Json} {d : TypeDef} {resolved : Resolved} {declared : Record TypeDef}
      (resolves : d.resolve limit registry = .ok resolved) (kind : resolved.kind = .shape)
      (hdeclared : resolved.definition.declaredFields = .ok declared)
      (present : ∀ (name : String) (field : TypeDef) (item : Json),
        declared.get? name = some field → members.get? name = some item →
          Conforms limit registry item field)
      (required : ∀ (name : String) (field : TypeDef), declared.get? name = some field →
        field.isRequired = true → name ∈ members.names) :
      Conforms limit registry (.object members) d

/-- A check that ends without violations. -/
def Passes (outcome : Except Failure Report) : Prop :=
  ∃ report, outcome = .ok report ∧ report.valid = true

@[simp] theorem passes_ok_iff {report : Report} : Passes (.ok report) ↔ report.valid = true := by
  simp [Passes]

@[simp] theorem not_passes_error (failure : Failure) : ¬Passes (.error failure) := by
  simp [Passes]

theorem passes_bind_iff {α : Type} {x : Except Failure α} {f : α → Except Failure Report} :
    Passes (x >>= f) ↔ ∃ a, x = .ok a ∧ Passes (f a) := by
  cases x <;> simp

/-- Joined checks pass if each of them does. -/
theorem passes_join_iff {α : Type} {f : α → Except Failure Report} {xs : List α} :
    Passes (Report.join <$> xs.mapM f) ↔ ∀ x ∈ xs, Passes (f x) := by
  unfold Passes
  rw [← exists_mapM_eq_ok_iff]
  simp only [map_eq_ok_iff]
  constructor
  · rintro ⟨_, ⟨reports, hreports, rfl⟩, hvalid⟩
    exact ⟨reports, hreports, Report.join_valid_iff.mp hvalid⟩
  · rintro ⟨reports, hreports, hvalid⟩
    exact ⟨_, ⟨reports, hreports, rfl⟩, Report.join_valid_iff.mpr hvalid⟩

/-- The check of the parts passes if nothing is in its way, each part passes and no field is
missing. -/
theorem passes_parts_iff {limit : Nat} {registry : Registry} {value : Json} {resolved : Resolved}
    {path : String} :
    Passes (Check.parts (value.childResults (Json.check limit registry)) resolved path) ↔
      (∃ visits, resolved.visits value = .ok visits) ∧
      (∀ step child part, Descent resolved value step child part →
        Passes (child.check limit registry part (path ++ step.text))) ∧
      ∀ name, ¬MissingField resolved value name := by
  simp only [Check.parts_eq_visits, passes_bind_iff, passes_join_iff]
  constructor
  · rintro ⟨visits, hvisits, each⟩
    refine ⟨⟨visits, hvisits⟩, fun step child part descent => ?_, fun name missing => ?_⟩
    · obtain ⟨_, hvisits', hmem⟩ := descent.exists_visits
      cases hvisits.symm.trans hvisits'
      rw [← Check.visit_of_child descent.child?_eq]
      exact each _ hmem
    · obtain ⟨_, part, hvisits', hmem, absent, required⟩ := missing.exists_visits
      cases hvisits.symm.trans hvisits'
      have hpasses := each _ hmem
      rw [Check.visit_of_absent absent, required] at hpasses
      cases passes_ok_iff.mp hpasses
  · rintro ⟨⟨visits, hvisits⟩, present, complete⟩
    refine ⟨visits, hvisits, ?_⟩
    rintro ⟨step, part⟩ hmem
    have finds := (yields_visits resolved value).good_of_eq_ok hvisits _ hmem
    cases hchild : value.child? step with
    | some child =>
        rw [Check.visit_of_child hchild]
        exact present step child part (finds.descent child hchild)
    | none =>
        rw [Check.visit_of_absent hchild]
        cases required : part.isRequired with
        | false => exact passes_ok_iff.mpr rfl
        | true =>
            obtain ⟨name, -, missing⟩ := finds.missing hchild required
            exact (complete name missing).elim

/-! ## Checks that pass have a derivation -/

section Soundness

variable {limit : Nat} {registry : Registry} {value : Json} {d : TypeDef} {resolved : Resolved}
  {path : String}

theorem Conforms.of_options (resolves : d.resolve limit registry = .ok resolved)
    (kind : resolved.kind = .oneOf)
    (passes : Passes (Check.options value resolved.definition path)) :
    Conforms limit registry value d := by
  obtain ⟨choices, hchoices, -⟩ := passes_bind_iff.mp passes
  rw [Check.options_of_choices hchoices, passes_ok_iff] at passes
  split at passes
  · next hany =>
      obtain ⟨choice, hmem, hequal⟩ := List.any_eq_true.mp hany
      exact .choice resolves kind hchoices hmem hequal
  · cases passes

/-- The parts of a composite value conform because their checks pass. -/
theorem Conforms.of_parts
    (ih : ∀ (step : Step) (child : Json), value.child? step = some child →
      ∀ (d : TypeDef) (path : String), Passes (child.check limit registry d path) →
        Conforms limit registry child d)
    (resolves : d.resolve limit registry = .ok resolved) (hoptions : resolved.kind ≠ .oneOf)
    (admits : resolved.kind.admits value = true)
    (passes : Passes (Check.parts (value.childResults (Json.check limit registry)) resolved path)) :
    Conforms limit registry value d := by
  obtain ⟨⟨visits, hvisits⟩, passes, complete⟩ := passes_parts_iff.mp passes
  have present : ∀ step child part, Descent resolved value step child part →
      Conforms limit registry child part := fun step child part descent =>
    ih step child descent.child?_eq part _ (passes step child part descent)
  by_cases plain : resolved.kind.isPlain = true
  · exact .plain resolves plain admits
  rcases Builtin.composite_of_not_isPlain (by simpa using plain) hoptions with kind | kind | kind
  · rw [Resolved.visits_of_element (.inl kind) admits] at hvisits
    obtain ⟨element, helement, -⟩ := map_eq_ok_iff.mp hvisits
    rw [kind] at admits
    obtain ⟨items, rfl⟩ := Json.isArray_iff.mp admits
    refine .items resolves kind helement fun item hitem => ?_
    obtain ⟨position, hposition⟩ := List.mem_iff_getElem?.mp hitem
    exact present _ item element (.item kind helement hposition)
  · rw [Resolved.visits_of_element (.inr kind) admits] at hvisits
    obtain ⟨element, helement, -⟩ := map_eq_ok_iff.mp hvisits
    rw [kind] at admits
    obtain ⟨members, rfl⟩ := Json.isObject_iff.mp admits
    refine .members resolves kind helement fun entry hentry => ?_
    exact present _ entry.2 element (.member kind helement (Record.get?_eq_some_iff.mpr hentry))
  · rw [Resolved.visits_of_declaredFields kind admits] at hvisits
    obtain ⟨declared, hdeclared, -⟩ := map_eq_ok_iff.mp hvisits
    rw [kind] at admits
    obtain ⟨members, rfl⟩ := Json.isObject_iff.mp admits
    refine .fields resolves kind hdeclared ?_ ?_
    · intro name field item hfield hitem
      exact present _ item field (.field kind hdeclared hfield hitem)
    · intro name field hfield required
      by_contra absent
      have hnone := Record.get?_eq_none_iff.mpr absent
      exact complete name (.intro kind hdeclared hfield required hnone)

theorem Conforms.of_passes (passes : Passes (value.check limit registry d path)) :
    Conforms limit registry value d := by
  induction value using Json.child_induction generalizing d path with
  | value value ih =>
      cases resolves : d.resolve limit registry with
      | error failure =>
          rw [Json.check_of_resolve_error resolves] at passes
          exact (not_passes_error failure passes).elim
      | ok resolved =>
          rw [Json.check_of_resolve resolves] at passes
          split at passes
          · next hnull =>
              rw [Bool.and_eq_true, Json.isNull_iff] at hnull
              obtain ⟨hnullable, rfl⟩ := hnull
              split at passes
              · cases passes_ok_iff.mp passes
              · next hadmitted => exact .null resolves hnullable (by simpa using hadmitted)
          · split at passes
            · next kind => exact .of_options resolves kind passes
            · next hoptions =>
                split at passes
                · next admits =>
                    exact .of_parts (fun step child hchild d path => ih step child hchild)
                      resolves hoptions admits passes
                · cases passes_ok_iff.mp passes

end Soundness

/-! ## Derivations are checks that pass -/

theorem Conforms.passes {limit : Nat} {registry : Registry} {value : Json} {d : TypeDef}
    (h : Conforms limit registry value d) (path : String) :
    Passes (value.check limit registry d path) := by
  induction h generalizing path with
  | null resolves nullable admitted =>
      rw [Json.check_of_resolve resolves]
      simp [nullable, admitted, Json.isNull, Report.success]
  | @choice value d resolved choices choice resolves kind hchoices mem equal =>
      have hany : (choices.val.any fun choice => choice.value.valueEq value) = true :=
        List.any_eq_true.mpr ⟨choice, mem, equal⟩
      rw [Json.check_of_resolve resolves, Check.options_of_choices hchoices]
      simp [kind, hany, Builtin.isNullable, Report.success]
  | plain resolves plain admits =>
      rw [Json.check_of_isPlain resolves plain admits]
      exact passes_ok_iff.mpr rfl
  | items resolves kind helement each ih =>
      rw [Json.check_of_admits resolves (by simp [kind]) (by rw [kind]; rfl),
        Check.parts_arrayOf kind, helement, ok_bind, passes_join_iff]
      intro entry hentry
      exact ih entry.1 (List.fst_mem_of_mem_zipIdx hentry) _
  | members resolves kind helement each ih =>
      rw [Json.check_of_admits resolves (by simp [kind]) (by rw [kind]; rfl),
        Check.parts_objectOf kind, helement, ok_bind, passes_join_iff]
      intro entry hentry
      exact ih entry hentry _
  | @fields members d resolved declared resolves kind hdeclared present required ih =>
      rw [Json.check_of_admits resolves (by simp [kind]) (by rw [kind]; rfl),
        Check.parts_shape kind, hdeclared, ok_bind, passes_join_iff]
      rintro ⟨name, field⟩ hentry
      have hfield := Record.get?_eq_some_iff.mpr hentry
      cases hitem : members.get? name with
      | some item => simpa only [hitem] using ih name field item hfield hitem _
      | none =>
          have hoptional : field.isRequired = false := by
            by_contra hrequired
            refine Record.get?_eq_none_iff.mp hitem (required name field hfield ?_)
            simpa using hrequired
          simp [hitem, hoptional, Report.success]

/-- A check passes, at any position, exactly if the value conforms. -/
theorem passes_check_iff {limit : Nat} {registry : Registry} {value : Json} {d : TypeDef}
    {path : String} :
    Passes (value.check limit registry d path) ↔ Conforms limit registry value d :=
  ⟨.of_passes, fun h => h.passes path⟩

end ValueSchema
