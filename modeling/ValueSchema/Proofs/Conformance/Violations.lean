import ValueSchema.Proofs.Conformance.Visits

/-! # Violations and their positions -/

namespace ValueSchema

namespace Violation

/-- The same violation at another position. -/
def moveTo (path : String) : Violation → Violation
  | .missingRequired _ => .missingRequired path
  | .typeMismatch _ expected actual => .typeMismatch path expected actual
  | .nullNotAllowed _ => .nullNotAllowed path
  | .notAnOption _ value => .notAnOption path value

/-- Whether a violation is that of a field that is not there. -/
def isMissing : Violation → Bool
  | .missingRequired _ => true
  | _ => false

@[simp] theorem path_moveTo (path : String) (e : Violation) : (e.moveTo path).path = path := by
  cases e <;> rfl

@[simp] theorem moveTo_moveTo (path path' : String) (e : Violation) :
    (e.moveTo path).moveTo path' = e.moveTo path' := by
  cases e <;> rfl

@[simp] theorem moveTo_path (e : Violation) : e.moveTo e.path = e := by
  cases e <;> rfl

end Violation

/-! ## Texts of positions -/

/-- The text of a position below one with the text `base`. -/
def textBelow (base : String) (path : List Step) : String :=
  path.foldl (fun text step => text ++ step.text) base

theorem pathText_eq_textBelow (path : List Step) : pathText path = textBelow (pathText []) path :=
  rfl

theorem Step.one_le_length_text (step : Step) : 1 ≤ step.text.length := by
  have hdot : ".".length = 1 := by decide
  have hbracket : "[".length = 1 := by decide
  cases step with
  | key name =>
      rw [text, String.length_append]
      omega
  | index position =>
      rw [text, String.length_append, String.length_append]
      omega

theorem length_textBelow (base : String) (path : List Step) :
    base.length + path.length ≤ (textBelow base path).length := by
  induction path generalizing base with
  | nil => exact Nat.le_refl _
  | cons step path ih =>
      have hrest := ih (base ++ step.text)
      have hstep := step.one_le_length_text
      rw [String.length_append] at hrest
      rw [textBelow, List.foldl_cons, List.length_cons]
      exact Nat.le_trans (by omega) hrest

/-- Only the empty path has the text of the top. -/
theorem textBelow_eq_self_iff {base : String} {path : List Step} :
    textBelow base path = base ↔ path = [] := by
  constructor
  · intro h
    have hlength := length_textBelow base path
    rw [h] at hlength
    exact List.eq_nil_of_length_eq_zero (by omega)
  · rintro rfl
    rfl

/-! ## Mismatches at one position -/

/-- A violation by a value itself, whatever its position and its parts. -/
inductive OwnViolation (resolved : Resolved) (value : Json) : Violation → Prop
  | null {path : String} (nullable : resolved.kind.isNullable = true) (null : value.isNull = true)
      (notNull : resolved.definition.isNotNull = true) :
      OwnViolation resolved value (.nullNotAllowed path)
  | option {path : String} {choices : { choices : List Choice // choices ≠ [] }}
      (kind : resolved.kind = .oneOf) (hchoices : resolved.definition.choices = .ok choices)
      (other : ∀ choice ∈ choices.val, choice.value.valueEq value = false) :
      OwnViolation resolved value (.notAnOption path value.text)
  | form {path : String} (present : (resolved.kind.isNullable && value.isNull) = false)
      (kind : resolved.kind ≠ .oneOf) (other : resolved.kind.admits value = false) :
      OwnViolation resolved value (.typeMismatch path resolved.kind.tag value.typeName)

theorem OwnViolation.moveTo {resolved : Resolved} {value : Json} {e : Violation}
    (h : OwnViolation resolved value e) (path : String) :
    OwnViolation resolved value (e.moveTo path) := by
  cases h with
  | null nullable null notNull => exact .null nullable null notNull
  | option kind hchoices other => exact .option kind hchoices other
  | form present kind other => exact .form present kind other

theorem OwnViolation.isMissing_eq {resolved : Resolved} {value : Json} {e : Violation}
    (h : OwnViolation resolved value e) : e.isMissing = false := by
  cases h <;> rfl

/-! ## One level of a check -/

theorem Report.mem_join_mapM_iff {α : Type} {f : α → Except Failure Report} {xs : List α}
    {report : Report} (h : Report.join <$> xs.mapM f = .ok report) {e : Violation} :
    e ∈ report.violations ↔ ∃ x ∈ xs, ∃ report', f x = .ok report' ∧ e ∈ report'.violations := by
  obtain ⟨reports, hreports, rfl⟩ := map_eq_ok_iff.mp h
  rw [Report.mem_join_iff]
  exact exists_mem_mapM_iff hreports

theorem Report.join_valid_iff_eq_nil {reports : List Report}
    (h : ∀ report ∈ reports, report.valid = true ↔ report.violations = []) :
    (join reports).valid = true ↔ (join reports).violations = [] := by
  induction reports with
  | nil => simp [join, success]
  | cons report reports ih =>
      rw [List.forall_mem_cons] at h
      simp [join, merge, h.1, ih h.2]

section Level

variable {limit : Nat} {registry : Registry} {d : TypeDef} {resolved : Resolved} {value : Json}
  {base : String} {report : Report}

theorem exists_resolve_of_check (h : value.check limit registry d base = .ok report) :
    ∃ resolved, d.resolve limit registry = .ok resolved := by
  cases resolves : d.resolve limit registry with
  | error failure =>
      rw [Json.check_of_resolve_error resolves] at h
      cases h
  | ok resolved => exact ⟨resolved, rfl⟩

theorem check_of_ownViolation (resolves : d.resolve limit registry = .ok resolved) {e : Violation}
    (h : OwnViolation resolved value e) (path : String) :
    value.check limit registry d path = .ok (.single (e.moveTo path)) := by
  rw [Json.check_of_resolve resolves]
  cases h with
  | null nullable null notNull => simp [nullable, null, notNull, Violation.moveTo]
  | @option _ choices kind hchoices other =>
      have hnone : (choices.val.any fun choice => choice.value.valueEq value) = false := by
        simpa using other
      rw [Check.options_of_choices hchoices, hnone, kind]
      rfl
  | form present kind other => simp [present, kind, other, Violation.moveTo]

/-- A value has a violation of its own, or the check goes on to the parts. -/
theorem own_or_parts_of_check (resolves : d.resolve limit registry = .ok resolved)
    (h : value.check limit registry d base = .ok report) :
    (∃ e, OwnViolation resolved value e) ∨
      Check.parts (value.childResults (Json.check limit registry)) resolved base = .ok report := by
  rw [Json.check_of_resolve resolves] at h
  split at h
  · next hnull =>
      obtain ⟨nullable, null⟩ := Bool.and_eq_true_iff.mp hnull
      cases hnotNull : resolved.definition.isNotNull with
      | true => exact .inl ⟨.nullNotAllowed base, .null nullable null hnotNull⟩
      | false =>
          rw [hnotNull] at h
          obtain rfl := Json.isNull_iff.mp null
          exact .inr ((Check.parts_leaf resolved base).trans h)
  · next hpresent =>
      split at h
      · next kind =>
          -- An option has no parts, so nothing is left to be checked once it is found.
          obtain ⟨choices, hchoices, -⟩ := bind_eq_ok_iff.mp h
          rw [Check.options_of_choices hchoices] at h
          cases hany : choices.val.any fun choice => choice.value.valueEq value with
          | true =>
              rw [hany] at h
              exact .inr ((Check.parts_oneOf kind _ base).trans h)
          | false =>
              refine .inl ⟨.notAnOption base value.text, .option kind hchoices ?_⟩
              simpa using hany
      · next kind =>
          split at h
          · exact .inr h
          · next admits =>
              refine .inl ⟨.typeMismatch base resolved.kind.tag value.typeName, .form ?_ kind ?_⟩
              · exact eq_false_of_ne_true hpresent
              · exact eq_false_of_ne_true admits

section Parts

variable
  (h : Check.parts (value.childResults (Json.check limit registry)) resolved base = .ok report)

include h

theorem exists_check_of_descent {step : Step} {child : Json} {part : TypeDef}
    (descent : Descent resolved value step child part) :
    ∃ report', child.check limit registry part (base ++ step.text) = .ok report' := by
  rw [Check.parts_eq_visits] at h
  obtain ⟨visits, hvisits, hjoin⟩ := bind_eq_ok_iff.mp h
  obtain ⟨reports, hreports, -⟩ := map_eq_ok_iff.mp hjoin
  obtain ⟨_, hvisits', hmem⟩ := descent.exists_visits
  cases hvisits.symm.trans hvisits'
  obtain ⟨report', -, hreport'⟩ := exists_of_mapM_eq_ok hreports hmem
  rw [Check.visit_of_child descent.child?_eq] at hreport'
  exact ⟨report', hreport'⟩

/-- All that is reported for the parts: missing fields and what the checks of the children
report. -/
theorem mem_violations_of_parts_iff {e : Violation} :
    e ∈ report.violations ↔
      (∃ name, MissingField resolved value name ∧
        e = .missingRequired (base ++ (Step.key name).text)) ∨
      ∃ step child part report', Descent resolved value step child part ∧
        child.check limit registry part (base ++ step.text) = .ok report' ∧
          e ∈ report'.violations := by
  rw [Check.parts_eq_visits] at h
  obtain ⟨visits, hvisits, hjoin⟩ := bind_eq_ok_iff.mp h
  rw [Report.mem_join_mapM_iff hjoin]
  constructor
  · rintro ⟨⟨step, part⟩, hmem, report', hreport', he⟩
    have finds := (yields_visits resolved value).good_of_eq_ok hvisits _ hmem
    cases hchild : value.child? step with
    | some child =>
        rw [Check.visit_of_child hchild] at hreport'
        exact .inr ⟨step, child, part, report', finds.descent child hchild, hreport', he⟩
    | none =>
        rw [Check.visit_of_absent hchild] at hreport'
        cases hreport'
        split at he
        · next required =>
            obtain ⟨name, rfl, missing⟩ := finds.missing hchild required
            exact .inl ⟨name, missing, List.mem_singleton.mp he⟩
        · cases he
  · rintro (⟨name, missing, rfl⟩ | ⟨step, child, part, report', descent, hcheck, he⟩)
    · obtain ⟨_, part, hvisits', hmem, absent, required⟩ := missing.exists_visits
      cases hvisits.symm.trans hvisits'
      refine ⟨_, hmem, _, Check.visit_of_absent absent, ?_⟩
      simp [required, Report.single]
    · obtain ⟨_, hvisits', hmem⟩ := descent.exists_visits
      cases hvisits.symm.trans hvisits'
      exact ⟨_, hmem, report', (Check.visit_of_child descent.child?_eq).trans hcheck, he⟩

end Parts

/-- What a check reports at the position of the value and below it. -/
theorem mem_violations_of_check_iff (resolves : d.resolve limit registry = .ok resolved)
    (h : value.check limit registry d base = .ok report) {e : Violation} :
    e ∈ report.violations ↔
      (OwnViolation resolved value e ∧ e.path = base) ∨
      (∃ name, MissingField resolved value name ∧
        e = .missingRequired (base ++ (Step.key name).text)) ∨
      ∃ step child part report', Descent resolved value step child part ∧
        child.check limit registry part (base ++ step.text) = .ok report' ∧
          e ∈ report'.violations := by
  constructor
  · intro he
    rcases own_or_parts_of_check resolves h with ⟨own, hown⟩ | hparts
    · rw [check_of_ownViolation resolves hown] at h
      cases h
      obtain rfl := List.mem_singleton.mp he
      exact .inl ⟨hown.moveTo base, own.path_moveTo base⟩
    · exact .inr ((mem_violations_of_parts_iff hparts).mp he)
  · rintro (⟨hown, rfl⟩ | ⟨name, missing, rfl⟩ | ⟨step, child, part, report', descent, hcheck, he⟩)
    · rw [check_of_ownViolation resolves hown, e.moveTo_path] at h
      cases h
      exact List.mem_singleton_self e
    · rw [Json.check_of_admits resolves missing.admits.1 missing.admits.2] at h
      exact (mem_violations_of_parts_iff h).mpr (.inl ⟨name, missing, rfl⟩)
    · rw [Json.check_of_admits resolves descent.admits.1 descent.admits.2] at h
      exact (mem_violations_of_parts_iff h).mpr
        (.inr ⟨step, child, part, report', descent, hcheck, he⟩)

/-- Where a check succeeds, so does the check of every part that a step leads to. -/
theorem exists_check_of_child (h : value.check limit registry d base = .ok report) {step : Step}
    {child : Json} {part : TypeDef} (hchild : value.child? step = some child)
    (hpart : d.child limit registry step = .ok part) :
    ∃ report', child.check limit registry part (base ++ step.text) = .ok report' := by
  obtain ⟨resolved, resolves⟩ := exists_resolve_of_check h
  have descent : Descent resolved value step child part :=
    (descent_iff resolves).mpr ⟨hchild, hpart⟩
  rw [Json.check_of_admits resolves descent.admits.1 descent.admits.2] at h
  exact exists_check_of_descent h descent

end Level

/-! ## The whole check -/

/-- A report is valid exactly if it is empty. -/
theorem valid_iff_of_check {limit : Nat} {registry : Registry} (value : Json) :
    ∀ (d : TypeDef) (base : String) (report : Report),
      value.check limit registry d base = .ok report →
        (report.valid = true ↔ report.violations = []) := by
  induction value using Json.child_induction with
  | value value ih =>
      intro d base report h
      obtain ⟨resolved, resolves⟩ := exists_resolve_of_check h
      rcases own_or_parts_of_check resolves h with ⟨own, hown⟩ | hparts
      · rw [check_of_ownViolation resolves hown] at h
        cases h
        simp [Report.single]
      · rw [Check.parts_eq_visits] at hparts
        obtain ⟨visits, hvisits, hjoin⟩ := bind_eq_ok_iff.mp hparts
        obtain ⟨reports, hreports, rfl⟩ := map_eq_ok_iff.mp hjoin
        refine Report.join_valid_iff_eq_nil (forall_of_forall₂ (mapM_eq_ok_iff.mp hreports) ?_)
        rintro ⟨step, part⟩ report' - hreport'
        cases hchild : value.child? step with
        | some child =>
            rw [Check.visit_of_child hchild] at hreport'
            exact ih step child hchild part _ report' hreport'
        | none =>
            rw [Check.visit_of_absent hchild] at hreport'
            cases hreport'
            split <;> simp [Report.single, Report.success]

/-- A violation that belongs to the position at the end of a path. Its text is left open. -/
inductive ViolationAt (limit : Nat) (registry : Registry) (value : Json) (d : TypeDef) :
    List Step → Violation → Prop
  | own (path : List Step) {part : Json} {definition : TypeDef} {resolved : Resolved}
      {e : Violation} (hvalue : value.at? path = some part)
      (hdefinition : d.atPath limit registry path = .ok definition)
      (resolves : definition.resolve limit registry = .ok resolved)
      (h : OwnViolation resolved part e) : ViolationAt limit registry value d path e
  | missing (path : List Step) {part : Json} {definition : TypeDef} {resolved : Resolved}
      {name text : String} (hvalue : value.at? path = some part)
      (hdefinition : d.atPath limit registry path = .ok definition)
      (resolves : definition.resolve limit registry = .ok resolved)
      (h : MissingField resolved part name) :
      ViolationAt limit registry value d (path ++ [.key name]) (.missingRequired text)

section Positions

variable {limit : Nat} {registry : Registry} {value : Json} {d : TypeDef} {resolved : Resolved}
  {e : Violation}

theorem ViolationAt.step {step : Step} {child : Json} {part : TypeDef} {path : List Step}
    (hchild : value.child? step = some child) (hpart : d.child limit registry step = .ok part)
    (h : ViolationAt limit registry child part path e) :
    ViolationAt limit registry value d (step :: path) e := by
  cases h with
  | own path hvalue hdefinition resolves h =>
      refine .own (step :: path) ?_ ?_ resolves h
      · rw [Json.at?_cons, hchild, Option.bind_some, hvalue]
      · rw [TypeDef.atPath_cons hpart, hdefinition]
  | missing path hvalue hdefinition resolves h =>
      refine .missing (step :: path) ?_ ?_ resolves h
      · rw [Json.at?_cons, hchild, Option.bind_some, hvalue]
      · rw [TypeDef.atPath_cons hpart, hdefinition]

/-- A violation at the top, for a field of the value, or below a step. -/
theorem ViolationAt.inv (resolves : d.resolve limit registry = .ok resolved) {path : List Step}
    (h : ViolationAt limit registry value d path e) :
    (path = [] ∧ OwnViolation resolved value e) ∨
      (∃ name text, path = [.key name] ∧ e = .missingRequired text ∧
        MissingField resolved value name) ∨
      ∃ step rest child part, path = step :: rest ∧ value.child? step = some child ∧
        d.child limit registry step = .ok part ∧ ViolationAt limit registry child part rest e := by
  cases h with
  | own path hvalue hdefinition resolves' h =>
      cases path with
      | nil =>
          cases hvalue
          cases hdefinition
          cases resolves.symm.trans resolves'
          exact .inl ⟨rfl, h⟩
      | cons step rest =>
          obtain ⟨child, hchild, hvalue⟩ := Option.bind_eq_some_iff.mp hvalue
          obtain ⟨part, hpart, hdefinition⟩ := bind_eq_ok_iff.mp hdefinition
          refine .inr (.inr ⟨step, rest, child, part, rfl, hchild, hpart, ?_⟩)
          exact .own rest hvalue hdefinition resolves' h
  | @missing path _ _ _ name text hvalue hdefinition resolves' h =>
      cases path with
      | nil =>
          cases hvalue
          cases hdefinition
          cases resolves.symm.trans resolves'
          exact .inr (.inl ⟨name, text, rfl, rfl, h⟩)
      | cons step rest =>
          obtain ⟨child, hchild, hvalue⟩ := Option.bind_eq_some_iff.mp hvalue
          obtain ⟨part, hpart, hdefinition⟩ := bind_eq_ok_iff.mp hdefinition
          refine .inr (.inr ⟨step, rest ++ [.key name], child, part, rfl, hchild, hpart, ?_⟩)
          exact .missing rest hvalue hdefinition resolves' h

/-- A check reports the violations at all positions. -/
theorem mem_violations_iff_violationAt (value : Json) :
    ∀ (d : TypeDef) (base : String) (report : Report),
      value.check limit registry d base = .ok report → ∀ e : Violation,
        (e ∈ report.violations ↔
          ∃ path, ViolationAt limit registry value d path e ∧ e.path = textBelow base path) := by
  induction value using Json.child_induction with
  | value value ih =>
      intro d base report h e
      obtain ⟨resolved, resolves⟩ := exists_resolve_of_check h
      rw [mem_violations_of_check_iff resolves h]
      constructor
      · rintro (⟨hown, hpath⟩ | ⟨name, missing, rfl⟩ |
          ⟨step, child, part, report', descent, hcheck, he⟩)
        · exact ⟨[], .own [] rfl rfl resolves hown, hpath⟩
        · exact ⟨[.key name], .missing [] rfl rfl resolves missing, rfl⟩
        · obtain ⟨hchild, hpart⟩ := (descent_iff resolves).mp descent
          obtain ⟨path, hat, hpath⟩ := (ih step child hchild part _ report' hcheck e).mp he
          exact ⟨step :: path, hat.step hchild hpart, hpath⟩
      · rintro ⟨path, hat, hpath⟩
        rcases hat.inv resolves with ⟨rfl, hown⟩ | ⟨name, text, rfl, rfl, missing⟩ |
          ⟨step, rest, child, part, rfl, hchild, hpart, hat⟩
        · exact .inl ⟨hown, hpath⟩
        · exact .inr (.inl ⟨name, missing, congrArg _ hpath⟩)
        · -- The value has a child here, so it has the right form and its parts were checked.
          have descent := (descent_iff resolves).mpr ⟨hchild, hpart⟩
          rw [Json.check_of_admits resolves descent.admits.1 descent.admits.2] at h
          obtain ⟨report', hcheck⟩ := exists_check_of_descent h descent
          have he := (ih step child hchild part _ report' hcheck e).mpr ⟨rest, hat, hpath⟩
          exact .inr (.inr ⟨step, child, part, report', descent, hcheck, he⟩)

/-- What the check of a value alone reports at the top is a violation of the value itself. -/
theorem ownViolation_of_validate {report : Report}
    (resolves : d.resolve limit registry = .ok resolved)
    (h : value.validate limit registry d = .ok report)
    (he : e.moveTo (pathText []) ∈ report.violations) : OwnViolation resolved value e := by
  obtain ⟨path, hat, hpath⟩ := (mem_violations_iff_violationAt value d _ report h _).mp he
  rw [Violation.path_moveTo] at hpath
  -- A missing field and the mismatch of a part have a longer text.
  obtain rfl := textBelow_eq_self_iff.mp hpath.symm
  rcases hat.inv resolves with ⟨-, hown⟩ | ⟨name, text, hnil, -⟩ | ⟨step, rest, _, _, hnil, -⟩
  · simpa using hown.moveTo e.path
  · cases hnil
  · cases hnil

end Positions

/-- The violations that are reported are those at all positions, each with the text of its
position: a mismatch of the part there by itself, or a required field that is not there. -/
theorem validate_reports_all_positions (limit : Nat) (registry : Registry) (value : Json)
    (d : TypeDef) (report : Report) (h : value.validate limit registry d = .ok report) :
    (report.valid = true ↔ report.violations = []) ∧
    ∀ e : Violation, e ∈ report.violations ↔
      ∃ (path : List Step) (definition : TypeDef), e.path = pathText path ∧
        d.atPath limit registry path = .ok definition ∧
        ((∃ (part : Json) (report' : Report), value.at? path = some part ∧
            part.validate limit registry definition = .ok report' ∧
            e.moveTo (pathText []) ∈ report'.violations ∧ e.isMissing = false) ∨
          ∃ (parent : List Step) (name : String) (members : Record Json) (whole : TypeDef)
            (resolved : Resolved) (fields : Record TypeDef),
            e = .missingRequired (pathText path) ∧ path = parent ++ [.key name] ∧
            value.at? parent = some (.object members) ∧ members.get? name = none ∧
            d.atPath limit registry parent = .ok whole ∧
            whole.resolve limit registry = .ok resolved ∧ resolved.kind = .shape ∧
            resolved.definition.declaredFields = .ok fields ∧ name ∈ fields.names ∧
            definition.isRequired = true) := by
  refine ⟨valid_iff_of_check value d _ report h, fun e => ?_⟩
  rw [mem_violations_iff_violationAt value d _ report h e]
  simp only [← pathText_eq_textBelow]
  constructor
  · rintro ⟨path, hat, hpath⟩
    cases hat with
    | @own _ part definition resolved _ hvalue hdefinition resolves hown =>
        have hcheck := check_of_ownViolation resolves hown (pathText [])
        exact ⟨path, definition, hpath, hdefinition,
          .inl ⟨part, _, hvalue, hcheck, List.mem_singleton_self _, hown.isMissing_eq⟩⟩
    | @missing parent _ whole resolved name text hvalue hwhole resolves hmissing =>
        cases hmissing with
        | @intro members fields _ field kind hfields hfield required absent =>
            have hdefinition : d.atPath limit registry (parent ++ [.key name]) = .ok field := by
              rw [TypeDef.atPath_append, hwhole, ok_bind,
                TypeDef.atPath_cons (TypeDef.child_shape resolves kind hfields hfield)]
              rfl
            have hname : name ∈ fields.names := Record.mem_names_iff.mpr ⟨field, hfield⟩
            exact ⟨parent ++ [Step.key name], field, hpath, hdefinition,
              .inr ⟨parent, name, members, whole, resolved, fields, congrArg _ hpath, rfl, hvalue,
                absent, hwhole, resolves, kind, hfields, hname, required⟩⟩
  · rintro ⟨path, definition, hpath, hdefinition, hreported | hmissing⟩
    · obtain ⟨part, report', hvalue, hreport', he, -⟩ := hreported
      obtain ⟨resolved, resolves⟩ := exists_resolve_of_check hreport'
      have hown := ownViolation_of_validate resolves hreport' he
      exact ⟨path, .own path hvalue hdefinition resolves hown, hpath⟩
    · obtain ⟨parent, name, members, whole, resolved, fields, rfl, rfl, hvalue, absent, hwhole,
        resolves, kind, hfields, hname, required⟩ := hmissing
      obtain ⟨field, hfield⟩ := Record.mem_names_iff.mp hname
      rw [TypeDef.atPath_append, hwhole, ok_bind,
        TypeDef.atPath_cons (TypeDef.child_shape resolves kind hfields hfield)] at hdefinition
      cases hdefinition
      refine ⟨parent ++ [Step.key name], .missing parent hvalue hwhole resolves ?_, hpath⟩
      exact .intro kind hfields hfield required absent

section Profile

def profileTypes : Registry := .ofList [("tag", .builtin .string)]

def profileType : TypeDef := .shape
  [("id", (TypeDef.builtin .int).asRequired), ("tags", .arrayOf (.reference "tag"))]

/-- A profile without its number and with a tag that is no text. -/
def sampleProfile : Json := .object (.ofList
  [("tags", .array [.string "a", .number (.integer 5 (by decide))])])

def profileReport : Report :=
  ⟨false, [.missingRequired "$.id", .typeMismatch "$.tags[1]" "string" "int"]⟩

theorem validate_reports_profile_positions :
    sampleProfile.validate 3 profileTypes profileType = .ok profileReport ∧
    ∃ (path : List Step) (definition : TypeDef) (part : Json) (report : Report),
      pathText path = "$.tags[1]" ∧
      profileType.atPath 3 profileTypes path = .ok definition ∧
      sampleProfile.at? path = some part ∧
      part.validate 3 profileTypes definition = .ok report ∧
      .typeMismatch "$" "string" "int" ∈ report.violations := by
  have h : sampleProfile.validate 3 profileTypes profileType = .ok profileReport := by
    decide +kernel
  have hmem : .typeMismatch "$.tags[1]" "string" "int" ∈ profileReport.violations := by decide
  obtain ⟨path, definition, hpath, hdefinition, hreported | hmissing⟩ :=
    ((validate_reports_all_positions 3 profileTypes sampleProfile profileType profileReport h).2
      _).mp hmem
  · obtain ⟨part, report, hpart, hreport, he, -⟩ := hreported
    exact ⟨h, path, definition, part, report, hpath.symm, hdefinition, hpart, hreport, he⟩
  · obtain ⟨_, _, _, _, _, _, hother, -⟩ := hmissing
    cases hother

end Profile

end ValueSchema
