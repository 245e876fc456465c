import ValueSchema.Proofs.Coercion.Rules
import ValueSchema.Proofs.Coercion.Soundness

/-! # Coercion keeps to the form of the target -/

namespace ValueSchema

/-- A violation that is not about the form of a value. -/
def Violation.SparesForm : Violation → Prop
  | .typeMismatch .. => False
  | .missingRequired _ | .nullNotAllowed _ | .notAnOption .. => True

/-- A definition that is reached has no options, which its kind needs. -/
inductive MissingOptions (limit : Nat) (registry : Registry) (d : TypeDef) : Failure → Prop
  | intro {path : List Step} {part : TypeDef} {resolved : Resolved} {defect : Defect}
      (reached : d.atPath limit registry path = .ok part)
      (resolves : part.resolve limit registry = .ok resolved) (kind : resolved.kind = .oneOf)
      (lacks : resolved.Lacks (.invalidDefinition (.builtin .oneOf) defect)) :
      MissingOptions limit registry d (.invalidDefinition (.builtin .oneOf) defect)

theorem MissingOptions.of_child {limit : Nat} {registry : Registry} {d part : TypeDef} {step : Step}
    {failure : Failure} (hchild : d.child limit registry step = .ok part)
    (h : MissingOptions limit registry part failure) : MissingOptions limit registry d failure := by
  cases h with
  | intro reached resolves kind lacks =>
      exact .intro ((TypeDef.atPath_cons hchild _).trans reached) resolves kind lacks

/-- The check of a coerced value finds nothing wrong with its form. -/
def AcceptsForm (limit : Nat) (registry : Registry) (d : TypeDef) : Except Failure Report → Prop :=
  Yields (fun report => ∀ violation ∈ report.violations, violation.SparesForm)
    (MissingOptions limit registry d)

/-! ## Values of the source -/

namespace Conforms

variable {limit : Nat} {registry : Registry} {value : Json} {d : TypeDef} {resolved : Resolved}
  (resolves : d.resolve limit registry = .ok resolved)

include resolves

/-- A value has the form of its kind, or it is a `null` that stands for no value. -/
theorem admits_or_null (h : Conforms limit registry value d) :
    resolved.kind.admits value = true ∨ resolved.kind.isNullable = true ∧ value = .null := by
  cases h with
  | null resolves' nullable admitted =>
      cases resolves.symm.trans resolves'
      exact .inr ⟨nullable, rfl⟩
  | choice resolves' kind hchoices mem equal =>
      cases resolves.symm.trans resolves'
      exact .inl (by rw [kind]; rfl)
  | plain resolves' plain admits =>
      cases resolves.symm.trans resolves'
      exact .inl admits
  | items resolves' kind helement each =>
      cases resolves.symm.trans resolves'
      exact .inl (by rw [kind]; rfl)
  | members resolves' kind helement each =>
      cases resolves.symm.trans resolves'
      exact .inl (by rw [kind]; rfl)
  | fields resolves' kind hdeclared present required =>
      cases resolves.symm.trans resolves'
      exact .inl (by rw [kind]; rfl)

theorem null_of_not_admits (h : Conforms limit registry value d)
    (other : resolved.kind.admits value = false) :
    resolved.kind.isNullable = true ∧ value = .null :=
  (h.admits_or_null resolves).resolve_left (by simp [other])

end Conforms

theorem Resolved.parts_of_isPlain {resolved : Resolved} (plain : resolved.kind.isPlain = true) :
    resolved.parts = [] := by
  unfold parts
  split <;> simp_all [Builtin.isPlain]

/-- A part of a value conforms to the part of the definition at the same step. -/
theorem Conforms.child {limit : Nat} {registry : Registry} {value item : Json} {d part : TypeDef}
    {step : Step} (h : Conforms limit registry value d) (hitem : value.child? step = some item)
    (hpart : d.child limit registry step = .ok part) : Conforms limit registry item part := by
  cases h with
  | null resolves nullable admitted => cases hitem
  | choice resolves kind hchoices mem equal =>
      have hmem := TypeDef.mem_parts_of_child resolves hpart
      simp [Resolved.parts, kind] at hmem
  | plain resolves plain admits =>
      have hmem := TypeDef.mem_parts_of_child resolves hpart
      simp [Resolved.parts_of_isPlain plain] at hmem
  | items resolves kind helement each =>
      cases step with
      | key name => cases hitem
      | index position =>
          cases hpart.symm.trans (TypeDef.child_arrayOf resolves kind helement position)
          exact each item (List.mem_of_getElem? hitem)
  | members resolves kind helement each =>
      cases step with
      | key name =>
          cases hpart.symm.trans (TypeDef.child_objectOf resolves kind helement name)
          exact each (name, item) (Record.get?_eq_some_iff.mp hitem)
      | index position => cases hitem
  | @fields members d resolved declared resolves kind hdeclared present required =>
      cases step with
      | key name =>
          cases hfield : declared.get? name with
          | none => simp [TypeDef.child, resolves, kind, hdeclared, hfield, throw_eq_error] at hpart
          | some field =>
              cases hpart.symm.trans (TypeDef.child_shape resolves kind hdeclared hfield)
              exact present name part item hfield hitem
      | index position => cases hitem

/-! ## Conversions -/

namespace Conversion

theorem isPlain_or_oneOf {source target : Builtin} {conversion : Conversion}
    (h : between? source target = some conversion) (formal : conversion.isFormal = true) :
    target.isPlain = true ∨ target = .oneOf := by
  cases target <;> cases source <;> cases h <;>
    first | exact .inl rfl | exact .inr rfl | cases formal

theorem isNullable_target {source target : Builtin} {conversion : Conversion}
    (h : between? source target = some conversion) (nullable : source.isNullable = true) :
    target.isNullable = true := by
  cases target <;> cases source <;> cases h <;> first | rfl | cases nullable

theorem onForm_null (conversion : Conversion) : conversion.onForm .null = .null := by
  cases conversion <;> rfl

end Conversion

/-! ## Checks of the target -/

section Level

variable {limit : Nat} {registry : Registry} {d : TypeDef} {resolved : Resolved}

theorem acceptsForm_join {α : Type} {f : α → Except Failure Report} {xs : List α}
    (h : ∀ x ∈ xs, AcceptsForm limit registry d (f x)) :
    AcceptsForm limit registry d (Report.join <$> xs.mapM f) := by
  refine Yields.map (Yields.mapM h) fun reports hreports violation hviolation => ?_
  obtain ⟨report, hreport, hmem⟩ := Report.mem_join_iff.mp hviolation
  have hspares : ∀ report ∈ reports, ∀ violation ∈ report.violations, violation.SparesForm :=
    forall_of_forall₂ hreports fun _ _ _ hreport => hreport
  exact hspares report hreport violation hmem

theorem AcceptsForm.of_child {step : Step} {part : TypeDef} {outcome : Except Failure Report}
    (hchild : d.child limit registry step = .ok part)
    (h : AcceptsForm limit registry part outcome) : AcceptsForm limit registry d outcome :=
  h.mono (fun _ hreport => hreport) fun _ hfailure => hfailure.of_child hchild

variable (resolves : d.resolve limit registry = .ok resolved)

include resolves

theorem acceptsForm_null (nullable : resolved.kind.isNullable = true) (path : String) :
    AcceptsForm limit registry d (Json.null.check limit registry d path) := by
  rw [Json.check_of_resolve resolves]
  simp only [nullable, Json.isNull, Bool.and_self, if_true]
  split <;> simp [AcceptsForm, Yields, Report.single, Report.success, Violation.SparesForm]

theorem acceptsForm_choice (kind : resolved.kind = .oneOf) (value : Json) (path : String) :
    AcceptsForm limit registry d (value.check limit registry d path) := by
  have hcheck : value.check limit registry d path =
      Check.options value resolved.definition path := by
    rw [Json.check_of_resolve resolves]
    simp [kind, Builtin.isNullable]
  have hchoices : Yields (fun _ => True) (MissingOptions limit registry d)
      resolved.definition.choices := by
    refine (Resolved.yields_choices kind).mono (fun _ _ => trivial) fun failure hlacks => ?_
    obtain ⟨defect, rfl⟩ := hlacks.exists_defect
    rw [kind] at hlacks ⊢
    have reached : d.atPath limit registry [] = .ok d := rfl
    exact .intro reached resolves kind hlacks
  rw [hcheck, Check.options]
  refine hchoices.seq fun choices => ?_
  show AcceptsForm limit registry d (.ok _)
  split <;> simp [AcceptsForm, Yields, Report.single, Report.success, Violation.SparesForm]

theorem acceptsForm_plain {value : Json} (plain : resolved.kind.isPlain = true)
    (admits : resolved.kind.admits value = true) (path : String) :
    AcceptsForm limit registry d (value.check limit registry d path) := by
  rw [Json.check_of_isPlain resolves plain admits]
  simp [AcceptsForm, Yields, Report.success]

theorem acceptsForm_items {items : List Json} {element : TypeDef} (kind : resolved.kind = .arrayOf)
    (helement : resolved.definition.element = .ok element)
    (each : ∀ item ∈ items, ∀ path,
      AcceptsForm limit registry element (item.check limit registry element path))
    (path : String) :
    AcceptsForm limit registry d ((Json.array items).check limit registry d path) := by
  rw [Json.check_of_admits resolves (by simp [kind]) (by rw [kind]; rfl), Check.parts_arrayOf kind,
    helement, ok_bind]
  refine acceptsForm_join fun entry hentry => ?_
  have hchild := TypeDef.child_arrayOf resolves kind helement entry.2
  exact (each entry.1 (List.fst_mem_of_mem_zipIdx hentry) _).of_child hchild

theorem acceptsForm_members {members : Record Json} {element : TypeDef}
    (kind : resolved.kind = .objectOf) (helement : resolved.definition.element = .ok element)
    (each : ∀ entry ∈ members.toList, ∀ path,
      AcceptsForm limit registry element (entry.2.check limit registry element path))
    (path : String) :
    AcceptsForm limit registry d ((Json.object members).check limit registry d path) := by
  rw [Json.check_of_admits resolves (by simp [kind]) (by rw [kind]; rfl), Check.parts_objectOf kind,
    helement, ok_bind]
  refine acceptsForm_join fun entry hentry => ?_
  have hchild := TypeDef.child_objectOf resolves kind helement entry.1
  exact (each entry hentry _).of_child hchild

/-- Of a shape only the members that it declares are checked, and a missing one is no matter of
form. -/
theorem acceptsForm_fields {members : Record Json} {declared : Record TypeDef}
    (kind : resolved.kind = .shape) (hdeclared : resolved.definition.declaredFields = .ok declared)
    (each : ∀ name field item, declared.get? name = some field → members.get? name = some item →
      ∀ path, AcceptsForm limit registry field (item.check limit registry field path))
    (path : String) :
    AcceptsForm limit registry d ((Json.object members).check limit registry d path) := by
  rw [Json.check_of_admits resolves (by simp [kind]) (by rw [kind]; rfl), Check.parts_shape kind,
    hdeclared, ok_bind]
  refine acceptsForm_join fun entry hentry => ?_
  have hfield := Record.get?_eq_some_iff.mpr hentry
  cases hitem : members.get? entry.1 with
  | some item =>
      simp only [hitem]
      have hchild := TypeDef.child_shape resolves kind hdeclared hfield
      exact (each entry.1 entry.2 item hfield hitem _).of_child hchild
  | none =>
      simp only [hitem]
      split <;> simp [AcceptsForm, Yields, Report.single, Report.success, Violation.SparesForm]

end Level

/-! ## Along the value -/

section Value

variable {limit : Nat} {sourceRegistry targetRegistry : Registry} {source target : TypeDef}
  {resolvedSource resolvedTarget : Resolved} {value result : Json}
  (hsource : source.resolve limit sourceRegistry = .ok resolvedSource)
  (htarget : target.resolve limit targetRegistry = .ok resolvedTarget)

include hsource htarget

theorem acceptsForm_onForm {conversion : Conversion}
    (h : Conversion.between? resolvedSource.kind resolvedTarget.kind = some conversion)
    (formal : conversion.isFormal = true) (conforms : Conforms limit sourceRegistry value source)
    (path : String) :
    AcceptsForm limit targetRegistry target
      ((conversion.onForm value).check limit targetRegistry target path) := by
  rcases conforms.admits_or_null hsource with admits | ⟨nullable, rfl⟩
  · rcases Conversion.isPlain_or_oneOf h formal with plain | kind
    · exact acceptsForm_plain htarget plain (Conversion.admits_onForm h admits) path
    · exact acceptsForm_choice htarget kind _ path
  · rw [Conversion.onForm_null]
    exact acceptsForm_null htarget (Conversion.isNullable_target h nullable) path

end Value

theorem acceptsForm_of_coerce {limit : Nat} {sourceRegistry targetRegistry : Registry}
    {source target : TypeDef} {value result : Json}
    (conforms : Conforms limit sourceRegistry value source)
    (h : value.coerce limit sourceRegistry targetRegistry source target = .ok result)
    (path : String) :
    AcceptsForm limit targetRegistry target (result.check limit targetRegistry target path) := by
  induction value using Json.child_induction generalizing source target result path with
  | value value ih =>
      obtain ⟨resolvedSource, resolvedTarget, hsource, htarget, converts⟩ := coerce_eq_ok_iff.mp h
      cases converts with
      | formal hconversion formal =>
          exact acceptsForm_onForm hsource htarget hconversion formal conforms path
      | @items items results element element' kind kind' helement helement' each =>
          refine acceptsForm_items htarget kind' helement' ?_ path
          refine forall_of_forall₂ each fun item result hitem hcoerce => ?_
          obtain ⟨position, hposition⟩ := List.mem_iff_getElem?.mp hitem
          have hchild : (Json.array items).child? (.index position) = some item := hposition
          have hitem := conforms.child hchild (TypeDef.child_arrayOf hsource kind helement position)
          exact ih _ item hchild hitem hcoerce
      | notItems kind kind' helement helement' other =>
          obtain ⟨nullable, -⟩ := conforms.null_of_not_admits hsource (by rw [kind]; exact other)
          rw [kind] at nullable
          cases nullable
      | @members members results element element' kind kind' helement helement' each =>
          refine acceptsForm_members htarget kind' helement' ?_ path
          refine forall_of_forall₂ each fun entry entry' hentry hcoerce => ?_
          have hchild : (Json.object members).child? (.key entry.1) = some entry.2 :=
            Record.get?_eq_some_iff.mpr hentry
          have hitem := conforms.child hchild (TypeDef.child_objectOf hsource kind helement entry.1)
          exact ih _ entry.2 hchild hitem hcoerce.2
      | notMembers kind kind' helement helement' other =>
          obtain ⟨-, rfl⟩ := conforms.null_of_not_admits hsource (by rw [kind]; exact other)
          exact acceptsForm_null htarget (by rw [kind']; rfl) path
      | @fields members results fields fields' kind kind' hfields hfields' convert =>
          refine acceptsForm_fields htarget kind' hfields' ?_ path
          intro name field' result hfield' hresult
          have hname := convert.mem_names_iff.mp (Record.mem_names_iff.mpr ⟨result, hresult⟩)
          obtain ⟨field, hfield⟩ := Record.mem_names_iff.mp hname.1
          obtain ⟨item, hitem⟩ := Record.mem_names_iff.mp hname.2
          have hchild : (Json.object members).child? (.key name) = some item := hitem
          have hconforms := conforms.child hchild (TypeDef.child_shape hsource kind hfields hfield)
          exact ih _ item hchild hconforms
            (convert.each name field field' item result hfield hfield' hitem hresult)
      | notFields kind kind' hfields hfields' names other =>
          obtain ⟨-, rfl⟩ := conforms.null_of_not_admits hsource (by rw [kind]; exact other)
          exact acceptsForm_null htarget (by rw [kind']; rfl) path

/-- A value of the source that was coerced never has the wrong type for the target, whether or not
the two are compatible. Its check reports at most a `null` that is not allowed, a value that is not
an option and a required field that is missing, or it fails at a `oneOf` without options. -/
theorem coerce_keeps_form (limit : Nat) (sourceRegistry targetRegistry : Registry)
    (source target : TypeDef) (value result : Json) (report : Report)
    (validated : value.validate limit sourceRegistry source = .ok report)
    (valid : report.valid = true)
    (coerced : value.coerce limit sourceRegistry targetRegistry source target = .ok result) :
    (∃ report', result.validate limit targetRegistry target = .ok report' ∧
      ∀ violation ∈ report'.violations, violation.SparesForm) ∨
    ∃ path part resolved defect, target.atPath limit targetRegistry path = .ok part ∧
      part.resolve limit targetRegistry = .ok resolved ∧ resolved.kind = .oneOf ∧
      resolved.Lacks (.invalidDefinition (.builtin .oneOf) defect) ∧
      result.validate limit targetRegistry target =
        .error (.invalidDefinition (.builtin .oneOf) defect) := by
  have conforms : Conforms limit sourceRegistry value source :=
    passes_check_iff.mp ⟨report, validated, valid⟩
  have haccepts := acceptsForm_of_coerce conforms coerced (pathText [])
  unfold Json.validate
  cases hcheck : result.check limit targetRegistry target (pathText []) with
  | ok report' => exact .inl ⟨report', rfl, haccepts.good_of_eq_ok hcheck⟩
  | error failure =>
      cases haccepts.allowed_of_eq_error hcheck with
      | intro reached resolves kind lacks =>
          exact .inr ⟨_, _, _, _, reached, resolves, kind, lacks, rfl⟩

section Ledger

def grades : Registry := .ofList [("grade", .oneOf [.string "a"])]

def delivery : TypeDef := .shape
  [("amount", .builtin .int), ("grade", .oneOf [.string "a", .string "b"]),
    ("remarks", .objectOf (.builtin .float))]

/-- The target wants an amount as text, knows one grade only, insists on remarks and has a field
more. -/
def ledger : TypeDef := .shape
  [("remarks", (TypeDef.objectOf (.builtin .string)).asNotNull), ("grade", .reference "grade"),
    ("amount", .builtin .string), ("owner", (TypeDef.builtin .string).asRequired)]

def sampleDelivery : Json := .object (.ofList
  [("remarks", .null), ("grade", .string "b"), ("amount", .number (.integer 2 (by decide)))])

def bookedDelivery : Json := .object (.ofList
  [("amount", .string "2"), ("grade", .string "b"), ("remarks", .null)])

def ledgerReport : Report where
  valid := false
  violations := [.nullNotAllowed "$.remarks", .notAnOption "$.grade" "\"b\"",
    .missingRequired "$.owner"]

theorem coerce_keeps_form_ledger :
    sampleDelivery.validate 4 ∅ delivery = .ok .success ∧
    sampleDelivery.coerce 4 ∅ grades delivery ledger = .ok bookedDelivery ∧
    bookedDelivery.validate 4 grades ledger = .ok ledgerReport ∧
    ∀ violation ∈ ledgerReport.violations, violation.SparesForm := by
  have validated : sampleDelivery.validate 4 ∅ delivery = .ok .success := by decide +kernel
  have coerced : sampleDelivery.coerce 4 ∅ grades delivery ledger = .ok bookedDelivery := rfl
  have checked : bookedDelivery.validate 4 grades ledger = .ok ledgerReport := by decide +kernel
  refine ⟨validated, coerced, checked, ?_⟩
  rcases coerce_keeps_form 4 ∅ grades delivery ledger sampleDelivery bookedDelivery .success
    validated rfl coerced with ⟨report, hreport, hspares⟩ | ⟨_, _, _, _, -, -, -, -, hinvalid⟩
  · cases checked.symm.trans hreport
    exact hspares
  · cases checked.symm.trans hinvalid

end Ledger

end ValueSchema
