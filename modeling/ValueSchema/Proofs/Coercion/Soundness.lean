import ValueSchema.Proofs.Comparison
import ValueSchema.Proofs.Conformance.Rules
import ValueSchema.Proofs.Coercion.Equations
import ValueSchema.Proofs.Position

/-! # Compatibility makes coercion sound

The tables of kinds are compared first, then one level of the types. The rest follows along the
derivation that the value conforms to the source. -/

namespace ValueSchema

/-! ## The tables of kinds -/

namespace Conversion

/-- Kinds that widen have a conversion, `component` apart. -/
theorem exists_of_widensTo {source target : Builtin} (h : source.widensTo target = true) :
    (∃ conversion, between? source target = some conversion) ∨
      source = .component ∧ target = .component := by
  cases source <;> cases target <;> simp_all [Builtin.widensTo, between?]

theorem isFormal_of_isPlain {source target : Builtin} {conversion : Conversion}
    (h : between? source target = some conversion) (plain : target.isPlain = true) :
    conversion.isFormal = true := by
  cases source <;> cases target <;> cases h <;> first | rfl | cases plain

/-- A conversion turns values of the form of its source into those of its target. -/
theorem admits_onForm {source target : Builtin} {conversion : Conversion} {value : Json}
    (h : between? source target = some conversion) (admits : source.admits value = true) :
    target.admits (conversion.onForm value) = true := by
  cases source <;> cases target <;> cases h <;>
    first
    | exact admits
    | cases value <;> first | rfl | cases admits

theorem between?_arrayOf {target : Builtin} (h : Builtin.arrayOf.widensTo target = true) :
    target.isPlain = true ∨
      target = .arrayOf ∧ between? .arrayOf target = some .eachItem := by
  cases target <;> simp_all [Builtin.widensTo, between?, Builtin.isPlain]

theorem between?_objectOf {target : Builtin} (h : Builtin.objectOf.widensTo target = true) :
    target.isPlain = true ∨
      target = .objectOf ∧ between? .objectOf target = some .eachMember := by
  cases target <;> simp_all [Builtin.widensTo, between?, Builtin.isPlain]

theorem between?_shape {target : Builtin} (h : Builtin.shape.widensTo target = true) :
    target.isPlain = true ∨ target = .shape ∧ between? .shape target = some .eachField := by
  cases target <;> simp_all [Builtin.widensTo, between?, Builtin.isPlain]

theorem between?_of_isNullable {source target : Builtin} (nullable : source.isNullable = true)
    (h : source.widensTo target = true) :
    between? source target = some .unchanged ∨
      target = .objectOf ∧ between? source target = some .eachMember ∨
      target = .shape ∧ between? source target = some .eachField := by
  cases source <;> cases target <;> simp_all [Builtin.widensTo, between?, Builtin.isNullable]

end Conversion

theorem Builtin.isNullable_of_widensTo {source target : Builtin}
    (h : source.widensTo target = true) (nullable : source.isNullable = true) :
    target.isNullable = true := by
  cases source <;> cases target <;> simp_all [widensTo, isNullable]

theorem Builtin.isPlain_of_widensTo {source target : Builtin} (h : source.widensTo target = true)
    (plain : source.isPlain = true) : target.isPlain = true := by
  cases source <;> cases target <;> simp_all [widensTo, isPlain]

/-! ## One level -/

/-- What is to be shown of a coercion. -/
def CoercesInto (limit : Nat) (registry : Registry) (target : TypeDef) :
    Except Failure Json → Prop :=
  Yields (fun result => Conforms limit registry result target)
    (· = .uncoercible .component .component)

/-- The members that a shape coercion puts together make a value of the target. -/
theorem Conforms.of_entries {limit : Nat} {registry : Registry} {target : TypeDef}
    {resolved : Resolved} {parts : TypeDef → TypeDef → Prop} {members : Record Json}
    {fields fields' : Record TypeDef} {entries : List (String × Json)}
    (resolves : target.resolve limit registry = .ok resolved) (kind : resolved.kind = .shape)
    (hfields' : resolved.definition.declaredFields = .ok fields')
    (hfit : FieldsFit flagImplied parts fields fields')
    (required : ∀ (name : String) (field : TypeDef), fields.get? name = some field →
      field.isRequired = true → name ∈ members.names)
    (hentries : List.Forall₂ (fun part entry => entry.1 = part.1 ∧
        Conforms limit registry entry.2 part.2.2.2)
      (Coerce.present members (Coerce.counterparts fields fields')) entries) :
    Conforms limit registry (.object (Record.ofList entries)) target := by
  have hnames : (Coerce.present members (Coerce.counterparts fields fields')).map Prod.fst =
      entries.map Prod.fst :=
    map_eq_map_of_forall₂ hentries fun _ _ h => h.1.symm
  have hlist : (Record.ofList entries).toList = entries :=
    Record.toList_ofList entries (hnames ▸ Coerce.nodup_present members fields fields')
  have hconform : ∀ entry ∈ entries, ∀ field', fields'.get? entry.1 = some field' →
      Conforms limit registry entry.2 field' := by
    refine forall_of_forall₂ hentries ?_
    rintro ⟨name, item, field, field'⟩ entry hpart ⟨hname, hentry⟩ field'' hfield''
    obtain ⟨-, -, hfield'⟩ := Coerce.mem_present_iff.mp hpart
    rw [hname] at hfield''
    cases hfield'.symm.trans hfield''
    exact hentry
  refine .fields resolves kind hfields' ?_ ?_
  · intro name field' item hfield' hitem
    have hmem := Record.get?_eq_some_iff.mp hitem
    rw [hlist] at hmem
    exact hconform (name, item) hmem field' hfield'
  · -- A required field of the target has a required counterpart, so its member was there.
    intro name field' hfield' hrequired
    obtain ⟨field, hfield, himplied, -⟩ := hfit.counterpart_of_target hfield'
    have hname := required name field hfield (flagImplied_iff.mp himplied hrequired)
    obtain ⟨item, hitem⟩ := Record.mem_names_iff.mp hname
    have hpart := Coerce.mem_present_iff.mpr ⟨hitem, hfield, hfield'⟩
    rw [← Record.map_fst_toList, hlist, ← hnames]
    exact List.mem_map_of_mem hpart

section Level

variable {limit : Nat} {sourceRegistry targetRegistry : Registry} {source target : TypeDef}
  {resolvedSource resolvedTarget : Resolved} {parts : TypeDef → TypeDef → Prop}
  (hsource : source.resolve limit sourceRegistry = .ok resolvedSource)
  (htarget : target.resolve limit targetRegistry = .ok resolvedTarget)
  (widens : resolvedSource.kind.widensTo resolvedTarget.kind = true)

include hsource htarget widens

theorem coerce_plain {value : Json} (plain : resolvedTarget.kind.isPlain = true)
    (admits : resolvedSource.kind.admits value = true) :
    CoercesInto limit targetRegistry target
      (value.coerce limit sourceRegistry targetRegistry source target) := by
  cases hconversion : Conversion.between? resolvedSource.kind resolvedTarget.kind with
  | none =>
      rw [Json.coerce_of_none hsource htarget hconversion]
      rcases Conversion.exists_of_widensTo widens with ⟨conversion, hsome⟩ | ⟨hs, ht⟩
      · rw [hconversion] at hsome
        cases hsome
      · rw [hs, ht]
        rfl
  | some conversion =>
      rw [Json.coerce_of_isFormal hsource htarget hconversion
        (Conversion.isFormal_of_isPlain hconversion plain)]
      exact .plain htarget plain (Conversion.admits_onForm hconversion admits)

theorem coerce_null (fits : Fits flagImplied parts resolvedSource resolvedTarget)
    (nullable : resolvedSource.kind.isNullable = true)
    (admitted : resolvedSource.definition.isNotNull = false) :
    CoercesInto limit targetRegistry target
      (Json.null.coerce limit sourceRegistry targetRegistry source target) := by
  have nullable' : resolvedTarget.kind.isNullable = true :=
    Builtin.isNullable_of_widensTo widens nullable
  have admitted' : resolvedTarget.definition.isNotNull = false := by
    have himplied := flagImplied_iff.mp (fits.null_of_isNullable nullable')
    rw [admitted] at himplied
    simpa using himplied
  have hcoerce :
      Json.null.coerce limit sourceRegistry targetRegistry source target = .ok .null := by
    rcases Conversion.between?_of_isNullable nullable widens with
      hconversion | ⟨hkind, hconversion⟩ | ⟨hkind, hconversion⟩
    · exact Json.coerce_of_isFormal hsource htarget hconversion rfl _
    · obtain ⟨element, element', helement, helement', -⟩ :=
        fits.elements_of_elementwise (.inr hkind)
      exact Json.coerce_objectOf_of_not_isObject hsource htarget hconversion helement helement' rfl
    · obtain ⟨fields, fields', hfields, hfields', hfit⟩ := fits.fields_of_shape hkind
      exact Json.coerce_shape_of_not_isObject hsource htarget hconversion hfields hfields'
        hfit.names_subset rfl
  rw [hcoerce]
  exact .null htarget nullable' admitted'

theorem coerce_choice {value : Json} {choices : { choices : List Choice // choices ≠ [] }}
    {choice : Choice} (fits : Fits flagImplied parts resolvedSource resolvedTarget)
    (kind : resolvedSource.kind = .oneOf)
    (hchoices : resolvedSource.definition.choices = .ok choices) (mem : choice ∈ choices.val)
    (equal : choice.value.valueEq value = true)
    (simple : source.SimpleOptions limit sourceRegistry)
    (simple' : target.SimpleOptions limit targetRegistry) :
    CoercesInto limit targetRegistry target
      (value.coerce limit sourceRegistry targetRegistry source target) := by
  have kind' : resolvedTarget.kind = .oneOf := by
    rw [kind] at widens
    revert widens
    cases resolvedTarget.kind <;> decide
  obtain ⟨_, choices', hchoices', htargets, same⟩ := fits.choices_of_oneOf kind'
  cases hchoices.symm.trans hchoices'
  have hsimple := simple [] source resolvedSource choices rfl hsource kind hchoices
  have hsimple' := simple' [] target resolvedTarget choices' rfl htarget kind' htargets
  obtain ⟨choice', mem', equal'⟩ := Choice.exists_valueEq hsimple hsimple' same mem equal
  have hconversion :
      Conversion.between? resolvedSource.kind resolvedTarget.kind = some .unchanged := by
    rw [kind, kind']
    rfl
  rw [Json.coerce_of_isFormal hsource htarget hconversion rfl]
  exact .choice htarget kind' htargets mem' equal'

theorem coerce_items {items : List Json} {element : TypeDef}
    (fits : Fits flagImplied parts resolvedSource resolvedTarget)
    (kind : resolvedSource.kind = .arrayOf)
    (helement : resolvedSource.definition.element = .ok element)
    (each : ∀ item ∈ items, ∀ (step : Step) (element' : TypeDef), parts element element' →
      target.child limit targetRegistry step = .ok element' →
        CoercesInto limit targetRegistry element'
          (item.coerce limit sourceRegistry targetRegistry element element')) :
    CoercesInto limit targetRegistry target
      ((Json.array items).coerce limit sourceRegistry targetRegistry source target) := by
  rcases Conversion.between?_arrayOf (kind ▸ widens) with plain | ⟨kind', hconversion⟩
  · exact coerce_plain hsource htarget widens plain (kind ▸ rfl)
  rw [← kind] at hconversion
  obtain ⟨_, element', hsame, helement', hparts⟩ := fits.elements_of_elementwise (.inl kind')
  cases helement.symm.trans hsame
  have hchild := TypeDef.child_arrayOf htarget kind' helement' 0
  rw [Json.coerce_array hsource htarget hconversion helement helement']
  refine Yields.map (Yields.mapM fun item hitem => each item hitem _ _ hparts hchild) ?_
  intro results hresults
  exact .items htarget kind' helement' (forall_of_forall₂ hresults fun _ _ _ h => h)

theorem coerce_members {members : Record Json} {element : TypeDef}
    (fits : Fits flagImplied parts resolvedSource resolvedTarget)
    (kind : resolvedSource.kind = .objectOf)
    (helement : resolvedSource.definition.element = .ok element)
    (each : ∀ entry ∈ members.toList, ∀ (step : Step) (element' : TypeDef),
      parts element element' → target.child limit targetRegistry step = .ok element' →
        CoercesInto limit targetRegistry element'
          (entry.2.coerce limit sourceRegistry targetRegistry element element')) :
    CoercesInto limit targetRegistry target
      ((Json.object members).coerce limit sourceRegistry targetRegistry source target) := by
  rcases Conversion.between?_objectOf (kind ▸ widens) with plain | ⟨kind', hconversion⟩
  · exact coerce_plain hsource htarget widens plain (kind ▸ rfl)
  rw [← kind] at hconversion
  obtain ⟨_, element', hsame, helement', hparts⟩ := fits.elements_of_elementwise (.inr kind')
  cases helement.symm.trans hsame
  have hchild := TypeDef.child_objectOf htarget kind' helement' ""
  rw [Json.coerce_objectOf hsource htarget hconversion helement helement']
  have hmembers : Yields
      (members.Related fun _ result => Conforms limit targetRegistry result element')
      (· = .uncoercible .component .component)
      (members.mapM fun item => item.coerce limit sourceRegistry targetRegistry element element') :=
    Record.yields_mapM fun entry hentry => each entry hentry _ _ hparts hchild
  refine hmembers.map fun results hresults => ?_
  exact .members htarget kind' helement' (forall_of_forall₂ hresults fun _ _ _ h => h.2)

theorem coerce_fields {members : Record Json} {fields : Record TypeDef}
    (fits : Fits flagImplied parts resolvedSource resolvedTarget)
    (kind : resolvedSource.kind = .shape)
    (hfields : resolvedSource.definition.declaredFields = .ok fields)
    (required : ∀ (name : String) (field : TypeDef), fields.get? name = some field →
      field.isRequired = true → name ∈ members.names)
    (each : ∀ (name : String) (field : TypeDef) (item : Json), fields.get? name = some field →
      members.get? name = some item → ∀ (step : Step) (field' : TypeDef), parts field field' →
        target.child limit targetRegistry step = .ok field' →
          CoercesInto limit targetRegistry field'
            (item.coerce limit sourceRegistry targetRegistry field field')) :
    CoercesInto limit targetRegistry target
      ((Json.object members).coerce limit sourceRegistry targetRegistry source target) := by
  rcases Conversion.between?_shape (kind ▸ widens) with plain | ⟨kind', hconversion⟩
  · exact coerce_plain hsource htarget widens plain (kind ▸ rfl)
  rw [← kind] at hconversion
  obtain ⟨_, fields', hsame, hfields', hfit⟩ := fits.fields_of_shape kind'
  cases hfields.symm.trans hsame
  rw [Json.coerce_shape hsource htarget hconversion hfields hfields' hfit.names_subset]
  have hentries : Yields
      (List.Forall₂ (fun part entry => entry.1 = part.1 ∧
        Conforms limit targetRegistry entry.2 part.2.2.2)
        (Coerce.present members (Coerce.counterparts fields fields')))
      (· = .uncoercible .component .component)
      ((Coerce.present members (Coerce.counterparts fields fields')).mapM
        (Coerce.entry (Json.coerce limit sourceRegistry targetRegistry))) := by
    refine Yields.mapM ?_
    rintro ⟨name, item, field, field'⟩ hpart
    obtain ⟨hitem, hfield, hfield'⟩ := Coerce.mem_present_iff.mp hpart
    obtain ⟨_, hfield'', -, hparts⟩ := hfit.counterpart name field hfield
    cases hfield'.symm.trans hfield''
    have hchild := TypeDef.child_shape htarget kind' hfields' hfield'
    refine Yields.map (each name field item hfield hitem _ _ hparts hchild) fun result hresult => ?_
    exact ⟨rfl, hresult⟩
  refine hentries.map fun entries hentries => ?_
  exact .of_entries htarget kind' hfields' hfit required hentries

end Level

/-! ## Along the value -/

theorem Conforms.coerce {limit : Nat} {sourceRegistry targetRegistry : Registry} {value : Json}
    {source target : TypeDef} {depth : Nat} (conforms : Conforms limit sourceRegistry value source)
    (compatible : TypeDef.compatibleWithin limit sourceRegistry targetRegistry depth source target =
      .ok true)
    (simple : source.SimpleOptions limit sourceRegistry)
    (simple' : target.SimpleOptions limit targetRegistry) :
    CoercesInto limit targetRegistry target
      (value.coerce limit sourceRegistry targetRegistry source target) := by
  -- The derivation follows the source, so the target and the depth go down with it.
  induction conforms generalizing target depth with
  | null resolves nullable admitted =>
      obtain ⟨resolvedTarget, rest, htarget, widens, fits⟩ :=
        fits_of_compatibleWithin resolves compatible
      exact coerce_null resolves htarget widens fits nullable admitted
  | choice resolves kind hchoices mem equal =>
      obtain ⟨resolvedTarget, rest, htarget, widens, fits⟩ :=
        fits_of_compatibleWithin resolves compatible
      exact coerce_choice resolves htarget widens fits kind hchoices mem equal simple simple'
  | plain resolves plain admits =>
      obtain ⟨resolvedTarget, rest, htarget, widens, fits⟩ :=
        fits_of_compatibleWithin resolves compatible
      exact coerce_plain resolves htarget widens (Builtin.isPlain_of_widensTo widens plain) admits
  | items resolves kind helement each ih =>
      obtain ⟨resolvedTarget, rest, htarget, widens, fits⟩ :=
        fits_of_compatibleWithin resolves compatible
      have hsimple := simple.child (TypeDef.child_arrayOf resolves kind helement 0)
      refine coerce_items resolves htarget widens fits kind helement ?_
      intro item hitem step element' hparts hchild
      exact ih item hitem hparts hsimple (simple'.child hchild)
  | members resolves kind helement each ih =>
      obtain ⟨resolvedTarget, rest, htarget, widens, fits⟩ :=
        fits_of_compatibleWithin resolves compatible
      have hsimple := simple.child (TypeDef.child_objectOf resolves kind helement "")
      refine coerce_members resolves htarget widens fits kind helement ?_
      intro entry hentry step element' hparts hchild
      exact ih entry hentry hparts hsimple (simple'.child hchild)
  | fields resolves kind hdeclared present required ih =>
      obtain ⟨resolvedTarget, rest, htarget, widens, fits⟩ :=
        fits_of_compatibleWithin resolves compatible
      refine coerce_fields resolves htarget widens fits kind hdeclared required ?_
      intro name field item hfield hitem step field' hparts hchild
      have hsimple := simple.child (TypeDef.child_shape resolves kind hdeclared hfield)
      exact ih name field item hfield hitem hparts hsimple (simple'.child hchild)

/-- A value of a source type is coerced to a value of each target type that the source is
compatible with, unless it meets the kind `component`. -/
theorem coerce_of_compatible (limit : Nat) (sourceRegistry targetRegistry : Registry)
    (source target : TypeDef) (value : Json) (report : Report)
    (compatible :
      TypeDef.compatible limit sourceRegistry targetRegistry source target = .ok true)
    (validated : value.validate limit sourceRegistry source = .ok report)
    (valid : report.valid = true)
    (simple : source.SimpleOptions limit sourceRegistry)
    (simple' : target.SimpleOptions limit targetRegistry) :
    (∃ result report', value.coerce limit sourceRegistry targetRegistry source target = .ok result ∧
        result.validate limit targetRegistry target = .ok report' ∧ report'.valid = true) ∨
      value.coerce limit sourceRegistry targetRegistry source target =
        .error (.uncoercible .component .component) := by
  have conforms : Conforms limit sourceRegistry value source :=
    passes_check_iff.mp ⟨report, validated, valid⟩
  have hcoerce := conforms.coerce compatible simple simple'
  cases hresult : value.coerce limit sourceRegistry targetRegistry source target with
  | error failure =>
      rw [hresult] at hcoerce
      exact .inr (congrArg _ hcoerce)
  | ok result =>
      rw [hresult] at hcoerce
      obtain ⟨report', hreport', hvalid'⟩ :
          Passes (result.check limit targetRegistry target (pathText [])) :=
        passes_check_iff.mpr hcoerce
      exact .inl ⟨result, report', rfl, hreport', hvalid'⟩

section Order

def sizes : Registry := .ofList [("size", .oneOf [.string "s", .string "l"])]

/-- The source refers to its options; a note is optional. -/
def order : TypeDef := .shape
  [("size", (TypeDef.reference "size").asRequired), ("count", (TypeDef.builtin .int).asRequired),
    ("notes", .objectOf (.builtin .float))]

/-- The target has the fields and the options in another order and wants the count as text. -/
def orderForm : TypeDef := .shape
  [("notes", .builtin .object), ("count", (TypeDef.builtin .string).asRequired),
    ("size", .oneOf [.string "l", .string "s", .string "l"])]

def sampleOrder : Json := .object (.ofList
  [("count", .number (.integer 3 (by decide))), ("size", .string "s"), ("notes", .null)])

theorem simpleOptions_order : order.SimpleOptions 3 sizes := by
  have hsize : (TypeDef.reference "size").asRequired.SimpleOptions 3 sizes :=
    .of_parts rfl (by decide) (by simp [Resolved.parts])
  have hcount : (TypeDef.builtin .int).asRequired.SimpleOptions 3 sizes :=
    .of_parts rfl (by decide) (by simp [Resolved.parts])
  have hnote : (TypeDef.builtin .float).SimpleOptions 3 sizes :=
    .of_parts rfl (by decide) (by simp [Resolved.parts])
  have hnotes : (TypeDef.objectOf (.builtin .float)).SimpleOptions 3 sizes :=
    .of_parts rfl (by decide) (List.forall_mem_singleton.mpr hnote)
  refine .of_parts rfl (by decide) (List.forall_mem_cons.mpr ⟨hsize, ?_⟩)
  exact List.forall_mem_cons.mpr ⟨hcount, List.forall_mem_singleton.mpr hnotes⟩

theorem simpleOptions_orderForm : orderForm.SimpleOptions 3 ∅ := by
  have hnotes : (TypeDef.builtin .object).SimpleOptions 3 ∅ :=
    .of_parts rfl (by decide) (by simp [Resolved.parts])
  have hcount : (TypeDef.builtin .string).asRequired.SimpleOptions 3 ∅ :=
    .of_parts rfl (by decide) (by simp [Resolved.parts])
  have hsize : (TypeDef.oneOf [.string "l", .string "s", .string "l"]).SimpleOptions 3 ∅ :=
    .of_parts rfl (by decide) (by simp [Resolved.parts])
  refine .of_parts rfl (by decide) (List.forall_mem_cons.mpr ⟨hnotes, ?_⟩)
  exact List.forall_mem_cons.mpr ⟨hcount, List.forall_mem_singleton.mpr hsize⟩

def coercedOrder : Json := .object (.ofList
  [("size", .string "s"), ("count", .string "3"), ("notes", .null)])

theorem coerce_of_compatible_order :
    TypeDef.compatible 3 sizes ∅ order orderForm = .ok true ∧
    sampleOrder.validate 3 sizes order = .ok .success ∧
    sampleOrder.coerce 3 sizes ∅ order orderForm = .ok coercedOrder ∧
    ∃ report, coercedOrder.validate 3 ∅ orderForm = .ok report ∧ report.valid = true := by
  have compatible : TypeDef.compatible 3 sizes ∅ order orderForm = .ok true := by decide +kernel
  have validated : sampleOrder.validate 3 sizes order = .ok .success := by decide +kernel
  have coerced : sampleOrder.coerce 3 sizes ∅ order orderForm = .ok coercedOrder := rfl
  refine ⟨compatible, validated, coerced, ?_⟩
  rcases coerce_of_compatible 3 sizes ∅ order orderForm sampleOrder .success compatible validated
    rfl simpleOptions_order simpleOptions_orderForm with ⟨result, report, hresult, hreport⟩ | herror
  · cases coerced.symm.trans hresult
    exact ⟨report, hreport⟩
  · cases coerced.symm.trans herror

end Order

end ValueSchema
