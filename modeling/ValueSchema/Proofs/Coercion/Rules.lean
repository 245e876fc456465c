import ValueSchema.Proofs.Coercion.Equations
import ValueSchema.Proofs.Position

/-! # Rules of coercion

The rules leave the parts of a value to a relation, so one level is read off at a time. -/

namespace ValueSchema

/-! ## Members of a shape -/

namespace Coerce

/-- The members that a shape coercion takes over, in the order of the source. -/
theorem map_fst_present {fields fields' : Record TypeDef} (h : fields.names ⊆ fields'.names)
    (members : Record Json) :
    (present members (counterparts fields fields')).map Prod.fst =
      fields.names.filter fun name => decide (name ∈ members.names) := by
  rw [← fields.map_fst_toList] at h ⊢
  unfold present counterparts
  generalize fields.toList = entries at h ⊢
  induction entries with
  | nil => rfl
  | cons entry entries ih =>
      rw [List.map_cons, List.cons_subset] at h
      have hrest := ih h.2
      obtain ⟨field', hfield'⟩ := Record.mem_names_iff.mp h.1
      cases hitem : members.get? entry.1 with
      | none =>
          have habsent := Record.get?_eq_none_iff.mp hitem
          simp [hfield', hitem, habsent, hrest]
      | some item =>
          have hpresent : entry.1 ∈ members.names := Record.mem_names_iff.mpr ⟨item, hitem⟩
          simp [hfield', hitem, hpresent, hrest]

theorem entry_eq_ok_iff {coerce : Json → Coerce} {part : String × Json × TypeDef × TypeDef}
    {result : String × Json} :
    entry coerce part = .ok result ↔
      part.1 = result.1 ∧ coerce part.2.1 part.2.2.1 part.2.2.2 = .ok result.2 := by
  unfold entry
  cases coerce part.2.1 part.2.2.1 part.2.2.2 <;> simp [Prod.ext_iff]

end Coerce

/-- The members of a coerced shape: those that the source declares and the value has. -/
structure FieldsConvert (parts : TypeDef → TypeDef → Json → Json → Prop)
    (fields fields' : Record TypeDef) (members results : Record Json) : Prop where
  names_subset : fields.names ⊆ fields'.names
  names_eq : results.names = fields.names.filter fun name => decide (name ∈ members.names)
  each : ∀ (name : String) (field field' : TypeDef) (item result : Json),
    fields.get? name = some field → fields'.get? name = some field' →
      members.get? name = some item → results.get? name = some result →
        parts field field' item result

namespace FieldsConvert

variable {coerce : Json → Coerce} {fields fields' : Record TypeDef} {members results : Record Json}

theorem mem_names_iff {parts : TypeDef → TypeDef → Json → Json → Prop}
    (h : FieldsConvert parts fields fields' members results) {name : String} :
    name ∈ results.names ↔ name ∈ fields.names ∧ name ∈ members.names := by
  simp [h.names_eq]

theorem of_entries {entries : List (String × Json)} (hnames : fields.names ⊆ fields'.names)
    (h : (Coerce.present members (Coerce.counterparts fields fields')).mapM (Coerce.entry coerce) =
      .ok entries) :
    FieldsConvert (fun source target value result => coerce value source target = .ok result)
      fields fields' members (Record.ofList entries) := by
  have hentries := mapM_eq_ok_iff.mp h
  simp only [Coerce.entry_eq_ok_iff] at hentries
  have hfst : (Coerce.present members (Coerce.counterparts fields fields')).map Prod.fst =
      entries.map Prod.fst :=
    map_eq_map_of_forall₂ hentries fun _ _ hentry => hentry.1
  have hlist : (Record.ofList entries).toList = entries :=
    Record.toList_ofList entries (hfst ▸ Coerce.nodup_present members fields fields')
  refine ⟨hnames, ?_, ?_⟩
  · rw [← Record.map_fst_toList, hlist, ← hfst, Coerce.map_fst_present hnames]
  · intro name field field' item result hfield hfield' hitem hresult
    have hmem := Record.get?_eq_some_iff.mp hresult
    rw [hlist] at hmem
    -- The part that a result comes from is the only one of its name.
    have hsource : ∀ entry ∈ entries, entry.1 = name →
        coerce item field field' = .ok entry.2 := by
      refine forall_of_forall₂ hentries ?_
      rintro ⟨name', item', source, target⟩ entry hpart ⟨hname, hcoerce⟩ hentry
      obtain rfl : name' = name := hname.trans hentry
      obtain ⟨hitem', hsource, htarget⟩ := Coerce.mem_present_iff.mp hpart
      cases hitem.symm.trans hitem'
      cases hfield.symm.trans hsource
      cases hfield'.symm.trans htarget
      exact hcoerce
    exact hsource (name, result) hmem rfl

theorem entries
    (h : FieldsConvert (fun source target value result => coerce value source target = .ok result)
      fields fields' members results) :
    (Coerce.present members (Coerce.counterparts fields fields')).mapM (Coerce.entry coerce) =
      .ok results.toList := by
  have hfst : (Coerce.present members (Coerce.counterparts fields fields')).map Prod.fst =
      results.toList.map Prod.fst := by
    rw [Coerce.map_fst_present h.names_subset, Record.map_fst_toList, h.names_eq]
  rw [mapM_eq_ok_iff]
  simp only [Coerce.entry_eq_ok_iff]
  refine forall₂_of_map_eq hfst ?_
  rintro ⟨name, item, field, field'⟩ hpart ⟨_, result⟩ hresult rfl
  obtain ⟨hitem, hfield, hfield'⟩ := Coerce.mem_present_iff.mp hpart
  have hget := Record.get?_eq_some_iff.mpr hresult
  exact ⟨rfl, h.each name field field' item result hfield hfield' hitem hget⟩

end FieldsConvert

/-! ## Results -/

/-- How a value is turned into another between two resolved definitions. -/
inductive Converts (parts : TypeDef → TypeDef → Json → Json → Prop) (source target : Resolved) :
    Json → Json → Prop
  | formal {conversion : Conversion} {value : Json}
      (h : Conversion.between? source.kind target.kind = some conversion)
      (formal : conversion.isFormal = true) :
      Converts parts source target value (conversion.onForm value)
  | items {items results : List Json} {element element' : TypeDef}
      (kind : source.kind = .arrayOf) (kind' : target.kind = .arrayOf)
      (helement : source.definition.element = .ok element)
      (helement' : target.definition.element = .ok element')
      (each : List.Forall₂ (parts element element') items results) :
      Converts parts source target (.array items) (.array results)
  | notItems {value : Json} {element element' : TypeDef}
      (kind : source.kind = .arrayOf) (kind' : target.kind = .arrayOf)
      (helement : source.definition.element = .ok element)
      (helement' : target.definition.element = .ok element')
      (other : value.isArray = false) : Converts parts source target value value
  | members {members results : Record Json} {element element' : TypeDef}
      (kind : source.kind = .objectOf) (kind' : target.kind = .objectOf)
      (helement : source.definition.element = .ok element)
      (helement' : target.definition.element = .ok element')
      (each : members.Related (parts element element') results) :
      Converts parts source target (.object members) (.object results)
  | notMembers {value : Json} {element element' : TypeDef}
      (kind : source.kind = .objectOf) (kind' : target.kind = .objectOf)
      (helement : source.definition.element = .ok element)
      (helement' : target.definition.element = .ok element')
      (other : value.isObject = false) : Converts parts source target value value
  | fields {members results : Record Json} {fields fields' : Record TypeDef}
      (kind : source.kind = .shape) (kind' : target.kind = .shape)
      (hfields : source.definition.declaredFields = .ok fields)
      (hfields' : target.definition.declaredFields = .ok fields')
      (convert : FieldsConvert parts fields fields' members results) :
      Converts parts source target (.object members) (.object results)
  | notFields {value : Json} {fields fields' : Record TypeDef}
      (kind : source.kind = .shape) (kind' : target.kind = .shape)
      (hfields : source.definition.declaredFields = .ok fields)
      (hfields' : target.definition.declaredFields = .ok fields')
      (names : fields.names ⊆ fields'.names) (other : value.isObject = false) :
      Converts parts source target value value

section Results

variable {limit : Nat} {sourceRegistry targetRegistry : Registry} {source target : TypeDef}
  {resolvedSource resolvedTarget : Resolved} {value result : Json}
  (hsource : source.resolve limit sourceRegistry = .ok resolvedSource)
  (htarget : target.resolve limit targetRegistry = .ok resolvedTarget)

include hsource htarget

theorem Converts.of_eachItem
    (hconversion : Conversion.between? resolvedSource.kind resolvedTarget.kind = some .eachItem)
    (h : value.coerce limit sourceRegistry targetRegistry source target = .ok result) :
    Converts (fun source target value result =>
        value.coerce limit sourceRegistry targetRegistry source target = .ok result)
      resolvedSource resolvedTarget value result := by
  obtain ⟨kind, kind'⟩ := Conversion.kinds_of_eachItem hconversion
  rw [Json.coerce_eachItem hsource htarget hconversion] at h
  simp only [bind_eq_ok_iff] at h
  obtain ⟨element, helement, element', helement', h⟩ := h
  cases value with
  | array items =>
      obtain ⟨results, hresults, rfl⟩ := map_eq_ok_iff.mp h
      exact .items kind kind' helement helement' (mapM_eq_ok_iff.mp hresults)
  | _ =>
      cases h
      exact .notItems kind kind' helement helement' rfl

theorem Converts.of_eachMember
    (hconversion : Conversion.between? resolvedSource.kind resolvedTarget.kind = some .eachMember)
    (h : value.coerce limit sourceRegistry targetRegistry source target = .ok result) :
    Converts (fun source target value result =>
        value.coerce limit sourceRegistry targetRegistry source target = .ok result)
      resolvedSource resolvedTarget value result := by
  obtain ⟨kind, kind'⟩ := Conversion.kinds_of_eachMember hconversion
  rw [Json.coerce_eachMember hsource htarget hconversion] at h
  simp only [bind_eq_ok_iff] at h
  obtain ⟨element, helement, element', helement', h⟩ := h
  cases value with
  | object members =>
      obtain ⟨results, hresults, rfl⟩ := map_eq_ok_iff.mp h
      exact .members kind kind' helement helement' (Record.mapM_eq_ok_iff.mp hresults)
  | _ =>
      cases h
      exact .notMembers kind kind' helement helement' rfl

theorem Converts.of_eachField
    (hconversion : Conversion.between? resolvedSource.kind resolvedTarget.kind = some .eachField)
    (h : value.coerce limit sourceRegistry targetRegistry source target = .ok result) :
    Converts (fun source target value result =>
        value.coerce limit sourceRegistry targetRegistry source target = .ok result)
      resolvedSource resolvedTarget value result := by
  obtain ⟨kind, kind'⟩ := Conversion.kinds_of_eachField hconversion
  rw [Json.coerce_eachField hsource htarget hconversion] at h
  simp only [bind_eq_ok_iff] at h
  obtain ⟨fields, hfields, fields', hfields', pairs, hpairs, h⟩ := h
  obtain ⟨hnames, rfl⟩ := Coerce.pairFields_eq_ok_iff.mp hpairs
  cases value with
  | object members =>
      obtain ⟨entries, hentries, rfl⟩ := map_eq_ok_iff.mp h
      exact .fields kind kind' hfields hfields' (.of_entries hnames hentries)
  | _ =>
      cases h
      exact .notFields kind kind' hfields hfields' hnames rfl

theorem Converts.of_coerce
    (h : value.coerce limit sourceRegistry targetRegistry source target = .ok result) :
    Converts (fun source target value result =>
        value.coerce limit sourceRegistry targetRegistry source target = .ok result)
      resolvedSource resolvedTarget value result := by
  cases hconversion : Conversion.between? resolvedSource.kind resolvedTarget.kind with
  | none =>
      rw [Json.coerce_of_none hsource htarget hconversion] at h
      cases h
  | some conversion =>
      cases conversion with
      | unchanged | numberToText | textToTruth | numberToTruth =>
          rw [Json.coerce_of_isFormal hsource htarget hconversion rfl] at h
          cases h
          exact .formal hconversion rfl
      | eachItem => exact .of_eachItem hsource htarget hconversion h
      | eachMember => exact .of_eachMember hsource htarget hconversion h
      | eachField => exact .of_eachField hsource htarget hconversion h

theorem Converts.coerce
    (h : Converts (fun source target value result =>
        value.coerce limit sourceRegistry targetRegistry source target = .ok result)
      resolvedSource resolvedTarget value result) :
    value.coerce limit sourceRegistry targetRegistry source target = .ok result := by
  cases h with
  | formal hconversion formal => exact Json.coerce_of_isFormal hsource htarget hconversion formal _
  | items kind kind' helement helement' each =>
      rw [Json.coerce_array hsource htarget (by rw [kind, kind']; rfl) helement helement',
        mapM_eq_ok_iff.mpr each, Except.map_ok]
  | notItems kind kind' helement helement' other =>
      exact Json.coerce_array_of_not_isArray hsource htarget (by rw [kind, kind']; rfl) helement
        helement' other
  | members kind kind' helement helement' each =>
      rw [Json.coerce_objectOf hsource htarget (by rw [kind, kind']; rfl) helement helement',
        Record.mapM_eq_ok_iff.mpr each, Except.map_ok]
  | notMembers kind kind' helement helement' other =>
      exact Json.coerce_objectOf_of_not_isObject hsource htarget (by rw [kind, kind']; rfl) helement
        helement' other
  | fields kind kind' hfields hfields' convert =>
      rw [Json.coerce_shape hsource htarget (by rw [kind, kind']; rfl) hfields hfields'
        convert.names_subset, convert.entries, Except.map_ok, Record.ofList_toList]
  | notFields kind kind' hfields hfields' names other =>
      exact Json.coerce_shape_of_not_isObject hsource htarget (by rw [kind, kind']; rfl) hfields
        hfields' names other

end Results

/-- A coercion returns a value exactly if both definitions resolve and a rule applies. -/
theorem coerce_eq_ok_iff {limit : Nat} {sourceRegistry targetRegistry : Registry}
    {source target : TypeDef} {value result : Json} :
    value.coerce limit sourceRegistry targetRegistry source target = .ok result ↔
      ∃ resolvedSource resolvedTarget,
        source.resolve limit sourceRegistry = .ok resolvedSource ∧
        target.resolve limit targetRegistry = .ok resolvedTarget ∧
        Converts (fun source target value result =>
            value.coerce limit sourceRegistry targetRegistry source target = .ok result)
          resolvedSource resolvedTarget value result := by
  constructor
  · intro h
    have hresolves := h
    rw [Json.coerce_eq, Coerce.ofValue] at hresolves
    obtain ⟨resolvedSource, hsource, hresolves⟩ := bind_eq_ok_iff.mp hresolves
    obtain ⟨resolvedTarget, htarget, -⟩ := bind_eq_ok_iff.mp hresolves
    exact ⟨resolvedSource, resolvedTarget, hsource, htarget, .of_coerce hsource htarget h⟩
  · rintro ⟨resolvedSource, resolvedTarget, hsource, htarget, h⟩
    exact h.coerce hsource htarget

/-! ## Failures -/

/-- Why the coercion of a value fails. -/
inductive CoercionFails (limit : Nat) (sourceRegistry targetRegistry : Registry) :
    TypeDef → TypeDef → Json → Failure → Prop
  | source {source target : TypeDef} {value : Json} {failure : Failure}
      (h : source.resolve limit sourceRegistry = .error failure) :
      CoercionFails limit sourceRegistry targetRegistry source target value failure
  | target {source target : TypeDef} {value : Json} {failure : Failure}
      (h : target.resolve limit targetRegistry = .error failure) :
      CoercionFails limit sourceRegistry targetRegistry source target value failure
  | kinds {source target : TypeDef} {resolvedSource resolvedTarget : Resolved} {value : Json}
      (hsource : source.resolve limit sourceRegistry = .ok resolvedSource)
      (htarget : target.resolve limit targetRegistry = .ok resolvedTarget)
      (h : Conversion.between? resolvedSource.kind resolvedTarget.kind = none) :
      CoercionFails limit sourceRegistry targetRegistry source target value
        (.uncoercible resolvedSource.kind resolvedTarget.kind)
  | lacksSource {source target : TypeDef} {resolvedSource : Resolved} {value : Json}
      {failure : Failure} (hsource : source.resolve limit sourceRegistry = .ok resolvedSource)
      (h : resolvedSource.Lacks failure) :
      CoercionFails limit sourceRegistry targetRegistry source target value failure
  | lacksTarget {source target : TypeDef} {resolvedTarget : Resolved} {value : Json}
      {failure : Failure} (htarget : target.resolve limit targetRegistry = .ok resolvedTarget)
      (h : resolvedTarget.Lacks failure) :
      CoercionFails limit sourceRegistry targetRegistry source target value failure
  | undeclared {source target : TypeDef} {resolvedSource resolvedTarget : Resolved} {value : Json}
      {fields fields' : Record TypeDef} {name : String}
      (hsource : source.resolve limit sourceRegistry = .ok resolvedSource)
      (htarget : target.resolve limit targetRegistry = .ok resolvedTarget)
      (hfields : resolvedSource.definition.declaredFields = .ok fields)
      (hfields' : resolvedTarget.definition.declaredFields = .ok fields')
      (declared : name ∈ fields.names) (missing : name ∉ fields'.names) :
      CoercionFails limit sourceRegistry targetRegistry source target value
        (.missingTargetField name)
  | part {source target part part' : TypeDef} {value child : Json} {step : Step}
      {failure : Failure} (hchild : value.child? step = some child)
      (hpart : source.child limit sourceRegistry step = .ok part)
      (hpart' : target.child limit targetRegistry step = .ok part')
      (fails : CoercionFails limit sourceRegistry targetRegistry part part' child failure) :
      CoercionFails limit sourceRegistry targetRegistry source target value failure

theorem Coerce.exists_of_pairFields_eq_error {sources targets : Record TypeDef} {failure : Failure}
    (h : pairFields sources targets = .error failure) :
    ∃ name ∈ sources.names, name ∉ targets.names ∧ failure = .missingTargetField name := by
  obtain ⟨⟨name, source⟩, hmem, hfailure⟩ := exists_of_mapM_eq_error h
  have hname : name ∈ sources.names :=
    Record.mem_names_iff.mpr ⟨source, Record.get?_eq_some_iff.mpr hmem⟩
  cases htarget : targets.get? name with
  | none =>
      simp only [htarget, throw_eq_error, Except.error.injEq] at hfailure
      exact ⟨name, hname, Record.get?_eq_none_iff.mp htarget, hfailure.symm⟩
  | some target => simp [htarget, pure_eq_ok] at hfailure

section Failures

variable {limit : Nat} {sourceRegistry targetRegistry : Registry} {source target : TypeDef}
  {resolvedSource resolvedTarget : Resolved} {value : Json} {failure : Failure}
  (hsource : source.resolve limit sourceRegistry = .ok resolvedSource)
  (htarget : target.resolve limit targetRegistry = .ok resolvedTarget)
  (ih : ∀ (step : Step) (child : Json), value.child? step = some child →
    ∀ {source target : TypeDef}, child.coerce limit sourceRegistry targetRegistry source target =
      .error failure →
        CoercionFails limit sourceRegistry targetRegistry source target child failure)

include hsource htarget ih

theorem CoercionFails.of_eachItem
    (hconversion : Conversion.between? resolvedSource.kind resolvedTarget.kind = some .eachItem)
    (h : value.coerce limit sourceRegistry targetRegistry source target = .error failure) :
    CoercionFails limit sourceRegistry targetRegistry source target value failure := by
  obtain ⟨kind, kind'⟩ := Conversion.kinds_of_eachItem hconversion
  rw [Json.coerce_eachItem hsource htarget hconversion, bind_eq_error_iff] at h
  rcases h with hlacks | ⟨element, helement, h⟩
  · exact .lacksSource hsource (Resolved.lacks_of_element (.inl kind) hlacks)
  rcases bind_eq_error_iff.mp h with hlacks | ⟨element', helement', h⟩
  · exact .lacksTarget htarget (Resolved.lacks_of_element (.inl kind') hlacks)
  cases value with
  | array items =>
      obtain ⟨item, hitem, hfails⟩ := exists_of_mapM_eq_error (map_eq_error_iff.mp h)
      obtain ⟨position, hposition⟩ := List.mem_iff_getElem?.mp hitem
      have hchild : (Json.array items).child? (.index position) = some item := hposition
      exact .part hchild (TypeDef.child_arrayOf hsource kind helement position)
        (TypeDef.child_arrayOf htarget kind' helement' position) (ih _ item hchild hfails)
  | _ => cases h

theorem CoercionFails.of_eachMember
    (hconversion : Conversion.between? resolvedSource.kind resolvedTarget.kind = some .eachMember)
    (h : value.coerce limit sourceRegistry targetRegistry source target = .error failure) :
    CoercionFails limit sourceRegistry targetRegistry source target value failure := by
  obtain ⟨kind, kind'⟩ := Conversion.kinds_of_eachMember hconversion
  rw [Json.coerce_eachMember hsource htarget hconversion, bind_eq_error_iff] at h
  rcases h with hlacks | ⟨element, helement, h⟩
  · exact .lacksSource hsource (Resolved.lacks_of_element (.inr kind) hlacks)
  rcases bind_eq_error_iff.mp h with hlacks | ⟨element', helement', h⟩
  · exact .lacksTarget htarget (Resolved.lacks_of_element (.inr kind') hlacks)
  cases value with
  | object members =>
      obtain ⟨⟨name, item⟩, hitem, hfails⟩ :=
        Record.exists_of_mapM_eq_error (map_eq_error_iff.mp h)
      have hchild : (Json.object members).child? (.key name) = some item :=
        Record.get?_eq_some_iff.mpr hitem
      exact .part hchild (TypeDef.child_objectOf hsource kind helement name)
        (TypeDef.child_objectOf htarget kind' helement' name) (ih _ item hchild hfails)
  | _ => cases h

theorem CoercionFails.of_eachField
    (hconversion : Conversion.between? resolvedSource.kind resolvedTarget.kind = some .eachField)
    (h : value.coerce limit sourceRegistry targetRegistry source target = .error failure) :
    CoercionFails limit sourceRegistry targetRegistry source target value failure := by
  obtain ⟨kind, kind'⟩ := Conversion.kinds_of_eachField hconversion
  rw [Json.coerce_eachField hsource htarget hconversion, bind_eq_error_iff] at h
  rcases h with hlacks | ⟨fields, hfields, h⟩
  · exact .lacksSource hsource (Resolved.lacks_of_declaredFields kind hlacks)
  rcases bind_eq_error_iff.mp h with hlacks | ⟨fields', hfields', h⟩
  · exact .lacksTarget htarget (Resolved.lacks_of_declaredFields kind' hlacks)
  rcases bind_eq_error_iff.mp h with hpairs | ⟨pairs, hpairs, h⟩
  · obtain ⟨name, hname, hmissing, rfl⟩ := Coerce.exists_of_pairFields_eq_error hpairs
    exact .undeclared hsource htarget hfields hfields' hname hmissing
  obtain ⟨-, rfl⟩ := Coerce.pairFields_eq_ok_iff.mp hpairs
  cases value with
  | object members =>
      obtain ⟨⟨name, item, field, field'⟩, hpart, hfails⟩ :=
        exists_of_mapM_eq_error (map_eq_error_iff.mp h)
      obtain ⟨hitem, hfield, hfield'⟩ := Coerce.mem_present_iff.mp hpart
      have hchild : (Json.object members).child? (.key name) = some item := hitem
      exact .part hchild (TypeDef.child_shape hsource kind hfields hfield)
        (TypeDef.child_shape htarget kind' hfields' hfield')
        (ih _ item hchild (map_eq_error_iff.mp hfails))
  | _ => cases h

end Failures

/-- A coercion that fails has a reason. -/
theorem CoercionFails.of_coerce {limit : Nat} {sourceRegistry targetRegistry : Registry}
    {source target : TypeDef} {value : Json} {failure : Failure}
    (h : value.coerce limit sourceRegistry targetRegistry source target = .error failure) :
    CoercionFails limit sourceRegistry targetRegistry source target value failure := by
  induction value using Json.child_induction generalizing source target with
  | value value ih =>
      have hresolves := h
      rw [Json.coerce_eq, Coerce.ofValue, bind_eq_error_iff] at hresolves
      rcases hresolves with hfails | ⟨resolvedSource, hsource, hresolves⟩
      · exact .source hfails
      rcases bind_eq_error_iff.mp hresolves with hfails | ⟨resolvedTarget, htarget, -⟩
      · exact .target hfails
      cases hconversion : Conversion.between? resolvedSource.kind resolvedTarget.kind with
      | none =>
          rw [Json.coerce_of_none hsource htarget hconversion] at h
          cases h
          exact .kinds hsource htarget hconversion
      | some conversion =>
          cases conversion with
          | unchanged | numberToText | textToTruth | numberToTruth =>
              rw [Json.coerce_of_isFormal hsource htarget hconversion rfl] at h
              cases h
          | eachItem => exact .of_eachItem hsource htarget ih hconversion h
          | eachMember => exact .of_eachMember hsource htarget ih hconversion h
          | eachField => exact .of_eachField hsource htarget ih hconversion h

end ValueSchema
