import ValueSchema.Coercion
import ValueSchema.Proofs.Value

/-! # Equations of coercion -/

namespace ValueSchema

/-- What a conversion does to a value without looking at its parts. -/
def Conversion.onForm : Conversion → Json → Json
  | .numberToText, value => Coerce.numberToText value
  | .textToTruth, value => Coerce.textToTruth value
  | .numberToTruth, value => Coerce.numberToTruth value
  | _, value => value

/-- Whether a conversion is settled without the parts of a value. -/
def Conversion.isFormal : Conversion → Bool
  | .eachItem | .eachMember | .eachField => false
  | _ => true

theorem Conversion.kinds_of_eachItem {source target : Builtin}
    (h : between? source target = some .eachItem) : source = .arrayOf ∧ target = .arrayOf := by
  cases target <;> cases source <;> first | exact ⟨rfl, rfl⟩ | cases h

theorem Conversion.kinds_of_eachMember {source target : Builtin}
    (h : between? source target = some .eachMember) : source = .objectOf ∧ target = .objectOf := by
  cases target <;> cases source <;> first | exact ⟨rfl, rfl⟩ | cases h

theorem Conversion.kinds_of_eachField {source target : Builtin}
    (h : between? source target = some .eachField) : source = .shape ∧ target = .shape := by
  cases target <;> cases source <;> first | exact ⟨rfl, rfl⟩ | cases h

namespace Coerce

/-- The members of a value that have a pair of fields, in the order of the pairs. -/
def present (members : Record Json) (pairs : List (String × TypeDef × TypeDef)) :
    List (String × Json × TypeDef × TypeDef) :=
  pairs.filterMap fun (name, source, target) =>
    (members.get? name).map fun item => (name, item, source, target)

/-- The entry that a member contributes to the result. -/
def entry (coerce : Json → Coerce) (part : String × Json × TypeDef × TypeDef) :
    Except Failure (String × Json) :=
  (fun value => (part.1, value)) <$> coerce part.2.1 part.2.2.1 part.2.2.2

theorem fields_map (members : Record Json) (coerce : Json → Coerce)
    (pairs : List (String × TypeDef × TypeDef)) :
    fields (members.map coerce) pairs =
      (fun entries => .object (Record.ofList entries)) <$>
        (present members pairs).mapM (entry coerce) := by
  rw [present, ← filterMap_id_mapM, fields, bind_pure_comp, ← comp_map]
  congr 2
  funext ⟨name, source, target⟩
  simp only [Record.get?_map]
  cases members.get? name with
  | none => rfl
  | some item => cases hvalue : coerce item source target <;> simp [entry, hvalue]

/-! ## Pairs of fields -/

/-- The fields of the source that the target declares too, with both definitions. -/
def counterparts (sources targets : Record TypeDef) : List (String × TypeDef × TypeDef) :=
  sources.toList.filterMap fun (name, source) =>
    (targets.get? name).map fun target => (name, source, target)

theorem mem_counterparts_iff {sources targets : Record TypeDef} {name : String}
    {source target : TypeDef} :
    (name, source, target) ∈ counterparts sources targets ↔
      sources.get? name = some source ∧ targets.get? name = some target := by
  simp only [counterparts, List.mem_filterMap, Prod.exists, Option.map_eq_some_iff,
    Prod.mk.injEq, Record.get?_eq_some_iff (r := sources)]
  constructor
  · rintro ⟨_, _, hmem, _, htarget, rfl, rfl, rfl⟩
    exact ⟨hmem, htarget⟩
  · rintro ⟨hmem, htarget⟩
    exact ⟨_, _, hmem, _, htarget, rfl, rfl, rfl⟩

theorem nodup_counterparts (sources targets : Record TypeDef) :
    ((counterparts sources targets).map Prod.fst).Nodup := by
  refine List.Nodup.sublist (map_fst_filterMap_sublist ?_ sources.toList) ?_
  · rintro ⟨name, source⟩ pair hpair
    obtain ⟨target, -, rfl⟩ := Option.map_eq_some_iff.mp hpair
    rfl
  · rw [sources.map_fst_toList]
    exact sources.nodup

theorem mem_present_iff {members : Record Json} {sources targets : Record TypeDef} {name : String}
    {item : Json} {source target : TypeDef} :
    (name, item, source, target) ∈ present members (counterparts sources targets) ↔
      members.get? name = some item ∧ sources.get? name = some source ∧
        targets.get? name = some target := by
  simp only [present, List.mem_filterMap, Prod.exists, Option.map_eq_some_iff, Prod.mk.injEq,
    mem_counterparts_iff]
  constructor
  · rintro ⟨_, _, _, hpair, _, hitem, rfl, rfl, rfl, rfl⟩
    exact ⟨hitem, hpair⟩
  · rintro ⟨hitem, hpair⟩
    exact ⟨_, _, _, hpair, _, hitem, rfl, rfl, rfl, rfl⟩

theorem nodup_present (members : Record Json) (sources targets : Record TypeDef) :
    ((present members (counterparts sources targets)).map Prod.fst).Nodup := by
  refine List.Nodup.sublist (map_fst_filterMap_sublist ?_ _) (nodup_counterparts sources targets)
  rintro ⟨name, source, target⟩ part hpart
  obtain ⟨item, -, rfl⟩ := Option.map_eq_some_iff.mp hpart
  rfl

/-- Pairing succeeds exactly if the target declares all fields of the source. -/
theorem pairFields_eq_ok_iff {sources targets : Record TypeDef}
    {pairs : List (String × TypeDef × TypeDef)} :
    pairFields sources targets = .ok pairs ↔
      sources.names ⊆ targets.names ∧ pairs = counterparts sources targets := by
  rw [pairFields, counterparts, ← sources.map_fst_toList]
  generalize sources.toList = entries
  induction entries generalizing pairs with
  | nil => simp [pure_eq_ok, eq_comm]
  | cons entry entries ih =>
      obtain ⟨name, source⟩ := entry
      rw [List.mapM_cons, List.filterMap_cons, List.map_cons, List.cons_subset,
        Record.mem_names_iff]
      simp only [bind_eq_ok_iff, ih]
      cases targets.get? name with
      | none => simp [throw_eq_error]
      | some target =>
          simp only [pure_eq_ok, Except.ok.injEq, Option.map_some]
          constructor
          · rintro ⟨_, rfl, _, ⟨hsubset, rfl⟩, rfl⟩
            exact ⟨⟨⟨target, rfl⟩, hsubset⟩, rfl⟩
          · rintro ⟨⟨-, hsubset⟩, rfl⟩
            exact ⟨_, rfl, _, ⟨hsubset, rfl⟩, rfl⟩

end Coerce

namespace Json

theorem coerce_eq (limit : Nat) (sourceRegistry targetRegistry : Registry) (value : Json) :
    value.coerce limit sourceRegistry targetRegistry =
      Coerce.ofValue limit sourceRegistry targetRegistry value
        (value.childResults (coerce limit sourceRegistry targetRegistry)) :=
  fold_eq _ value

section Resolved

variable {limit : Nat} {sourceRegistry targetRegistry : Registry} {source target : TypeDef}
  {resolvedSource resolvedTarget : Resolved}
  (hsource : source.resolve limit sourceRegistry = .ok resolvedSource)
  (htarget : target.resolve limit targetRegistry = .ok resolvedTarget)

include hsource htarget

theorem coerce_of_none (h : Conversion.between? resolvedSource.kind resolvedTarget.kind = none)
    (value : Json) :
    value.coerce limit sourceRegistry targetRegistry source target =
      .error (.uncoercible resolvedSource.kind resolvedTarget.kind) := by
  simp [coerce_eq, Coerce.ofValue, hsource, htarget, h, throw_eq_error]

theorem coerce_of_isFormal {conversion : Conversion}
    (h : Conversion.between? resolvedSource.kind resolvedTarget.kind = some conversion)
    (formal : conversion.isFormal = true) (value : Json) :
    value.coerce limit sourceRegistry targetRegistry source target =
      .ok (conversion.onForm value) := by
  cases conversion <;>
    simp_all [coerce_eq, Coerce.ofValue, pure_eq_ok, Conversion.onForm, Conversion.isFormal]

theorem coerce_eachItem
    (h : Conversion.between? resolvedSource.kind resolvedTarget.kind = some .eachItem)
    (value : Json) :
    value.coerce limit sourceRegistry targetRegistry source target =
      resolvedSource.definition.element >>= fun element =>
        resolvedTarget.definition.element >>= fun element' =>
          match value with
          | .array items =>
              .array <$> items.mapM fun item =>
                item.coerce limit sourceRegistry targetRegistry element element'
          | other => .ok other := by
  rw [coerce_eq, Coerce.ofValue, hsource, htarget]
  simp only [h, ok_bind]
  congr 1
  funext element
  congr 1
  funext element'
  cases value with
  | array items =>
      simp only [childResults, List.mapM_map]
      rfl
  | _ => rfl

theorem coerce_eachMember
    (h : Conversion.between? resolvedSource.kind resolvedTarget.kind = some .eachMember)
    (value : Json) :
    value.coerce limit sourceRegistry targetRegistry source target =
      resolvedSource.definition.element >>= fun element =>
        resolvedTarget.definition.element >>= fun element' =>
          match value with
          | .object members =>
              .object <$> members.mapM fun item =>
                item.coerce limit sourceRegistry targetRegistry element element'
          | other => .ok other := by
  rw [coerce_eq, Coerce.ofValue, hsource, htarget]
  simp only [h, ok_bind]
  congr 1
  funext element
  congr 1
  funext element'
  cases value with
  | object members => simp only [childResults, Record.mapM_map]
  | _ => rfl

theorem coerce_eachField
    (h : Conversion.between? resolvedSource.kind resolvedTarget.kind = some .eachField)
    (value : Json) :
    value.coerce limit sourceRegistry targetRegistry source target =
      resolvedSource.definition.declaredFields >>= fun fields =>
        resolvedTarget.definition.declaredFields >>= fun fields' =>
          Coerce.pairFields fields fields' >>= fun pairs =>
            match value with
            | .object members =>
                (fun entries => .object (Record.ofList entries)) <$>
                  (Coerce.present members pairs).mapM
                    (Coerce.entry (coerce limit sourceRegistry targetRegistry))
            | other => .ok other := by
  rw [coerce_eq, Coerce.ofValue, hsource, htarget]
  simp only [h, ok_bind]
  congr 1
  funext fields
  congr 1
  funext fields'
  congr 1
  funext pairs
  cases value with
  | object members => simp only [childResults, Coerce.fields_map]
  | _ => rfl

theorem coerce_array {element element' : TypeDef}
    (h : Conversion.between? resolvedSource.kind resolvedTarget.kind = some .eachItem)
    (helement : resolvedSource.definition.element = .ok element)
    (helement' : resolvedTarget.definition.element = .ok element') (items : List Json) :
    (Json.array items).coerce limit sourceRegistry targetRegistry source target =
      .array <$> items.mapM fun item =>
        item.coerce limit sourceRegistry targetRegistry element element' := by
  rw [coerce_eachItem hsource htarget h, helement, helement', ok_bind, ok_bind]

theorem coerce_objectOf {element element' : TypeDef}
    (h : Conversion.between? resolvedSource.kind resolvedTarget.kind = some .eachMember)
    (helement : resolvedSource.definition.element = .ok element)
    (helement' : resolvedTarget.definition.element = .ok element') (members : Record Json) :
    (Json.object members).coerce limit sourceRegistry targetRegistry source target =
      .object <$> members.mapM fun item =>
        item.coerce limit sourceRegistry targetRegistry element element' := by
  rw [coerce_eachMember hsource htarget h, helement, helement', ok_bind, ok_bind]

theorem coerce_shape {fields fields' : Record TypeDef}
    (h : Conversion.between? resolvedSource.kind resolvedTarget.kind = some .eachField)
    (hfields : resolvedSource.definition.declaredFields = .ok fields)
    (hfields' : resolvedTarget.definition.declaredFields = .ok fields')
    (hnames : fields.names ⊆ fields'.names) (members : Record Json) :
    (Json.object members).coerce limit sourceRegistry targetRegistry source target =
      (fun entries => .object (Record.ofList entries)) <$>
        (Coerce.present members (Coerce.counterparts fields fields')).mapM
          (Coerce.entry (coerce limit sourceRegistry targetRegistry)) := by
  have hpairs := Coerce.pairFields_eq_ok_iff.mpr ⟨hnames, rfl⟩
  rw [coerce_eachField hsource htarget h, hfields, hfields', ok_bind, ok_bind, hpairs, ok_bind]

theorem coerce_array_of_not_isArray {element element' : TypeDef} {value : Json}
    (h : Conversion.between? resolvedSource.kind resolvedTarget.kind = some .eachItem)
    (helement : resolvedSource.definition.element = .ok element)
    (helement' : resolvedTarget.definition.element = .ok element')
    (other : value.isArray = false) :
    value.coerce limit sourceRegistry targetRegistry source target = .ok value := by
  rw [coerce_eachItem hsource htarget h, helement, helement', ok_bind, ok_bind]
  cases value <;> first | rfl | cases other

theorem coerce_objectOf_of_not_isObject {element element' : TypeDef} {value : Json}
    (h : Conversion.between? resolvedSource.kind resolvedTarget.kind = some .eachMember)
    (helement : resolvedSource.definition.element = .ok element)
    (helement' : resolvedTarget.definition.element = .ok element')
    (other : value.isObject = false) :
    value.coerce limit sourceRegistry targetRegistry source target = .ok value := by
  rw [coerce_eachMember hsource htarget h, helement, helement', ok_bind, ok_bind]
  cases value <;> first | rfl | cases other

theorem coerce_shape_of_not_isObject {fields fields' : Record TypeDef} {value : Json}
    (h : Conversion.between? resolvedSource.kind resolvedTarget.kind = some .eachField)
    (hfields : resolvedSource.definition.declaredFields = .ok fields)
    (hfields' : resolvedTarget.definition.declaredFields = .ok fields')
    (hnames : fields.names ⊆ fields'.names) (other : value.isObject = false) :
    value.coerce limit sourceRegistry targetRegistry source target = .ok value := by
  have hpairs := Coerce.pairFields_eq_ok_iff.mpr ⟨hnames, rfl⟩
  rw [coerce_eachField hsource htarget h, hfields, hfields', ok_bind, ok_bind, hpairs, ok_bind]
  cases value <;> first | rfl | cases other

end Resolved

end Json

end ValueSchema
