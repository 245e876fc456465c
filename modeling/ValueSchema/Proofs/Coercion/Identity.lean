import ValueSchema.Proofs.Coercion.Rules
import ValueSchema.Proofs.Conformance.Violations

/-! # Coercion of a type to itself

Such a coercion drops undeclared members and reorders the others. A check looks up declared fields
only, so it does not see the difference. -/

namespace ValueSchema

/-! ## Kinds -/

theorem Conversion.eq_unchanged_of_self {kind : Builtin} {conversion : Conversion}
    (h : between? kind kind = some conversion) (formal : conversion.isFormal = true) :
    conversion = .unchanged := by
  cases kind <;> cases h <;> first | rfl | cases formal

theorem Conversion.kind_of_self_eq_none {kind : Builtin} (h : between? kind kind = none) :
    kind = .func ∨ kind = .component := by
  cases kind <;> simp_all [between?]

/-! ## Checks of composite values -/

section Congruence

variable {limit : Nat} {registry : Registry} {d : TypeDef} {resolved : Resolved}

/-- Two values that a definition does not tell apart, at any position. -/
def ChecksAlike (limit : Nat) (registry : Registry) (d : TypeDef) (value value' : Json) : Prop :=
  ∀ path : String, value'.check limit registry d path = value.check limit registry d path

variable (resolves : d.resolve limit registry = .ok resolved)

include resolves

theorem checksAlike_items {element : TypeDef} {items items' : List Json}
    (kind : resolved.kind = .arrayOf) (helement : resolved.definition.element = .ok element)
    (h : List.Forall₂ (ChecksAlike limit registry element) items items') :
    ChecksAlike limit registry d (.array items) (.array items') := by
  intro path
  have hcheck : ∀ items : List Json, (Json.array items).check limit registry d path =
      Report.join <$> items.zipIdx.mapM fun entry =>
        entry.1.check limit registry element (path ++ (Step.index entry.2).text) := by
    intro items
    rw [Json.check_of_admits resolves (by simp [kind]) (by rw [kind]; rfl),
      Check.parts_arrayOf kind, helement, ok_bind]
  rw [hcheck, hcheck]
  congr 1
  symm
  apply mapM_eq_of_forall₂
  refine (forall₂_zipIdx h 0).imp ?_
  intro entry entry' hentry
  rw [hentry.1, hentry.2]

theorem checksAlike_members {element : TypeDef} {members members' : Record Json}
    (kind : resolved.kind = .objectOf) (helement : resolved.definition.element = .ok element)
    (h : members.Related (ChecksAlike limit registry element) members') :
    ChecksAlike limit registry d (.object members) (.object members') := by
  intro path
  have hcheck : ∀ members : Record Json, (Json.object members).check limit registry d path =
      Report.join <$> members.toList.mapM fun entry =>
        entry.2.check limit registry element (path ++ (Step.key entry.1).text) := by
    intro members
    rw [Json.check_of_admits resolves (by simp [kind]) (by rw [kind]; rfl),
      Check.parts_objectOf kind, helement, ok_bind]
  rw [hcheck, hcheck]
  congr 1
  symm
  apply mapM_eq_of_forall₂
  refine List.Forall₂.imp ?_ h
  intro entry entry' hentry
  rw [hentry.1, hentry.2]

theorem checksAlike_fields {declared : Record TypeDef} {members members' : Record Json}
    (kind : resolved.kind = .shape) (hdeclared : resolved.definition.declaredFields = .ok declared)
    (h : ∀ (name : String) (field : TypeDef), declared.get? name = some field →
      Option.Rel (ChecksAlike limit registry field) (members.get? name) (members'.get? name)) :
    ChecksAlike limit registry d (.object members) (.object members') := by
  intro path
  rw [Json.check_of_admits resolves (by simp [kind]) (by rw [kind]; rfl),
    Json.check_of_admits resolves (by simp [kind]) (by rw [kind]; rfl), Check.parts_shape kind,
    Check.parts_shape kind, hdeclared, ok_bind, ok_bind]
  congr 1
  apply mapM_eq_of_forall₂
  refine List.forall₂_same.mpr ?_
  rintro ⟨name, field⟩ hentry
  have hfield := h name field (Record.get?_eq_some_iff.mpr hentry)
  dsimp only
  generalize members.get? name = item, members'.get? name = item' at hfield ⊢
  cases hfield with
  | none => rfl
  | some halike => exact halike _

end Congruence

/-! ## Results -/

namespace FieldsConvert

variable {parts parts' : TypeDef → TypeDef → Json → Json → Prop} {fields fields' : Record TypeDef}
  {members results : Record Json}

/-- A declared member is there before a shape coercion exactly if it is there afterwards. -/
theorem rel_get? (h : FieldsConvert parts fields fields' members results) {name : String}
    (hname : name ∈ fields.names) {rel : Json → Json → Prop}
    (hrel : ∀ item result, members.get? name = some item → results.get? name = some result →
      rel item result) :
    Option.Rel rel (members.get? name) (results.get? name) := by
  cases hitem : members.get? name with
  | none =>
      have habsent := Record.get?_eq_none_iff.mp hitem
      have hresult : results.get? name = none := by
        rw [Record.get?_eq_none_iff, h.mem_names_iff]
        exact fun hboth => habsent hboth.2
      rw [hresult]
      exact .none
  | some item =>
      have hpresent : name ∈ members.names := Record.mem_names_iff.mpr ⟨item, hitem⟩
      obtain ⟨result, hresult⟩ := Record.mem_names_iff.mp (h.mem_names_iff.mpr ⟨hname, hpresent⟩)
      rw [hresult]
      exact .some (hrel item result hitem hresult)

/-- What a shape coercion returns has nothing more to drop or to move. -/
theorem settled (h : FieldsConvert parts fields fields members results)
    (hparts : ∀ (name : String) (field : TypeDef) (item result : Json),
      fields.get? name = some field → members.get? name = some item →
        results.get? name = some result → parts' field field result result) :
    FieldsConvert parts' fields fields results results := by
  refine ⟨h.names_subset, ?_, ?_⟩
  · nth_rewrite 1 [h.names_eq]
    apply List.filter_congr
    intro name hname
    rw [decide_eq_decide, h.mem_names_iff, and_iff_right hname]
  · intro name field field' result result' hfield hfield' hresult hresult'
    cases hfield.symm.trans hfield'
    cases hresult.symm.trans hresult'
    have hname : name ∈ results.names := Record.mem_names_iff.mpr ⟨result, hresult⟩
    obtain ⟨item, hitem⟩ := Record.mem_names_iff.mp (h.mem_names_iff.mp hname).2
    exact hparts name field item result hfield hitem hresult

end FieldsConvert

/-- One value stands for another in the form that the definition gives it. -/
structure NormalForm (limit : Nat) (registry : Registry) (d : TypeDef) (value result : Json) :
    Prop where
  checks : ChecksAlike limit registry d value result
  settled : result.coerce limit registry registry d d = .ok result

section Level

variable {limit : Nat} {registry : Registry} {d : TypeDef} {resolved : Resolved}
  (resolves : d.resolve limit registry = .ok resolved)

include resolves

theorem normalForm_self {value : Json}
    (h : Converts (fun source target value result =>
        value.coerce limit registry registry source target = .ok result)
      resolved resolved value value) : NormalForm limit registry d value value :=
  ⟨fun _ => rfl, h.coerce resolves resolves⟩

theorem normalForm_items {element : TypeDef} {items results : List Json}
    (kind : resolved.kind = .arrayOf) (helement : resolved.definition.element = .ok element)
    (each : List.Forall₂ (NormalForm limit registry element) items results) :
    NormalForm limit registry d (.array items) (.array results) := by
  have hresults := forall_of_forall₂ each fun _ _ _ h => h.settled
  constructor
  · exact checksAlike_items resolves kind helement (each.imp fun _ _ h => h.checks)
  · apply Converts.coerce resolves resolves
    exact .items kind kind helement helement (List.forall₂_same.mpr hresults)

theorem normalForm_members {element : TypeDef} {members results : Record Json}
    (kind : resolved.kind = .objectOf) (helement : resolved.definition.element = .ok element)
    (each : members.Related (NormalForm limit registry element) results) :
    NormalForm limit registry d (.object members) (.object results) := by
  have hresults := forall_of_forall₂ each fun _ _ _ h => h.2.settled
  constructor
  · exact checksAlike_members resolves kind helement (each.imp_of_mem fun _ _ _ h => h.checks)
  · apply Converts.coerce resolves resolves
    refine .members kind kind helement helement (List.forall₂_same.mpr ?_)
    exact fun entry hentry => ⟨rfl, hresults entry hentry⟩

theorem normalForm_fields {parts : TypeDef → TypeDef → Json → Json → Prop}
    {fields : Record TypeDef} {members results : Record Json} (kind : resolved.kind = .shape)
    (hfields : resolved.definition.declaredFields = .ok fields)
    (convert : FieldsConvert parts fields fields members results)
    (each : ∀ (name : String) (field : TypeDef) (item result : Json),
      fields.get? name = some field → members.get? name = some item →
        results.get? name = some result → NormalForm limit registry field item result) :
    NormalForm limit registry d (.object members) (.object results) := by
  constructor
  · refine checksAlike_fields resolves kind hfields fun name field hfield => ?_
    refine convert.rel_get? (Record.mem_names_iff.mpr ⟨field, hfield⟩) ?_
    intro item result hitem hresult
    exact (each name field item result hfield hitem hresult).checks
  · apply Converts.coerce resolves resolves
    refine .fields kind kind hfields hfields (convert.settled ?_)
    intro name field item result hfield hitem hresult
    exact (each name field item result hfield hitem hresult).settled

end Level

theorem normalForm_of_coerce {limit : Nat} {registry : Registry} {value result : Json} {d : TypeDef}
    (h : value.coerce limit registry registry d d = .ok result) :
    NormalForm limit registry d value result := by
  induction value using Json.child_induction generalizing d result with
  | value value ih =>
      obtain ⟨resolved, resolved', resolves, resolves', h⟩ := coerce_eq_ok_iff.mp h
      -- Both sides are the same definition, so they have the same parts.
      cases resolves.symm.trans resolves'
      cases h with
      | formal hconversion formal =>
          obtain rfl := Conversion.eq_unchanged_of_self hconversion formal
          exact normalForm_self resolves (.formal hconversion formal)
      | items kind _ helement helement' each =>
          cases helement.symm.trans helement'
          refine normalForm_items resolves kind helement (forall₂_imp_of_mem each ?_)
          intro item hitem result hresult
          obtain ⟨position, hchild⟩ := List.mem_iff_getElem?.mp hitem
          exact ih (.index position) item hchild hresult
      | notItems kind _ helement helement' other =>
          exact normalForm_self resolves (.notItems kind kind helement helement other)
      | members kind _ helement helement' each =>
          cases helement.symm.trans helement'
          refine normalForm_members resolves kind helement (each.imp_of_mem ?_)
          intro entry hentry result hresult
          exact ih (.key entry.1) entry.2 (Record.get?_eq_some_iff.mpr hentry) hresult
      | notMembers kind _ helement helement' other =>
          exact normalForm_self resolves (.notMembers kind kind helement helement other)
      | fields kind _ hfields hfields' convert =>
          cases hfields.symm.trans hfields'
          refine normalForm_fields resolves kind hfields convert ?_
          intro name field item result hfield hitem hresult
          exact ih (.key name) item hitem
            (convert.each name field field item result hfield hfield hitem hresult)
      | notFields kind _ hfields hfields' names other =>
          exact normalForm_self resolves
            (.notFields kind kind hfields hfields (List.Subset.refl _) other)

/-! ## Failures -/

/-- If the check of a value succeeds, its coercion to the same type fails only at a kind without a
conversion to itself or at an incomplete definition. -/
theorem CoercionFails.of_check {limit : Nat} {registry : Registry} {source target : TypeDef}
    {value : Json} {failure : Failure} {path : String} {report : Report}
    (fails : CoercionFails limit registry registry source target value failure)
    (same : source = target) (hcheck : value.check limit registry source path = .ok report) :
    failure = .uncoercible .func .func ∨ failure = .uncoercible .component .component ∨
      ∃ kind defect, failure = .invalidDefinition kind defect := by
  induction fails generalizing path report with
  | source hfails =>
      rw [Json.check_of_resolve_error hfails] at hcheck
      cases hcheck
  | target hfails =>
      rw [same, Json.check_of_resolve_error hfails] at hcheck
      cases hcheck
  | kinds hsource htarget hnone =>
      subst same
      cases hsource.symm.trans htarget
      rcases Conversion.kind_of_self_eq_none hnone with kind | kind
      · exact .inl (by rw [kind])
      · exact .inr (.inl (by rw [kind]))
  | lacksSource hsource hlacks =>
      obtain ⟨defect, rfl⟩ := hlacks.exists_defect
      exact .inr (.inr ⟨_, defect, rfl⟩)
  | lacksTarget htarget hlacks =>
      obtain ⟨defect, rfl⟩ := hlacks.exists_defect
      exact .inr (.inr ⟨_, defect, rfl⟩)
  | undeclared hsource htarget hfields hfields' declared missing =>
      subst same
      cases hsource.symm.trans htarget
      cases hfields.symm.trans hfields'
      exact absurd declared missing
  | part hchild hpart hpart' _ ih =>
      subst same
      cases hpart.symm.trans hpart'
      -- The check has gone into every part that the coercion goes into.
      obtain ⟨report', hcheck'⟩ := exists_check_of_child hcheck hchild hpart
      exact ih rfl hcheck'

/-- A coercion from a type to itself puts a value in a normal form: the check of the result is
that of the value, violations and failures included, and a second coercion changes nothing. On a
value whose check succeeds it fails only for want of a conversion or of an attribute. -/
theorem coerce_self_normalizes (limit : Nat) (registry : Registry) (value : Json) (d : TypeDef) :
    (∀ result, value.coerce limit registry registry d d = .ok result →
      result.validate limit registry d = value.validate limit registry d ∧
        result.coerce limit registry registry d d = .ok result) ∧
    ∀ report failure, value.validate limit registry d = .ok report →
      value.coerce limit registry registry d d = .error failure →
        failure = .uncoercible .func .func ∨ failure = .uncoercible .component .component ∨
          ∃ kind defect, failure = .invalidDefinition kind defect := by
  constructor
  · intro result hresult
    have hnormal := normalForm_of_coerce hresult
    exact ⟨hnormal.checks _, hnormal.settled⟩
  · intro report failure hvalidate hfailure
    exact (CoercionFails.of_coerce hfailure).of_check rfl hvalidate

section Contacts

def cards : Registry := .ofList
  [("card", .shape [("name", (TypeDef.builtin .string).asRequired),
      ("phones", .arrayOf (.reference "phone"))]),
    ("phone", .shape [("kind", .oneOf [.string "home", .string "work"]),
      ("number", .builtin .string)])]

def contacts : TypeDef := .objectOf (.reference "card")

/-- Members are out of order, some are not declared and some do not conform. -/
def looseContacts : Json := .object (.ofList
  [("b", .object (.ofList
      [("phones", .array [.object (.ofList
          [("number", .bool true), ("note", .null), ("kind", .string "car")]), .null]),
        ("age", .null)])),
    ("a", .string "nobody")])

def tidyContacts : Json := .object (.ofList
  [("b", .object (.ofList
      [("phones", .array [.object (.ofList
          [("kind", .string "car"), ("number", .bool true)]), .null])])),
    ("a", .string "nobody")])

theorem coerce_self_normalizes_contacts :
    looseContacts.coerce 2 cards cards contacts contacts = .ok tidyContacts ∧
    tidyContacts.validate 2 cards contacts = looseContacts.validate 2 cards contacts ∧
    tidyContacts.coerce 2 cards cards contacts contacts = .ok tidyContacts := by
  have hcoerce : looseContacts.coerce 2 cards cards contacts contacts = .ok tidyContacts := rfl
  obtain ⟨hnormal, -⟩ := coerce_self_normalizes 2 cards looseContacts contacts
  exact ⟨hcoerce, hnormal tidyContacts hcoerce⟩

/-- Any value passes for a function, and none can be coerced to one. -/
example : (Json.array [.null]).validate 2 ∅ (.arrayOf (.builtin .func)) = .ok .success ∧
    (Json.array [.null]).coerce 2 ∅ ∅ (.arrayOf (.builtin .func)) (.arrayOf (.builtin .func)) =
      .error (.uncoercible .func .func) :=
  ⟨rfl, rfl⟩

end Contacts

end ValueSchema
