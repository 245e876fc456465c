import ValueSchema.Proofs.Reordering.Basic
import ValueSchema.Proofs.Coercion.Rules
import ValueSchema.Proofs.Simulation.Operations

/-! # The order of fields does not matter -/

namespace ValueSchema

/-! ## Validation -/

/-- Reports with the same violations in any order. -/
structure Report.Reordered (report report' : Report) : Prop where
  valid_eq : report.valid = report'.valid
  violations_perm : report.violations.Perm report'.violations

namespace Report.Reordered

variable {report report' other other' : Report} {reports reports' : List Report}

theorem refl (report : Report) : Reordered report report := ⟨rfl, .refl _⟩

theorem trans (h : Reordered report report') (h' : Reordered report' other) :
    Reordered report other :=
  ⟨h.valid_eq.trans h'.valid_eq, h.violations_perm.trans h'.violations_perm⟩

theorem merge (h : Reordered report report') (hother : Reordered other other') :
    Reordered (report.merge other) (report'.merge other') where
  valid_eq := by simp only [Report.merge, h.valid_eq, hother.valid_eq]
  violations_perm := h.violations_perm.append hother.violations_perm

theorem merge_left_comm (report report' other : Report) :
    Reordered (report.merge (report'.merge other)) (report'.merge (report.merge other)) where
  valid_eq := Bool.and_left_comm ..
  violations_perm := by
    simp only [Report.merge, ← List.append_assoc]
    exact List.perm_append_comm.append_right _

theorem join_of_perm (h : reports.Perm reports') : Reordered (join reports) (join reports') := by
  induction h with
  | nil => exact refl _
  | cons report _ ih => exact (refl report).merge ih
  | swap report report' reports => exact merge_left_comm report' report (join reports)
  | trans _ _ ih ih' => exact ih.trans ih'

theorem join_of_forall₂ (h : List.Forall₂ Reordered reports reports') :
    Reordered (join reports) (join reports') := by
  induction h with
  | nil => exact refl _
  | cons hhead _ ih => exact hhead.merge ih

theorem join_of_rearranged (h : Rearranged Reordered reports reports') :
    Reordered (join reports) (join reports') := by
  obtain ⟨middle, hperm, hmiddle⟩ := h
  exact (join_of_perm hperm).trans (join_of_forall₂ hmiddle)

end Report.Reordered

section Validation

variable {limit : Nat} {registry registry' : Registry}

theorem agree_visits {resolved resolved' : Resolved} (h : resolved.Reordered resolved')
    (value : Json) :
    Agree (Rearranged fun visit visit' => visit.1 = visit'.1 ∧ visit.2.Reordered visit'.2)
      (resolved.visits value) (resolved'.visits value) := by
  rw [Resolved.visits, Resolved.visits, ← h.kind_eq]
  split
  · cases resolved.kind with
    | arrayOf | objectOf =>
        refine h.element.map fun element element' helement => .of_forall₂ ?_
        refine List.forall₂_map_left_iff.mpr (List.forall₂_map_right_iff.mpr ?_)
        exact List.forall₂_same.mpr fun step _ => ⟨rfl, helement⟩
    | shape =>
        refine h.declaredFields.map fun declared declared' hdeclared => ?_
        refine (Record.reordered_iff.mp hdeclared).map fun field field' hfield => ?_
        exact ⟨congrArg Step.key hfield.1, hfield.2⟩
    | _ => exact .ok (.of_forall₂ .nil)
  · exact .ok (.of_forall₂ .nil)

theorem agree_parts {resolved resolved' : Resolved} (h : resolved.Reordered resolved')
    {value : Json}
    (hchildren : ∀ step child, value.child? step = some child → ∀ d d' path,
      d.Reordered d' → Agree Report.Reordered (child.check limit registry d path)
        (child.check limit registry' d' path))
    (path : String) :
    Agree Report.Reordered
      (Check.parts (value.childResults (Json.check limit registry)) resolved path)
      (Check.parts (value.childResults (Json.check limit registry')) resolved' path) := by
  rw [Check.parts_eq_visits, Check.parts_eq_visits]
  refine (agree_visits h value).bind fun visits visits' hvisits => ?_
  refine (Agree.mapM_rearranged hvisits ?_).map fun _ _ hreports => .join_of_rearranged hreports
  rintro ⟨step, part⟩ ⟨_, part'⟩ ⟨rfl, hpart⟩
  cases hchild : value.child? step with
  | none =>
      rw [Check.visit_of_absent hchild, Check.visit_of_absent hchild,
        TypeDef.Reordered.isRequired_eq hpart]
      exact .ok (.refl _)
  | some child =>
      rw [Check.visit_of_child hchild, Check.visit_of_child hchild]
      exact hchildren step child hchild part part' _ hpart

theorem agree_check (hregistry : registry.Reordered registry') (value : Json) :
    ∀ d d' path, d.Reordered d' →
      Agree Report.Reordered (value.check limit registry d path)
        (value.check limit registry' d' path) := by
  induction value using Json.child_induction with
  | value value ih =>
      intro d d' path hd
      rw [Json.check_eq, Json.check_eq, Check.ofValue, Check.ofValue]
      refine (hregistry.agree_resolve limit hd).bind fun resolved resolved' h => ?_
      rw [← h.kind_eq, ← h.isNotNull_eq]
      split
      · exact .ok (.refl _)
      · split
        · rw [Check.options, Check.options, h.choices_eq]
          exact .refl Report.Reordered.refl _
        · split
          · exact agree_parts h ih path
          · exact .ok (.refl _)

end Validation

/-! ## Default values and coercion -/

/-- Values that differ only in the order of the members of objects in them. -/
inductive Json.Reordered : Json → Json → Prop
  | refl (value : Json) : Reordered value value
  | array {items items' : List Json} (each : List.Forall₂ Json.Reordered items items') :
      Reordered (.array items) (.array items')
  | object {members members' : Record Json}
      (each : Record.Reordered Json.Reordered members members') :
      Reordered (.object members) (.object members')

theorem agree_defaultWithin {limit : Nat} {registry registry' : Registry}
    (hregistry : registry.Reordered registry') (depth : Nat) (filling : Filling) {d d' : TypeDef}
    (hd : d.Reordered d') :
    Agree Json.Reordered (d.defaultWithin limit registry depth filling)
      (d'.defaultWithin limit registry' depth filling) := by
  induction depth generalizing filling d d' with
  | zero => exact .error _ _
  | succ depth ih =>
      rw [TypeDef.defaultWithin, TypeDef.defaultWithin]
      refine (hregistry.agree_resolve limit hd).bind fun resolved resolved' h => ?_
      dsimp only
      rw [← h.kind_eq, ← h.isNotNull_eq]
      cases resolved.kind with
      | oneOf =>
          rw [h.choices_eq]
          exact .refl Json.Reordered.refl _
      | shape =>
          dsimp only
          split
          · refine h.declaredFields.bind fun fields fields' hfields => ?_
            refine (hfields.mapM ?_).map fun _ _ hmembers => .object hmembers
            exact fun _ _ hfield => ih filling.forFields hfield
          · exact .ok (.refl _)
      | _ => exact .ok (.refl _)

section Coercion

/-- Pairs of fields with the same name and reordered definitions on both sides. -/
abbrev ReorderedPair := SimilarPair TypeDef.Reordered TypeDef.Reordered

theorem agree_pairFields {sources sources' targets targets' : Record TypeDef}
    (hsources : sources.Reordered TypeDef.Reordered sources')
    (htargets : targets.Reordered TypeDef.Reordered targets') :
    Agree (Rearranged ReorderedPair) (Coerce.pairFields sources targets)
      (Coerce.pairFields sources' targets') := by
  refine Agree.mapM_rearranged (Record.reordered_iff.mp hsources) ?_
  rintro ⟨name, source⟩ ⟨_, source'⟩ ⟨rfl, hsource⟩
  dsimp only
  have htarget := htargets.get? name
  generalize targets.get? name = target, targets'.get? name = target' at htarget
  cases htarget with
  | none => exact .error _ _
  | some htarget => exact .ok ⟨rfl, hsource, htarget⟩

/-- The same member of a value with a reordered pair of fields. -/
structure ReorderedPart (members : Record Json) (part part' : String × Json × TypeDef × TypeDef) :
    Prop where
  pair : ReorderedPair (part.1, part.2.2) (part'.1, part'.2.2)
  item_eq : part.2.1 = part'.2.1
  item : members.get? part.1 = some part.2.1

theorem rearranged_present (members : Record Json)
    {pairs pairs' : List (String × TypeDef × TypeDef)} (h : Rearranged ReorderedPair pairs pairs') :
    Rearranged (ReorderedPart members) (Coerce.present members pairs)
      (Coerce.present members pairs') := by
  refine h.filterMap ?_
  rintro ⟨name, source, target⟩ ⟨_, source', target'⟩ ⟨rfl, hsource, htarget⟩
  dsimp only
  cases hitem : members.get? name with
  | none => exact .none
  | some item => exact .some ⟨⟨rfl, hsource, htarget⟩, rfl, hitem⟩

/-- The members of a coerced shape are the same for pairs of fields in another order. -/
theorem agree_fields {coerce coerce' : Json → Coerce} {members : Record Json}
    {sources targets : Record TypeDef} {pairs' : List (String × TypeDef × TypeDef)}
    (hpairs : Rearranged ReorderedPair (Coerce.counterparts sources targets) pairs')
    (hmembers : ∀ name item, members.get? name = some item →
      ∀ source source' target target', source.Reordered source' → target.Reordered target' →
        Agree Json.Reordered (coerce item source target) (coerce' item source' target')) :
    Agree Json.Reordered
      (Coerce.fields (members.map coerce) (Coerce.counterparts sources targets))
      (Coerce.fields (members.map coerce') pairs') := by
  have hentries : Agree (Rearranged fun x y => x.1 = y.1 ∧ Json.Reordered x.2 y.2)
      ((Coerce.present members (Coerce.counterparts sources targets)).mapM (Coerce.entry coerce))
      ((Coerce.present members pairs').mapM (Coerce.entry coerce')) := by
    refine Agree.mapM_rearranged (rearranged_present members hpairs) fun part part' h => ?_
    have hvalue := hmembers part.1 part.2.1 h.item part.2.2.1 part'.2.2.1 part.2.2.2 part'.2.2.2
      h.pair.source h.pair.target
    rw [Coerce.entry, Coerce.entry, ← h.item_eq]
    exact hvalue.map fun _ _ hvalue => ⟨h.pair.name_eq, hvalue⟩
  have hnodup : ∀ entries, (Coerce.present members (Coerce.counterparts sources targets)).mapM
      (Coerce.entry coerce) = .ok entries → (entries.map Prod.fst).Nodup := by
    intro entries h
    have hnames := map_eq_map_of_forall₂ (mapM_eq_ok_iff.mp h) fun part entry hentry =>
      (Coerce.entry_eq_ok_iff.mp hentry).1
    exact hnames ▸ Coerce.nodup_present members sources targets
  rw [Coerce.fields_map, Coerce.fields_map]
  refine (hentries.and_left hnodup).map fun entries entries' h => ?_
  exact .object (.ofList h.2 h.1)

variable {limit : Nat} {sourceRegistry sourceRegistry' targetRegistry targetRegistry' : Registry}

theorem agree_coerce (hsources : sourceRegistry.Reordered sourceRegistry')
    (htargets : targetRegistry.Reordered targetRegistry') (value : Json) :
    ∀ source source' target target', source.Reordered source' → target.Reordered target' →
      Agree Json.Reordered (value.coerce limit sourceRegistry targetRegistry source target)
        (value.coerce limit sourceRegistry' targetRegistry' source' target') := by
  induction value using Json.child_induction with
  | value value ih =>
      intro source source' target target' hsource htarget
      rw [Json.coerce_eq, Json.coerce_eq, Coerce.ofValue, Coerce.ofValue]
      refine (hsources.agree_resolve limit hsource).bind fun r r' h => ?_
      refine (htargets.agree_resolve limit htarget).bind fun t t' ht => ?_
      dsimp only
      rw [← h.kind_eq, ← ht.kind_eq]
      cases Conversion.between? r.kind t.kind with
      | none => exact .error _ _
      | some conversion =>
          cases conversion with
          | eachItem =>
              refine h.element.bind fun s s' hs => ht.element.bind fun e e' he => ?_
              cases value with
              | array items =>
                  simp only [Json.childResults, List.mapM_map]
                  refine (Agree.mapM_same ?_).map fun _ _ hitems => .array hitems
                  intro item hitem
                  obtain ⟨position, hchild⟩ := List.mem_iff_getElem?.mp hitem
                  exact ih (.index position) item hchild s s' e e' hs he
              | _ => exact .ok (.refl _)
          | eachMember =>
              refine h.element.bind fun s s' hs => ht.element.bind fun e e' he => ?_
              cases value with
              | object members =>
                  simp only [Json.childResults, Record.mapM_map]
                  have hself : members.Reordered
                      (fun a b => a = b ∧ ∃ name, members.get? name = some a) members :=
                    .refl fun entry hentry => ⟨rfl, entry.1, Record.get?_eq_some_iff.mpr hentry⟩
                  refine (hself.mapM ?_).map fun _ _ hmembers => .object hmembers
                  rintro item _ ⟨rfl, name, hchild⟩
                  exact ih (.key name) item hchild s s' e e' hs he
              | _ => exact .ok (.refl _)
          | eachField =>
              refine h.declaredFields.bind fun sources sources' hfields => ?_
              refine ht.declaredFields.bind fun targets targets' hfields' => ?_
              refine ((agree_pairFields hfields hfields').and_left fun pairs hpairs =>
                (Coerce.pairFields_eq_ok_iff.mp hpairs).2).bind ?_
              rintro _ pairs' ⟨rfl, hpairs⟩
              cases value with
              | object members =>
                  exact agree_fields hpairs fun name item hchild => ih (.key name) item hchild
              | _ => exact .ok (.refl _)
          | _ => exact .ok (.refl _)

end Coercion

/-! ## Comparison -/

section Comparison

variable {flags : Bool → Bool → Bool} {parts parts' : TypeDef → TypeDef → Prop}
  (hparts : ∀ d d' e e' : TypeDef, d.Reordered d' → e.Reordered e' → parts d e → parts' d' e')

include hparts

theorem FieldsFit.of_reordered {sources sources' targets targets' : Record TypeDef}
    (hsources : sources'.Reordered TypeDef.Reordered sources)
    (htargets : targets.Reordered TypeDef.Reordered targets')
    (h : FieldsFit flags parts sources targets) : FieldsFit flags parts' sources' targets' := by
  refine ⟨hsources.size_eq.trans (h.size_eq.trans htargets.size_eq), ?_⟩
  intro name source' hsource'
  obtain ⟨source, hsource, hreordered⟩ := hsources.exists_right hsource'
  obtain ⟨target, htarget, hflags, hfits⟩ := h.counterpart name source hsource
  obtain ⟨target', htarget', hreordered'⟩ := htargets.exists_right htarget
  refine ⟨target', htarget', ?_, hparts _ _ _ _ hreordered.symm hreordered' hfits⟩
  rwa [hreordered.isRequired_eq, ← hreordered'.isRequired_eq]

theorem Fits.of_reordered {source source' target target' : Resolved}
    (hsource : source.Reordered source') (htarget : target.Reordered target')
    (h : Fits flags parts source target) : Fits flags parts' source' target' := by
  have hnull : flags source.definition.isNotNull target.definition.isNotNull = true →
      flags source'.definition.isNotNull target'.definition.isNotNull = true := by
    rw [hsource.isNotNull_eq, htarget.isNotNull_eq]
    exact id
  cases h with
  | bare kind => exact .bare (htarget.kind_eq ▸ kind)
  | scalar kind name_eq =>
      refine .scalar (htarget.kind_eq ▸ kind) ?_
      rw [← hsource.name_eq, name_eq, htarget.name_eq]
  | oneOf kind hchoices hchoices' same =>
      exact .oneOf (htarget.kind_eq ▸ kind) (hsource.choices_eq ▸ hchoices)
        (htarget.choices_eq ▸ hchoices') same
  | object kind null => exact .object (htarget.kind_eq ▸ kind) (hnull null)
  | arrayOf kind helement helement' fits =>
      obtain ⟨_, hright, hreordered⟩ := hsource.element.exists_right helement
      obtain ⟨_, hright', hreordered'⟩ := htarget.element.exists_right helement'
      exact .arrayOf (htarget.kind_eq ▸ kind) hright hright'
        (hparts _ _ _ _ hreordered hreordered' fits)
  | objectOf kind null helement helement' fits =>
      obtain ⟨_, hright, hreordered⟩ := hsource.element.exists_right helement
      obtain ⟨_, hright', hreordered'⟩ := htarget.element.exists_right helement'
      exact .objectOf (htarget.kind_eq ▸ kind) (hnull null) hright hright'
        (hparts _ _ _ _ hreordered hreordered' fits)
  | shape kind null hfields hfields' fits =>
      obtain ⟨_, hright, hreordered⟩ := hsource.declaredFields.exists_right hfields
      obtain ⟨_, hright', hreordered'⟩ := htarget.declaredFields.exists_right hfields'
      exact .shape (htarget.kind_eq ▸ kind) (hnull null) hright hright'
        (fits.of_reordered hparts (hreordered.symm fun _ _ _ => TypeDef.Reordered.symm) hreordered')

end Comparison

section Levels

variable {limit : Nat} {leftRegistry leftRegistry' rightRegistry rightRegistry' : Registry}
  {left left' right right' : TypeDef}

/-- A comparison that is settled level by level gives the answer `true` again. -/
theorem compareWithin_of_reordered {kinds : Builtin → Builtin → Bool} {flags : Bool → Bool → Bool}
    {compare compare' : Nat → TypeDef → TypeDef → Except Failure Bool}
    (zero : ∀ left right, compare 0 left right ≠ .ok true)
    (succ : ∀ depth left right, compare (depth + 1) left right =
      left.resolve limit leftRegistry >>= fun source =>
        right.resolve limit rightRegistry >>= fun target =>
          compareLayer kinds flags (compare depth) source target)
    (succ' : ∀ depth left right, compare' (depth + 1) left right =
      left.resolve limit leftRegistry' >>= fun source =>
        right.resolve limit rightRegistry' >>= fun target =>
          compareLayer kinds flags (compare' depth) source target)
    (hlefts : leftRegistry.Reordered leftRegistry')
    (hrights : rightRegistry.Reordered rightRegistry') {depth : Nat}
    (hleft : left.Reordered left') (hright : right.Reordered right')
    (h : compare depth left right = .ok true) : compare' depth left' right' = .ok true := by
  induction depth generalizing left left' right right' with
  | zero => exact absurd h (zero left right)
  | succ depth ih =>
      simp only [succ, bind_eq_ok_iff, compareLayer_eq_true_iff] at h
      obtain ⟨source, hsource, target, htarget, hkinds, hfits⟩ := h
      obtain ⟨source', hsource', hsources⟩ :=
        (hlefts.agree_resolve limit hleft).exists_right hsource
      obtain ⟨target', htarget', htargets⟩ :=
        (hrights.agree_resolve limit hright).exists_right htarget
      rw [succ', hsource', htarget', ok_bind, ok_bind, compareLayer_eq_true_iff]
      refine ⟨hsources.kind_eq ▸ htargets.kind_eq ▸ hkinds, ?_⟩
      exact hfits.of_reordered (fun _ _ _ _ => ih) hsources htargets

variable (hlefts : leftRegistry.Reordered leftRegistry')
  (hrights : rightRegistry.Reordered rightRegistry') (hleft : left.Reordered left')
  (hright : right.Reordered right')

include hlefts hrights hleft hright

theorem equivalent_of_reordered
    (h : left.equivalent limit leftRegistry rightRegistry right = .ok true) :
    left'.equivalent limit leftRegistry' rightRegistry' right' = .ok true := by
  refine compareWithin_of_reordered ?_ (equivalentWithin_succ limit leftRegistry rightRegistry)
    (equivalentWithin_succ limit leftRegistry' rightRegistry') hlefts hrights hleft hright h
  exact nofun

theorem compatible_of_reordered
    (h : left.compatible limit leftRegistry rightRegistry right = .ok true) :
    left'.compatible limit leftRegistry' rightRegistry' right' = .ok true := by
  refine compareWithin_of_reordered ?_ (compatibleWithin_succ limit leftRegistry rightRegistry)
    (compatibleWithin_succ limit leftRegistry' rightRegistry') hlefts hrights hleft hright h
  exact nofun

end Levels

/-! ## All operations -/

/-- The order in which fields are declared does not matter to any operation. Definitions on one
side or on both may be reordered, and so may registries, since each is a reordering of itself. -/
theorem operations_of_reordered (limit : Nat)
    {registry registry' otherRegistry otherRegistry' : Registry} {d d' other other' : TypeDef}
    (hregistry : registry.Reordered registry') (hd : d.Reordered d')
    (hotherRegistry : otherRegistry.Reordered otherRegistry') (hother : other.Reordered other')
    (value : Json) (filling : Filling) :
    Agree Report.Reordered (value.validate limit registry d) (value.validate limit registry' d') ∧
    Agree Json.Reordered (d.defaultValue limit registry filling)
      (d'.defaultValue limit registry' filling) ∧
    Agree Json.Reordered (value.coerce limit registry otherRegistry d other)
      (value.coerce limit registry' otherRegistry' d' other') ∧
    (d.equivalent limit registry otherRegistry other = .ok true ↔
      d'.equivalent limit registry' otherRegistry' other' = .ok true) ∧
    (d.compatible limit registry otherRegistry other = .ok true ↔
      d'.compatible limit registry' otherRegistry' other' = .ok true) := by
  refine ⟨?_, ?_, ?_, ⟨?_, ?_⟩, ⟨?_, ?_⟩⟩
  · exact agree_check hregistry value d d' _ hd
  · exact agree_defaultWithin hregistry limit filling hd
  · exact agree_coerce hregistry hotherRegistry value d d' other other' hd hother
  · exact equivalent_of_reordered hregistry hotherRegistry hd hother
  · exact equivalent_of_reordered hregistry.symm hotherRegistry.symm hd.symm hother.symm
  · exact compatible_of_reordered hregistry hotherRegistry hd hother
  · exact compatible_of_reordered hregistry.symm hotherRegistry.symm hd.symm hother.symm

section Flat

def tenants : Registry := .ofList
  [("tenant", .shape
    [("name", (TypeDef.builtin .string).asRequired), ("age", (TypeDef.builtin .int).asRequired)])]

def tenantsByAge : Registry := .ofList
  [("tenant", .shape
    [("age", (TypeDef.builtin .int).asRequired), ("name", (TypeDef.builtin .string).asRequired)])]

def flat : TypeDef := .shape
  [("tenant", (TypeDef.reference "tenant").asRequired), ("rooms", .builtin .int)]

def flatByRooms : TypeDef := .shape
  [("rooms", .builtin .int), ("tenant", (TypeDef.reference "tenant").asRequired)]

def unknownTenant : Json := .object (.ofList [("tenant", .object ∅), ("rooms", .string "two")])

theorem rearranged_swap (first second : String × TypeDef) :
    Rearranged (fun x y => x.1 = y.1 ∧ x.2.Reordered y.2) [first, second] [second, first] :=
  ⟨[second, first], .swap .., List.forall₂_same.mpr fun _ _ => ⟨rfl, .refl _⟩⟩

theorem operations_of_reordered_flat :
    tenants.Reordered tenantsByAge ∧ flat.Reordered flatByRooms ∧
    unknownTenant.validate 3 tenants flat = .ok ⟨false,
      [.missingRequired "$.tenant.name", .missingRequired "$.tenant.age",
        .typeMismatch "$.rooms" "int" "string"]⟩ ∧
    unknownTenant.validate 3 tenantsByAge flatByRooms = .ok ⟨false,
      [.typeMismatch "$.rooms" "int" "string", .missingRequired "$.tenant.age",
        .missingRequired "$.tenant.name"]⟩ ∧
    flat.compatible 3 tenants tenants flat = .ok true ∧
    flatByRooms.compatible 3 tenantsByAge tenants flat = .ok true := by
  have htenants : tenants.Reordered tenantsByAge :=
    .of_entries (.cons ⟨rfl, .shape (rearranged_swap _ _) (by decide)⟩ .nil)
  have hflat : flat.Reordered flatByRooms := .shape (rearranged_swap _ _) (by decide)
  have hcompatible : flat.compatible 3 tenants tenants flat = .ok true := by decide +kernel
  have hsame := operations_of_reordered 3 htenants hflat (.refl tenants) (.refl flat)
    unknownTenant .nullable
  refine ⟨htenants, hflat, by decide +kernel, by decide +kernel, hcompatible, ?_⟩
  exact hsame.2.2.2.2.mp hcompatible

end Flat

end ValueSchema
