import ValueSchema.Default
import ValueSchema.Proofs.Coercion.Rules
import ValueSchema.Proofs.Comparison
import ValueSchema.Proofs.Conformance.Visits
import ValueSchema.Signature

/-! # Contracts of the operations

An operation keeps to a set of failures if resolution does and its own failures are among them. -/

namespace ValueSchema

/-! ## Resolution with allowed failures -/

/-- What a resolved definition lacks is an allowed failure, and its parts have a property. -/
structure Resolved.Guarded (allowed : Failure → Prop) (good : TypeDef → Prop)
    (resolved : Resolved) : Prop where
  lacks : ∀ failure, resolved.Lacks failure → allowed failure
  parts : ∀ part ∈ resolved.parts, good part

/-- Definitions with a property resolve to guarded ones, whose parts have it in turn, or fail as
allowed. -/
def IsGuarded (allowed : Failure → Prop) (limit : Nat) (registry : Registry)
    (good : TypeDef → Prop) : Prop :=
  ∀ d, good d → Yields (Resolved.Guarded allowed good) allowed (d.resolve limit registry)

namespace Resolved.Guarded

variable {allowed : Failure → Prop} {good : TypeDef → Prop} {resolved : Resolved}

theorem yields_element (h : resolved.Guarded allowed good)
    (kind : resolved.kind = .arrayOf ∨ resolved.kind = .objectOf) :
    Yields good allowed resolved.definition.element :=
  (Resolved.yields_element kind).mono h.parts h.lacks

theorem yields_declaredFields (h : resolved.Guarded allowed good) (kind : resolved.kind = .shape) :
    Yields (fun fields => ∀ entry ∈ fields.toList, good entry.2) allowed
      resolved.definition.declaredFields :=
  (Resolved.yields_declaredFields kind).mono
    (fun _ hfields entry hentry => h.parts entry.2 (hfields entry hentry)) h.lacks

theorem yields_choices (h : resolved.Guarded allowed good) (kind : resolved.kind = .oneOf) :
    Yields (fun _ => True) allowed resolved.definition.choices :=
  (Resolved.yields_choices kind).mono (fun _ h => h) h.lacks

end Resolved.Guarded

/-! ## Operations on one definition -/

theorem Resolved.Guarded.yields_parts {allowed : Failure → Prop} {limit : Nat}
    {registry : Registry} {good : TypeDef → Prop} {resolved : Resolved}
    (guarded : resolved.Guarded allowed good) {value : Json}
    (hchildren : ∀ step child, value.child? step = some child → ∀ d path, good d →
      Yields (fun _ => True) allowed (child.check limit registry d path))
    (path : String) :
    Yields (fun _ => True) allowed
      (Check.parts (value.childResults (Json.check limit registry)) resolved path) := by
  rw [Check.parts_eq_visits]
  have hvisits := (yields_visits resolved value).mono (fun _ h => h)
    fun failure h => guarded.lacks failure h.1
  refine hvisits.bind fun visits hfinds => ?_
  refine (Yields.traverse ?_).map fun reports _ => trivial
  rintro ⟨step, part⟩ hvisit
  cases hchild : value.child? step with
  | none =>
      rw [Check.visit_of_absent hchild]
      trivial
  | some child =>
      rw [Check.visit_of_child hchild]
      exact hchildren step child hchild part _ (guarded.parts part (hfinds _ hvisit).mem_parts)

namespace IsGuarded

section Definition

variable {allowed : Failure → Prop} {limit : Nat} {registry : Registry} {good : TypeDef → Prop}
  (guarded : IsGuarded allowed limit registry good)

include guarded

theorem yields_signatureWithin (gives_up : allowed (.recursionLimit limit)) (depth : Nat)
    {d : TypeDef} (hd : good d) :
    Yields (fun _ => True) allowed (d.signatureWithin limit registry depth) := by
  induction depth generalizing d with
  | zero => exact gives_up
  | succ depth ih =>
      rw [TypeDef.signatureWithin]
      refine (guarded d hd).bind fun resolved h => ?_
      dsimp only
      cases hkind : resolved.kind with
      | oneOf => exact (h.yields_choices hkind).seq fun choices => trivial
      | arrayOf | objectOf =>
          refine (h.yields_element (by simp [hkind])).bind fun element helement => ?_
          exact (ih helement).seq fun text => trivial
      | shape =>
          refine (h.yields_declaredFields hkind).bind fun fields hfields => ?_
          refine (Yields.traverse fun entry hentry => ?_).seq fun texts => trivial
          exact (ih (hfields entry hentry)).seq fun text => trivial
      | _ => trivial

theorem yields_defaultWithin (gives_up : allowed (.recursionLimit limit)) (depth : Nat)
    (filling : Filling) {d : TypeDef} (hd : good d) :
    Yields (fun _ => True) allowed (d.defaultWithin limit registry depth filling) := by
  induction depth generalizing filling d with
  | zero => exact gives_up
  | succ depth ih =>
      rw [TypeDef.defaultWithin]
      refine (guarded d hd).bind fun resolved h => ?_
      dsimp only
      cases hkind : resolved.kind with
      | oneOf => exact (h.yields_choices hkind).seq fun choices => trivial
      | shape =>
          dsimp only
          split
          · refine (h.yields_declaredFields hkind).bind fun fields hfields => ?_
            have hmembers : Yields (Record.Related (fun _ _ => True) fields) allowed
                (fields.mapM (TypeDef.defaultWithin limit registry depth filling.forFields)) :=
              Record.yields_mapM fun entry hentry => ih _ (hfields entry hentry)
            exact hmembers.map fun members _ => trivial
          · trivial
      | _ => trivial

/-- A step leads from a definition with the property to another one. -/
theorem good_of_child {d part : TypeDef} {step : Step} (hd : good d)
    (hchild : d.child limit registry step = .ok part) : good part := by
  have hresolve := hchild
  rw [TypeDef.child] at hresolve
  obtain ⟨resolved, resolves, -⟩ := bind_eq_ok_iff.mp hresolve
  have h := (guarded d hd).good_of_eq_ok resolves
  exact h.parts part (TypeDef.mem_parts_of_child resolves hchild)

theorem yields_child (stops : ∀ kind step, allowed (.incompatibleStep kind step)) {d : TypeDef}
    (hd : good d) (step : Step) : Yields good allowed (d.child limit registry step) := by
  rw [TypeDef.child]
  refine (guarded d hd).bind fun resolved h => ?_
  split
  · next kind => exact h.yields_element (.inr kind)
  · next kind => exact h.yields_element (.inl kind)
  · next name kind =>
      refine (h.yields_declaredFields kind).bind fun fields hfields => ?_
      cases hfield : fields.get? name with
      | none => exact stops _ _
      | some field => exact hfields _ (Record.get?_eq_some_iff.mp hfield)
  · exact stops _ _

theorem yields_atPath (stops : ∀ kind step, allowed (.incompatibleStep kind step)) {d : TypeDef}
    (hd : good d) (path : List Step) : Yields good allowed (d.atPath limit registry path) := by
  induction path generalizing d with
  | nil => exact hd
  | cons step path ih =>
      rw [TypeDef.atPath]
      exact (guarded.yields_child stops hd step).bind fun part hpart => ih hpart

/-- A check has no failures of its own, however deep the value is. -/
theorem yields_check (value : Json) :
    ∀ d path, good d → Yields (fun _ => True) allowed (value.check limit registry d path) := by
  induction value using Json.child_induction with
  | value value ih =>
      intro d path hd
      rw [Json.check_eq, Check.ofValue]
      refine (guarded d hd).bind fun resolved h => ?_
      split
      · trivial
      · split
        · next kind => exact (h.yields_choices kind).seq fun choices => trivial
        · split
          · exact h.yields_parts ih path
          · trivial

end Definition

end IsGuarded

/-! ## Operations on two definitions -/

theorem yields_matchFields {allowed : Failure → Prop}
    {test : TypeDef → TypeDef → Except Failure Bool} {lefts rights : Record TypeDef}
    (htest : ∀ left ∈ lefts.toList, ∀ right ∈ rights.toList,
      Yields (fun _ => True) allowed (test left.2 right.2)) :
    Yields (fun _ => True) allowed (matchFields test lefts rights) := by
  have hgo : ∀ entries ⊆ lefts.toList,
      Yields (fun _ => True) allowed (matchFields.go test rights entries) := by
    intro entries hentries
    induction entries with
    | nil => trivial
    | cons entry entries ih =>
        rw [List.cons_subset] at hentries
        rw [matchFields.go]
        cases hright : rights.get? entry.1 with
        | none => trivial
        | some right =>
            refine (htest entry hentries.1 _ (Record.get?_eq_some_iff.mp hright)).seq
              fun passed => ?_
            cases passed with
            | false => trivial
            | true => exact ih hentries.2
  unfold matchFields
  split
  · exact hgo _ (List.Subset.refl _)
  · trivial

/-- One level of a comparison. The source must be of the same kind wherever an attribute of the
target is looked at that its kind needs. -/
theorem yields_compareLayer {allowed : Failure → Prop} {good good' : TypeDef → Prop}
    {kinds : Builtin → Builtin → Bool} {flags : Bool → Bool → Bool}
    {parts : TypeDef → TypeDef → Except Failure Bool} {source target : Resolved}
    (hkinds : ∀ kind kind', kinds kind kind' = true → kind'.isBare = false → kind' ≠ .object →
      kind = kind')
    (hsource : source.Guarded allowed good) (htarget : target.Guarded allowed good')
    (hparts : ∀ d d', good d → good' d' → Yields (fun _ => True) allowed (parts d d')) :
    Yields (fun _ => True) allowed (compareLayer kinds flags parts source target) := by
  have helements : source.kind = .arrayOf ∨ source.kind = .objectOf →
      target.kind = .arrayOf ∨ target.kind = .objectOf → Yields (fun _ => True) allowed
        (source.definition.element >>= fun d => target.definition.element >>= parts d) := by
    intro kind kind'
    refine (hsource.yields_element kind).bind fun d hd => ?_
    exact (htarget.yields_element kind').bind fun d' hd' => hparts d d' hd hd'
  unfold compareLayer
  split
  · next hpass =>
      cases kind' : target.kind with
      | oneOf =>
          have kind : source.kind = .oneOf := hkinds _ _ (kind' ▸ hpass) rfl (by decide)
          refine (hsource.yields_choices kind).seq fun choices => ?_
          exact (htarget.yields_choices kind').seq fun choices' => trivial
      | arrayOf =>
          have kind : source.kind = .arrayOf := hkinds _ _ (kind' ▸ hpass) rfl (by decide)
          exact helements (.inl kind) (.inl kind')
      | objectOf =>
          have kind : source.kind = .objectOf := hkinds _ _ (kind' ▸ hpass) rfl (by decide)
          dsimp only
          split
          · exact helements (.inr kind) (.inr kind')
          · trivial
      | shape =>
          have kind : source.kind = .shape := hkinds _ _ (kind' ▸ hpass) rfl (by decide)
          dsimp only
          split
          · refine (hsource.yields_declaredFields kind).bind fun fields hfields => ?_
            refine (htarget.yields_declaredFields kind').bind fun fields' hfields' => ?_
            refine yields_matchFields fun left hleft right hright => ?_
            split
            · exact hparts _ _ (hfields left hleft) (hfields' right hright)
            · trivial
          · trivial
      | _ => trivial
  · trivial

namespace IsGuarded

section Pair

variable {allowed : Failure → Prop} {limit : Nat} {leftRegistry rightRegistry : Registry}
  {good good' : TypeDef → Prop} (guarded : IsGuarded allowed limit leftRegistry good)
  (guarded' : IsGuarded allowed limit rightRegistry good')

include guarded guarded'

theorem yields_equivalentWithin (gives_up : allowed (.recursionLimit limit)) (depth : Nat)
    {left right : TypeDef} (hleft : good left) (hright : good' right) :
    Yields (fun _ => True) allowed
      (TypeDef.equivalentWithin limit leftRegistry rightRegistry depth left right) := by
  induction depth generalizing left right with
  | zero => exact gives_up
  | succ depth ih =>
      rw [equivalentWithin_succ]
      refine (guarded left hleft).bind fun source hsource => ?_
      refine (guarded' right hright).bind fun target htarget => ?_
      refine yields_compareLayer ?_ hsource htarget fun d d' hd hd' => ih hd hd'
      intro kind kind' hequates _ _
      exact (Builtin.equates_iff.mp hequates).1

theorem yields_compatibleWithin (gives_up : allowed (.recursionLimit limit)) (depth : Nat)
    {source target : TypeDef} (hsource : good source) (htarget : good' target) :
    Yields (fun _ => True) allowed
      (TypeDef.compatibleWithin limit leftRegistry rightRegistry depth source target) := by
  induction depth generalizing source target with
  | zero => exact gives_up
  | succ depth ih =>
      rw [compatibleWithin_succ]
      refine (guarded source hsource).bind fun resolved hresolved => ?_
      refine (guarded' target htarget).bind fun resolved' hresolved' => ?_
      exact yields_compareLayer (fun _ _ => Builtin.eq_of_widensTo) hresolved hresolved'
        fun d d' hd hd' => ih hd hd'

/-- A coercion has failures of its own where the types do not fit together. -/
theorem allowed_of_coercionFails (mismatch : ∀ kind kind', allowed (.uncoercible kind kind'))
    (undeclared : ∀ name, allowed (.missingTargetField name)) {source target : TypeDef}
    {value : Json} {failure : Failure}
    (h : CoercionFails limit leftRegistry rightRegistry source target value failure)
    (hsource : good source) (htarget : good' target) : allowed failure := by
  induction h with
  | source hfails => exact (guarded _ hsource).allowed_of_eq_error hfails
  | target hfails => exact (guarded' _ htarget).allowed_of_eq_error hfails
  | kinds => exact mismatch _ _
  | lacksSource resolves hlacks =>
      exact ((guarded _ hsource).good_of_eq_ok resolves).lacks _ hlacks
  | lacksTarget resolves hlacks =>
      exact ((guarded' _ htarget).good_of_eq_ok resolves).lacks _ hlacks
  | undeclared => exact undeclared _
  | part hchild hpart hpart' fails ih =>
      exact ih (guarded.good_of_child hsource hpart) (guarded'.good_of_child htarget hpart')

theorem yields_coerce (mismatch : ∀ kind kind', allowed (.uncoercible kind kind'))
    (undeclared : ∀ name, allowed (.missingTargetField name)) (value : Json)
    {source target : TypeDef} (hsource : good source) (htarget : good' target) :
    Yields (fun _ => True) allowed
      (value.coerce limit leftRegistry rightRegistry source target) := by
  cases h : value.coerce limit leftRegistry rightRegistry source target with
  | error failure =>
      exact guarded.allowed_of_coercionFails guarded' mismatch undeclared (.of_coerce h) hsource
        htarget
  | ok result => trivial

end Pair

end IsGuarded

end ValueSchema
