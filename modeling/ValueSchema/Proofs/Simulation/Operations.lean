import ValueSchema.Default
import ValueSchema.Position
import ValueSchema.Proofs.Coercion.Equations
import ValueSchema.Proofs.Comparison
import ValueSchema.Proofs.Conformance.Visits
import ValueSchema.Proofs.Simulation.Basic
import ValueSchema.Signature

/-! # Operations under a simulation

One level is compared first and the whole by induction, on the depth or on the value. -/

namespace ValueSchema

/-! ## Nested levels -/

/-- How many levels the two sides may go down: equally many, or more on the second side where it
is set aside that the first gives up. -/
inductive Room (aside : Failure → Prop) (limit limit' : Nat) : Nat → Nat → Prop
  | alike (h : limit = limit') (depth : Nat) : Room aside limit limit' depth depth
  | wider (h : aside (.recursionLimit limit)) {depth depth' : Nat} (le : depth ≤ depth') :
      Room aside limit limit' depth depth'

theorem Room.of_succ {aside : Failure → Prop} {limit limit' depth depth' : Nat}
    (h : Room aside limit limit' (depth + 1) depth') :
    ∃ below, depth' = below + 1 ∧ Room aside limit limit' depth below := by
  cases h with
  | alike h => exact ⟨depth, rfl, .alike h depth⟩
  | wider h le =>
      obtain ⟨below, rfl⟩ : ∃ below, depth' = below + 1 := ⟨depth' - 1, by omega⟩
      exact ⟨below, rfl, .wider h (Nat.le_of_succ_le_succ le)⟩

/-- Two recursions that give up at depth zero are compared if one level is, given the levels
below. -/
theorem Room.refines {σ τ α β : Type} {aside : Failure → Prop} {limit limit' : Nat}
    {related : σ → τ → Prop} {rel : α → β → Prop} {f : Nat → σ → Except Failure α}
    {g : Nat → τ → Except Failure β} (zero : ∀ x, f 0 x = .error (.recursionLimit limit))
    (zero' : ∀ y, g 0 y = .error (.recursionLimit limit'))
    (succ : ∀ depth depth',
      (∀ x y, related x y → Refines aside rel (f depth x) (g depth' y)) →
        ∀ x y, related x y → Refines aside rel (f (depth + 1) x) (g (depth' + 1) y))
    {depth depth' : Nat} (room : Room aside limit limit' depth depth') :
    ∀ x y, related x y → Refines aside rel (f depth x) (g depth' y) := by
  induction depth generalizing depth' with
  | zero =>
      intro x y _
      rw [zero]
      cases room with
      | alike h =>
          rw [zero', h]
          exact .error _
      | wider h => exact .aside h _
  | succ depth ih =>
      obtain ⟨below, rfl, hbelow⟩ := room.of_succ
      exact succ depth below (ih hbelow)

/-! ## Operations on one definition -/

section Definition

variable {aside : Failure → Prop} {limit limit' : Nat} {registry registry' : Registry}
  {rel : TypeDef → TypeDef → Prop}

theorem refines_signatureWithin (sim : IsSimulation aside limit limit' registry registry' rel)
    {depth depth' : Nat} (room : Room aside limit limit' depth depth') :
    ∀ d d', rel d d' → Refines aside Eq (d.signatureWithin limit registry depth)
      (d'.signatureWithin limit' registry' depth') := by
  refine room.refines (fun _ => rfl) (fun _ => rfl) fun depth depth' ih d d' hrel => ?_
  rw [TypeDef.signatureWithin, TypeDef.signatureWithin]
  refine (sim d d' hrel).bind fun r r' h => ?_
  dsimp only
  rw [← h.kind_eq, ← h.isNotNull_eq]
  cases hkind : r.kind with
  | scalar =>
      rw [h.name_eq]
      exact .ok rfl
  | oneOf =>
      rw [h.choices_eq]
      exact .refl (fun _ => rfl) _
  | arrayOf | objectOf =>
      refine (h.element aside (by simp [hkind])).bind fun element element' helement => ?_
      exact (ih element element' helement).bind_eq fun text => .ok rfl
  | shape =>
      refine (h.declaredFields aside hkind).bind fun fields fields' hfields => ?_
      refine (Refines.mapM_eq hfields ?_).bind_eq fun texts => .ok rfl
      rintro ⟨name, field⟩ ⟨_, field'⟩ ⟨rfl, hfield⟩
      dsimp only
      rw [hfield.isRequired_eq]
      exact (ih field field' hfield.related).bind_eq fun text => .ok rfl
  | _ => exact .ok rfl

theorem refines_defaultWithin (sim : IsSimulation aside limit limit' registry registry' rel)
    {depth depth' : Nat} (room : Room aside limit limit' depth depth') (filling : Filling)
    {d d' : TypeDef} (hrel : rel d d') :
    Refines aside Eq (d.defaultWithin limit registry depth filling)
      (d'.defaultWithin limit' registry' depth' filling) := by
  -- What is filled in changes from level to level, so it belongs to the state that goes down.
  suffices hstates : ∀ state state' : Filling × TypeDef,
      state.1 = state'.1 ∧ rel state.2 state'.2 →
        Refines aside Eq (state.2.defaultWithin limit registry depth state.1)
          (state'.2.defaultWithin limit' registry' depth' state'.1) from
    hstates (filling, d) (filling, d') ⟨rfl, hrel⟩
  apply room.refines
  · exact fun _ => rfl
  · exact fun _ => rfl
  rintro depth depth' ih ⟨filling, d⟩ ⟨_, d'⟩ ⟨rfl, hrel⟩
  rw [TypeDef.defaultWithin, TypeDef.defaultWithin]
  refine (sim d d' hrel).bind fun r r' h => ?_
  dsimp only
  rw [← h.kind_eq, ← h.isNotNull_eq]
  cases hkind : r.kind with
  | oneOf =>
      rw [h.choices_eq]
      exact .refl (fun _ => rfl) _
  | shape =>
      dsimp only
      split
      · refine (h.declaredFields aside hkind).bind fun fields fields' hfields => ?_
        refine (Record.refines_mapM_eq hfields ?_).map_eq Json.object
        intro field field' hfield
        exact ih (_, field) (_, field') ⟨rfl, hfield.related⟩
      · exact .ok rfl
  | _ => exact .ok rfl

/-- Visits to the same places with related definitions. Whether a part is required is asked only
where there is none. -/
structure SimilarVisit (rel : TypeDef → TypeDef → Prop) (value : Json) (visit visit' : Visit) :
    Prop where
  step_eq : visit.1 = visit'.1
  related : rel visit.2 visit'.2
  isRequired_eq : value.child? visit.1 = none → visit.2.isRequired = visit'.2.isRequired

theorem refines_visits {r r' : Resolved} (h : Similar rel r r') (value : Json) :
    Refines aside (List.Forall₂ (SimilarVisit rel value)) (r.visits value) (r'.visits value) := by
  rw [Resolved.visits, Resolved.visits, ← h.kind_eq]
  split
  · cases kind : r.kind with
    | arrayOf | objectOf =>
        refine (h.element aside (by simp [kind])).map fun element element' helement => ?_
        refine List.forall₂_map_left_iff.mpr (List.forall₂_map_right_iff.mpr ?_)
        refine List.forall₂_same.mpr fun step hstep => ⟨rfl, helement, fun habsent => ?_⟩
        obtain ⟨child, hchild⟩ := Json.mem_steps_iff.mp hstep
        cases hchild.symm.trans habsent
    | shape =>
        refine (h.declaredFields aside kind).map fun fields fields' hfields => ?_
        refine List.forall₂_map_left_iff.mpr (List.forall₂_map_right_iff.mpr ?_)
        refine hfields.imp fun field field' hfield => ?_
        exact ⟨congrArg Step.key hfield.1, hfield.2.related, fun _ => hfield.2.isRequired_eq⟩
    | _ => exact .ok .nil
  · exact .ok .nil

theorem refines_parts {r r' : Resolved} (h : Similar rel r r') {value : Json}
    (hchildren : ∀ step child, value.child? step = some child → ∀ d d' path, rel d d' →
      Refines aside Eq (child.check limit registry d path) (child.check limit' registry' d' path))
    (path : String) :
    Refines aside Eq (Check.parts (value.childResults (Json.check limit registry)) r path)
      (Check.parts (value.childResults (Json.check limit' registry')) r' path) := by
  rw [Check.parts_eq_visits, Check.parts_eq_visits]
  refine (refines_visits h value).bind fun visits visits' hvisits => ?_
  refine (Refines.mapM_eq hvisits ?_).map_eq Report.join
  rintro ⟨step, part⟩ ⟨_, part'⟩ ⟨rfl, hpart, hrequired⟩
  cases hchild : value.child? step with
  | none =>
      rw [Check.visit_of_absent hchild, Check.visit_of_absent hchild, hrequired hchild]
      exact .ok rfl
  | some child =>
      rw [Check.visit_of_child hchild, Check.visit_of_child hchild]
      exact hchildren step child hchild part part' _ hpart

theorem refines_check (sim : IsSimulation aside limit limit' registry registry' rel)
    (value : Json) :
    ∀ d d' path, rel d d' → Refines aside Eq (value.check limit registry d path)
      (value.check limit' registry' d' path) := by
  -- Both sides check the same value, so the induction follows it and needs no limit.
  induction value using Json.child_induction with
  | value value ih =>
      intro d d' path hrel
      rw [Json.check_eq, Json.check_eq, Check.ofValue, Check.ofValue]
      refine (sim d d' hrel).bind fun r r' h => ?_
      rw [← h.kind_eq, ← h.isNotNull_eq]
      split
      · exact .ok rfl
      · split
        · rw [Check.options, Check.options, h.choices_eq]
          exact .refl (fun _ => rfl) _
        · split
          · exact refines_parts h ih path
          · exact .ok rfl

theorem refines_child (sim : IsSimulation aside limit limit' registry registry' rel)
    {d d' : TypeDef} (hrel : rel d d') (step : Step) :
    Refines aside rel (d.child limit registry step) (d'.child limit' registry' step) := by
  rw [TypeDef.child, TypeDef.child]
  refine (sim d d' hrel).bind fun r r' h => ?_
  rw [← h.kind_eq]
  split
  · next hkind => exact h.element aside (.inr hkind)
  · next hkind => exact h.element aside (.inl hkind)
  · next name hkind =>
      refine (h.declaredFields aside hkind).bind fun fields fields' hfields => ?_
      have hfield := hfields.get? name
      generalize fields.get? name = field, fields'.get? name = field' at hfield
      cases hfield with
      | none => exact .error _
      | some hfield => exact .ok hfield.related
  · exact .error _

theorem refines_atPath (sim : IsSimulation aside limit limit' registry registry' rel)
    {d d' : TypeDef} (hrel : rel d d') (path : List Step) :
    Refines aside rel (d.atPath limit registry path) (d'.atPath limit' registry' path) := by
  induction path generalizing d d' with
  | nil => exact .ok hrel
  | cons step path ih =>
      rw [TypeDef.atPath, TypeDef.atPath]
      exact (refines_child sim hrel step).bind fun part part' hpart => ih hpart

end Definition

/-! ## Comparison of two definitions -/

theorem refines_matchFields {aside : Failure → Prop}
    {relSource relTarget : TypeDef → TypeDef → Prop}
    {test test' : TypeDef → TypeDef → Except Failure Bool}
    {sources sources' targets targets' : Record TypeDef}
    (hsources : Record.Related relSource sources sources')
    (htargets : Record.Related relTarget targets targets')
    (htest : ∀ source source' target target', relSource source source' →
      relTarget target target' → Refines aside Eq (test source target) (test' source' target')) :
    Refines aside Eq (matchFields test sources targets) (matchFields test' sources' targets') := by
  -- Pairs are tested in the order of the sources, and the first that fails ends it on both sides.
  have hgo : ∀ entries entries' : List (String × TypeDef),
      List.Forall₂ (fun x y => x.1 = y.1 ∧ relSource x.2 y.2) entries entries' →
        Refines aside Eq (matchFields.go test targets entries)
          (matchFields.go test' targets' entries') := by
    intro entries entries' hentries
    induction hentries with
    | nil => exact .ok rfl
    | @cons entry entry' entries entries' hentry _ ih =>
        obtain ⟨name, source⟩ := entry
        obtain ⟨_, source'⟩ := entry'
        obtain ⟨rfl, hsource⟩ := hentry
        rw [matchFields.go, matchFields.go]
        have htarget := htargets.get? name
        generalize targets.get? name = target, targets'.get? name = target' at htarget
        cases htarget with
        | none => exact .ok rfl
        | some htarget =>
            refine (htest _ _ _ _ hsource htarget).bind_eq fun passed => ?_
            cases passed with
            | false => exact .ok rfl
            | true => exact ih
  rw [matchFields, matchFields, Record.size, Record.size, Record.size, Record.size,
    hsources.names_eq, htargets.names_eq]
  split
  · exact hgo _ _ hsources
  · exact .ok rfl

/-- One level of a comparison. The source must be of the same kind wherever the comparison goes on
to the parts of the target. -/
theorem refines_compareLayer {aside : Failure → Prop}
    {relSource relTarget : TypeDef → TypeDef → Prop} {kinds : Builtin → Builtin → Bool}
    {flags : Bool → Bool → Bool} {parts parts' : TypeDef → TypeDef → Except Failure Bool}
    {source source' target target' : Resolved}
    (hkinds : ∀ kind kind', kinds kind kind' = true →
      kind' = .arrayOf ∨ kind' = .objectOf ∨ kind' = .shape → kind = kind')
    (hsource : Similar relSource source source') (htarget : Similar relTarget target target')
    (hparts : ∀ d d' e e', relSource d d' → relTarget e e' →
      Refines aside Eq (parts d e) (parts' d' e')) :
    Refines aside Eq (compareLayer kinds flags parts source target)
      (compareLayer kinds flags parts' source' target') := by
  have helements : source.kind = target.kind → target.kind = .arrayOf ∨ target.kind = .objectOf →
      Refines aside Eq
        (source.definition.element >>= fun d => target.definition.element >>= fun e => parts d e)
        (source'.definition.element >>= fun d => target'.definition.element >>= fun e =>
          parts' d e) := by
    intro hsame hkind
    refine (hsource.element aside (hsame ▸ hkind)).bind fun d d' hd => ?_
    exact (htarget.element aside hkind).bind fun e e' he => hparts d d' e e' hd he
  -- Both sides take the same branch, which is chosen by kinds and flags.
  unfold compareLayer
  rw [← hsource.kind_eq, ← htarget.kind_eq, ← hsource.isNotNull_eq, ← htarget.isNotNull_eq]
  split
  · next hpass =>
      have hsame := hkinds _ _ hpass
      cases hkind : target.kind with
      | scalar =>
          rw [hsource.name_eq, htarget.name_eq]
          exact .ok rfl
      | oneOf =>
          rw [hsource.choices_eq, htarget.choices_eq]
          exact .refl (fun _ => rfl) _
      | arrayOf => exact helements (hsame (by simp [hkind])) (by simp [hkind])
      | objectOf =>
          dsimp only
          split
          · exact helements (hsame (by simp [hkind])) (by simp [hkind])
          · exact .ok rfl
      | shape =>
          dsimp only
          split
          · have hkind' : source.kind = .shape := (hsame (by simp [hkind])).trans hkind
            refine (hsource.declaredFields aside hkind').bind fun fields fields' hfields => ?_
            refine (htarget.declaredFields aside hkind).bind fun others others' hothers => ?_
            refine refines_matchFields hfields hothers fun d d' e e' hd he => ?_
            rw [hd.isRequired_eq, he.isRequired_eq]
            split
            · exact hparts d d' e e' hd.related he.related
            · exact .ok rfl
          · exact .ok rfl
      | _ => exact .ok rfl
  · exact .ok rfl

section Comparison

variable {aside : Failure → Prop} {limit limit' : Nat}
  {leftRegistry leftRegistry' rightRegistry rightRegistry' : Registry}
  {relLeft relRight : TypeDef → TypeDef → Prop}
  (simLeft : IsSimulation aside limit limit' leftRegistry leftRegistry' relLeft)
  (simRight : IsSimulation aside limit limit' rightRegistry rightRegistry' relRight)

include simLeft simRight

/-- Recursions whose levels are compared alike. -/
theorem refines_compareWithin {kinds : Builtin → Builtin → Bool} {flags : Bool → Bool → Bool}
    (hkinds : ∀ kind kind', kinds kind kind' = true →
      kind' = .arrayOf ∨ kind' = .objectOf ∨ kind' = .shape → kind = kind')
    {compare compare' : Nat → TypeDef → TypeDef → Except Failure Bool}
    (zero : ∀ left right, compare 0 left right = .error (.recursionLimit limit))
    (zero' : ∀ left right, compare' 0 left right = .error (.recursionLimit limit'))
    (succ : ∀ depth left right, compare (depth + 1) left right =
      left.resolve limit leftRegistry >>= fun source =>
        right.resolve limit rightRegistry >>= fun target =>
          compareLayer kinds flags (compare depth) source target)
    (succ' : ∀ depth left right, compare' (depth + 1) left right =
      left.resolve limit' leftRegistry' >>= fun source =>
        right.resolve limit' rightRegistry' >>= fun target =>
          compareLayer kinds flags (compare' depth) source target)
    {depth depth' : Nat} (room : Room aside limit limit' depth depth')
    {left left' right right' : TypeDef} (hleft : relLeft left left')
    (hright : relRight right right') :
    Refines aside Eq (compare depth left right) (compare' depth' left' right') := by
  suffices hpairs : ∀ pair pair' : TypeDef × TypeDef,
      relLeft pair.1 pair'.1 ∧ relRight pair.2 pair'.2 →
        Refines aside Eq (compare depth pair.1 pair.2) (compare' depth' pair'.1 pair'.2) from
    hpairs (left, right) (left', right') ⟨hleft, hright⟩
  apply room.refines
  · exact fun _ => zero _ _
  · exact fun _ => zero' _ _
  rintro depth depth' ih ⟨left, right⟩ ⟨left', right'⟩ ⟨hleft, hright⟩
  rw [succ, succ']
  refine (simLeft left left' hleft).bind fun source source' hsource => ?_
  refine (simRight right right' hright).bind fun target target' htarget => ?_
  refine refines_compareLayer hkinds hsource htarget fun d d' e e' hd he => ?_
  exact ih (d, e) (d', e') ⟨hd, he⟩

theorem refines_equivalentWithin {depth depth' : Nat} (room : Room aside limit limit' depth depth')
    {left left' right right' : TypeDef} (hleft : relLeft left left')
    (hright : relRight right right') :
    Refines aside Eq (TypeDef.equivalentWithin limit leftRegistry rightRegistry depth left right)
      (TypeDef.equivalentWithin limit' leftRegistry' rightRegistry' depth' left' right') := by
  refine refines_compareWithin simLeft simRight ?_ (fun _ _ => rfl) (fun _ _ => rfl)
    (equivalentWithin_succ limit leftRegistry rightRegistry)
    (equivalentWithin_succ limit' leftRegistry' rightRegistry') room hleft hright
  intro kind kind' h _
  exact (Builtin.equates_iff.mp h).1

theorem refines_compatibleWithin {depth depth' : Nat} (room : Room aside limit limit' depth depth')
    {left left' right right' : TypeDef} (hleft : relLeft left left')
    (hright : relRight right right') :
    Refines aside Eq (TypeDef.compatibleWithin limit leftRegistry rightRegistry depth left right)
      (TypeDef.compatibleWithin limit' leftRegistry' rightRegistry' depth' left' right') := by
  refine refines_compareWithin simLeft simRight ?_ (fun _ _ => rfl) (fun _ _ => rfl)
    (compatibleWithin_succ limit leftRegistry rightRegistry)
    (compatibleWithin_succ limit' leftRegistry' rightRegistry') room hleft hright
  rintro kind _ h (rfl | rfl | rfl) <;> exact Builtin.eq_of_widensTo h rfl (by decide)

end Comparison

/-! ## Coercion -/

/-- Pairs of fields with the same name and similar definitions on both sides. -/
structure SimilarPair (relSource relTarget : TypeDef → TypeDef → Prop)
    (pair pair' : String × TypeDef × TypeDef) : Prop where
  name_eq : pair.1 = pair'.1
  source : relSource pair.2.1 pair'.2.1
  target : relTarget pair.2.2 pair'.2.2

theorem refines_pairFields {aside : Failure → Prop}
    {relSource relTarget : TypeDef → TypeDef → Prop}
    {sources sources' targets targets' : Record TypeDef}
    (hsources : Record.Related (SimilarField relSource) sources sources')
    (htargets : Record.Related (SimilarField relTarget) targets targets') :
    Refines aside (List.Forall₂ (SimilarPair relSource relTarget))
      (Coerce.pairFields sources targets) (Coerce.pairFields sources' targets') := by
  refine Refines.mapM hsources ?_
  rintro ⟨name, source⟩ ⟨_, source'⟩ ⟨rfl, hsource⟩
  dsimp only
  have htarget := htargets.get? name
  generalize targets.get? name = target, targets'.get? name = target' at htarget
  cases htarget with
  | none => exact .error _
  | some htarget => exact .ok ⟨rfl, hsource.related, htarget.related⟩

section Coercion

variable {aside : Failure → Prop} {limit limit' : Nat}
  {sourceRegistry sourceRegistry' targetRegistry targetRegistry' : Registry}
  {relSource relTarget : TypeDef → TypeDef → Prop}
  (simSource : IsSimulation aside limit limit' sourceRegistry sourceRegistry' relSource)
  (simTarget : IsSimulation aside limit limit' targetRegistry targetRegistry' relTarget)

include simSource simTarget

theorem refines_coerce (value : Json) :
    ∀ source source' target target', relSource source source' → relTarget target target' →
      Refines aside Eq (value.coerce limit sourceRegistry targetRegistry source target)
        (value.coerce limit' sourceRegistry' targetRegistry' source' target') := by
  induction value using Json.child_induction with
  | value value ih =>
      intro source source' target target' hsource htarget
      rw [Json.coerce_eq, Json.coerce_eq, Coerce.ofValue, Coerce.ofValue]
      refine (simSource source source' hsource).bind fun r r' h => ?_
      refine (simTarget target target' htarget).bind fun t t' ht => ?_
      dsimp only
      rw [← h.kind_eq, ← ht.kind_eq]
      cases hconversion : Conversion.between? r.kind t.kind with
      | none => exact .error _
      | some conversion =>
          cases conversion with
          | eachItem =>
              obtain ⟨hkind, hkind'⟩ := Conversion.kinds_of_eachItem hconversion
              refine (h.element aside (.inl hkind)).bind fun s s' hs => ?_
              refine (ht.element aside (.inl hkind')).bind fun e e' he => ?_
              cases value with
              | array items =>
                  simp only [Json.childResults, List.mapM_map]
                  refine (Refines.mapM_same ?_).map_eq Json.array
                  intro item hitem
                  obtain ⟨position, hchild⟩ := List.mem_iff_getElem?.mp hitem
                  exact ih (.index position) item hchild s s' e e' hs he
              | _ => exact .ok rfl
          | eachMember =>
              obtain ⟨hkind, hkind'⟩ := Conversion.kinds_of_eachMember hconversion
              refine (h.element aside (.inr hkind)).bind fun s s' hs => ?_
              refine (ht.element aside (.inr hkind')).bind fun e e' he => ?_
              cases value with
              | object members =>
                  simp only [Json.childResults, Record.mapM_map]
                  refine (Record.refines_mapM_same ?_).map_eq Json.object
                  intro name item hchild
                  exact ih (.key name) item hchild s s' e e' hs he
              | _ => exact .ok rfl
          | eachField =>
              obtain ⟨hkind, hkind'⟩ := Conversion.kinds_of_eachField hconversion
              refine (h.declaredFields aside hkind).bind fun sources sources' hsources => ?_
              refine (ht.declaredFields aside hkind').bind fun targets targets' htargets => ?_
              refine (refines_pairFields hsources htargets).bind fun pairs pairs' hpairs => ?_
              cases value with
              | object members =>
                  refine (Refines.mapM_eq hpairs ?_).bind_eq fun _ => .ok rfl
                  rintro ⟨name, s, e⟩ ⟨_, s', e'⟩ ⟨rfl, hs, he⟩
                  simp only [Record.get?_map]
                  cases hmember : members.get? name with
                  | none => exact .ok rfl
                  | some item =>
                      exact (ih (.key name) item hmember s s' e e' hs he).bind_eq fun _ => .ok rfl
              | _ => exact .ok rfl
          | _ => exact .ok rfl

end Coercion

end ValueSchema
