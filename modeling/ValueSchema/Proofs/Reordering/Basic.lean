import ValueSchema.Proofs.Record
import ValueSchema.Proofs.Resolution
import ValueSchema.Proofs.Spelling.Basic

/-! # Definitions with their fields in another order

A traversal of fields may stop at another failure then, so two runs are compared by `Agree`. -/

namespace ValueSchema

/-! ## Lists in another order -/

/-- The items of one list in another order are related to those of a second list one by one. -/
def Rearranged {α β : Type} (rel : α → β → Prop) (xs : List α) (ys : List β) : Prop :=
  ∃ middle, xs.Perm middle ∧ List.Forall₂ rel middle ys

namespace Rearranged

variable {α β γ δ : Type} {rel : α → β → Prop} {rel' : γ → δ → Prop} {xs : List α} {ys : List β}

theorem map_perm {f : α → γ} {g : β → γ} (h : Rearranged rel xs ys)
    (hrel : ∀ x y, rel x y → f x = g y) : (xs.map f).Perm (ys.map g) := by
  obtain ⟨middle, hperm, hmiddle⟩ := h
  rw [← map_eq_map_of_forall₂ hmiddle hrel]
  exact hperm.map f

theorem of_forall₂ (h : List.Forall₂ rel xs ys) : Rearranged rel xs ys := ⟨xs, .refl xs, h⟩

theorem map {f : α → γ} {g : β → δ} (h : Rearranged rel xs ys)
    (hrel : ∀ x y, rel x y → rel' (f x) (g y)) : Rearranged rel' (xs.map f) (ys.map g) := by
  obtain ⟨middle, hperm, hmiddle⟩ := h
  exact ⟨middle.map f, hperm.map f, List.rel_map (fun x y hxy => hrel x y hxy) hmiddle⟩

theorem filterMap {f : α → Option γ} {g : β → Option δ} (h : Rearranged rel xs ys)
    (hrel : ∀ x y, rel x y → Option.Rel rel' (f x) (g y)) :
    Rearranged rel' (xs.filterMap f) (ys.filterMap g) := by
  obtain ⟨middle, hperm, hmiddle⟩ := h
  refine ⟨middle.filterMap f, hperm.filterMap f, ?_⟩
  exact List.rel_filterMap (fun x y hxy => hrel x y hxy) hmiddle

end Rearranged

/-! ## Computations that agree -/

/-- Both computations return related results, or both fail. -/
inductive Agree {ε α β : Type} (rel : α → β → Prop) : Except ε α → Except ε β → Prop
  | ok {a : α} {b : β} (h : rel a b) : Agree rel (.ok a) (.ok b)
  | error (e e' : ε) : Agree rel (.error e) (.error e')

namespace Agree

variable {ε α β γ δ : Type} {rel : α → β → Prop} {rel' : γ → δ → Prop}

theorem refl {rel : α → α → Prop} (h : ∀ a, rel a a) (x : Except ε α) : Agree rel x x := by
  cases x with
  | error e => exact .error e e
  | ok a => exact .ok (h a)

theorem imp {rel' : α → β → Prop} {x : Except ε α} {y : Except ε β} (h : Agree rel x y)
    (hrel : ∀ a b, rel a b → rel' a b) : Agree rel' x y := by
  cases h with
  | ok h => exact .ok (hrel _ _ h)
  | error e e' => exact .error e e'

theorem bind {x : Except ε α} {y : Except ε β} {f : α → Except ε γ} {g : β → Except ε δ}
    (h : Agree rel x y) (hf : ∀ a b, rel a b → Agree rel' (f a) (g b)) :
    Agree rel' (x >>= f) (y >>= g) := by
  cases h with
  | ok h => exact hf _ _ h
  | error e e' => exact .error e e'

theorem map {x : Except ε α} {y : Except ε β} {f : α → γ} {g : β → δ} (h : Agree rel x y)
    (hf : ∀ a b, rel a b → rel' (f a) (g b)) : Agree rel' (f <$> x) (g <$> y) := by
  cases h with
  | ok h => exact .ok (hf _ _ h)
  | error e e' => exact .error e e'

theorem of_map {x : Except ε α} {y : Except ε β} {f : α → γ} {g : β → δ}
    (h : Agree rel' (f <$> x) (g <$> y)) : Agree (fun a b => rel' (f a) (g b)) x y := by
  cases x with
  | error e =>
      cases y with
      | error e' => exact .error e e'
      | ok b => cases h
  | ok a =>
      cases y with
      | error e' => cases h
      | ok b =>
          cases h with
          | ok h => exact .ok h

theorem comp {rel' : β → γ → Prop} {x : Except ε α} {y : Except ε β} {z : Except ε γ}
    (h : Agree rel x y) (h' : Agree rel' y z) :
    Agree (fun a c => ∃ b, rel a b ∧ rel' b c) x z := by
  cases h with
  | ok h =>
      cases h' with
      | ok h' => exact .ok ⟨_, h, h'⟩
  | error e e' =>
      cases h' with
      | error _ e'' => exact .error e e''

theorem exists_right {x : Except ε α} {y : Except ε β} {a : α} (h : Agree rel x y)
    (hx : x = .ok a) : ∃ b, y = .ok b ∧ rel a b := by
  cases h with
  | ok h =>
      cases hx
      exact ⟨_, rfl, h⟩
  | error e e' => cases hx

/-- What is known of the first result may be added to the relation. -/
theorem and_left {good : α → Prop} {x : Except ε α} {y : Except ε β} (h : Agree rel x y)
    (hgood : ∀ a, x = .ok a → good a) : Agree (fun a b => good a ∧ rel a b) x y := by
  cases h with
  | ok h => exact .ok ⟨hgood _ rfl, h⟩
  | error e e' => exact .error e e'

theorem mapM {f : α → Except ε γ} {g : β → Except ε δ} {xs : List α} {ys : List β}
    (h : List.Forall₂ rel xs ys) (hf : ∀ x y, rel x y → Agree rel' (f x) (g y)) :
    Agree (List.Forall₂ rel') (xs.mapM f) (ys.mapM g) := by
  induction h with
  | nil => exact .ok .nil
  | cons hhead _ ih =>
      rw [List.mapM_cons, List.mapM_cons]
      refine bind (hf _ _ hhead) fun a b hab => bind ih fun as bs habs => ?_
      exact .ok (.cons hab habs)

theorem mapM_same {rel : β → β → Prop} {f g : α → Except ε β} {xs : List α}
    (hf : ∀ x ∈ xs, Agree rel (f x) (g x)) :
    Agree (List.Forall₂ rel) (xs.mapM f) (xs.mapM g) := by
  have hself : List.Forall₂ (fun x y => x = y ∧ x ∈ xs) xs xs :=
    List.forall₂_same.mpr fun x hx => ⟨rfl, hx⟩
  refine mapM hself ?_
  rintro x _ ⟨rfl, hx⟩
  exact hf x hx

/-- The order of a traversal decides which failure is met first, but not whether there is one. -/
theorem mapM_perm (f : α → Except ε β) {xs ys : List α} (h : xs.Perm ys) :
    Agree List.Perm (xs.mapM f) (ys.mapM f) := by
  induction h with
  | nil => exact .ok .nil
  | cons x _ ih =>
      rw [List.mapM_cons, List.mapM_cons]
      cases f x with
      | error e => exact .error e e
      | ok a => exact ih.bind fun as bs hperm => .ok (hperm.cons a)
  | swap x y xs =>
      simp only [List.mapM_cons]
      cases f x with
      | error e =>
          cases f y with
          | error e' => exact .error e' e
          | ok b => exact .error e e
      | ok a =>
          cases f y with
          | error e' => exact .error e' e'
          | ok b =>
              cases xs.mapM f with
              | error e => exact .error e e
              | ok as => exact .ok (.swap a b as)
  | trans _ _ ih ih' =>
      refine (ih.comp ih').imp ?_
      rintro as cs ⟨bs, hperm, hperm'⟩
      exact hperm.trans hperm'

theorem mapM_rearranged {f : α → Except ε γ} {g : β → Except ε δ} {xs : List α} {ys : List β}
    (h : Rearranged rel xs ys) (hf : ∀ x y, rel x y → Agree rel' (f x) (g y)) :
    Agree (Rearranged rel') (xs.mapM f) (ys.mapM g) := by
  obtain ⟨middle, hperm, hmiddle⟩ := h
  exact (mapM_perm f hperm).comp (mapM hmiddle hf)

end Agree

/-! ## Optional values -/

theorem optionRel_flip {α β : Type} {rel : α → β → Prop} {rel' : β → α → Prop} {x : Option α}
    {y : Option β} (h : Option.Rel rel x y) (hrel : ∀ a b, x = some a → rel a b → rel' b a) :
    Option.Rel rel' y x := by
  cases h with
  | none => exact .none
  | some h => exact .some (hrel _ _ rfl h)

theorem optionRel_orElse {α β : Type} {rel : α → β → Prop} {x x' : Option α} {y y' : Option β}
    (h : Option.Rel rel x y) (h' : Option.Rel rel x' y') :
    Option.Rel rel (x <|> x') (y <|> y') := by
  cases h with
  | none => exact h'
  | some h => exact .some h

/-! ## Records in another order -/

/-- Two records with the same names in any order, and related values under each name. The records
are indices and not parameters, so that the relation can be nested in that of their values. -/
inductive Record.Reordered {α β : Type} (rel : α → β → Prop) : Record α → Record β → Prop
  | intro {s : Record β} {r : Record α} (names_perm : r.names.Perm s.names)
      (each : ∀ name a b, r.get? name = some a → s.get? name = some b → rel a b) :
      Reordered rel r s

namespace Record

variable {α β : Type} {rel : α → β → Prop} {r : Record α} {s : Record β}

theorem Reordered.names_perm (h : r.Reordered rel s) : r.names.Perm s.names := by
  cases h with
  | intro names_perm each => exact names_perm

theorem Reordered.size_eq (h : r.Reordered rel s) : r.size = s.size := h.names_perm.length_eq

theorem Reordered.get? (h : r.Reordered rel s) (name : String) :
    Option.Rel rel (r.get? name) (s.get? name) := by
  cases h with
  | intro names_perm each =>
      cases hr : r.get? name with
      | none =>
          have hs : s.get? name = none := by
            rw [get?_eq_none_iff, ← names_perm.mem_iff]
            exact get?_eq_none_iff.mp hr
          rw [hs]
          exact .none
      | some a =>
          have hname : name ∈ s.names := names_perm.subset (mem_names_iff.mpr ⟨a, hr⟩)
          obtain ⟨b, hs⟩ := mem_names_iff.mp hname
          rw [hs]
          exact .some (each name a b hr hs)

theorem Reordered.exists_right (h : r.Reordered rel s) {name : String} {a : α}
    (ha : r.get? name = some a) : ∃ b, s.get? name = some b ∧ rel a b := by
  have hrel := h.get? name
  rw [ha] at hrel
  generalize s.get? name = value at hrel
  cases hrel with
  | some hrel => exact ⟨_, rfl, hrel⟩

theorem Reordered.refl {rel : α → α → Prop} (h : ∀ entry ∈ r.toList, rel entry.2 entry.2) :
    r.Reordered rel r := by
  refine .intro (.refl _) fun name a b ha hb => ?_
  cases ha.symm.trans hb
  exact h (name, a) (get?_eq_some_iff.mp ha)

theorem Reordered.symm {rel' : β → α → Prop} (h : r.Reordered rel s)
    (hrel : ∀ entry ∈ r.toList, ∀ b, rel entry.2 b → rel' b entry.2) : s.Reordered rel' r := by
  cases h with
  | intro names_perm each =>
      refine .intro names_perm.symm fun name b a hb ha => ?_
      exact hrel (name, a) (get?_eq_some_iff.mp ha) b (each name a b ha hb)

/-- The entries of records in another order are those of one record, rearranged. -/
theorem reordered_iff :
    r.Reordered rel s ↔
      Rearranged (fun x y => x.1 = y.1 ∧ rel x.2 y.2) r.toList s.toList := by
  constructor
  · intro h
    have hnames : List.Forall₂ (fun name entry => name = entry.1) r.names r.toList := by
      rw [← r.map_fst_toList, List.forall₂_map_left_iff]
      exact List.forall₂_same.mpr fun _ _ => rfl
    -- The entries of the first record, in the order in which the second has its names.
    obtain ⟨middle, hmiddle, hperm⟩ := List.perm_comp_forall₂ h.names_perm.symm hnames
    have hmap : middle.map Prod.fst = s.toList.map Prod.fst := by
      rw [s.map_fst_toList, ← List.map_id s.names]
      exact map_eq_map_of_forall₂ hmiddle.flip fun _ _ hname => hname.symm
    refine ⟨middle, hperm.symm, forall₂_of_map_eq hmap ?_⟩
    rintro ⟨name, a⟩ ha ⟨_, b⟩ hb rfl
    have hrel := h.get? name
    rw [get?_eq_some_iff.mpr (hperm.subset ha), get?_eq_some_iff.mpr hb] at hrel
    cases hrel with
    | some hrel => exact ⟨rfl, hrel⟩
  · intro h
    refine .intro ?_ ?_
    · rw [← r.map_fst_toList, ← s.map_fst_toList]
      exact h.map_perm fun _ _ hrel => hrel.1
    · intro name a b ha hb
      obtain ⟨middle, hperm, hmiddle⟩ := h
      have hcounterpart : ∀ x ∈ middle, ∃ y ∈ s.toList, x.1 = y.1 ∧ rel x.2 y.2 :=
        forall_of_forall₂ hmiddle.flip fun y _ hy hrel => ⟨y, hy, hrel⟩
      obtain ⟨⟨_, b'⟩, hb', rfl, hrel⟩ :=
        hcounterpart (name, a) (hperm.subset (get?_eq_some_iff.mp ha))
      cases hb.symm.trans (get?_eq_some_iff.mpr hb')
      exact hrel

/-- Traversals of records in another order agree if those of the values do. -/
theorem Reordered.mapM {ε γ δ : Type} {rel' : γ → δ → Prop} {f : α → Except ε γ}
    {g : β → Except ε δ} (h : r.Reordered rel s)
    (hf : ∀ a b, rel a b → Agree rel' (f a) (g b)) :
    Agree (Record.Reordered rel') (r.mapM f) (s.mapM g) := by
  have hlists : Agree (Rearranged fun x y => x.1 = y.1 ∧ rel' x.2 y.2)
      (toList <$> r.mapM f) (toList <$> s.mapM g) := by
    rw [toList_mapM, toList_mapM]
    refine Agree.mapM_rearranged (reordered_iff.mp h) fun x y hxy => ?_
    exact (hf x.2 y.2 hxy.2).map fun c d hcd => ⟨hxy.1, hcd⟩
  exact hlists.of_map.imp fun _ _ hview => reordered_iff.mpr hview

theorem Reordered.ofList {xs : List (String × α)} {ys : List (String × β)}
    (h : Rearranged (fun x y => x.1 = y.1 ∧ rel x.2 y.2) xs ys)
    (nodup : (xs.map Prod.fst).Nodup) : (Record.ofList xs).Reordered rel (Record.ofList ys) := by
  have hnames : (xs.map Prod.fst).Perm (ys.map Prod.fst) := h.map_perm fun _ _ hrel => hrel.1
  rw [reordered_iff, toList_ofList xs nodup, toList_ofList ys (hnames.nodup_iff.mp nodup)]
  exact h

end Record

/-! ## Definitions in another order -/

/-- Definitions that differ only in the order of the fields in them. -/
inductive TypeDef.Reordered : TypeDef → TypeDef → Prop
  | intro {d d' : TypeDef} (kind_eq : d.kind = d'.kind) (notNull_eq : d.notNull = d'.notNull)
      (ofType : Option.Rel TypeDef.Reordered d.ofType d'.ofType)
      (fields : Option.Rel (Record.Reordered TypeDef.Reordered) d.fields d'.fields)
      (options_eq : d.options = d'.options) (required_eq : d.required = d'.required)
      (name_eq : d.name = d'.name) : Reordered d d'

/-- Registries with the same names, and under each name definitions that differ only in the order
of fields. -/
def Registry.Reordered (registry registry' : Registry) : Prop :=
  ∀ name, Option.Rel TypeDef.Reordered (registry.get? name) (registry'.get? name)

/-- Resolved definitions that differ only in the order of fields. -/
structure Resolved.Reordered (resolved resolved' : Resolved) : Prop where
  kind_eq : resolved.kind = resolved'.kind
  definition : TypeDef.Reordered resolved.definition resolved'.definition

namespace TypeDef.Reordered

variable {d d' e e' : TypeDef}

theorem kind_eq (h : Reordered d d') : d.kind = d'.kind := by
  cases h with
  | intro kind_eq => exact kind_eq

theorem isRequired_eq (h : Reordered d d') : d.isRequired = d'.isRequired := by
  cases h with
  | intro _ _ _ _ _ required_eq => rw [isRequired, isRequired, required_eq]

theorem refl (d : TypeDef) : Reordered d d := by
  induction d using TypeDef.induction with
  | step d hofType hfields =>
      refine .intro rfl rfl ?_ ?_ rfl rfl rfl
      · cases h : d.ofType with
        | none => exact .none
        | some element => exact .some (hofType element h)
      · cases h : d.fields with
        | none => exact .none
        | some fields => exact .some (.refl (hfields fields h))

theorem symm (h : Reordered d d') : Reordered d' d := by
  induction d using TypeDef.induction generalizing d' with
  | step d hofType hfields =>
      cases h with
      | intro kind_eq notNull_eq ofType fields options_eq required_eq name_eq =>
          refine .intro kind_eq.symm notNull_eq.symm ?_ ?_ options_eq.symm required_eq.symm
            name_eq.symm
          · exact optionRel_flip ofType fun element _ helement => hofType element helement
          · refine optionRel_flip fields fun record _ hrecord hreordered => ?_
            exact hreordered.symm fun entry hentry _ => hfields record hrecord entry hentry

/-- The fields of a shape may be declared in any order. -/
theorem shape {fields fields' : List (String × TypeDef)}
    (h : Rearranged (fun x y => x.1 = y.1 ∧ Reordered x.2 y.2) fields fields')
    (nodup : (fields.map Prod.fst).Nodup) :
    Reordered (TypeDef.shape fields) (TypeDef.shape fields') :=
  .intro rfl rfl .none (.some (.ofList h nodup)) rfl rfl rfl

theorem overlay (hd : Reordered d d') (he : Reordered e e') :
    Reordered (d.overlay e) (d'.overlay e') := by
  cases hd with
  | intro _ notNull_eq ofType fields options_eq required_eq name_eq =>
      cases he with
      | intro kind_eq' notNull_eq' ofType' fields' options_eq' required_eq' name_eq' =>
          refine .intro kind_eq' ?_ (optionRel_orElse ofType ofType')
            (optionRel_orElse fields fields') ?_ ?_ ?_
          · rw [TypeDef.overlay, TypeDef.overlay, notNull_eq, notNull_eq']
          · rw [TypeDef.overlay, TypeDef.overlay, options_eq, options_eq']
          · rw [TypeDef.overlay, TypeDef.overlay, required_eq, required_eq']
          · rw [TypeDef.overlay, TypeDef.overlay, name_eq, name_eq']

end TypeDef.Reordered

namespace Registry.Reordered

variable {registry registry' : Registry}

theorem refl (registry : Registry) : Reordered registry registry := by
  intro name
  cases registry.get? name with
  | none => exact .none
  | some d => exact .some (.refl d)

theorem symm (h : Reordered registry registry') : Reordered registry' registry :=
  fun name => optionRel_flip (h name) fun _ _ _ hentry => hentry.symm

theorem of_entries
    (h : List.Forall₂ (fun x y => x.1 = y.1 ∧ x.2.Reordered y.2) registry.entries
      registry'.entries) : Reordered registry registry' := by
  intro name
  rw [Registry.get?, Registry.get?]
  generalize registry.entries = entries, registry'.entries = entries' at h
  induction h with
  | nil => exact .none
  | @cons x y _ _ hhead _ ih =>
      obtain ⟨key, d⟩ := x
      obtain ⟨_, d'⟩ := y
      obtain ⟨rfl, hd⟩ := hhead
      rw [List.lookup_cons, List.lookup_cons]
      cases name == key with
      | true => exact .some hd
      | false => exact ih

/-- References are followed to definitions that differ only in the order of fields. -/
theorem agree_resolveWithin (h : Reordered registry registry') (limit hops : Nat) {d d' : TypeDef}
    (hd : d.Reordered d') :
    Agree Resolved.Reordered (d.resolveWithin limit registry hops)
      (d'.resolveWithin limit registry' hops) := by
  induction hops generalizing d d' with
  | zero =>
      cases hkind : d.kind with
      | builtin kind =>
          rw [TypeDef.resolveWithin_of_builtin hkind,
            TypeDef.resolveWithin_of_builtin (hd.kind_eq ▸ hkind)]
          exact .ok ⟨rfl, hd⟩
      | reference name =>
          rw [TypeDef.resolveWithin_zero hkind, TypeDef.resolveWithin_zero (hd.kind_eq ▸ hkind)]
          exact .error _ _
  | succ hops ih =>
      cases hkind : d.kind with
      | builtin kind =>
          rw [TypeDef.resolveWithin_of_builtin hkind,
            TypeDef.resolveWithin_of_builtin (hd.kind_eq ▸ hkind)]
          exact .ok ⟨rfl, hd⟩
      | reference name =>
          have hkind' : d'.kind = .reference name := hd.kind_eq ▸ hkind
          have hentry := h name
          generalize hget : registry.get? name = entry, hget' : registry'.get? name = entry'
            at hentry
          cases hentry with
          | none =>
              rw [TypeDef.resolveWithin_of_get?_eq_none hkind hget,
                TypeDef.resolveWithin_of_get?_eq_none hkind' hget']
              exact .error _ _
          | some hentry =>
              rw [TypeDef.resolveWithin_of_get?_eq_some hkind hget,
                TypeDef.resolveWithin_of_get?_eq_some hkind' hget']
              exact ih (hd.overlay hentry)

theorem agree_resolve (h : Reordered registry registry') (limit : Nat) {d d' : TypeDef}
    (hd : d.Reordered d') :
    Agree Resolved.Reordered (d.resolve limit registry) (d'.resolve limit registry') :=
  h.agree_resolveWithin limit limit hd

end Registry.Reordered

/-! ## What is read of a resolved definition -/

namespace Resolved.Reordered

variable {resolved resolved' : Resolved}

theorem isNotNull_eq (h : Reordered resolved resolved') :
    resolved.definition.isNotNull = resolved'.definition.isNotNull := by
  cases h.definition with
  | intro _ notNull_eq => rw [TypeDef.isNotNull, TypeDef.isNotNull, notNull_eq]

theorem name_eq (h : Reordered resolved resolved') :
    resolved.definition.name = resolved'.definition.name := by
  cases h.definition with
  | intro _ _ _ _ _ _ name_eq => exact name_eq

theorem choices_eq (h : Reordered resolved resolved') :
    resolved.definition.choices = resolved'.definition.choices := by
  cases h.definition with
  | intro kind_eq _ _ _ options_eq =>
      simp only [TypeDef.choices, TypeDef.invalid, options_eq, kind_eq]

theorem element (h : Reordered resolved resolved') :
    Agree TypeDef.Reordered resolved.definition.element resolved'.definition.element := by
  cases h.definition with
  | intro _ _ ofType =>
      rw [TypeDef.element, TypeDef.element]
      generalize resolved.definition.ofType = part, resolved'.definition.ofType = part' at ofType
      cases ofType with
      | none => exact .error _ _
      | some ofType => exact .ok ofType

theorem declaredFields (h : Reordered resolved resolved') :
    Agree (Record.Reordered TypeDef.Reordered) resolved.definition.declaredFields
      resolved'.definition.declaredFields := by
  cases h.definition with
  | intro _ _ _ fields =>
      rw [TypeDef.declaredFields, TypeDef.declaredFields]
      generalize resolved.definition.fields = parts, resolved'.definition.fields = parts' at fields
      cases fields with
      | none => exact .error _ _
      | some fields => exact .ok fields

end Resolved.Reordered

end ValueSchema
