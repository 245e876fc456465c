import Mathlib.Data.List.Perm.Subperm
import ValueSchema.Proofs.Computation
import ValueSchema.Record

/-! # Look-up and traversal of records -/

namespace ValueSchema

/-- Leaving out entries and replacing their values keeps the order of the names. -/
theorem map_fst_filterMap_sublist {α β : Type} {f : String × α → Option (String × β)}
    (hname : ∀ x y, f x = some y → y.1 = x.1) (xs : List (String × α)) :
    ((xs.filterMap f).map Prod.fst).Sublist (xs.map Prod.fst) := by
  induction xs with
  | nil => exact List.Sublist.slnil
  | cons x xs ih =>
      rw [List.filterMap_cons, List.map_cons]
      cases hx : f x with
      | none => exact ih.cons _
      | some y =>
          rw [List.map_cons, hname x y hx]
          exact ih.cons_cons _

namespace Values

theorem get?_eq_none_iff {α : Type} (key : String) {names : List String}
    (values : Values α names) : values.get? key = none ↔ key ∉ names := by
  induction values with
  | nil => simp [get?]
  | @cons name names value rest ih =>
      by_cases h : name = key
      · simp [get?, h]
      · simp [get?, h, ih, Ne.symm h]

theorem mem_toList_of_get? {α : Type} {key : String} {value : α} {names : List String}
    {values : Values α names} (h : values.get? key = some value) :
    (key, value) ∈ values.toList := by
  induction values with
  | nil => cases h
  | @cons name names head rest ih =>
      rw [get?] at h
      split at h
      · next hname =>
          cases h
          exact hname ▸ List.mem_cons_self ..
      · exact List.mem_cons_of_mem _ (ih h)

theorem get?_of_mem_toList {α : Type} {key : String} {value : α} {names : List String}
    {values : Values α names} (nodup : names.Nodup) (h : (key, value) ∈ values.toList) :
    values.get? key = some value := by
  induction values with
  | nil => cases h
  | @cons name names head rest ih =>
      rw [toList, List.mem_cons] at h
      rcases h with h | h
      · obtain ⟨rfl, rfl⟩ := Prod.mk.inj h
        simp [get?]
      · have hname : name ≠ key := by
          rintro rfl
          refine (List.nodup_cons.mp nodup).1 ?_
          rw [← rest.map_fst_toList]
          exact List.mem_map_of_mem h
        rw [get?, if_neg hname]
        exact ih (List.nodup_cons.mp nodup).2 h

/-- A traversal of values is the traversal of their view. -/
theorem toList_mapM {ε α β : Type} (f : α → Except ε β) {names : List String}
    (values : Values α names) :
    toList <$> values.mapM f =
      values.toList.mapM fun entry => (fun value => (entry.1, value)) <$> f entry.2 := by
  induction values with
  | nil => rfl
  | cons value rest ih =>
      rw [mapM, toList, List.mapM_cons, ← ih]
      cases f value with
      | error e => rfl
      | ok value' =>
          cases rest.mapM f with
          | error e => rfl
          | ok rest' => rfl

theorem mapM_map {ε α β γ : Type} (f : α → β) (g : β → Except ε γ) {names : List String}
    (values : Values α names) : (values.map f).mapM g = values.mapM fun value => g (f value) := by
  induction values with
  | nil => rfl
  | cons value rest ih => rw [map, mapM, mapM, ih]

end Values

namespace Record

/-! ## Look-up -/

theorem get?_eq_some_iff {α : Type} {r : Record α} {key : String} {value : α} :
    r.get? key = some value ↔ (key, value) ∈ r.toList :=
  ⟨Values.mem_toList_of_get?, Values.get?_of_mem_toList r.nodup⟩

theorem get?_eq_none_iff {α : Type} {r : Record α} {key : String} :
    r.get? key = none ↔ key ∉ r.names :=
  r.values.get?_eq_none_iff key

theorem mem_names_iff {α : Type} {r : Record α} {key : String} :
    key ∈ r.names ↔ ∃ value, r.get? key = some value := by
  rw [← Option.isSome_iff_exists, ← Option.ne_none_iff_isSome, ne_eq, get?_eq_none_iff, not_not]

/-- Distinct names are counted: if those of one record all occur in a record of the same size,
that record has no others. -/
theorem names_subset_of_size_eq {α β : Type} {r : Record α} {s : Record β}
    (size : r.size = s.size) (h : r.names ⊆ s.names) : s.names ⊆ r.names := by
  have hperm : r.names.Perm s.names :=
    (List.subperm_of_subset r.nodup h).perm_of_length_le (Nat.le_of_eq size.symm)
  exact hperm.symm.subset

@[simp] theorem ofList_toList {α : Type} (r : Record α) : ofList r.toList = r := by
  apply ext_toList
  rw [toList_ofList]
  rw [r.map_fst_toList]
  exact r.nodup

/-! ## Records of related values -/

/-- Two records with the same names in the same order and related values. -/
def Related {α β : Type} (rel : α → β → Prop) (r : Record α) (s : Record β) : Prop :=
  List.Forall₂ (fun x y => x.1 = y.1 ∧ rel x.2 y.2) r.toList s.toList

theorem Related.refl {α : Type} {rel : α → α → Prop} (h : ∀ a, rel a a) (r : Record α) :
    Related rel r r :=
  List.forall₂_same.mpr fun entry _ => ⟨rfl, h entry.2⟩

theorem Related.imp_of_mem {α β : Type} {rel rel' : α → β → Prop} {r : Record α} {s : Record β}
    (h : Related rel r s) (hrel : ∀ entry ∈ r.toList, ∀ b, rel entry.2 b → rel' entry.2 b) :
    Related rel' r s :=
  forall₂_imp_of_mem h fun entry hentry _ hrelated =>
    ⟨hrelated.1, hrel entry hentry _ hrelated.2⟩

theorem Related.names_eq {α β : Type} {rel : α → β → Prop} {r : Record α} {s : Record β}
    (h : Related rel r s) : r.names = s.names := by
  rw [← r.map_fst_toList, ← s.map_fst_toList]
  exact map_eq_map_of_forall₂ h fun _ _ hrel => hrel.1

theorem Related.of_names_eq {α β : Type} {rel : α → β → Prop} {r : Record α} {s : Record β}
    (names_eq : r.names = s.names)
    (h : ∀ key a b, r.get? key = some a → s.get? key = some b → rel a b) : Related rel r s := by
  have hnames : r.toList.map Prod.fst = s.toList.map Prod.fst := by
    rw [map_fst_toList, map_fst_toList, names_eq]
  refine forall₂_of_map_eq hnames ?_
  rintro ⟨key, a⟩ ha ⟨_, b⟩ hb rfl
  exact ⟨rfl, h key a b (get?_eq_some_iff.mpr ha) (get?_eq_some_iff.mpr hb)⟩

/-- Records with equal values under the same names are equal. -/
theorem Related.eq {α : Type} {r s : Record α} (h : Related Eq r s) : r = s := by
  apply ext_toList
  rw [← List.forall₂_eq_eq_eq]
  exact List.Forall₂.imp (fun _ _ hrel => Prod.ext hrel.1 hrel.2) h

theorem Related.exists_right {α β : Type} {rel : α → β → Prop} {r : Record α} {s : Record β}
    (h : Related rel r s) {key : String} {value : α} (hmem : (key, value) ∈ r.toList) :
    ∃ value', (key, value') ∈ s.toList ∧ rel value value' := by
  unfold Related at h
  generalize r.toList = xs, s.toList = ys at h hmem
  induction h with
  | nil => cases hmem
  | @cons x y xs ys hhead _ ih =>
      rcases List.mem_cons.mp hmem with rfl | hmem
      · obtain ⟨name, value'⟩ := y
        obtain ⟨rfl, hrel⟩ := hhead
        exact ⟨value', List.mem_cons_self .., hrel⟩
      · obtain ⟨value', hmem', hrel⟩ := ih hmem
        exact ⟨value', List.mem_cons_of_mem _ hmem', hrel⟩

theorem Related.get? {α β : Type} {rel : α → β → Prop} {r : Record α} {s : Record β}
    (h : Related rel r s) (key : String) : Option.Rel rel (r.get? key) (s.get? key) := by
  cases hr : r.get? key with
  | none =>
      have hs : s.get? key = none := by
        rw [get?_eq_none_iff, ← h.names_eq]
        exact get?_eq_none_iff.mp hr
      rw [hs]
      exact .none
  | some value =>
      obtain ⟨value', hmem', hrel⟩ := h.exists_right (get?_eq_some_iff.mp hr)
      rw [get?_eq_some_iff.mpr hmem']
      exact .some hrel

theorem Related.exists_left {α β : Type} {rel : α → β → Prop} {r : Record α} {s : Record β}
    (h : Related rel r s) {key : String} {value' : β} (hvalue' : s.get? key = some value') :
    ∃ value, r.get? key = some value ∧ rel value value' := by
  have hrel := h.get? key
  rw [hvalue'] at hrel
  cases hvalue : r.get? key with
  | none =>
      rw [hvalue] at hrel
      cases hrel
  | some value =>
      rw [hvalue] at hrel
      cases hrel with
      | some hrel => exact ⟨value, rfl, hrel⟩

/-! ## Traversal -/

theorem toList_mapM {ε α β : Type} (f : α → Except ε β) (r : Record α) :
    toList <$> r.mapM f =
      r.toList.mapM fun entry => (fun value => (entry.1, value)) <$> f entry.2 := by
  rw [toList, ← r.values.toList_mapM f, mapM]
  cases r.values.mapM f with
  | error e => rfl
  | ok values => rfl

/-- A traversal succeeds with the results of its values under the same names. -/
theorem mapM_eq_ok_iff {ε α β : Type} {f : α → Except ε β} {r : Record α} {s : Record β} :
    r.mapM f = .ok s ↔ Related (fun a b => f a = .ok b) r s := by
  have hentry : ∀ (x : String × α) (y : String × β),
      (fun value => (x.1, value)) <$> f x.2 = .ok y ↔ x.1 = y.1 ∧ f x.2 = .ok y.2 := by
    intro x y
    cases f x.2 <;> simp [Prod.ext_iff]
  have hlist : toList <$> r.mapM f = .ok s.toList ↔ Related (fun a b => f a = .ok b) r s := by
    rw [toList_mapM, ValueSchema.mapM_eq_ok_iff, Related]
    simp only [hentry]
  rw [← hlist]
  constructor
  · intro h
    rw [h, Except.map_ok]
  · intro h
    obtain ⟨s', hs', hview⟩ := map_eq_ok_iff.mp h
    rw [hs', ext_toList hview]

theorem exists_of_mapM_eq_error {ε α β : Type} {f : α → Except ε β} {r : Record α} {e : ε}
    (h : r.mapM f = .error e) : ∃ entry ∈ r.toList, f entry.2 = .error e := by
  have hlist : toList <$> r.mapM f = .error e := by rw [h, Except.map_error]
  rw [toList_mapM] at hlist
  obtain ⟨entry, hentry, herror⟩ := ValueSchema.exists_of_mapM_eq_error hlist
  exact ⟨entry, hentry, map_eq_error_iff.mp herror⟩

/-- A traversal keeps the contract that each value keeps. -/
theorem yields_mapM {ε α β : Type} {good : α → β → Prop} {allowed : ε → Prop}
    {f : α → Except ε β} {r : Record α}
    (h : ∀ entry ∈ r.toList, Yields (good entry.2) allowed (f entry.2)) :
    Yields (Related good r) allowed (r.mapM f) := by
  have hlist : Yields (List.Forall₂ (fun x y => x.1 = y.1 ∧ good x.2 y.2) r.toList) allowed
      (toList <$> r.mapM f) := by
    rw [toList_mapM]
    refine Yields.mapM fun entry hentry => (h entry hentry).map fun value hvalue => ?_
    exact ⟨rfl, hvalue⟩
  cases hmapM : r.mapM f with
  | error e => rwa [hmapM] at hlist
  | ok s => rwa [hmapM] at hlist

/-- Traversals of related records are related if each pair of values is. -/
theorem refines_mapM {α β γ δ : Type} {aside : Failure → Prop} {rel : α → β → Prop}
    {rel' : γ → δ → Prop} {f : α → Except Failure γ} {g : β → Except Failure δ} {r : Record α}
    {s : Record β} (h : Related rel r s) (hf : ∀ a b, rel a b → Refines aside rel' (f a) (g b)) :
    Refines aside (Related rel') (r.mapM f) (s.mapM g) := by
  have hviews : Refines aside (List.Forall₂ fun x y => x.1 = y.1 ∧ rel' x.2 y.2)
      (toList <$> r.mapM f) (toList <$> s.mapM g) := by
    rw [toList_mapM, toList_mapM]
    refine Refines.mapM h fun x y hxy => (hf x.2 y.2 hxy.2).map fun a b hab => ?_
    exact ⟨hxy.1, hab⟩
  exact hviews.of_map

/-- Traversals with equal results. -/
theorem refines_mapM_eq {α β γ : Type} {aside : Failure → Prop} {rel : α → β → Prop}
    {f : α → Except Failure γ} {g : β → Except Failure γ} {r : Record α} {s : Record β}
    (h : Related rel r s) (hf : ∀ a b, rel a b → Refines aside Eq (f a) (g b)) :
    Refines aside Eq (r.mapM f) (s.mapM g) :=
  (refines_mapM h hf).imp fun _ _ hrel => hrel.eq

theorem refines_mapM_same {α β : Type} {aside : Failure → Prop} {f g : α → Except Failure β}
    {r : Record α}
    (hf : ∀ key value, r.get? key = some value → Refines aside Eq (f value) (g value)) :
    Refines aside Eq (r.mapM f) (r.mapM g) := by
  have hself : Related (fun a b => a = b ∧ ∃ key, r.get? key = some a) r r :=
    List.forall₂_same.mpr fun entry hentry =>
      ⟨rfl, rfl, entry.1, get?_eq_some_iff.mpr hentry⟩
  refine refines_mapM_eq hself ?_
  rintro value _ ⟨rfl, key, hkey⟩
  exact hf key value hkey

@[simp] theorem mapM_map {ε α β γ : Type} (f : α → β) (g : β → Except ε γ) (r : Record α) :
    (r.map f).mapM g = r.mapM fun value => g (f value) := by
  rw [mapM, mapM, map, Values.mapM_map]

end Record

end ValueSchema
