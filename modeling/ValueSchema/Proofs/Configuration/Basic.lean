import Mathlib.Data.Option.Basic
import ValueSchema.Proofs.Position
import ValueSchema.Proofs.Resolution

/-! # Well-configured definitions

This is a condition on what is written down, and it holds of everything that an operation resolves
or descends into. -/

namespace ValueSchema

/-! ## Definitions inside a definition -/

/-- A definition and all definitions written inside it. -/
def TypeDef.nested (d : TypeDef) : List TypeDef :=
  d.fold fun d element fields =>
    d :: (element.getD [] ++ fields.elim [] fun fields => fields.toList.flatMap Prod.snd)

/-- All definitions written in the entries of a registry. -/
def Registry.nested (registry : Registry) : List TypeDef :=
  registry.entries.flatMap fun entry => entry.2.nested

namespace TypeDef

theorem mem_nested_iff {part d : TypeDef} :
    part ∈ d.nested ↔ part = d ∨ (∃ element, d.ofType = some element ∧ part ∈ element.nested) ∨
      ∃ fields, d.fields = some fields ∧ ∃ entry ∈ fields.toList, part ∈ entry.2.nested := by
  have hnested : d.nested = d :: ((d.ofType.map nested).getD [] ++
      (d.fields.map (Record.map nested)).elim [] fun fields => fields.toList.flatMap Prod.snd) :=
    fold_eq _ d
  rw [hnested, List.mem_cons, List.mem_append]
  cases d.ofType <;> cases d.fields <;> simp

theorem mem_nested_self (d : TypeDef) : d ∈ d.nested := mem_nested_iff.mpr (.inl rfl)

theorem nested_subset_of_ofType {d element : TypeDef} (h : d.ofType = some element) :
    element.nested ⊆ d.nested :=
  fun _ hpart => mem_nested_iff.mpr (.inr (.inl ⟨element, h, hpart⟩))

theorem nested_subset_of_fields {d : TypeDef} {fields : Record TypeDef}
    {entry : String × TypeDef} (h : d.fields = some fields) (hentry : entry ∈ fields.toList) :
    entry.2.nested ⊆ d.nested :=
  fun _ hpart => mem_nested_iff.mpr (.inr (.inr ⟨fields, h, entry, hentry, hpart⟩))

/-- What is inside the parts of a resolved definition is inside the definition. -/
theorem nested_subset_of_mem_parts {resolved : Resolved} {part : TypeDef}
    (h : part ∈ resolved.parts) : part.nested ⊆ resolved.definition.nested := by
  unfold Resolved.parts at h
  split at h
  · exact nested_subset_of_ofType (Option.mem_toList.mp h)
  · exact nested_subset_of_ofType (Option.mem_toList.mp h)
  · obtain ⟨fields, hfields, hpart⟩ := List.mem_flatMap.mp h
    obtain ⟨entry, hentry, rfl⟩ := List.mem_map.mp hpart
    exact nested_subset_of_fields (Option.mem_toList.mp hfields) hentry
  · cases h

/-- An attribute of an overlay is that of the reference or that of the entry. -/
theorem mem_nested_of_overlay {reference entry part : TypeDef}
    (h : part ∈ (reference.overlay entry).nested) :
    part = reference.overlay entry ∨ part ∈ reference.nested ∨ part ∈ entry.nested := by
  rcases mem_nested_iff.mp h with hself | ⟨element, helement, hpart⟩ |
    ⟨fields, hfields, field, hfield, hpart⟩
  · exact .inl hself
  · rcases (Option.orElse_eq_some _ _ _).mp helement with hreference | ⟨-, hentry⟩
    · exact .inr (.inl (nested_subset_of_ofType hreference hpart))
    · exact .inr (.inr (nested_subset_of_ofType hentry hpart))
  · rcases (Option.orElse_eq_some _ _ _).mp hfields with hreference | ⟨-, hentry⟩
    · exact .inr (.inl (nested_subset_of_fields hreference hfield hpart))
    · exact .inr (.inr (nested_subset_of_fields hentry hfield hpart))

end TypeDef

theorem Registry.nested_subset_of_get? {registry : Registry} {name : String} {entry : TypeDef}
    (h : registry.get? name = some entry) : entry.nested ⊆ registry.nested :=
  fun _ hpart => List.mem_flatMap.mpr ⟨_, mem_entries_of_get? h, hpart⟩

/-! ## Complete definitions -/

/-- A definition has the attributes that its kind needs, and no empty list of options. -/
structure TypeDef.IsComplete (d : TypeDef) : Prop where
  ofType : d.kind = .builtin .arrayOf ∨ d.kind = .builtin .objectOf → d.ofType.isSome = true
  fields : d.kind = .builtin .shape → d.fields.isSome = true
  options : d.kind = .builtin .oneOf → d.options.isSome = true
  nonempty : ∀ options ∈ d.options, options ≠ []

namespace TypeDef.IsComplete

instance : DecidablePred TypeDef.IsComplete := fun _ =>
  decidable_of_iff (_ ∧ _ ∧ _ ∧ _)
    ⟨fun h => ⟨h.1, h.2.1, h.2.2.1, h.2.2.2⟩, fun h => ⟨h.1, h.2, h.3, h.4⟩⟩

/-- The kind of an overlay is that of the entry, which has what it needs. -/
theorem overlay {reference entry : TypeDef} (h : reference.IsComplete) (h' : entry.IsComplete) :
    (reference.overlay entry).IsComplete where
  ofType kind := by
    have hentry := h'.ofType kind
    simp [TypeDef.overlay, hentry]
  fields kind := by
    have hentry := h'.fields kind
    simp [TypeDef.overlay, hentry]
  options kind := by
    have hentry := h'.options kind
    simp [TypeDef.overlay, hentry]
  nonempty options hoptions := by
    rcases (Option.orElse_eq_some _ _ _).mp hoptions with hreference | ⟨-, hentry⟩
    · exact h.nonempty options hreference
    · exact h'.nonempty options hentry

/-- A complete definition of a built-in kind lacks nothing. -/
theorem not_lacks {resolved : Resolved} (h : resolved.definition.IsComplete) (failure : Failure) :
    ¬resolved.Lacks failure := by
  intro hlacks
  have hkind := resolved.kind_eq
  cases hlacks with
  | element kind absent =>
      have hpresent := h.ofType (by simpa [hkind] using kind)
      simp [absent] at hpresent
  | fields kind absent =>
      have hpresent := h.fields (by simpa [hkind] using kind)
      simp [absent] at hpresent
  | options kind absent =>
      have hpresent := h.options (by simpa [hkind] using kind)
      simp [absent] at hpresent
  | noOptions kind empty => exact h.nonempty [] empty rfl

end TypeDef.IsComplete

/-! ## Closed references -/

/-- A kind is built in, or it is a reference that leads to a built-in kind. -/
def Kind.Resolves (limit : Nat) (registry : Registry) : Kind → Prop
  | .builtin _ => True
  | .reference name => ∃ resolved, (TypeDef.reference name).resolve limit registry = .ok resolved

instance Kind.decidableResolves (limit : Nat) (registry : Registry) :
    DecidablePred (Kind.Resolves limit registry)
  | .builtin _ => .isTrue trivial
  | .reference name =>
      match h : (TypeDef.reference name).resolve limit registry with
      | .ok resolved => .isTrue ⟨resolved, h⟩
      | .error _ => .isFalse fun ⟨_, h'⟩ => by cases h.symm.trans h'

/-- A definition resolves if its kind does, whatever its attributes. -/
theorem Kind.Resolves.exists_resolve {limit : Nat} {registry : Registry} {d : TypeDef}
    (h : d.kind.Resolves limit registry) : ∃ resolved, d.resolve limit registry = .ok resolved := by
  cases hkind : d.kind with
  | builtin kind => exact ⟨_, TypeDef.resolve_of_builtin hkind limit registry⟩
  | reference name =>
      rw [hkind] at h
      obtain ⟨resolved, hresolved⟩ := h
      have hsame : Resolved.kind <$> d.resolve limit registry =
          Resolved.kind <$> (TypeDef.reference name).resolve limit registry :=
        TypeDef.map_kind_resolveWithin hkind
      rw [hresolved, Except.map_ok] at hsame
      obtain ⟨resolved', hresolved', -⟩ := map_eq_ok_iff.mp hsame
      exact ⟨resolved', hresolved'⟩

/-- Every definition that is written in a definition or its registry resolves and is complete. -/
def WellConfigured (limit : Nat) (registry : Registry) (d : TypeDef) : Prop :=
  ∀ part ∈ d.nested ++ registry.nested, part.kind.Resolves limit registry ∧ part.IsComplete

instance (limit : Nat) (registry : Registry) : DecidablePred (WellConfigured limit registry) :=
  fun d => inferInstanceAs (Decidable (∀ part ∈ d.nested ++ registry.nested, _ ∧ _))

namespace WellConfigured

variable {limit : Nat} {registry : Registry} {d : TypeDef}

theorem resolves (h : WellConfigured limit registry d) : d.kind.Resolves limit registry :=
  (h d (List.mem_append_left _ d.mem_nested_self)).1

theorem isComplete (h : WellConfigured limit registry d) : d.IsComplete :=
  (h d (List.mem_append_left _ d.mem_nested_self)).2

theorem of_nested_subset {part : TypeDef} (h : WellConfigured limit registry d)
    (hsubset : part.nested ⊆ d.nested ++ registry.nested) : WellConfigured limit registry part := by
  intro inner hinner
  rcases List.mem_append.mp hinner with hpart | hregistry
  · exact h inner (hsubset hpart)
  · exact h inner (List.mem_append_right _ hregistry)

theorem of_get? {name : String} {entry : TypeDef} (h : WellConfigured limit registry d)
    (hentry : registry.get? name = some entry) : WellConfigured limit registry entry :=
  h.of_nested_subset
    (List.subset_append_of_subset_right _ (Registry.nested_subset_of_get? hentry))

theorem of_mem_parts {resolved : Resolved} {part : TypeDef}
    (h : WellConfigured limit registry resolved.definition) (hpart : part ∈ resolved.parts) :
    WellConfigured limit registry part :=
  h.of_nested_subset
    (List.subset_append_of_subset_left _ (TypeDef.nested_subset_of_mem_parts hpart))

/-- One step of resolution keeps a definition well configured. -/
theorem overlay {name : String} {entry : TypeDef} (h : WellConfigured limit registry d)
    (hentry : registry.get? name = some entry) :
    WellConfigured limit registry (d.overlay entry) := by
  have h' := h.of_get? hentry
  intro part hpart
  rcases List.mem_append.mp hpart with hoverlay | hregistry
  · rcases TypeDef.mem_nested_of_overlay hoverlay with rfl | hd | hentryPart
    · exact ⟨h'.resolves, h.isComplete.overlay h'.isComplete⟩
    · exact h part (List.mem_append_left _ hd)
    · exact h' part (List.mem_append_left _ hentryPart)
  · exact h part (List.mem_append_right _ hregistry)

/-- So does resolution as a whole. -/
theorem definition {resolved : Resolved} (h : WellConfigured limit registry d)
    (hresolved : d.resolve limit registry = .ok resolved) :
    WellConfigured limit registry resolved.definition :=
  TypeDef.resolveWithin_induction (fun _ _ _ h _ hentry => h.overlay hentry) hresolved h

end WellConfigured

end ValueSchema
