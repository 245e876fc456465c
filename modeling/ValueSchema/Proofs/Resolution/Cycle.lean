import Mathlib.Data.Finset.Card
import ValueSchema.Proofs.Resolution.Chain

/-! # Cycles of references -/

namespace ValueSchema

namespace Registry

/-- The chain names the same entry at two places. -/
def Revisits (registry : Registry) (d : TypeDef) : Prop :=
  ∃ (name : String) (i j : Nat), registry.contains name = true ∧ i < j ∧
    registry.kindAt d i = some (.reference name) ∧ registry.kindAt d j = some (.reference name)

section Chain

variable {registry : Registry} {d : TypeDef} {name : String}

/-- Following references and then more of them is following all of them in a row. -/
theorem chain_add (registry : Registry) (d : TypeDef) (i k : Nat) :
    registry.chain d (i + k) = (registry.chain d i).bind fun e => registry.chain e k := by
  induction k with
  | zero => cases registry.chain d i <;> rfl
  | succ k ih =>
      rw [← Nat.add_assoc, chain, ih, Option.bind_assoc]
      rfl

theorem isSome_chain_of_le {i j : Nat} (h : (registry.chain d j).isSome = true) (hij : i ≤ j) :
    (registry.chain d i).isSome = true := by
  obtain ⟨k, rfl⟩ := Nat.exists_eq_add_of_le hij
  rw [chain_add] at h
  cases hchain : registry.chain d i with
  | none => simp [hchain] at h
  | some e => rfl

/-- What follows a reference is the entry that it names, whatever came before. -/
theorem chain_succ_of_kindAt {i : Nat} (h : registry.kindAt d i = some (.reference name)) :
    registry.chain d (i + 1) = registry.get? name := by
  obtain ⟨e, he, hkind⟩ := Option.map_eq_some_iff.mp h
  rw [chain, he, Option.bind_some, next?_of_reference hkind]

/-- Only a reference that names an entry is followed by another place. -/
theorem exists_reference_of_isSome {i : Nat} (h : (registry.chain d (i + 1)).isSome = true) :
    ∃ name, registry.kindAt d i = some (.reference name) ∧ registry.contains name = true := by
  cases hchain : registry.chain d i with
  | none => simp [chain, hchain] at h
  | some e =>
      cases hkind : e.kind with
      | builtin kind => simp [chain, hchain, next?, hkind] at h
      | reference name =>
          have hplace : registry.kindAt d i = some (.reference name) := by
            simp [kindAt, hchain, hkind]
          rw [chain_succ_of_kindAt hplace] at h
          exact ⟨name, hplace, h⟩

theorem mem_names_of_contains (h : registry.contains name = true) : name ∈ registry.names := by
  obtain ⟨entry, hentry⟩ := Option.isSome_iff_exists.mp h
  exact List.mem_map_of_mem (mem_entries_of_get? hentry)

end Chain

/-! ## Coming back to a name -/

section Rounds

variable {registry : Registry} {d : TypeDef}

/-- A chain that comes back to a name never ends. -/
theorem Revisits.isSome_chain (h : registry.Revisits d) (n : Nat) :
    (registry.chain d n).isSome = true := by
  obtain ⟨name, i, j, hname, hij, hi, hj⟩ := h
  have hround : registry.chain d (i + 1) = registry.chain d (j + 1) := by
    rw [chain_succ_of_kindAt hi, chain_succ_of_kindAt hj]
  have hfirst : (registry.chain d (j + 1)).isSome = true := by
    rw [chain_succ_of_kindAt hj]
    exact hname
  induction n using Nat.strong_induction_on with
  | _ n ih =>
      by_cases hn : n ≤ j + 1
      · exact isSome_chain_of_le hfirst hn
      · -- A place beyond the second visit is the place one round before.
        obtain ⟨k, rfl⟩ : ∃ k, n = j + 1 + k := ⟨n - (j + 1), by omega⟩
        rw [chain_add, ← hround, ← chain_add]
        exact ih (i + 1 + k) (by omega)

/-- There are too few entries for a long chain to name a new one at every place. -/
theorem revisits_of_isSome_chain {n : Nat} (hsize : registry.size < n)
    (h : (registry.chain d n).isSome = true) : registry.Revisits d := by
  have hplaces : ∀ i < n, ∃ name, registry.kindAt d i = some (.reference name) ∧
      registry.contains name = true := by
    intro i hi
    exact exists_reference_of_isSome (isSome_chain_of_le h hi)
  choose! name hname hcontains using hplaces
  have hcard : registry.names.toFinset.card < (Finset.range n).card := by
    calc registry.names.toFinset.card ≤ registry.names.length := List.toFinset_card_le _
      _ = registry.size := by simp [names, size]
      _ < (Finset.range n).card := by simpa using hsize
  have hmaps : ∀ i ∈ Finset.range n, name i ∈ registry.names.toFinset := by
    intro i hi
    rw [List.mem_toFinset]
    exact mem_names_of_contains (hcontains i (Finset.mem_range.mp hi))
  obtain ⟨i, hi, j, hj, hne, heq⟩ := Finset.exists_ne_map_eq_of_card_lt_of_maps_to hcard hmaps
  rw [Finset.mem_range] at hi hj
  have hnamed : registry.kindAt d j = some (.reference (name i)) := by rw [heq, hname j hj]
  rcases Nat.lt_or_gt_of_ne hne with hlt | hlt
  · exact ⟨name i, i, j, hcontains i hi, hlt, hname i hi, hnamed⟩
  · exact ⟨name i, j, i, hcontains i hi, hlt, hnamed, hname i hi⟩

end Rounds

end Registry

/-! ## The limit of resolution -/

namespace TypeDef

/-- Resolution gives up exactly if a reference is left when no more may be followed. -/
theorem resolveWithin_eq_recursionLimit_iff (limit : Nat) (registry : Registry) (hops : Nat)
    (d : TypeDef) :
    d.resolveWithin limit registry hops = .error (.recursionLimit limit) ↔
      ∃ name, registry.kindAt d hops = some (.reference name) := by
  have hover : ∀ (hops : Nat) (d : TypeDef), registry.next? d = none →
      registry.kindAt d (hops + 1) = none := by
    intro hops d hnext
    rw [Registry.kindAt, Registry.chain_succ, hnext]
    rfl
  refine resolveWithin_run (motive := fun hops d outcome =>
    outcome = .error (.recursionLimit limit) ↔
      ∃ name, registry.kindAt d hops = some (.reference name)) ?_ ?_ ?_ ?_ hops d
  · intro hops d kind hkind
    cases hops with
    | zero => simp [Registry.kindAt, Registry.chain, hkind]
    | succ hops => simp [hover hops d (by rw [Registry.next?, hkind])]
  · intro d name hkind
    simp [Registry.kindAt, Registry.chain, hkind]
  · intro hops d name hkind hentry
    simp [hover hops d ((Registry.next?_of_reference hkind).trans hentry)]
  · intro hops d name entry outcome hkind hentry ih
    rw [Registry.kindAt_succ ((Registry.next?_of_reference hkind).trans hentry)]
    exact ih

/-- A limit above the number of entries detects exactly the cycles. Resolution gives up if the
chain of the definition comes back to an entry, and otherwise it ends with a definition of a
built-in kind or with a name that has no entry. -/
theorem resolve_gives_up_iff_revisits (limit : Nat) (registry : Registry) (d : TypeDef)
    (hlimit : registry.size < limit) :
    (d.resolve limit registry = .error (.recursionLimit limit) ↔ registry.Revisits d) ∧
    (¬registry.Revisits d → (∃ resolved, d.resolve limit registry = .ok resolved) ∨
      ∃ name, d.resolve limit registry = .error (.unresolvedType name)) := by
  have hcut : d.resolve limit registry = .error (.recursionLimit limit) ↔
      registry.Revisits d := by
    rw [resolve, resolveWithin_eq_recursionLimit_iff]
    constructor
    · rintro ⟨name, hname⟩
      obtain ⟨e, he, -⟩ := Option.map_eq_some_iff.mp hname
      exact Registry.revisits_of_isSome_chain hlimit (Option.isSome_of_mem he)
    · intro hrevisits
      obtain ⟨name, hname, -⟩ :=
        Registry.exists_reference_of_isSome (hrevisits.isSome_chain (limit + 1))
      exact ⟨name, hname⟩
  refine ⟨hcut, fun hends => ?_⟩
  cases hresolve : d.resolve limit registry with
  | ok resolved => exact .inl ⟨resolved, rfl⟩
  | error failure =>
      have hfailures := (followsChain_resolveWithin limit registry limit d).failures
      rcases hfailures.allowed_of_eq_error hresolve with rfl | ⟨name, rfl⟩
      · exact absurd (hcut.mp hresolve) hends
      · exact .inr ⟨name, rfl⟩

section Detours

/-- Every entry is visited, and the last one leads back to the one before. -/
def detours : Registry := .ofList
  [("alley", .reference "lane"), ("lane", .reference "street"), ("street", .reference "lane")]

theorem resolve_gives_up_detours :
    detours.size < 4 ∧
    (TypeDef.reference "alley").resolve 4 detours = .error (.recursionLimit 4) ∧
    detours.Revisits (.reference "alley") := by
  have hlimit : detours.size < 4 := by decide
  have hcut : (TypeDef.reference "alley").resolve 4 detours = .error (.recursionLimit 4) := rfl
  exact ⟨hlimit, hcut, (resolve_gives_up_iff_revisits 4 detours _ hlimit).1.mp hcut⟩

end Detours

end TypeDef

end ValueSchema
