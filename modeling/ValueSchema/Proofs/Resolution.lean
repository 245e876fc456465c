import ValueSchema.Proofs.Computation
import ValueSchema.Resolution

/-! # Steps of resolution -/

namespace ValueSchema

theorem Registry.mem_entries_of_get? {registry : Registry} {name : String} {entry : TypeDef}
    (h : registry.get? name = some entry) : (name, entry) ∈ registry.entries := by
  obtain ⟨front, rest, hentries, -⟩ := List.lookup_eq_some_iff.mp h
  rw [hentries]
  simp

namespace TypeDef

section Steps

variable {limit hops : Nat} {registry : Registry} {d entry : TypeDef} {name : String}

theorem resolveWithin_of_builtin {kind : Builtin} (h : d.kind = .builtin kind) (hops : Nat) :
    d.resolveWithin limit registry hops = .ok ⟨kind, d, h⟩ := by
  rw [resolveWithin.eq_def]
  split
  · next kind' h' =>
      obtain rfl : kind = kind' := by simpa [h] using h'
      rfl
  · next name h' => simp [h] at h'

theorem resolveWithin_zero (h : d.kind = .reference name) :
    d.resolveWithin limit registry 0 = .error (.recursionLimit limit) := by
  rw [resolveWithin.eq_def]
  split
  · next kind h' => simp [h] at h'
  · rfl

theorem resolveWithin_of_get?_eq_none (h : d.kind = .reference name)
    (hentry : registry.get? name = none) :
    d.resolveWithin limit registry (hops + 1) = .error (.unresolvedType name) := by
  rw [resolveWithin.eq_def]
  split
  · next kind h' => simp [h] at h'
  · next name' h' =>
      obtain rfl : name = name' := by simpa [h] using h'
      simp [hentry]

theorem resolveWithin_of_get?_eq_some (h : d.kind = .reference name)
    (hentry : registry.get? name = some entry) :
    d.resolveWithin limit registry (hops + 1) =
      (d.overlay entry).resolveWithin limit registry hops := by
  rw [resolveWithin.eq_def]
  split
  · next kind h' => simp [h] at h'
  · next name' h' =>
      obtain rfl : name = name' := by simpa [h] using h'
      simp [hentry]

/-- A definition of a built-in kind resolves to itself. -/
theorem resolve_of_builtin {kind : Builtin} (h : d.kind = .builtin kind) (limit : Nat)
    (registry : Registry) : d.resolve limit registry = .ok ⟨kind, d, h⟩ :=
  resolveWithin_of_builtin h limit

end Steps

section Runs

variable {limit hops : Nat} {registry : Registry}

/-- A property of all runs: it holds of the three ways in which a run ends, and it holds of a run
that follows a reference if it holds of the rest of the run. -/
theorem resolveWithin_run {motive : Nat → TypeDef → Except Failure Resolved → Prop}
    (builtin : ∀ (hops : Nat) (d : TypeDef) (kind : Builtin) (h : d.kind = .builtin kind),
      motive hops d (.ok ⟨kind, d, h⟩))
    (cut : ∀ (d : TypeDef) (name : String), d.kind = .reference name →
      motive 0 d (.error (.recursionLimit limit)))
    (missing : ∀ (hops : Nat) (d : TypeDef) (name : String), d.kind = .reference name →
      registry.get? name = none → motive (hops + 1) d (.error (.unresolvedType name)))
    (follow : ∀ (hops : Nat) (d : TypeDef) (name : String) (entry : TypeDef)
      (outcome : Except Failure Resolved), d.kind = .reference name →
        registry.get? name = some entry → motive hops (d.overlay entry) outcome →
          motive (hops + 1) d outcome)
    (hops : Nat) (d : TypeDef) : motive hops d (d.resolveWithin limit registry hops) := by
  induction hops generalizing d with
  | zero =>
      cases hkind : d.kind with
      | builtin kind =>
          rw [resolveWithin_of_builtin hkind]
          exact builtin 0 d kind hkind
      | reference name =>
          rw [resolveWithin_zero hkind]
          exact cut d name hkind
  | succ hops ih =>
      cases hkind : d.kind with
      | builtin kind =>
          rw [resolveWithin_of_builtin hkind]
          exact builtin (hops + 1) d kind hkind
      | reference name =>
          cases hentry : registry.get? name with
          | none =>
              rw [resolveWithin_of_get?_eq_none hkind hentry]
              exact missing hops d name hkind hentry
          | some entry =>
              rw [resolveWithin_of_get?_eq_some hkind hentry]
              exact follow hops d name entry _ hkind hentry (ih (d.overlay entry))

/-- What a step keeps holds of the definition that the steps end in. -/
theorem resolveWithin_induction {motive : TypeDef → Prop}
    (step : ∀ (d : TypeDef) (name : String) (entry : TypeDef), motive d →
      d.kind = .reference name → registry.get? name = some entry → motive (d.overlay entry))
    {d : TypeDef} {resolved : Resolved} (h : d.resolveWithin limit registry hops = .ok resolved)
    (start : motive d) : motive resolved.definition := by
  have hrun : motive d → ∀ resolved, d.resolveWithin limit registry hops = .ok resolved →
      motive resolved.definition := by
    refine resolveWithin_run (motive := fun _ d outcome => motive d → ∀ resolved,
      outcome = .ok resolved → motive resolved.definition) ?_ ?_ ?_ ?_ hops d
    · intro hops d kind hkind hd resolved hresolved
      cases hresolved
      exact hd
    · intro d name hkind hd resolved hresolved
      cases hresolved
    · intro hops d name hkind hentry hd resolved hresolved
      cases hresolved
    · intro hops d name entry outcome hkind hentry ih hd
      exact ih (step d name entry hd hkind hentry)
  exact hrun start resolved h

/-- The kind that a definition resolves to, and the failure if there is none, depend on nothing
but its kind. -/
theorem map_kind_resolveWithin {d d' : TypeDef} (h : d.kind = d'.kind) :
    Resolved.kind <$> d.resolveWithin limit registry hops =
      Resolved.kind <$> d'.resolveWithin limit registry hops := by
  induction hops generalizing d d' with
  | zero =>
      cases hkind : d'.kind with
      | builtin kind =>
          rw [resolveWithin_of_builtin (h.trans hkind), resolveWithin_of_builtin hkind,
            Except.map_ok, Except.map_ok]
      | reference name => rw [resolveWithin_zero (h.trans hkind), resolveWithin_zero hkind]
  | succ hops ih =>
      cases hkind : d'.kind with
      | builtin kind =>
          rw [resolveWithin_of_builtin (h.trans hkind), resolveWithin_of_builtin hkind,
            Except.map_ok, Except.map_ok]
      | reference name =>
          cases hentry : registry.get? name with
          | none =>
              rw [resolveWithin_of_get?_eq_none (h.trans hkind) hentry,
                resolveWithin_of_get?_eq_none hkind hentry]
          | some entry =>
              rw [resolveWithin_of_get?_eq_some (h.trans hkind) hentry,
                resolveWithin_of_get?_eq_some hkind hentry]
              exact ih rfl

end Runs

end TypeDef

end ValueSchema
