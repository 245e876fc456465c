import ValueSchema.Proofs.Resolution
import ValueSchema.Proofs.Spelling.Basic

/-! # The chain of a reference

Resolution is described by the chain alone, which has no limit and lays no attributes over each
other. -/

namespace ValueSchema

namespace Registry

/-- The entry that a reference names. -/
def next? (registry : Registry) (d : TypeDef) : Option TypeDef :=
  match d.kind with
  | .builtin _ => none
  | .reference name => registry.get? name

/-- The definition that is met after following a number of references. -/
def chain (registry : Registry) (d : TypeDef) : Nat → Option TypeDef
  | 0 => some d
  | i + 1 => (registry.chain d i).bind registry.next?

/-- The kind of the definition at a place of the chain. -/
def kindAt (registry : Registry) (d : TypeDef) (i : Nat) : Option Kind :=
  (registry.chain d i).map TypeDef.kind

/-- What the first definition that has an attribute has there, up to a place of the chain. -/
def firstHeld (registry : Registry) (d : TypeDef) (a : TypeDef.Attribute) (k : Nat) :
    Option a.Value :=
  (List.range (k + 1)).findSome? fun i => (registry.chain d i).bind fun e => e.get? a

/-- The chain consists of references up to a place, where a definition of this kind stands. -/
structure Reaches (registry : Registry) (d : TypeDef) (k : Nat) (kind : Kind) : Prop where
  references : ∀ i < k, ∃ name, registry.kindAt d i = some (.reference name)
  kind_eq : registry.kindAt d k = some kind

/-- The chain reaches the built-in kind of the outcome, which has of each attribute what the first
definition that has it has there. -/
structure Settles (registry : Registry) (d : TypeDef) (k : Nat) (outcome : TypeDef) : Prop where
  reaches : registry.Reaches d k outcome.kind
  builtin : outcome.kind.isBuiltin = true
  attributes : ∀ a ≠ .kind, outcome.get? a = registry.firstHeld d a k

/-- The chain reaches a reference that names no entry. -/
structure Breaks (registry : Registry) (d : TypeDef) (j : Nat) (name : String) : Prop where
  reaches : registry.Reaches d j (.reference name)
  missing : registry.get? name = none

/-! ## Steps along the chain -/

section Steps

variable {registry : Registry} {d entry outcome : TypeDef} {name : String} {kind : Kind} {k : Nat}

theorem next?_of_reference (h : d.kind = .reference name) :
    registry.next? d = registry.get? name := by
  rw [next?, h]

/-- The chain can be taken apart at its front too. -/
theorem chain_succ (registry : Registry) (d : TypeDef) (i : Nat) :
    registry.chain d (i + 1) = (registry.next? d).bind fun entry => registry.chain entry i := by
  induction i with
  | zero => cases h : registry.next? d <;> simp [chain, h]
  | succ i ih =>
      rw [chain, ih, Option.bind_assoc]
      rfl

/-- Attributes do not matter for the entries that are met. -/
theorem chain_overlay_succ (registry : Registry) (d entry : TypeDef) (i : Nat) :
    registry.chain (d.overlay entry) (i + 1) = registry.chain entry (i + 1) := by
  rw [chain_succ, chain_succ]
  rfl

theorem kindAt_succ (h : registry.next? d = some entry) (i : Nat) :
    registry.kindAt d (i + 1) = registry.kindAt (d.overlay entry) i := by
  rw [kindAt, chain_succ, h, Option.bind_some, kindAt]
  cases i with
  | zero => rfl
  | succ i => rw [chain_overlay_succ]

theorem get?_overlay {a : TypeDef.Attribute} (h : a ≠ .kind) (d entry : TypeDef) :
    (d.overlay entry).get? a = (d.get? a).or (entry.get? a) := by
  cases a with
  | kind => exact absurd rfl h
  | notNull | ofType | fields | options | required | name => exact Option.orElse_eq_or

theorem firstHeld_zero (registry : Registry) (d : TypeDef) (a : TypeDef.Attribute) :
    registry.firstHeld d a 0 = d.get? a := by
  simp [firstHeld, chain]

theorem firstHeld_succ (registry : Registry) (d : TypeDef) (a : TypeDef.Attribute) (k : Nat) :
    registry.firstHeld d a (k + 1) = (d.get? a).or
      ((List.range (k + 1)).findSome? fun i =>
        (registry.chain d (i + 1)).bind fun e => e.get? a) := by
  rw [firstHeld, List.range_succ_eq_map, List.findSome?_cons, List.findSome?_map, chain,
    Option.bind_some]
  cases d.get? a <;> rfl

/-- Laying a reference over its entry takes the attributes of both in the order of the chain. -/
theorem firstHeld_overlay {a : TypeDef.Attribute} (ha : a ≠ .kind)
    (h : registry.next? d = some entry) (k : Nat) :
    registry.firstHeld (d.overlay entry) a k = registry.firstHeld d a (k + 1) := by
  have hrest : ((List.range (k + 1)).findSome? fun i =>
      (registry.chain d (i + 1)).bind fun e => e.get? a) = registry.firstHeld entry a k := by
    simp only [chain_succ, h, Option.bind_some, firstHeld]
  rw [firstHeld_succ, hrest]
  cases k with
  | zero => rw [firstHeld_zero, firstHeld_zero, get?_overlay ha]
  | succ k =>
      simp only [firstHeld_succ, chain_overlay_succ]
      rw [get?_overlay ha, Option.or_assoc]

theorem reaches_zero_iff : registry.Reaches d 0 kind ↔ d.kind = kind := by
  constructor
  · rintro ⟨-, hkind⟩
    exact Option.some.inj hkind
  · rintro rfl
    exact ⟨by simp, rfl⟩

theorem reaches_succ_iff (hkind : d.kind = .reference name)
    (hentry : registry.get? name = some entry) :
    registry.Reaches d (k + 1) kind ↔ registry.Reaches (d.overlay entry) k kind := by
  have hnext : registry.next? d = some entry := (next?_of_reference hkind).trans hentry
  constructor
  · rintro ⟨hreferences, hlast⟩
    refine ⟨fun i hi => ?_, by rwa [← kindAt_succ hnext]⟩
    rw [← kindAt_succ hnext]
    exact hreferences (i + 1) (by omega)
  · rintro ⟨hreferences, hlast⟩
    refine ⟨fun i hi => ?_, by rwa [kindAt_succ hnext]⟩
    cases i with
    | zero => exact ⟨name, congrArg some hkind⟩
    | succ i =>
        rw [kindAt_succ hnext]
        exact hreferences i (by omega)

/-- Nothing is reached beyond a definition that names no entry. -/
theorem not_reaches_succ (h : registry.next? d = none) : ¬registry.Reaches d (k + 1) kind := by
  rintro ⟨-, hlast⟩
  rw [kindAt, chain_succ, h] at hlast
  cases hlast

theorem settles_zero_iff :
    registry.Settles d 0 outcome ↔ d.kind.isBuiltin = true ∧ outcome = d := by
  constructor
  · rintro ⟨hreaches, hbuiltin, hattributes⟩
    have hkind := reaches_zero_iff.mp hreaches
    refine ⟨hkind ▸ hbuiltin, TypeDef.ext_get? fun a => ?_⟩
    by_cases ha : a = .kind
    · subst ha
      exact congrArg some hkind.symm
    · rw [hattributes a ha, firstHeld_zero]
  · rintro ⟨hbuiltin, rfl⟩
    exact ⟨reaches_zero_iff.mpr rfl, hbuiltin, fun a _ => (firstHeld_zero ..).symm⟩

theorem settles_succ_iff (hkind : d.kind = .reference name)
    (hentry : registry.get? name = some entry) :
    registry.Settles d (k + 1) outcome ↔ registry.Settles (d.overlay entry) k outcome := by
  have hnext : registry.next? d = some entry := (next?_of_reference hkind).trans hentry
  have hheld : ∀ a ≠ .kind, registry.firstHeld (d.overlay entry) a k =
      registry.firstHeld d a (k + 1) := fun a ha => firstHeld_overlay ha hnext k
  constructor
  · rintro ⟨hreaches, hbuiltin, hattributes⟩
    refine ⟨(reaches_succ_iff hkind hentry).mp hreaches, hbuiltin, fun a ha => ?_⟩
    rw [hattributes a ha, hheld a ha]
  · rintro ⟨hreaches, hbuiltin, hattributes⟩
    refine ⟨(reaches_succ_iff hkind hentry).mpr hreaches, hbuiltin, fun a ha => ?_⟩
    rw [hattributes a ha, hheld a ha]

theorem breaks_succ_iff (hkind : d.kind = .reference name)
    (hentry : registry.get? name = some entry) {other : String} :
    registry.Breaks d (k + 1) other ↔ registry.Breaks (d.overlay entry) k other := by
  constructor
  · rintro ⟨hreaches, hmissing⟩
    exact ⟨(reaches_succ_iff hkind hentry).mp hreaches, hmissing⟩
  · rintro ⟨hreaches, hmissing⟩
    exact ⟨(reaches_succ_iff hkind hentry).mpr hreaches, hmissing⟩

end Steps

end Registry

/-! ## Resolution along the chain -/

namespace TypeDef

/-- The outcome of a run that may follow a number of references, by the chain of its start. -/
structure FollowsChain (limit : Nat) (registry : Registry) (hops : Nat) (d : TypeDef)
    (outcome : Except Failure Resolved) : Prop where
  settled_iff : ∀ e, Resolved.definition <$> outcome = .ok e ↔ ∃ k ≤ hops, registry.Settles d k e
  broken_iff : ∀ name, outcome = .error (.unresolvedType name) ↔
    ∃ j < hops, registry.Breaks d j name
  failures : Yields (fun _ => True)
    (fun failure => failure = .recursionLimit limit ∨ ∃ name, failure = .unresolvedType name)
    outcome

namespace FollowsChain

variable {limit hops : Nat} {registry : Registry} {d entry : TypeDef} {name : String}

theorem of_builtin {kind : Builtin} (h : d.kind = .builtin kind) :
    FollowsChain limit registry hops d (.ok ⟨kind, d, h⟩) := by
  have hover : ∀ {k : Nat} {kind : Kind}, ¬registry.Reaches d (k + 1) kind := by
    intro k kind
    exact Registry.not_reaches_succ (by rw [Registry.next?, h])
  refine ⟨fun e => ?_, fun name => ?_, trivial⟩
  · rw [Except.map_ok, Except.ok.injEq]
    constructor
    · rintro rfl
      exact ⟨0, by omega, Registry.settles_zero_iff.mpr ⟨by rw [h, Kind.isBuiltin], rfl⟩⟩
    · rintro ⟨k, -, hsettles⟩
      cases k with
      | zero => exact (Registry.settles_zero_iff.mp hsettles).2.symm
      | succ k => exact absurd hsettles.reaches hover
  · constructor
    · intro hname
      cases hname
    · rintro ⟨j, -, hbreaks⟩
      cases j with
      | zero => cases h.symm.trans (Registry.reaches_zero_iff.mp hbreaks.reaches)
      | succ j => exact absurd hbreaks.reaches hover

/-- A reference does not settle where it stands. -/
theorem not_settles_zero {e : TypeDef} (h : d.kind = .reference name) :
    ¬registry.Settles d 0 e := by
  intro hsettles
  have hbuiltin := (Registry.settles_zero_iff.mp hsettles).1
  rw [h] at hbuiltin
  cases hbuiltin

theorem of_cut (h : d.kind = .reference name) :
    FollowsChain limit registry 0 d (.error (.recursionLimit limit)) := by
  refine ⟨fun e => ?_, fun name => by simp, .inl rfl⟩
  constructor
  · intro he
    cases he
  · rintro ⟨k, hk, hsettles⟩
    obtain rfl : k = 0 := by omega
    exact absurd hsettles (not_settles_zero h)

theorem of_missing (h : d.kind = .reference name) (hentry : registry.get? name = none) :
    FollowsChain limit registry (hops + 1) d (.error (.unresolvedType name)) := by
  have hover : ∀ {k : Nat} {kind : Kind}, ¬registry.Reaches d (k + 1) kind := by
    intro k kind
    exact Registry.not_reaches_succ ((Registry.next?_of_reference h).trans hentry)
  refine ⟨fun e => ?_, fun other => ?_, .inr ⟨name, rfl⟩⟩
  · constructor
    · intro he
      cases he
    · rintro ⟨k, -, hsettles⟩
      cases k with
      | zero => exact absurd hsettles (not_settles_zero h)
      | succ k => exact absurd hsettles.reaches hover
  · constructor
    · intro hname
      cases hname
      exact ⟨0, by omega, Registry.reaches_zero_iff.mpr h, hentry⟩
    · rintro ⟨j, -, hbreaks⟩
      cases j with
      | zero =>
          have hkind := h.symm.trans (Registry.reaches_zero_iff.mp hbreaks.reaches)
          cases hkind
          rfl
      | succ j => exact absurd hbreaks.reaches hover

/-- A run that follows a reference has one place less of the chain left. -/
theorem of_follow {outcome : Except Failure Resolved} (h : d.kind = .reference name)
    (hentry : registry.get? name = some entry)
    (rest : FollowsChain limit registry hops (d.overlay entry) outcome) :
    FollowsChain limit registry (hops + 1) d outcome := by
  refine ⟨fun e => ?_, fun other => ?_, rest.failures⟩
  · rw [rest.settled_iff]
    constructor
    · rintro ⟨k, hk, hsettles⟩
      exact ⟨k + 1, by omega, (Registry.settles_succ_iff h hentry).mpr hsettles⟩
    · rintro ⟨k, hk, hsettles⟩
      cases k with
      | zero => exact absurd hsettles (not_settles_zero h)
      | succ k => exact ⟨k, by omega, (Registry.settles_succ_iff h hentry).mp hsettles⟩
  · rw [rest.broken_iff]
    constructor
    · rintro ⟨j, hj, hbreaks⟩
      exact ⟨j + 1, by omega, (Registry.breaks_succ_iff h hentry).mpr hbreaks⟩
    · rintro ⟨j, hj, hbreaks⟩
      cases j with
      | zero =>
          have hkind := h.symm.trans (Registry.reaches_zero_iff.mp hbreaks.reaches)
          cases hkind
          cases hentry.symm.trans hbreaks.missing
      | succ j => exact ⟨j, by omega, (Registry.breaks_succ_iff h hentry).mp hbreaks⟩

end FollowsChain

theorem followsChain_resolveWithin (limit : Nat) (registry : Registry) (hops : Nat) (d : TypeDef) :
    FollowsChain limit registry hops d (d.resolveWithin limit registry hops) :=
  resolveWithin_run (fun _ _ _ hkind => .of_builtin hkind) (fun _ _ hkind => .of_cut hkind)
    (fun _ _ _ hkind hentry => .of_missing hkind hentry)
    (fun _ _ _ _ _ hkind hentry rest => .of_follow hkind hentry rest) hops d

/-- Resolution in closed form. A definition resolves exactly if its chain reaches a built-in kind
after at most as many references as the limit allows, and then its attributes are the first ones
of the chain. It names a type that is not there exactly if the chain reaches that name after fewer
references. In every other case, in a cycle for instance, the limit is reported. -/
theorem resolve_along_chain (limit : Nat) (registry : Registry) (d : TypeDef) :
    (∀ outcome, Resolved.definition <$> d.resolve limit registry = .ok outcome ↔
      ∃ k ≤ limit, registry.Settles d k outcome) ∧
    (∀ name, d.resolve limit registry = .error (.unresolvedType name) ↔
      ∃ j < limit, registry.Breaks d j name) ∧
    (d.resolve limit registry = .error (.recursionLimit limit) ↔
      (¬∃ k ≤ limit, ∃ outcome, registry.Settles d k outcome) ∧
        ¬∃ j < limit, ∃ name, registry.Breaks d j name) := by
  have follows := followsChain_resolveWithin limit registry limit d
  refine ⟨follows.settled_iff, follows.broken_iff, ?_⟩
  rw [← resolve] at follows
  constructor
  · intro hcut
    constructor
    · rintro ⟨k, hk, outcome, hsettles⟩
      have hok := (follows.settled_iff outcome).mpr ⟨k, hk, hsettles⟩
      rw [hcut] at hok
      cases hok
    · rintro ⟨j, hj, name, hbreaks⟩
      have hmissing := (follows.broken_iff name).mpr ⟨j, hj, hbreaks⟩
      rw [hcut] at hmissing
      cases hmissing
  · rintro ⟨hunsettled, hunbroken⟩
    cases hresolve : d.resolve limit registry with
    | ok resolved =>
        have hok : Resolved.definition <$> d.resolve limit registry = .ok resolved.definition := by
          rw [hresolve, Except.map_ok]
        obtain ⟨k, hk, hsettles⟩ := (follows.settled_iff resolved.definition).mp hok
        exact absurd ⟨k, hk, _, hsettles⟩ hunsettled
    | error failure =>
        rcases follows.failures.allowed_of_eq_error hresolve with rfl | ⟨name, rfl⟩
        · rfl
        · obtain ⟨j, hj, hbreaks⟩ := (follows.broken_iff name).mp hresolve
          exact absurd ⟨j, hj, name, hbreaks⟩ hunbroken

end TypeDef

end ValueSchema
