import ValueSchema.Proofs.Contract
import ValueSchema.Proofs.Resolution
import ValueSchema.Proofs.Simulation.Operations

/-! # A higher limit and a larger registry

Equality of definitions is a simulation if it is set aside that the smaller side gives up or
misses an entry. -/

namespace ValueSchema

/-! ## Resolution on two sides -/

/-- The second registry has the entries of the first. It may have more where it is set aside that
the first misses them. -/
def EntriesRefine (aside : Failure → Prop) (registry registry' : Registry) : Prop :=
  ∀ name, registry.get? name = registry'.get? name ∨
    registry.get? name = none ∧ aside (.unresolvedType name)

section Resolution

variable {aside : Failure → Prop} {limit limit' : Nat} {registry registry' : Registry}
  (entries : EntriesRefine aside registry registry')

include entries

theorem refines_resolveWithin {hops hops' : Nat} (room : Room aside limit limit' hops hops')
    (d : TypeDef) :
    Refines aside Eq (d.resolveWithin limit registry hops)
      (d.resolveWithin limit' registry' hops') := by
  induction hops generalizing hops' d with
  | zero =>
      cases hkind : d.kind with
      | builtin kind =>
          rw [TypeDef.resolveWithin_of_builtin hkind, TypeDef.resolveWithin_of_builtin hkind]
          exact .ok rfl
      | reference name =>
          rw [TypeDef.resolveWithin_zero hkind]
          cases room with
          | alike h =>
              rw [TypeDef.resolveWithin_zero hkind, h]
              exact .error _
          | wider h => exact .aside h _
  | succ hops ih =>
      obtain ⟨below, rfl, hbelow⟩ := room.of_succ
      cases hkind : d.kind with
      | builtin kind =>
          rw [TypeDef.resolveWithin_of_builtin hkind, TypeDef.resolveWithin_of_builtin hkind]
          exact .ok rfl
      | reference name =>
          rcases entries name with hsame | ⟨hnone, haside⟩
          · cases hentry : registry.get? name with
            | none =>
                rw [TypeDef.resolveWithin_of_get?_eq_none hkind hentry,
                  TypeDef.resolveWithin_of_get?_eq_none hkind (hsame ▸ hentry)]
                exact .error _
            | some entry =>
                rw [TypeDef.resolveWithin_of_get?_eq_some hkind hentry,
                  TypeDef.resolveWithin_of_get?_eq_some hkind (hsame ▸ hentry)]
                exact ih hbelow (d.overlay entry)
          · rw [TypeDef.resolveWithin_of_get?_eq_none hkind hnone]
            exact .aside haside _

theorem isSimulation_eq (room : Room aside limit limit' limit limit') :
    IsSimulation aside limit limit' registry registry' Eq := by
  rintro d _ rfl
  refine (refines_resolveWithin entries room d).imp ?_
  rintro resolved _ rfl
  exact Similar.refl resolved

end Resolution

/-! ## A higher limit -/

/-- A failure to get by with the limit, whichever it is. -/
def GivesUp (failure : Failure) : Prop := ∃ bound, failure = .recursionLimit bound

/-- A failure that gives up names this limit. -/
def OwnLimit (limit : Nat) (failure : Failure) : Prop :=
  ∀ bound, failure = .recursionLimit bound → bound = limit

theorem ownLimit_recursionLimit (limit : Nat) : OwnLimit limit (.recursionLimit limit) := by
  intro bound hbound
  exact (Failure.recursionLimit.inj hbound).symm

/-- An operation is at most cut short by its limit: it gives up with the limit that it was given,
and unless it gave up it answers the same under every higher limit. -/
structure CutByLimit {α : Type} (run : Nat → Except Failure α) : Prop where
  own_limit : ∀ limit bound, run limit = .error (.recursionLimit bound) → bound = limit
  unchanged : ∀ limit limit', limit ≤ limit' →
    (∀ bound, run limit ≠ .error (.recursionLimit bound)) → run limit' = run limit

theorem CutByLimit.of_refines {α : Type} {run : Nat → Except Failure α}
    (own : ∀ limit, Yields (fun _ => True) (OwnLimit limit) (run limit))
    (refines : ∀ limit limit', limit ≤ limit' → Refines GivesUp Eq (run limit) (run limit')) :
    CutByLimit run where
  own_limit := by
    intro limit bound hrun
    exact (own limit).allowed_of_eq_error hrun bound rfl
  unchanged := by
    intro limit limit' hle hsettled
    refine ((refines limit limit' hle).eq_of_not_aside ?_).symm
    rintro _ hrun ⟨bound, rfl⟩
    exact hsettled bound hrun

section Limit

variable {limit limit' : Nat}

theorem room_of_le (hle : limit ≤ limit') : Room GivesUp limit limit' limit limit' :=
  .wider ⟨limit, rfl⟩ hle

theorem isSimulation_of_le (registry : Registry) (hle : limit ≤ limit') :
    IsSimulation GivesUp limit limit' registry registry Eq :=
  isSimulation_eq (fun _ => .inl rfl) (room_of_le hle)

theorem yields_resolveWithin_ownLimit (limit : Nat) (registry : Registry) (hops : Nat)
    (d : TypeDef) :
    Yields (fun _ => True) (OwnLimit limit) (d.resolveWithin limit registry hops) := by
  refine TypeDef.resolveWithin_run (motive := fun _ _ => Yields (fun _ => True) (OwnLimit limit))
    ?_ ?_ ?_ ?_ hops d
  · exact fun _ _ _ _ => trivial
  · exact fun _ _ _ => ownLimit_recursionLimit limit
  · intro hops d name hkind hentry
    simp [Yields, OwnLimit]
  · exact fun _ _ _ _ _ _ _ rest => rest

/-- What a definition lacks is no matter of the limit, so all failures keep to it. -/
theorem isGuarded_ownLimit (limit : Nat) (registry : Registry) :
    IsGuarded (OwnLimit limit) limit registry fun _ => True := by
  intro d _
  have hresolve := yields_resolveWithin_ownLimit limit registry limit d
  refine hresolve.mono (fun resolved _ => ⟨?_, fun _ _ => trivial⟩) fun _ h => h
  intro failure hlacks
  obtain ⟨defect, rfl⟩ := hlacks.exists_defect
  simp [OwnLimit]

end Limit

section Operations

variable (registry otherRegistry : Registry) (d other : TypeDef) (value : Json)

theorem cutByLimit_resolve : CutByLimit fun limit => d.resolve limit registry := by
  refine .of_refines (fun limit => ?_) fun limit limit' hle => ?_
  · exact yields_resolveWithin_ownLimit limit registry limit d
  · exact refines_resolveWithin (fun _ => .inl rfl) (room_of_le hle) d

theorem cutByLimit_validate : CutByLimit fun limit => value.validate limit registry d := by
  refine .of_refines (fun limit => ?_) fun limit limit' hle => ?_
  · exact (isGuarded_ownLimit limit registry).yields_check value d _ trivial
  · exact refines_check (isSimulation_of_le registry hle) value d d _ rfl

theorem cutByLimit_signature : CutByLimit fun limit => d.signature limit registry := by
  refine .of_refines (fun limit => ?_) fun limit limit' hle => ?_
  · exact (isGuarded_ownLimit limit registry).yields_signatureWithin
      (ownLimit_recursionLimit limit) limit trivial
  · exact refines_signatureWithin (isSimulation_of_le registry hle) (room_of_le hle) d d rfl

theorem cutByLimit_equivalent :
    CutByLimit fun limit => d.equivalent limit registry otherRegistry other := by
  refine .of_refines (fun limit => ?_) fun limit limit' hle => ?_
  · exact (isGuarded_ownLimit limit registry).yields_equivalentWithin
      (isGuarded_ownLimit limit otherRegistry) (ownLimit_recursionLimit limit) limit trivial trivial
  · exact refines_equivalentWithin (isSimulation_of_le registry hle)
      (isSimulation_of_le otherRegistry hle) (room_of_le hle) rfl rfl

theorem cutByLimit_compatible :
    CutByLimit fun limit => d.compatible limit registry otherRegistry other := by
  refine .of_refines (fun limit => ?_) fun limit limit' hle => ?_
  · exact (isGuarded_ownLimit limit registry).yields_compatibleWithin
      (isGuarded_ownLimit limit otherRegistry) (ownLimit_recursionLimit limit) limit trivial trivial
  · exact refines_compatibleWithin (isSimulation_of_le registry hle)
      (isSimulation_of_le otherRegistry hle) (room_of_le hle) rfl rfl

theorem cutByLimit_defaultValue (filling : Filling) :
    CutByLimit fun limit => d.defaultValue limit registry filling := by
  refine .of_refines (fun limit => ?_) fun limit limit' hle => ?_
  · exact (isGuarded_ownLimit limit registry).yields_defaultWithin
      (ownLimit_recursionLimit limit) limit filling trivial
  · exact refines_defaultWithin (isSimulation_of_le registry hle) (room_of_le hle) filling rfl

theorem cutByLimit_coerce :
    CutByLimit fun limit => value.coerce limit registry otherRegistry d other := by
  refine .of_refines (fun limit => ?_) fun limit limit' hle => ?_
  · exact (isGuarded_ownLimit limit registry).yields_coerce (isGuarded_ownLimit limit otherRegistry)
      (by simp [OwnLimit]) (by simp [OwnLimit]) value trivial trivial
  · exact refines_coerce (isSimulation_of_le registry hle) (isSimulation_of_le otherRegistry hle)
      value d d other other rfl rfl

theorem cutByLimit_atPath (path : List Step) :
    CutByLimit fun limit => d.atPath limit registry path := by
  refine .of_refines (fun limit => ?_) fun limit limit' hle => ?_
  · exact (isGuarded_ownLimit limit registry).yields_atPath (by simp [OwnLimit]) trivial path
  · exact refines_atPath (isSimulation_of_le registry hle) rfl path

/-- Raising the limit changes no answer of any operation, other than that it gave up, and an
operation that gives up reports its own limit. -/
theorem operations_cutByLimit (filling : Filling) (path : List Step) :
    CutByLimit (fun limit => d.resolve limit registry) ∧
    CutByLimit (fun limit => value.validate limit registry d) ∧
    CutByLimit (fun limit => d.signature limit registry) ∧
    CutByLimit (fun limit => d.equivalent limit registry otherRegistry other) ∧
    CutByLimit (fun limit => d.compatible limit registry otherRegistry other) ∧
    CutByLimit (fun limit => d.defaultValue limit registry filling) ∧
    CutByLimit (fun limit => value.coerce limit registry otherRegistry d other) ∧
    CutByLimit (fun limit => d.atPath limit registry path) :=
  ⟨cutByLimit_resolve registry d, cutByLimit_validate registry d value,
    cutByLimit_signature registry d, cutByLimit_equivalent registry otherRegistry d other,
    cutByLimit_compatible registry otherRegistry d other,
    cutByLimit_defaultValue registry d filling,
    cutByLimit_coerce registry otherRegistry d other value, cutByLimit_atPath registry d path⟩

end Operations

section Shelf

/-- A label is a title under another name. -/
def titles : Registry := .ofList [("title", .builtin .string), ("label", .reference "title")]

def shelf : TypeDef := .objectOf (.arrayOf (.reference "label"))

/-- Two levels are too few for the signature. From three on it stays the same. -/
theorem operations_cutByLimit_shelf :
    shelf.signature 2 titles = .error (.recursionLimit 2) ∧
    shelf.signature 3 titles = .ok "objectOf(arrayOf(string))" ∧
    ∀ limit, 3 ≤ limit → shelf.signature limit titles = .ok "objectOf(arrayOf(string))" := by
  have hshort : shelf.signature 2 titles = .error (.recursionLimit 2) := by decide +kernel
  have hthree : shelf.signature 3 titles = .ok "objectOf(arrayOf(string))" := by decide +kernel
  have hcut := operations_cutByLimit titles ∅ shelf shelf .null .nullable []
  refine ⟨hshort, hthree, fun limit hle => ?_⟩
  rw [hcut.2.2.1.unchanged 3 limit hle (by simp [hthree]), hthree]

end Shelf

/-! ## A larger registry -/

/-- Every name has its definition in the second registry too. -/
def Registry.ExtendedBy (registry registry' : Registry) : Prop :=
  ∀ name d, registry.get? name = some d → registry'.get? name = some d

/-- A failure to find the entry of a name, whichever it is. -/
def MissesEntry (failure : Failure) : Prop := ∃ name, failure = .unresolvedType name

/-- The second outcome is the first one, unless that misses an entry. -/
def SameUnlessUnresolved {α : Type} (outcome outcome' : Except Failure α) : Prop :=
  (∀ name, outcome ≠ .error (.unresolvedType name)) → outcome' = outcome

theorem SameUnlessUnresolved.of_refines {α : Type} {outcome outcome' : Except Failure α}
    (h : Refines MissesEntry Eq outcome outcome') : SameUnlessUnresolved outcome outcome' := by
  intro hfound
  refine (h.eq_of_not_aside ?_).symm
  rintro _ houtcome ⟨name, rfl⟩
  exact hfound name houtcome

namespace Registry.ExtendedBy

variable {registry registry' : Registry}

theorem of_empty (registry : Registry) : ExtendedBy ∅ registry := by
  intro name d h
  cases h

theorem entriesRefine (h : registry.ExtendedBy registry') :
    EntriesRefine MissesEntry registry registry' := by
  intro name
  cases hentry : registry.get? name with
  | none => exact .inr ⟨rfl, name, rfl⟩
  | some entry => exact .inl (h name entry hentry).symm

theorem isSimulation (h : registry.ExtendedBy registry') (limit : Nat) :
    IsSimulation MissesEntry limit limit registry registry' Eq :=
  isSimulation_eq h.entriesRefine (.alike rfl limit)

end Registry.ExtendedBy

/-- Adding entries to a registry changes no answer of any operation, other than that an entry was
missing. Operations on two definitions may be given more entries on either side. -/
theorem operations_of_extendedBy (limit : Nat)
    {registry registry' otherRegistry otherRegistry' : Registry}
    (h : registry.ExtendedBy registry') (h' : otherRegistry.ExtendedBy otherRegistry')
    (d other : TypeDef) (value : Json) (filling : Filling) (path : List Step) :
    SameUnlessUnresolved (d.resolve limit registry) (d.resolve limit registry') ∧
    SameUnlessUnresolved (value.validate limit registry d) (value.validate limit registry' d) ∧
    SameUnlessUnresolved (d.signature limit registry) (d.signature limit registry') ∧
    SameUnlessUnresolved (d.defaultValue limit registry filling)
      (d.defaultValue limit registry' filling) ∧
    SameUnlessUnresolved (d.atPath limit registry path) (d.atPath limit registry' path) ∧
    SameUnlessUnresolved (d.equivalent limit registry otherRegistry other)
      (d.equivalent limit registry' otherRegistry' other) ∧
    SameUnlessUnresolved (d.compatible limit registry otherRegistry other)
      (d.compatible limit registry' otherRegistry' other) ∧
    SameUnlessUnresolved (value.coerce limit registry otherRegistry d other)
      (value.coerce limit registry' otherRegistry' d other) := by
  have sim := h.isSimulation limit
  have sim' := h'.isSimulation limit
  have room : Room MissesEntry limit limit limit limit := .alike rfl limit
  refine ⟨.of_refines ?_, .of_refines ?_, .of_refines ?_, .of_refines ?_, .of_refines ?_,
    .of_refines ?_, .of_refines ?_, .of_refines ?_⟩
  · exact refines_resolveWithin h.entriesRefine room d
  · exact refines_check sim value d d _ rfl
  · exact refines_signatureWithin sim room d d rfl
  · exact refines_defaultWithin sim room filling rfl
  · exact refines_atPath sim rfl path
  · exact refines_equivalentWithin sim sim' room rfl rfl
  · exact refines_compatibleWithin sim sim' room rfl rfl
  · exact refines_coerce sim sim' value d d other other rfl rfl

section Ticket

def offices : Registry := .ofList [("office", .builtin .string)]

def staff : Registry := .ofList
  [("office", .builtin .string),
    ("person", .shape [("name", .builtin .string), ("office", .reference "office")])]

/-- Who works on a ticket is not known to every registry. -/
def ticket : TypeDef := .shape
  [("id", (TypeDef.builtin .int).asRequired), ("office", .reference "office"),
    ("owner", .reference "person")]

def openTicket : Json := .object (.ofList [("office", .string "north")])

theorem extendedBy_staff : offices.ExtendedBy staff := by
  intro name d h
  have hmem := Registry.mem_entries_of_get? h
  obtain ⟨rfl, rfl⟩ := Prod.mk.inj (List.mem_singleton.mp hmem)
  rfl

/-- A ticket without an owner is checked alike. The signature shows the owner, so it needs the
entry. -/
theorem operations_of_extendedBy_ticket :
    offices.ExtendedBy staff ∧
    openTicket.validate 3 offices ticket = .ok (.single (.missingRequired "$.id")) ∧
    openTicket.validate 3 staff ticket = .ok (.single (.missingRequired "$.id")) ∧
    ticket.signature 3 offices = .error (.unresolvedType "person") ∧
    ticket.signature 3 staff =
      .ok "shape(id*:int, office:string, owner:shape(name:string, office:string))" := by
  have hbefore : openTicket.validate 3 offices ticket =
      .ok (.single (.missingRequired "$.id")) := by decide +kernel
  have hsame := operations_of_extendedBy 3 extendedBy_staff (.of_empty ∅) ticket ticket openTicket
    .nullable []
  refine ⟨extendedBy_staff, hbefore, ?_, by decide +kernel, by decide +kernel⟩
  rw [hsame.2.1 (by simp [hbefore]), hbefore]

end Ticket

end ValueSchema
