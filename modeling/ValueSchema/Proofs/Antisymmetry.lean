import ValueSchema.Proofs.Comparison

/-! # Equivalence is compatibility both ways -/

namespace ValueSchema

theorem Builtin.widensTo_antisymm {left right : Builtin} (h : left.widensTo right = true)
    (h' : right.widensTo left = true) : left = right := by
  cases left <;> cases right <;> simp_all [widensTo]

theorem Builtin.widensTo_self_iff {kind : Builtin} : kind.widensTo kind = true ↔ kind ≠ .func := by
  cases kind <;> simp [widensTo]

theorem Choice.sameValues_comm (lefts rights : List Choice) :
    sameValues lefts rights = sameValues rights lefts :=
  Bool.and_comm ..

section Levels

variable {flags flags' : Bool → Bool → Bool} {parts parts' : TypeDef → TypeDef → Prop}

theorem FieldsFit.mono {sources targets : Record TypeDef}
    (hflags : ∀ a b, flags a b = true → flags' a b = true)
    (hparts : ∀ a b, parts a b → parts' a b) (h : FieldsFit flags parts sources targets) :
    FieldsFit flags' parts' sources targets := by
  refine ⟨h.size_eq, fun name source hsource => ?_⟩
  obtain ⟨target, htarget, hrequired, hfits⟩ := h.counterpart name source hsource
  exact ⟨target, htarget, hflags _ _ hrequired, hparts _ _ hfits⟩

theorem FieldsFit.swap {sources targets : Record TypeDef}
    (hflags : ∀ a b, flags a b = true → flags' b a = true)
    (hparts : ∀ a b, parts a b → parts' b a) (h : FieldsFit flags parts sources targets) :
    FieldsFit flags' parts' targets sources := by
  refine ⟨h.size_eq.symm, fun name target htarget => ?_⟩
  obtain ⟨source, hsource, hrequired, hfits⟩ := h.counterpart_of_target htarget
  exact ⟨source, hsource, hflags _ _ hrequired, hparts _ _ hfits⟩

theorem Fits.mono {source target : Resolved}
    (hflags : ∀ a b, flags a b = true → flags' a b = true)
    (hparts : ∀ a b, parts a b → parts' a b) (h : Fits flags parts source target) :
    Fits flags' parts' source target := by
  cases h with
  | bare kind => exact .bare kind
  | scalar kind name_eq => exact .scalar kind name_eq
  | oneOf kind hsource htarget same => exact .oneOf kind hsource htarget same
  | object kind null => exact .object kind (hflags _ _ null)
  | arrayOf kind hsource htarget fits => exact .arrayOf kind hsource htarget (hparts _ _ fits)
  | objectOf kind null hsource htarget fits =>
      exact .objectOf kind (hflags _ _ null) hsource htarget (hparts _ _ fits)
  | shape kind null hsource htarget fits =>
      exact .shape kind (hflags _ _ null) hsource htarget (fits.mono hflags hparts)

theorem Fits.swap {source target : Resolved} (hkind : source.kind = target.kind)
    (hflags : ∀ a b, flags a b = true → flags' b a = true)
    (hparts : ∀ a b, parts a b → parts' b a) (h : Fits flags parts source target) :
    Fits flags' parts' target source := by
  cases h with
  | bare kind => exact .bare (hkind ▸ kind)
  | scalar kind name_eq => exact .scalar (hkind.trans kind) name_eq.symm
  | oneOf kind hsource htarget same =>
      exact .oneOf (hkind.trans kind) htarget hsource (Choice.sameValues_comm _ _ ▸ same)
  | object kind null => exact .object (hkind.trans kind) (hflags _ _ null)
  | arrayOf kind hsource htarget fits =>
      exact .arrayOf (hkind.trans kind) htarget hsource (hparts _ _ fits)
  | objectOf kind null hsource htarget fits =>
      exact .objectOf (hkind.trans kind) (hflags _ _ null) htarget hsource (hparts _ _ fits)
  | shape kind null hsource htarget fits =>
      exact .shape (hkind.trans kind) (hflags _ _ null) htarget hsource (fits.swap hflags hparts)

theorem flag_eq_of_flagImplied {a b : Bool} (h : flagImplied a b = true)
    (h' : flagImplied b a = true) : (a == b) = true := by
  cases a <;> cases b <;> simp_all [flagImplied]

theorem FieldsFit.antisymm {lefts rights : Record TypeDef}
    (h : FieldsFit flagImplied parts lefts rights)
    (h' : FieldsFit flagImplied parts' rights lefts) :
    FieldsFit (· == ·) (fun left right => parts left right ∧ parts' right left) lefts rights := by
  refine ⟨h.size_eq, fun name left hleft => ?_⟩
  obtain ⟨right, hright, hrequired, hfits⟩ := h.counterpart name left hleft
  obtain ⟨left', hleft', hrequired', hfits'⟩ := h'.counterpart name right hright
  obtain rfl : left = left' := Option.some.inj (hleft.symm.trans hleft')
  exact ⟨right, hright, flag_eq_of_flagImplied hrequired hrequired', hfits, hfits'⟩

theorem Fits.antisymm {left right : Resolved} (hkind : left.kind = right.kind)
    (h : Fits flagImplied parts left right) (h' : Fits flagImplied parts' right left) :
    Fits (· == ·) (fun left right => parts left right ∧ parts' right left) left right := by
  have hnull : right.kind.isNullable = true →
      (left.definition.isNotNull == right.definition.isNotNull) = true := by
    intro nullable
    exact flag_eq_of_flagImplied (h.null_of_isNullable nullable)
      (h'.null_of_isNullable (hkind ▸ nullable))
  cases h with
  | bare kind => exact .bare kind
  | scalar kind name_eq => exact .scalar kind name_eq
  | oneOf kind hleft hright same => exact .oneOf kind hleft hright same
  | object kind null => exact .object kind (hnull (by rw [kind]; rfl))
  | arrayOf kind hleft hright fits =>
      obtain ⟨_, _, hright', hleft', fits'⟩ :=
        h'.elements_of_elementwise (.inl (hkind.trans kind))
      cases hright.symm.trans hright'
      cases hleft.symm.trans hleft'
      exact .arrayOf kind hleft hright ⟨fits, fits'⟩
  | objectOf kind null hleft hright fits =>
      obtain ⟨_, _, hright', hleft', fits'⟩ :=
        h'.elements_of_elementwise (.inr (hkind.trans kind))
      cases hright.symm.trans hright'
      cases hleft.symm.trans hleft'
      exact .objectOf kind (hnull (by rw [kind]; rfl)) hleft hright ⟨fits, fits'⟩
  | shape kind null hleft hright fits =>
      obtain ⟨_, _, hright', hleft', fits'⟩ := h'.fields_of_shape (hkind.trans kind)
      cases hright.symm.trans hright'
      cases hleft.symm.trans hleft'
      exact .shape kind (hnull (by rw [kind]; rfl)) hleft hright (fits.antisymm fits')

end Levels

section Runs

variable {limit : Nat} {leftRegistry rightRegistry : Registry}

theorem compatibleWithin_of_equivalentWithin {depth : Nat} {left right : TypeDef}
    (h : TypeDef.equivalentWithin limit leftRegistry rightRegistry depth left right = .ok true) :
    TypeDef.compatibleWithin limit leftRegistry rightRegistry depth left right = .ok true ∧
      TypeDef.compatibleWithin limit rightRegistry leftRegistry depth right left = .ok true := by
  induction depth generalizing left right with
  | zero => cases h
  | succ depth ih =>
      obtain ⟨source, target, hsource, htarget, hkinds, hfits⟩ := equivalentWithin_succ_iff.mp h
      obtain ⟨hkind, hfunc⟩ := Builtin.equates_iff.mp hkinds
      -- A function type is not equivalent to itself and does not widen to itself either.
      have hwidens := Builtin.widensTo_self_iff.mpr hfunc
      have hflags : ∀ a b : Bool, (a == b) = true → flagImplied a b = true := by decide
      have hflags' : ∀ a b : Bool, (a == b) = true → flagImplied b a = true := by decide
      constructor
      · refine compatibleWithin_succ_iff.mpr ⟨source, target, hsource, htarget, ?_, ?_⟩
        · rwa [← hkind]
        · exact hfits.mono hflags fun _ _ hparts => (ih hparts).1
      · refine compatibleWithin_succ_iff.mpr ⟨target, source, htarget, hsource, ?_, ?_⟩
        · rwa [← hkind]
        · exact hfits.swap hkind hflags' fun _ _ hparts => (ih hparts).2

theorem equivalentWithin_of_compatibleWithin {depth : Nat} {left right : TypeDef}
    (h : TypeDef.compatibleWithin limit leftRegistry rightRegistry depth left right = .ok true)
    (h' : TypeDef.compatibleWithin limit rightRegistry leftRegistry depth right left = .ok true) :
    TypeDef.equivalentWithin limit leftRegistry rightRegistry depth left right = .ok true := by
  induction depth generalizing left right with
  | zero => cases h
  | succ depth ih =>
      obtain ⟨source, target, hsource, htarget, hwidens, hfits⟩ := compatibleWithin_succ_iff.mp h
      obtain ⟨target', source', htarget', hsource', hwidens', hfits'⟩ :=
        compatibleWithin_succ_iff.mp h'
      -- Both directions resolve the same two definitions.
      obtain rfl : source = source' := Except.ok.inj (hsource.symm.trans hsource')
      obtain rfl : target = target' := Except.ok.inj (htarget.symm.trans htarget')
      have hkind := Builtin.widensTo_antisymm hwidens hwidens'
      have hfunc : source.kind ≠ .func := Builtin.widensTo_self_iff.mp (hkind ▸ hwidens)
      refine equivalentWithin_succ_iff.mpr
        ⟨source, target, hsource, htarget, Builtin.equates_iff.mpr ⟨hkind, hfunc⟩, ?_⟩
      exact (hfits.antisymm hkind hfits').mono (fun _ _ h => h) fun _ _ hparts =>
        ih hparts.1 hparts.2

/-- Two types are equivalent exactly if each is compatible with the other. -/
theorem equivalent_iff_mutually_compatible (limit : Nat) (leftRegistry rightRegistry : Registry)
    (left right : TypeDef) :
    TypeDef.equivalent limit leftRegistry rightRegistry left right = .ok true ↔
      TypeDef.compatible limit leftRegistry rightRegistry left right = .ok true ∧
        TypeDef.compatible limit rightRegistry leftRegistry right left = .ok true :=
  ⟨compatibleWithin_of_equivalentWithin, fun h => equivalentWithin_of_compatibleWithin h.1 h.2⟩

end Runs

end ValueSchema
