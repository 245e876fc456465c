import ValueSchema.Compatibility
import ValueSchema.Proofs.Value

/-! # One level of a comparison

Equivalence and compatibility differ in the kinds that they let through and in how they compare
the flags of the two sides. -/

namespace ValueSchema

namespace Builtin

/-- The kinds of which no attribute matters to a comparison. -/
def isBare : Builtin → Bool
  | .string | .bool | .int | .float | .array | .component => true
  | _ => false

/-- Whether two kinds are the same one and can be compared at all. -/
def equates (left right : Builtin) : Bool := left == right && left != .func

theorem equates_iff {left right : Builtin} :
    left.equates right = true ↔ left = right ∧ left ≠ .func := by
  simp [equates]

/-- A kind with attributes that matter takes no other kind, `object` apart. -/
theorem eq_of_widensTo {source target : Builtin} (h : source.widensTo target = true)
    (bare : target.isBare = false) (object : target ≠ .object) : source = target := by
  cases target with
  | scalar | oneOf | arrayOf | objectOf | shape => cases source <;> first | rfl | cases h
  | func => cases source <;> cases h
  | object => exact absurd rfl object
  | _ => cases bare

end Builtin

theorem Choice.covered_iff {lefts rights : List Choice} :
    covered lefts rights = true ↔
      ∀ left ∈ lefts, ∃ right ∈ rights, left.value.valueEq right.value = true := by
  simp [covered]

/-- Lists of options with the same values have a counterpart for each value. -/
theorem Choice.exists_valueEq {lefts rights : List Choice} {left : Choice} {value : Json}
    (hlefts : ∀ choice ∈ lefts, choice.value.IsSimple)
    (hrights : ∀ choice ∈ rights, choice.value.IsSimple) (same : sameValues lefts rights = true)
    (mem : left ∈ lefts) (equal : left.value.valueEq value = true) :
    ∃ right ∈ rights, right.value.valueEq value = true := by
  have hcovered : covered lefts rights = true := (Bool.and_eq_true_iff.mp same).1
  obtain ⟨right, hmem, hequal⟩ := covered_iff.mp hcovered left mem
  refine ⟨right, hmem, ?_⟩
  rwa [← Json.eq_of_valueEq (hlefts left mem) (hrights right hmem) hequal]

/-- A target that sets a flag accepts only sources that set it too. -/
def flagImplied (source target : Bool) : Bool := !target || source

theorem flagImplied_iff {source target : Bool} :
    flagImplied source target = true ↔ (target = true → source = true) := by
  cases source <;> cases target <;> simp [flagImplied]

/-- One level of a comparison: `kinds` and `flags` are tests, `parts` compares the parts. -/
def compareLayer (kinds : Builtin → Builtin → Bool) (flags : Bool → Bool → Bool)
    (parts : TypeDef → TypeDef → Except Failure Bool) (source target : Resolved) :
    Except Failure Bool :=
  if kinds source.kind target.kind then
    match target.kind with
    | .string | .bool | .int | .float | .array | .component => return true
    | .func => return false
    | .scalar => return source.definition.name == target.definition.name
    | .oneOf => do
        let choices ← source.definition.choices
        let choices' ← target.definition.choices
        return Choice.sameValues choices.val choices'.val
    | .object => return flags source.definition.isNotNull target.definition.isNotNull
    | .arrayOf => do
        let element ← source.definition.element
        let element' ← target.definition.element
        parts element element'
    | .objectOf =>
        if flags source.definition.isNotNull target.definition.isNotNull then do
          let element ← source.definition.element
          let element' ← target.definition.element
          parts element element'
        else return false
    | .shape =>
        if flags source.definition.isNotNull target.definition.isNotNull then do
          let fields ← source.definition.declaredFields
          let fields' ← target.definition.declaredFields
          matchFields (fun field field' =>
            if flags field.isRequired field'.isRequired then parts field field' else return false)
            fields fields'
        else return false
  else return false

section Equations

variable (limit : Nat) (leftRegistry rightRegistry : Registry) (depth : Nat) (left right : TypeDef)

theorem compatibleWithin_succ :
    TypeDef.compatibleWithin limit leftRegistry rightRegistry (depth + 1) left right =
      left.resolve limit leftRegistry >>= fun source =>
        right.resolve limit rightRegistry >>= fun target =>
          compareLayer Builtin.widensTo flagImplied
            (TypeDef.compatibleWithin limit leftRegistry rightRegistry depth) source target := by
  have hguard : ∀ (source target : Bool) (test : Except Failure Bool),
      (if target && !source then pure false else test) =
        if flagImplied source target then test else pure false := by
    intro source target test
    cases source <;> cases target <;> rfl
  rw [TypeDef.compatibleWithin]
  congr 1
  funext source
  congr 1
  funext target
  unfold compareLayer
  cases source.kind.widensTo target.kind with
  | false => rfl
  | true => simp only [hguard]; rfl

theorem equivalentWithin_succ :
    TypeDef.equivalentWithin limit leftRegistry rightRegistry (depth + 1) left right =
      left.resolve limit leftRegistry >>= fun source =>
        right.resolve limit rightRegistry >>= fun target =>
          compareLayer Builtin.equates (· == ·)
            (TypeDef.equivalentWithin limit leftRegistry rightRegistry depth) source target := by
  rw [TypeDef.equivalentWithin]
  congr 1
  funext source
  congr 1
  funext target
  unfold compareLayer
  by_cases hkind : source.kind = target.kind
  · rw [hkind]
    cases target.kind <;> simp [Builtin.equates]
  · simp [hkind, Builtin.equates]

end Equations

/-! ## When the answer is `true` -/

/-- The fields of a shape have counterparts of the same names in a shape of the same size. -/
structure FieldsFit (flags : Bool → Bool → Bool) (parts : TypeDef → TypeDef → Prop)
    (sources targets : Record TypeDef) : Prop where
  size_eq : sources.size = targets.size
  counterpart : ∀ (name : String) (source : TypeDef), sources.get? name = some source →
    ∃ target, targets.get? name = some target ∧
      flags source.isRequired target.isRequired = true ∧ parts source target

namespace FieldsFit

variable {flags : Bool → Bool → Bool} {parts : TypeDef → TypeDef → Prop}
  {sources targets : Record TypeDef}

theorem names_subset (h : FieldsFit flags parts sources targets) :
    sources.names ⊆ targets.names := by
  intro name hname
  obtain ⟨source, hsource⟩ := Record.mem_names_iff.mp hname
  obtain ⟨target, htarget, -⟩ := h.counterpart name source hsource
  exact Record.mem_names_iff.mpr ⟨target, htarget⟩

/-- The names of a shape that all have counterparts are all the names of the other shape. -/
theorem counterpart_of_target (h : FieldsFit flags parts sources targets) {name : String}
    {target : TypeDef} (htarget : targets.get? name = some target) :
    ∃ source, sources.get? name = some source ∧
      flags source.isRequired target.isRequired = true ∧ parts source target := by
  -- Only the sources are looked up by the comparison; the sizes settle the other direction.
  have hname : name ∈ sources.names :=
    Record.names_subset_of_size_eq h.size_eq h.names_subset
      (Record.mem_names_iff.mpr ⟨target, htarget⟩)
  obtain ⟨source, hsource⟩ := Record.mem_names_iff.mp hname
  obtain ⟨target', htarget', hrequired, hfits⟩ := h.counterpart name source hsource
  obtain rfl : target = target' := Option.some.inj (htarget.symm.trans htarget')
  exact ⟨source, hsource, hrequired, hfits⟩

end FieldsFit

/-- What a comparison demands of two definitions beyond their kinds. -/
inductive Fits (flags : Bool → Bool → Bool) (parts : TypeDef → TypeDef → Prop)
    (source target : Resolved) : Prop
  | bare (kind : target.kind.isBare = true)
  | scalar (kind : target.kind = .scalar)
      (name_eq : source.definition.name = target.definition.name)
  | oneOf {choices choices' : { choices : List Choice // choices ≠ [] }}
      (kind : target.kind = .oneOf) (hsource : source.definition.choices = .ok choices)
      (htarget : target.definition.choices = .ok choices')
      (same : Choice.sameValues choices.val choices'.val = true)
  | object (kind : target.kind = .object)
      (null : flags source.definition.isNotNull target.definition.isNotNull = true)
  | arrayOf {element element' : TypeDef} (kind : target.kind = .arrayOf)
      (hsource : source.definition.element = .ok element)
      (htarget : target.definition.element = .ok element') (fits : parts element element')
  | objectOf {element element' : TypeDef} (kind : target.kind = .objectOf)
      (null : flags source.definition.isNotNull target.definition.isNotNull = true)
      (hsource : source.definition.element = .ok element)
      (htarget : target.definition.element = .ok element') (fits : parts element element')
  | shape {fields fields' : Record TypeDef} (kind : target.kind = .shape)
      (null : flags source.definition.isNotNull target.definition.isNotNull = true)
      (hsource : source.definition.declaredFields = .ok fields)
      (htarget : target.definition.declaredFields = .ok fields')
      (fits : FieldsFit flags parts fields fields')

namespace Fits

variable {flags : Bool → Bool → Bool} {parts : TypeDef → TypeDef → Prop} {source target : Resolved}

theorem null_of_isNullable (h : Fits flags parts source target)
    (nullable : target.kind.isNullable = true) :
    flags source.definition.isNotNull target.definition.isNotNull = true := by
  cases h with
  | object kind null => exact null
  | objectOf kind null hsource htarget fits => exact null
  | shape kind null hsource htarget fits => exact null
  | bare kind => cases hkind : target.kind <;> simp_all [Builtin.isBare, Builtin.isNullable]
  | scalar kind name_eq | oneOf kind hsource htarget same | arrayOf kind hsource htarget fits =>
      rw [kind] at nullable
      cases nullable

theorem elements_of_elementwise (h : Fits flags parts source target)
    (kind : target.kind = .arrayOf ∨ target.kind = .objectOf) :
    ∃ element element', source.definition.element = .ok element ∧
      target.definition.element = .ok element' ∧ parts element element' := by
  cases h with
  | arrayOf kind' hsource htarget fits => exact ⟨_, _, hsource, htarget, fits⟩
  | objectOf kind' null hsource htarget fits => exact ⟨_, _, hsource, htarget, fits⟩
  | bare kind' => rcases kind with kind | kind <;> simp [kind, Builtin.isBare] at kind'
  | scalar kind' name_eq | oneOf kind' hsource htarget same | object kind' null
  | shape kind' null hsource htarget fits => simp [kind'] at kind

theorem name_of_scalar (h : Fits flags parts source target) (kind : target.kind = .scalar) :
    source.definition.name = target.definition.name := by
  cases h with
  | scalar kind' name_eq => exact name_eq
  | bare kind' => simp [kind, Builtin.isBare] at kind'
  | oneOf kind' hsource htarget same | object kind' null | arrayOf kind' hsource htarget fits
  | objectOf kind' null hsource htarget fits | shape kind' null hsource htarget fits =>
      simp [kind'] at kind

theorem choices_of_oneOf (h : Fits flags parts source target) (kind : target.kind = .oneOf) :
    ∃ choices choices', source.definition.choices = .ok choices ∧
      target.definition.choices = .ok choices' ∧
      Choice.sameValues choices.val choices'.val = true := by
  cases h with
  | oneOf kind' hsource htarget same => exact ⟨_, _, hsource, htarget, same⟩
  | bare kind' => simp [kind, Builtin.isBare] at kind'
  | scalar kind' name_eq | object kind' null | arrayOf kind' hsource htarget fits
  | objectOf kind' null hsource htarget fits | shape kind' null hsource htarget fits =>
      simp [kind'] at kind

theorem fields_of_shape (h : Fits flags parts source target) (kind : target.kind = .shape) :
    ∃ fields fields', source.definition.declaredFields = .ok fields ∧
      target.definition.declaredFields = .ok fields' ∧ FieldsFit flags parts fields fields' := by
  cases h with
  | shape kind' null hsource htarget fits => exact ⟨_, _, hsource, htarget, fits⟩
  | bare kind' => simp [kind, Builtin.isBare] at kind'
  | scalar kind' name_eq | oneOf kind' hsource htarget same | object kind' null
  | arrayOf kind' hsource htarget fits | objectOf kind' null hsource htarget fits =>
      simp [kind'] at kind

end Fits

theorem matchFields_eq_true_iff {test : TypeDef → TypeDef → Except Failure Bool}
    {lefts rights : Record TypeDef} :
    matchFields test lefts rights = .ok true ↔
      lefts.size = rights.size ∧ ∀ (name : String) (left : TypeDef),
        lefts.get? name = some left →
          ∃ right, rights.get? name = some right ∧ test left right = .ok true := by
  -- The loop runs over the entries of the left side and looks each name up on the right.
  have hgo : ∀ entries : List (String × TypeDef),
      matchFields.go test rights entries = .ok true ↔
        ∀ entry ∈ entries, ∃ right, rights.get? entry.1 = some right ∧
          test entry.2 right = .ok true := by
    intro entries
    induction entries with
    | nil => simp [matchFields.go]
    | cons entry entries ih =>
        rw [matchFields.go, List.forall_mem_cons, ← ih]
        cases rights.get? entry.1 with
        | none => simp
        | some right =>
            cases htest : test entry.2 right with
            | error failure => simp [htest]
            | ok passed => cases passed <;> simp [htest, pure_eq_ok]
  unfold matchFields
  split
  · next hsize =>
      rw [hgo]
      constructor
      · intro h
        exact ⟨hsize, fun name left hleft => h (name, left) (Record.get?_eq_some_iff.mp hleft)⟩
      · intro h entry hentry
        exact h.2 entry.1 entry.2 (Record.get?_eq_some_iff.mpr hentry)
  · next hsize => simp [hsize]

section Layer

variable {kinds : Builtin → Builtin → Bool} {flags : Bool → Bool → Bool}
  {parts : TypeDef → TypeDef → Except Failure Bool} {source target : Resolved}

theorem fieldsFit_iff {fields fields' : Record TypeDef} :
    matchFields (fun field field' =>
        if flags field.isRequired field'.isRequired then parts field field' else pure false)
        fields fields' = .ok true ↔
      FieldsFit flags (fun field field' => parts field field' = .ok true) fields fields' := by
  have hguard : ∀ (passed : Bool) (test : Except Failure Bool),
      (if passed then test else pure false) = .ok true ↔ passed = true ∧ test = .ok true := by
    intro passed test
    cases passed <;> simp [pure_eq_ok]
  simp only [matchFields_eq_true_iff, hguard]
  exact ⟨fun h => ⟨h.1, h.2⟩, fun h => ⟨h.size_eq, h.counterpart⟩⟩

theorem Fits.of_compareLayer (h : compareLayer kinds flags parts source target = .ok true) :
    Fits flags (fun source target => parts source target = .ok true) source target := by
  unfold compareLayer at h
  split at h
  case isFalse => cases h
  cases kind : target.kind <;> simp only [kind] at h
  case func => cases h
  case scalar => exact .scalar kind (by simpa [pure_eq_ok] using h)
  case oneOf =>
    simp only [bind_eq_ok_iff, pure_eq_ok, Except.ok.injEq] at h
    obtain ⟨choices, hchoices, choices', hchoices', hsame⟩ := h
    exact .oneOf kind hchoices hchoices' hsame
  case object => exact .object kind (Except.ok.inj h)
  case arrayOf =>
    simp only [bind_eq_ok_iff] at h
    obtain ⟨element, helement, element', helement', hfits⟩ := h
    exact .arrayOf kind helement helement' hfits
  case objectOf =>
    split at h
    case isFalse => cases h
    next null =>
    simp only [bind_eq_ok_iff] at h
    obtain ⟨element, helement, element', helement', hfits⟩ := h
    exact .objectOf kind null helement helement' hfits
  case shape =>
    split at h
    case isFalse => cases h
    next null =>
    simp only [bind_eq_ok_iff] at h
    obtain ⟨fields, hfields, fields', hfields', hfits⟩ := h
    exact .shape kind null hfields hfields' (fieldsFit_iff.mp hfits)
  all_goals exact .bare (by rw [kind]; rfl)

theorem Fits.compareLayer (hkinds : kinds source.kind target.kind = true)
    (h : Fits flags (fun source target => parts source target = .ok true) source target) :
    compareLayer kinds flags parts source target = .ok true := by
  unfold ValueSchema.compareLayer
  rw [if_pos hkinds]
  cases h with
  | bare kind => cases hkind : target.kind <;> simp_all [Builtin.isBare, pure_eq_ok]
  | scalar kind name_eq => simp [kind, name_eq, pure_eq_ok]
  | oneOf kind hchoices hchoices' hsame => simp [kind, hchoices, hchoices', hsame, pure_eq_ok]
  | object kind null => simp [kind, null, pure_eq_ok]
  | arrayOf kind helement helement' hfits => simp [kind, helement, helement', hfits]
  | objectOf kind null helement helement' hfits => simp [kind, null, helement, helement', hfits]
  | shape kind null hfields hfields' hfits =>
      simp [kind, null, hfields, hfields', fieldsFit_iff.mpr hfits]

theorem compareLayer_eq_true_iff :
    compareLayer kinds flags parts source target = .ok true ↔
      kinds source.kind target.kind = true ∧
        Fits flags (fun source target => parts source target = .ok true) source target := by
  constructor
  · intro h
    refine ⟨?_, .of_compareLayer h⟩
    by_contra hkinds
    rw [compareLayer, if_neg hkinds] at h
    cases h
  · rintro ⟨hkinds, h⟩
    exact h.compareLayer hkinds

end Layer

section Levels

variable {limit : Nat} {leftRegistry rightRegistry : Registry} {depth : Nat} {left right : TypeDef}

theorem compatibleWithin_succ_iff :
    TypeDef.compatibleWithin limit leftRegistry rightRegistry (depth + 1) left right = .ok true ↔
      ∃ source target, left.resolve limit leftRegistry = .ok source ∧
        right.resolve limit rightRegistry = .ok target ∧
        source.kind.widensTo target.kind = true ∧
        Fits flagImplied (fun left right => TypeDef.compatibleWithin limit leftRegistry
          rightRegistry depth left right = .ok true) source target := by
  simp only [compatibleWithin_succ, bind_eq_ok_iff, compareLayer_eq_true_iff,
    exists_and_left]

/-- Compatible definitions fit, and so do their parts with some depth left. -/
theorem fits_of_compatibleWithin {source : Resolved}
    (resolves : left.resolve limit leftRegistry = .ok source)
    (h : TypeDef.compatibleWithin limit leftRegistry rightRegistry depth left right = .ok true) :
    ∃ target rest, right.resolve limit rightRegistry = .ok target ∧
      source.kind.widensTo target.kind = true ∧
      Fits flagImplied (fun left right => TypeDef.compatibleWithin limit leftRegistry
        rightRegistry rest left right = .ok true) source target := by
  cases depth with
  | zero => cases h
  | succ rest =>
      obtain ⟨_, target, hsource, hfits⟩ := compatibleWithin_succ_iff.mp h
      cases resolves.symm.trans hsource
      exact ⟨target, rest, hfits⟩

theorem equivalentWithin_succ_iff :
    TypeDef.equivalentWithin limit leftRegistry rightRegistry (depth + 1) left right = .ok true ↔
      ∃ source target, left.resolve limit leftRegistry = .ok source ∧
        right.resolve limit rightRegistry = .ok target ∧
        source.kind.equates target.kind = true ∧
        Fits (· == ·) (fun left right => TypeDef.equivalentWithin limit leftRegistry
          rightRegistry depth left right = .ok true) source target := by
  simp only [equivalentWithin_succ, bind_eq_ok_iff, compareLayer_eq_true_iff,
    exists_and_left]

end Levels

end ValueSchema
