import ValueSchema.Proofs.Comparison
import ValueSchema.Proofs.Position

/-! # Compatibility is transitive

Equality of numbers is not, so options are compared through a middle one only if they are simple. -/

namespace ValueSchema

/-! ## Kinds, flags and options -/

theorem Builtin.widensTo_trans {source middle target : Builtin}
    (h : source.widensTo middle = true) (h' : middle.widensTo target = true) :
    source.widensTo target = true := by
  -- The second widening leaves few pairs, and only those are met by a source.
  cases target <;> cases middle <;> cases h' <;> cases source <;> first | rfl | cases h

theorem Builtin.isNullable_of_widensTo_nullable {source target : Builtin}
    (h : source.widensTo target = true) (nullable : target.isNullable = true) :
    source.isNullable = true := by
  cases target with
  | object | objectOf | shape => cases source <;> first | rfl | cases h
  | _ => cases nullable

theorem flagImplied_trans {source middle target : Bool} (h : flagImplied source middle = true)
    (h' : flagImplied middle target = true) : flagImplied source target = true := by
  rw [flagImplied_iff] at h h' ⊢
  exact fun htarget => h (h' htarget)

namespace Choice

/-- Lists with the same values as a middle one. The values on one side may be any. -/
theorem sameValues_trans {lefts middles rights : List Choice}
    (hmiddles : ∀ choice ∈ middles, choice.value.IsSimple)
    (hrights : ∀ choice ∈ rights, choice.value.IsSimple)
    (h : sameValues lefts middles = true) (h' : sameValues middles rights = true) :
    sameValues lefts rights = true := by
  simp only [sameValues, Bool.and_eq_true, covered_iff] at h h' ⊢
  constructor
  · intro left hleft
    obtain ⟨middle, hmiddle, hequal⟩ := h.1 left hleft
    obtain ⟨right, hright, hequal'⟩ := h'.1 middle hmiddle
    refine ⟨right, hright, ?_⟩
    rwa [← Json.eq_of_valueEq (hmiddles middle hmiddle) (hrights right hright) hequal']
  · intro right hright
    obtain ⟨middle, hmiddle, hequal'⟩ := h'.2 right hright
    obtain ⟨left, hleft, hequal⟩ := h.2 middle hmiddle
    refine ⟨left, hleft, ?_⟩
    rwa [Json.eq_of_valueEq (hrights right hright) (hmiddles middle hmiddle) hequal']

end Choice

/-! ## One level -/

/-- The values of a `oneOf` are simple. -/
def Resolved.SimpleChoices (resolved : Resolved) : Prop :=
  ∀ choices : { choices : List Choice // choices ≠ [] }, resolved.kind = .oneOf →
    resolved.definition.choices = .ok choices → ∀ choice ∈ choices.val, choice.value.IsSimple

theorem TypeDef.SimpleOptions.simpleChoices {limit : Nat} {registry : Registry} {d : TypeDef}
    {resolved : Resolved} (h : d.SimpleOptions limit registry)
    (resolves : d.resolve limit registry = .ok resolved) : resolved.SimpleChoices :=
  fun choices => h [] d resolved choices rfl resolves

section Levels

variable {parts parts' parts'' : TypeDef → TypeDef → Prop}

theorem FieldsFit.trans {sources middles targets : Record TypeDef}
    (hparts : ∀ source, ∀ middle ∈ middles.toList, ∀ target ∈ targets.toList,
      parts source middle.2 → parts' middle.2 target.2 → parts'' source target.2)
    (h : FieldsFit flagImplied parts sources middles)
    (h' : FieldsFit flagImplied parts' middles targets) :
    FieldsFit flagImplied parts'' sources targets := by
  refine ⟨h.size_eq.trans h'.size_eq, fun name source hsource => ?_⟩
  obtain ⟨middle, hmiddle, hrequired, hfits⟩ := h.counterpart name source hsource
  obtain ⟨target, htarget, hrequired', hfits'⟩ := h'.counterpart name middle hmiddle
  refine ⟨target, htarget, flagImplied_trans hrequired hrequired', ?_⟩
  exact hparts source _ (Record.get?_eq_some_iff.mp hmiddle) _ (Record.get?_eq_some_iff.mp htarget)
    hfits hfits'

theorem Fits.trans {source middle target : Resolved}
    (widens : middle.kind.widensTo target.kind = true) (simple : middle.SimpleChoices)
    (simple' : target.SimpleChoices)
    (hparts : ∀ a, ∀ b ∈ middle.parts, ∀ c ∈ target.parts, parts a b → parts' b c → parts'' a c)
    (h : Fits flagImplied parts source middle) (h' : Fits flagImplied parts' middle target) :
    Fits flagImplied parts'' source target := by
  have hnull : target.kind.isNullable = true →
      flagImplied source.definition.isNotNull target.definition.isNotNull = true := by
    intro nullable
    have nullable' := Builtin.isNullable_of_widensTo_nullable widens nullable
    exact flagImplied_trans (h.null_of_isNullable nullable') (h'.null_of_isNullable nullable)
  -- Past the bare kinds and `object`, the middle is of the kind of the target.
  cases h' with
  | bare kind => exact .bare kind
  | scalar kind name_eq =>
      have kind' : middle.kind = .scalar :=
        Builtin.eq_of_widensTo (kind ▸ widens) rfl (by decide)
      exact .scalar kind ((h.name_of_scalar kind').trans name_eq)
  | oneOf kind hmiddle htarget same =>
      have kind' : middle.kind = .oneOf :=
        Builtin.eq_of_widensTo (kind ▸ widens) rfl (by decide)
      obtain ⟨_, _, hsource, hmiddle', same'⟩ := h.choices_of_oneOf kind'
      cases hmiddle.symm.trans hmiddle'
      exact .oneOf kind hsource htarget (Choice.sameValues_trans (simple _ kind' hmiddle)
        (simple' _ kind htarget) same' same)
  | object kind null => exact .object kind (hnull (by rw [kind]; rfl))
  | arrayOf kind hmiddle htarget fits =>
      have kind' : middle.kind = .arrayOf :=
        Builtin.eq_of_widensTo (kind ▸ widens) rfl (by decide)
      obtain ⟨_, _, hsource, hmiddle', fits'⟩ := h.elements_of_elementwise (.inl kind')
      cases hmiddle.symm.trans hmiddle'
      have hmem := (Resolved.yields_element (.inl kind')).good_of_eq_ok hmiddle
      have hmem' := (Resolved.yields_element (.inl kind)).good_of_eq_ok htarget
      exact .arrayOf kind hsource htarget (hparts _ _ hmem _ hmem' fits' fits)
  | objectOf kind null hmiddle htarget fits =>
      have kind' : middle.kind = .objectOf :=
        Builtin.eq_of_widensTo (kind ▸ widens) rfl (by decide)
      obtain ⟨_, _, hsource, hmiddle', fits'⟩ := h.elements_of_elementwise (.inr kind')
      cases hmiddle.symm.trans hmiddle'
      have hmem := (Resolved.yields_element (.inr kind')).good_of_eq_ok hmiddle
      have hmem' := (Resolved.yields_element (.inr kind)).good_of_eq_ok htarget
      exact .objectOf kind (hnull (by rw [kind]; rfl)) hsource htarget
        (hparts _ _ hmem _ hmem' fits' fits)
  | shape kind null hmiddle htarget fits =>
      have kind' : middle.kind = .shape :=
        Builtin.eq_of_widensTo (kind ▸ widens) rfl (by decide)
      obtain ⟨_, _, hsource, hmiddle', fits'⟩ := h.fields_of_shape kind'
      cases hmiddle.symm.trans hmiddle'
      have hmem := (Resolved.yields_declaredFields kind').good_of_eq_ok hmiddle
      have hmem' := (Resolved.yields_declaredFields kind).good_of_eq_ok htarget
      refine .shape kind (hnull (by rw [kind]; rfl)) hsource htarget (fits'.trans ?_ fits)
      intro a b hb c hc
      exact hparts a b.2 (hmem b hb) c.2 (hmem' c hc)

end Levels

/-! ## All levels -/

theorem compatibleWithin_trans {limit depth : Nat}
    {sourceRegistry middleRegistry targetRegistry : Registry} {source middle target : TypeDef}
    (h : TypeDef.compatibleWithin limit sourceRegistry middleRegistry depth source middle =
      .ok true)
    (h' : TypeDef.compatibleWithin limit middleRegistry targetRegistry depth middle target =
      .ok true)
    (simple : middle.SimpleOptions limit middleRegistry)
    (simple' : target.SimpleOptions limit targetRegistry) :
    TypeDef.compatibleWithin limit sourceRegistry targetRegistry depth source target =
      .ok true := by
  induction depth generalizing source middle target with
  | zero => cases h
  | succ depth ih =>
      obtain ⟨first, second, hfirst, hsecond, widens, fits⟩ := compatibleWithin_succ_iff.mp h
      obtain ⟨second', third, hsecond', hthird, widens', fits'⟩ := compatibleWithin_succ_iff.mp h'
      -- Both comparisons resolve the same middle.
      obtain rfl : second = second' := Except.ok.inj (hsecond.symm.trans hsecond')
      refine compatibleWithin_succ_iff.mpr
        ⟨first, third, hfirst, hthird, Builtin.widensTo_trans widens widens', ?_⟩
      have hchoices := simple.simpleChoices hsecond
      have hchoices' := simple'.simpleChoices hthird
      refine fits.trans widens' hchoices hchoices' ?_ fits'
      intro a b hb c hc hab hbc
      exact ih hab hbc (simple.of_mem_parts hsecond hb) (simple'.of_mem_parts hthird hc)

/-- What is compatible with a type is compatible with all that the type is compatible with. The
options of the source may be any values. -/
theorem compatible_trans (limit : Nat) (sourceRegistry middleRegistry targetRegistry : Registry)
    (source middle target : TypeDef)
    (h : TypeDef.compatible limit sourceRegistry middleRegistry source middle = .ok true)
    (h' : TypeDef.compatible limit middleRegistry targetRegistry middle target = .ok true)
    (simple : middle.SimpleOptions limit middleRegistry)
    (simple' : target.SimpleOptions limit targetRegistry) :
    TypeDef.compatible limit sourceRegistry targetRegistry source target = .ok true :=
  compatibleWithin_trans h h' simple simple'

section Reading

def units : Registry := .ofList [("unit", .oneOf [.string "m", .string "ft"])]

/-- The unit of a reading is looked up, its number is whole. -/
def reading : TypeDef := .shape
  [("value", (TypeDef.builtin .int).asRequired), ("unit", .reference "unit"),
    ("notes", .objectOf (.builtin .int))]

/-- A measurement has its fields and units in another order, and any number. -/
def measurement : TypeDef := .shape
  [("unit", .oneOf [.string "ft", .string "m", .string "ft"]), ("value", .builtin .float),
    ("notes", .objectOf (.builtin .float))]

def captions : Registry := .ofList
  [("any", .builtin .object), ("text", .builtin .string),
    ("unit", .oneOf [.string "m", .string "ft"])]

/-- A caption has the number as its text. -/
def caption : TypeDef := .shape
  [("notes", .reference "any"), ("value", .reference "text"), ("unit", .reference "unit")]

theorem simpleOptions_measurement : measurement.SimpleOptions 3 ∅ := by
  have hunit : (TypeDef.oneOf [.string "ft", .string "m", .string "ft"]).SimpleOptions 3 ∅ :=
    .of_parts rfl (by decide) (by simp [Resolved.parts])
  have hvalue : (TypeDef.builtin .float).SimpleOptions 3 ∅ :=
    .of_parts rfl (by decide) (by simp [Resolved.parts])
  have hnotes : (TypeDef.objectOf (.builtin .float)).SimpleOptions 3 ∅ :=
    .of_parts rfl (by decide) (List.forall_mem_singleton.mpr hvalue)
  refine .of_parts rfl (by decide) (List.forall_mem_cons.mpr ⟨hunit, ?_⟩)
  exact List.forall_mem_cons.mpr ⟨hvalue, List.forall_mem_singleton.mpr hnotes⟩

theorem simpleOptions_caption : caption.SimpleOptions 3 captions := by
  have hnotes : (TypeDef.reference "any").SimpleOptions 3 captions :=
    .of_parts rfl (by decide) (by simp [Resolved.parts])
  have hvalue : (TypeDef.reference "text").SimpleOptions 3 captions :=
    .of_parts rfl (by decide) (by simp [Resolved.parts])
  have hunit : (TypeDef.reference "unit").SimpleOptions 3 captions :=
    .of_parts rfl (by decide) (by simp [Resolved.parts])
  refine .of_parts rfl (by decide) (List.forall_mem_cons.mpr ⟨hnotes, ?_⟩)
  exact List.forall_mem_cons.mpr ⟨hvalue, List.forall_mem_singleton.mpr hunit⟩

theorem compatible_trans_reading :
    TypeDef.compatible 3 units ∅ reading measurement = .ok true ∧
    TypeDef.compatible 3 ∅ captions measurement caption = .ok true ∧
    measurement.SimpleOptions 3 ∅ ∧ caption.SimpleOptions 3 captions ∧
    TypeDef.compatible 3 units captions reading caption = .ok true := by
  have h : TypeDef.compatible 3 units ∅ reading measurement = .ok true := by decide +kernel
  have h' : TypeDef.compatible 3 ∅ captions measurement caption = .ok true := by decide +kernel
  exact ⟨h, h', simpleOptions_measurement, simpleOptions_caption,
    compatible_trans 3 units ∅ captions reading measurement caption h h' simpleOptions_measurement
      simpleOptions_caption⟩

end Reading

/-- Two whole numbers equal the float that both round to, but not each other. -/
example :
    let odd := TypeDef.oneOf [.number (.integer 9007199254740993 (by decide))]
    let rounded := TypeDef.oneOf [.number (.float ⟨false, 1076 * Binary64.perBinade, by decide⟩)]
    let even := TypeDef.oneOf [.number (.integer 9007199254740992 (by decide))]
    odd.compatible 1 ∅ ∅ rounded = .ok true ∧ rounded.compatible 1 ∅ ∅ even = .ok true ∧
      odd.compatible 1 ∅ ∅ even = .ok false := by
  decide +kernel

end ValueSchema
