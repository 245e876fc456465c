import ValueSchema.Proofs.Spelling.Draft

/-! # Reading a definition

Definitions and records of fields depend on each other, so there is one induction for both. -/

namespace ValueSchema.TypeDef

/-! ## Values -/

/-- What a value means. -/
def reading (value : Json) : Reading := value.fold read

theorem reading_value (value : Json) : (reading value).value = value := by
  rw [reading, Json.fold_eq]
  cases value <;> rfl

theorem ofJson_object (members : Record Json) :
    ofJson (.object members) = ofMembers (members.map reading) := by
  rw [ofJson, Json.fold_object]
  rfl

theorem ofJson_array (items : List Json) :
    ofJson (.array items) = ofItems (items.map reading) := by
  rw [ofJson, Json.fold_array]
  rfl

theorem recordOfJson_object (members : Record Json) :
    recordOfJson (.object members) = members.mapM ofJson := by
  rw [recordOfJson, Json.fold_object, read, Record.mapM_map]
  rfl

/-- A value is read as the definitions, and as the fields, that it spells. -/
structure ReadAsSpelled (value : Json) : Prop where
  definition : ∀ d, ofJson value = .ok d ↔ Spells value d ∧ d.IsUnreserved
  fields : ∀ fields, recordOfJson value = .ok fields ↔
    SpellsAttribute .fields (some value) (some fields) ∧ Attribute.fields.IsUnreserved fields

theorem spellsAttribute_none_iff {a : Attribute} {held : Option a.Value} :
    SpellsAttribute a none held ↔ a ≠ .kind ∧ held = none := by
  constructor
  · rintro ⟨optional⟩
    exact ⟨optional, rfl⟩
  · rintro ⟨optional, rfl⟩
    exact .omitted optional

theorem SpellsAttribute.eq_null {a : Attribute} {value : Json}
    (h : SpellsAttribute a (some value) none) : a ≠ .kind ∧ value = .null := by
  cases h with
  | null optional => exact ⟨optional, rfl⟩

theorem SpellsAttribute.ne_null {a : Attribute} {value : Json} {x : a.Value}
    (h : SpellsAttribute a (some value) (some x)) : value ≠ .null := by
  rintro rfl
  cases h with
  | ofType spells =>
      cases spells with
      | attributes layout each => cases layout

theorem present_kind_eq_ok_iff {value : Json} {kind : Kind} :
    value.asText.map Kind.ofName = .ok kind ↔
      SpellsAttribute .kind (some value) (some kind) ∧ kind.IsUnreserved := by
  constructor
  · intro h
    obtain ⟨text, htext, hkind⟩ := map_eq_ok_iff.mp h
    obtain rfl := Json.asText_eq_ok_iff.mp htext
    obtain ⟨rfl, hunreserved⟩ := Kind.ofName_eq_iff.mp hkind
    exact ⟨.kind kind, hunreserved⟩
  · rintro ⟨⟨⟩, hunreserved⟩
    exact congrArg Except.ok (Kind.ofName_eq_iff.mpr ⟨rfl, hunreserved⟩)

theorem listOfJson_eq_ok_iff {value : Json} {choices : List Choice} :
    Choice.listOfJson value = .ok choices ↔
      SpellsAttribute .options (some value) (some choices) := by
  constructor
  · intro h
    cases value with
    | array items =>
        refine .options ((mapM_eq_ok_iff.mp h).imp fun data choice hchoice => ?_)
        exact Choice.ofJson_eq_ok_iff.mp hchoice
    | null | bool value | number value | string value | object members => cases h
  · intro h
    cases h with
    | options each =>
        exact mapM_eq_ok_iff.mpr (each.imp fun data choice => Choice.ofJson_eq_ok_iff.mpr)

/-- A value that is not `null` says in the place of an attribute what it spells there. -/
theorem present_eq_ok_iff {value : Json} (h : ReadAsSpelled value) {a : Attribute} {x : a.Value} :
    (reading value).present a = .ok x ↔
      SpellsAttribute a (some value) (some x) ∧ a.IsUnreserved x := by
  have hvalue := reading_value value
  cases a with
  | kind =>
      rw [Reading.present, hvalue]
      exact present_kind_eq_ok_iff
  | notNull =>
      rw [Reading.present, hvalue, Json.asFlag_eq_ok_iff]
      constructor
      · rintro rfl
        exact ⟨.notNull x, trivial⟩
      · rintro ⟨⟨⟩, -⟩
        rfl
  | ofType =>
      refine (h.definition x).trans (and_congr_left' ⟨.ofType, ?_⟩)
      intro hspells
      cases hspells with
      | ofType spells => exact spells
  | fields => exact h.fields x
  | options =>
      rw [Reading.present, hvalue, listOfJson_eq_ok_iff]
      exact (and_iff_left trivial).symm
  | required =>
      rw [Reading.present, hvalue, Json.asFlag_eq_ok_iff]
      constructor
      · rintro rfl
        exact ⟨.required x, trivial⟩
      · rintro ⟨⟨⟩, -⟩
        rfl
  | name =>
      rw [Reading.present, hvalue, Json.asText_eq_ok_iff]
      constructor
      · rintro rfl
        exact ⟨.name x, trivial⟩
      · rintro ⟨⟨⟩, -⟩
        rfl

/-- What a value says in the place of an attribute is what it spells there. -/
theorem held_eq_ok_iff {value : Json} (h : ReadAsSpelled value) {a : Attribute}
    {held : Option a.Value} :
    (reading value).held a = .ok held ↔
      SpellsAttribute a (some value) held ∧ ∀ x, held = some x → a.IsUnreserved x := by
  cases held with
  | none =>
      have hnull : SpellsAttribute a (some value) none ↔ a ≠ .kind ∧ value = .null := by
        constructor
        · exact SpellsAttribute.eq_null
        · rintro ⟨optional, rfl⟩
          exact .null optional
      rw [Reading.held, hnull]
      split_ifs with hkind
      · simp [map_eq_ok_iff, hkind]
      · simp [Json.optional_eq_ok_none_iff, reading_value, hkind]
  | some x =>
      simp only [Option.some.injEq, forall_eq']
      rw [← present_eq_ok_iff h, Reading.held]
      split_ifs with hkind
      · simp [map_eq_ok_iff]
      · rw [Json.optional_eq_ok_some_iff, reading_value]
        exact and_iff_right_of_imp fun hpresent => ((present_eq_ok_iff h).mp hpresent).1.ne_null

/-! ## Definitions -/

theorem readFrom_reading_iff {slot : Attribute → Option Json} {d : TypeDef}
    (h : ∀ a value, slot a = some value → ReadAsSpelled value) :
    ReadFrom (fun a => (slot a).map reading) d ↔
      (∀ a, SpellsAttribute a (slot a) (d.get? a)) ∧ d.IsUnreserved := by
  rw [isUnreserved_iff, ← forall_and]
  refine forall_congr' fun a => ?_
  beta_reduce
  cases hslot : slot a with
  | none =>
      -- A definition always has a kind, so an absent attribute is one that may be omitted.
      have hkind : d.get? a = none → a ≠ .kind := by
        rintro hget rfl
        cases hget
      rw [Option.map_none, Option.elim_none, spellsAttribute_none_iff]
      constructor
      · intro h
        have hget := (Except.ok.inj h).symm
        exact ⟨⟨hkind hget, hget⟩, by simp [hget]⟩
      · rintro ⟨⟨-, hget⟩, -⟩
        rw [hget]
  | some value => exact held_eq_ok_iff (h a value hslot)

theorem spells_object_iff {members : Record Json} {d : TypeDef} :
    Spells (.object members) d ↔ ∀ a, SpellsAttribute a (members.get? a.key) (d.get? a) := by
  constructor
  · rintro ⟨⟨⟩, each⟩
    exact each
  · exact .attributes (.object members)

theorem spells_array_iff {items : List Json} {d : TypeDef} :
    Spells (.array items) d ↔ items.length ≤ Attribute.all.length ∧
      ∀ a, SpellsAttribute a items[a.position]? (d.get? a) := by
  constructor
  · rintro ⟨layout, each⟩
    cases layout with
    | array _ fits => exact ⟨fits, each⟩
  · rintro ⟨fits, each⟩
    exact .attributes (.array items fits) each

theorem SpellsAttribute.of_related {members : Record Json} {fields : Record TypeDef}
    (h : Record.Related Spells members fields) :
    SpellsAttribute .fields (some (.object members)) (some fields) := by
  refine .fields h.names_eq fun name value field hvalue hfield => ?_
  have hrel := h.get? name
  rw [hvalue, hfield] at hrel
  cases hrel with
  | some hspells => exact hspells

theorem recordOfJson_object_eq_ok_iff {members : Record Json} {fields : Record TypeDef}
    (h : ∀ entry ∈ members.toList, ReadAsSpelled entry.2) :
    recordOfJson (.object members) = .ok fields ↔
      SpellsAttribute .fields (some (.object members)) (some fields) ∧
        Attribute.fields.IsUnreserved fields := by
  rw [recordOfJson_object, Record.mapM_eq_ok_iff]
  constructor
  · intro hread
    have heach : Record.Related (fun value field => Spells value field ∧ field.IsUnreserved)
        members fields :=
      hread.imp_of_mem fun entry hentry field => ((h entry hentry).definition field).mp
    constructor
    · exact .of_related (heach.imp_of_mem fun _ _ _ hboth => hboth.1)
    · exact forall_of_forall₂ heach fun _ _ _ hboth => hboth.2.2
  · rintro ⟨hspells, hunreserved⟩
    cases hspells with
    | fields names_eq each =>
        refine .of_names_eq names_eq fun name value field hvalue hfield => ?_
        rw [(h _ (Record.get?_eq_some_iff.mp hvalue)).definition]
        have hspells := each name value field hvalue hfield
        exact ⟨hspells, hunreserved _ (Record.get?_eq_some_iff.mp hfield)⟩

theorem ReadAsSpelled.of_object {members : Record Json}
    (h : ∀ entry ∈ members.toList, ReadAsSpelled entry.2) : ReadAsSpelled (.object members) where
  definition d := by
    rw [ofJson_object, ofMembers_eq_ok_iff, spells_object_iff]
    simp only [Record.get?_map]
    apply readFrom_reading_iff
    intro a value hvalue
    exact h _ (Record.get?_eq_some_iff.mp hvalue)
  fields _ := recordOfJson_object_eq_ok_iff h

theorem ReadAsSpelled.of_array {items : List Json} (h : ∀ item ∈ items, ReadAsSpelled item) :
    ReadAsSpelled (.array items) where
  definition d := by
    rw [ofJson_array, ofItems_eq_ok_iff, spells_array_iff, List.length_map, and_assoc]
    simp only [List.getElem?_map]
    rw [readFrom_reading_iff]
    intro a value hvalue
    exact h value (List.mem_of_getElem? hvalue)
  fields fields := by
    constructor
    · intro h
      cases h
    · rintro ⟨⟨⟩, -⟩

/-- Every value is read as what it spells. -/
theorem readAsSpelled (value : Json) : ReadAsSpelled value := by
  induction value using Json.induction with
  | null | bool value | number value | string value =>
      constructor
      · intro d
        constructor
        · intro h
          cases h
        · rintro ⟨⟨⟨⟩, -⟩, -⟩
      · intro fields
        constructor
        · intro h
          cases h
        · rintro ⟨⟨⟩, -⟩
  | array items ih => exact .of_array ih
  | object members ih => exact .of_object ih

/-- The values that are read as a definition are exactly its spellings, for every definition in
which no reference has a reserved name, and no other definition is ever read. The object that
writes a definition is one of its spellings, so writing a definition that was read and reading it
again gives it back. -/
theorem ofJson_eq_ok_iff_spells :
    (∀ value d, ofJson value = .ok d ↔ Spells value d ∧ d.IsUnreserved) ∧
    (∀ d : TypeDef, Spells d.toJson d) ∧
    ∀ value d, ofJson value = .ok d → ofJson d.toJson = .ok d := by
  have hread : ∀ value d, ofJson value = .ok d ↔ Spells value d ∧ d.IsUnreserved :=
    fun value => (readAsSpelled value).definition
  refine ⟨hread, spells_toJson, ?_⟩
  intro value d h
  rw [hread] at h ⊢
  exact ⟨d.spells_toJson, h.2⟩

section Dish

/-- A dish has one of two sizes, of which one is `null`, and any number of tags. -/
def dish : TypeDef := .shape
  [("size", { TypeDef.builtin .oneOf with
      notNull := some true
      options := some [⟨some "portion", .null⟩, ⟨none, .string "large"⟩] }),
    ("tags", .arrayOf (.reference "tag"))]

/-- Attributes out of order, some of them `null`, with a member that means nothing, and inner
definitions as arrays that end early. -/
def dishSpelling : Json := .object (.ofList
  [("comment", .bool false),
    ("fields", .object (.ofList
      [("size", .array [.string "oneOf", .bool true, .null, .null,
          .array [.array [.string "portion", .null],
            .object (.ofList [("value", .string "large"), ("textKey", .null)])]]),
        ("tags", .array [.string "arrayOf", .null,
          .object (.ofList [("required", .null), ("kind", .string "tag")])])])),
    ("notNull", .null),
    ("kind", .string "shape")])

theorem spells_dish : Spells dishSpelling dish := by
  refine .attributes (.object _) fun a => ?_
  cases a with
  | kind => exact .kind (.builtin .shape)
  | notNull => exact .null nofun
  | ofType | options | required | name => exact .omitted nofun
  | fields =>
      refine .of_related (.cons ⟨rfl, ?_⟩ (.cons ⟨rfl, ?_⟩ .nil))
      · refine .attributes (.array _ (by decide)) fun a => ?_
        cases a with
        | kind => exact .kind (.builtin .oneOf)
        | notNull => exact .notNull true
        | ofType | fields => exact .null nofun
        | options =>
            exact .options (.cons (.array (.text _)) (.cons (.object .null rfl) .nil))
        | required | name => exact .omitted nofun
      · refine .attributes (.array _ (by decide)) fun a => ?_
        cases a with
        | kind => exact .kind (.builtin .arrayOf)
        | notNull => exact .null nofun
        | ofType =>
            refine .ofType (.attributes (.object _) fun a => ?_)
            cases a with
            | kind => exact .kind (.reference "tag")
            | required => exact .null nofun
            | notNull | ofType | fields | options | name => exact .omitted nofun
        | fields | options | required | name => exact .omitted nofun

theorem ofJson_eq_ok_iff_spells_dish :
    Spells dishSpelling dish ∧ dish.IsUnreserved ∧ ofJson dishSpelling = .ok dish ∧
      ofJson dish.toJson = .ok dish := by
  obtain ⟨hread, -, hagain⟩ := ofJson_eq_ok_iff_spells
  have hunreserved : dish.IsUnreserved := by decide +kernel
  have hdish : ofJson dishSpelling = .ok dish := (hread _ _).mpr ⟨spells_dish, hunreserved⟩
  exact ⟨spells_dish, hunreserved, hdish, hagain dishSpelling dish hdish⟩

end Dish

end ValueSchema.TypeDef
