import Mathlib.Data.List.Nodup
import ValueSchema.Proofs.Configuration.Basic
import ValueSchema.TypeDef.Encoding

/-! # Spellings of a definition

Spellings are given by rules, without reference to how data is read. -/

namespace ValueSchema

/-! ## Options -/

namespace Choice

/-- A text key is left out or `null` if it is absent. -/
inductive SpellsKey : Option Json → Option String → Prop
  | omitted : SpellsKey none none
  | null : SpellsKey (some .null) none
  | text (key : String) : SpellsKey (some (.string key)) (some key)

/-- Data that means an option. The value of an option stands for itself, also if it is `null`. -/
inductive Spells : Json → Choice → Prop
  | object {members : Record Json} {choice : Choice}
      (textKey : SpellsKey (members.get? "textKey") choice.textKey)
      (value : members.get? "value" = some choice.value) : Spells (.object members) choice
  | array {first value : Json} {textKey : Option String} (spells : SpellsKey (some first) textKey) :
      Spells (.array [first, value]) { textKey, value }

theorem spells_toJson (choice : Choice) : Spells choice.toJson choice := by
  obtain ⟨textKey, value⟩ := choice
  cases textKey with
  | none => exact .object .omitted rfl
  | some key => exact .object (.text key) rfl

end Choice

namespace TypeDef

/-! ## Attributes -/

namespace Attribute

/-- What an attribute of a definition holds. -/
abbrev Value : Attribute → Type
  | kind => Kind
  | notNull => Bool
  | ofType => TypeDef
  | fields => Record TypeDef
  | options => List Choice
  | required => Bool
  | name => String

/-- The place of an attribute in an array. -/
def position (a : Attribute) : Nat := all.idxOf a

theorem mem_all (a : Attribute) : a ∈ all := by
  cases a <;> decide

theorem nodup_all : all.Nodup := by decide

theorem ofKey?_eq_some_iff (name : String) (a : Attribute) :
    ofKey? name = some a ↔ a.key = name := by
  constructor
  · intro h
    simpa using List.find?_some h
  · rintro rfl
    cases a <;> decide

theorem key_injective {a b : Attribute} (h : a.key = b.key) : a = b := by
  have ha := (ofKey?_eq_some_iff b.key a).mpr h
  have hb := (ofKey?_eq_some_iff b.key b).mpr rfl
  exact Option.some.inj (ha.symm.trans hb)

end Attribute

/-- What a definition has at an attribute. -/
def get? (d : TypeDef) : (a : Attribute) → Option a.Value
  | .kind => some d.kind
  | .notNull => d.notNull
  | .ofType => d.ofType
  | .fields => d.fields
  | .options => d.options
  | .required => d.required
  | .name => d.name

/-- A definition is determined by what it has at its attributes. -/
theorem ext_get? {d e : TypeDef} (h : ∀ a, d.get? a = e.get? a) : d = e := by
  obtain ⟨kind, notNull, ofType, fields, options, required, name⟩ := d
  obtain ⟨kind', notNull', ofType', fields', options', required', name'⟩ := e
  obtain rfl : kind = kind' := Option.some.inj (h .kind)
  obtain rfl : notNull = notNull' := h .notNull
  obtain rfl : ofType = ofType' := h .ofType
  obtain rfl : fields = fields' := h .fields
  obtain rfl : options = options' := h .options
  obtain rfl : required = required' := h .required
  obtain rfl : name = name' := h .name
  rfl

/-- Where data has the attributes: under their names in an object, which may have other members
too, or at their places in an array, which may end early. -/
inductive Layout : Json → (Attribute → Option Json) → Prop
  | object (members : Record Json) : Layout (.object members) fun a => members.get? a.key
  | array (items : List Json) (fits : items.length ≤ Attribute.all.length) :
      Layout (.array items) fun a => items[a.position]?

mutual

/-- Data that means a definition. -/
inductive Spells : Json → TypeDef → Prop
  | attributes {value : Json} {slot : Attribute → Option Json} {d : TypeDef}
      (layout : Layout value slot) (each : ∀ a, SpellsAttribute a (slot a) (d.get? a)) :
      Spells value d

/-- Data, or its absence, that means what a definition has at an attribute. -/
inductive SpellsAttribute : (a : Attribute) → Option Json → Option a.Value → Prop
  | omitted {a : Attribute} (optional : a ≠ .kind) : SpellsAttribute a none none
  | null {a : Attribute} (optional : a ≠ .kind) : SpellsAttribute a (some .null) none
  | kind (kind : Kind) : SpellsAttribute .kind (some (.string kind.name)) (some kind)
  | notNull (flag : Bool) : SpellsAttribute .notNull (some (.bool flag)) (some flag)
  | ofType {value : Json} {element : TypeDef} (spells : Spells value element) :
      SpellsAttribute .ofType (some value) (some element)
  | fields {members : Record Json} {fields : Record TypeDef}
      (names_eq : members.names = fields.names)
      (each : ∀ name value field, members.get? name = some value →
        fields.get? name = some field → Spells value field) :
      SpellsAttribute .fields (some (.object members)) (some fields)
  | options {items : List Json} {choices : List Choice}
      (each : List.Forall₂ Choice.Spells items choices) :
      SpellsAttribute .options (some (.array items)) (some choices)
  | required (flag : Bool) : SpellsAttribute .required (some (.bool flag)) (some flag)
  | name (name : String) : SpellsAttribute .name (some (.string name)) (some name)

end

/-! ## The written form -/

/-- A property holds of every definition if it holds of a definition whenever it holds of its
element type and its fields. -/
theorem induction {motive : TypeDef → Prop}
    (step : ∀ d : TypeDef, (∀ element, d.ofType = some element → motive element) →
      (∀ fields, d.fields = some fields → ∀ entry ∈ fields.toList, motive entry.2) → motive d)
    (d : TypeDef) : motive d := by
  refine @TypeDef.rec motive (fun ofType => ∀ element, ofType = some element → motive element)
    (fun fields => ∀ record, fields = some record → ∀ entry ∈ record.toList, motive entry.2)
    (fun record => ∀ entry ∈ record.toList, motive entry.2)
    (fun _ values => ∀ entry ∈ values.toList, motive entry.2) ?_ ?_ ?_ ?_ ?_ ?_ ?_ ?_ d
  · intro kind notNull ofType fields options required name hofType hfields
    exact step _ hofType hfields
  · intro element h
    cases h
  · intro element helement other h
    cases h
    exact helement
  · intro record h
    cases h
  · intro record hrecord other h
    cases h
    exact hrecord
  · intro names nodup values hvalues
    exact hvalues
  · intro entry hentry
    cases hentry
  · intro name names value rest hvalue hrest entry hentry
    rcases List.mem_cons.mp hentry with rfl | hentry
    · exact hvalue
    · exact hrest entry hentry

/-- What is written for an attribute of a definition. -/
def written (d : TypeDef) : Attribute → Option Json
  | .kind => some (.string d.kind.name)
  | .notNull => d.notNull.map .bool
  | .ofType => d.ofType.map toJson
  | .fields => d.fields.map fun fields => .object (fields.map toJson)
  | .options => d.options.map fun choices => .array (choices.map Choice.toJson)
  | .required => d.required.map .bool
  | .name => d.name.map .string

theorem toJson_eq (d : TypeDef) :
    d.toJson =
      .object (Record.ofList (Attribute.all.flatMap fun a => a.member (d.written a))) := by
  rw [toJson, fold_eq]
  simp [Attribute.all, written, Function.comp_def, toJson]

theorem Attribute.mem_member_iff {a : Attribute} {value : Option Json} {entry : String × Json} :
    entry ∈ a.member value ↔ value = some entry.2 ∧ a.key = entry.1 := by
  simp [member, Prod.ext_iff, and_comm]

/-- A member is found under the name of its attribute. -/
theorem get?_ofList_members (slot : Attribute → Option Json) (a : Attribute) :
    (Record.ofList (Attribute.all.flatMap fun a => a.member (slot a))).get? a.key = slot a := by
  have hnodup : ((Attribute.all.flatMap fun a => a.member (slot a)).map Prod.fst).Nodup := by
    rw [List.map_flatMap, List.nodup_flatMap]
    constructor
    · intro b _
      cases slot b <;> simp [Attribute.member]
    · refine Attribute.nodup_all.imp fun {b c} hne name hb hc => hne (Attribute.key_injective ?_)
      obtain ⟨entry, hentry, rfl⟩ := List.mem_map.mp hb
      obtain ⟨entry', hentry', hname⟩ := List.mem_map.mp hc
      rw [(Attribute.mem_member_iff.mp hentry).2, (Attribute.mem_member_iff.mp hentry').2, hname]
  ext value
  rw [Record.get?_eq_some_iff, Record.toList_ofList _ hnodup, List.mem_flatMap]
  constructor
  · rintro ⟨b, -, hb⟩
    obtain ⟨hvalue, hkey⟩ := Attribute.mem_member_iff.mp hb
    rwa [← Attribute.key_injective hkey]
  · intro hvalue
    exact ⟨a, a.mem_all, Attribute.mem_member_iff.mpr ⟨hvalue, rfl⟩⟩

/-- An attribute that is left out if it is absent is spelled if its value is. -/
theorem SpellsAttribute.map {a : Attribute} {held : Option a.Value} {write : a.Value → Json}
    (optional : a ≠ .kind)
    (h : ∀ x, held = some x → SpellsAttribute a (some (write x)) (some x)) :
    SpellsAttribute a (held.map write) held := by
  cases held with
  | none => exact .omitted optional
  | some x => exact h x rfl

/-- The object that writes a definition spells it. -/
theorem spells_toJson (d : TypeDef) : Spells d.toJson d := by
  induction d using TypeDef.induction with
  | step d hofType hfields =>
      rw [toJson_eq]
      refine .attributes (.object _) fun a => ?_
      rw [get?_ofList_members]
      cases a with
      | kind => exact .kind d.kind
      | notNull => exact .map nofun fun flag _ => .notNull flag
      | ofType => exact .map nofun fun element helement => .ofType (hofType element helement)
      | fields =>
          refine .map nofun fun fields hd => .fields rfl fun name value field hvalue hfield => ?_
          rw [Record.get?_map, hfield] at hvalue
          cases hvalue
          exact hfields fields hd (name, field) (Record.get?_eq_some_iff.mp hfield)
      | options =>
          refine .map nofun fun choices _ => .options ?_
          rw [List.forall₂_map_left_iff, List.forall₂_same]
          exact fun choice _ => choice.spells_toJson
      | required => exact .map nofun fun flag _ => .required flag
      | name => exact .map nofun fun name _ => .name name

end TypeDef

/-! ## Reserved names -/

/-- A reference does not hold the tag of a built-in kind. -/
def Kind.IsUnreserved : Kind → Prop
  | .builtin _ => True
  | .reference name => isReserved name = false

instance : DecidablePred Kind.IsUnreserved
  | .builtin _ => .isTrue trivial
  | .reference name => inferInstanceAs (Decidable (isReserved name = false))

/-- A kind is the meaning of its name unless it is a reference with a reserved one. -/
theorem Kind.ofName_eq_iff {name : String} {kind : Kind} :
    ofName name = kind ↔ name = kind.name ∧ kind.IsUnreserved := by
  constructor
  · rintro rfl
    refine ⟨(name_ofName name).symm, ?_⟩
    unfold ofName
    cases h : Builtin.ofTag? name with
    | none => simp [IsUnreserved, isReserved, h]
    | some kind => trivial
  · rintro ⟨rfl, hkind⟩
    cases kind with
    | builtin kind => simp [ofName, Kind.name]
    | reference name =>
        have hname : Builtin.ofTag? name = none := by
          simpa [IsUnreserved, isReserved] using hkind
        simp [ofName, Kind.name, hname]

namespace TypeDef

/-- No reference in a definition, at any depth, holds the tag of a built-in kind. -/
def IsUnreserved (d : TypeDef) : Prop := ∀ part ∈ d.nested, part.kind.IsUnreserved

instance : DecidablePred IsUnreserved := fun d =>
  inferInstanceAs (Decidable (∀ part ∈ d.nested, part.kind.IsUnreserved))

/-- What an attribute holds has no reference to a reserved name. -/
def Attribute.IsUnreserved : (a : Attribute) → a.Value → Prop
  | kind, held => Kind.IsUnreserved held
  | ofType, element => TypeDef.IsUnreserved element
  | fields, record => ∀ entry ∈ Record.toList record, TypeDef.IsUnreserved entry.2
  | notNull, _ | options, _ | required, _ | name, _ => True

theorem isUnreserved_iff {d : TypeDef} :
    d.IsUnreserved ↔ ∀ a held, d.get? a = some held → a.IsUnreserved held := by
  constructor
  · intro h a held hheld
    cases a with
    | kind =>
        cases hheld
        exact h d d.mem_nested_self
    | ofType => exact fun part hpart => h part (nested_subset_of_ofType hheld hpart)
    | fields =>
        exact fun entry hentry part hpart => h part (nested_subset_of_fields hheld hentry hpart)
    | notNull | options | required | name => trivial
  · intro h part hpart
    rcases mem_nested_iff.mp hpart with rfl | ⟨element, helement, hpart⟩ |
      ⟨fields, hfields, entry, hentry, hpart⟩
    · exact h .kind part.kind rfl
    · exact h .ofType element helement part hpart
    · exact h .fields fields hfields entry hentry part hpart

end TypeDef

end ValueSchema
