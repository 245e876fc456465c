import ValueSchema.Proofs.Spelling.Basic
import ValueSchema.TypeDef.Decoding

/-! # Reading into a draft

What a slot holds in the end depends on the entry for it alone. This is said once for all drafts. -/

namespace ValueSchema

/-! ## Drafts -/

/-- A draft as a slot for each index. Writing a slot leaves the others as they are. -/
structure Slots (σ : Type) {ι : Type} (V : ι → Type) where
  get : σ → (i : ι) → V i
  set : σ → (i : ι) → V i → σ
  get_set_self : ∀ s i v, get (set s i v) i = v
  get_set_of_ne : ∀ s i v j, j ≠ i → get (set s i v) j = get s j
  ext : ∀ s t, (∀ i, get s i = get t i) → s = t

namespace Slots

variable {σ ι κ α ε : Type} {V : ι → Type} (slots : Slots σ V)
  {step : σ → κ → Except ε σ} {target : κ → Option ι} {content : κ → α}
  {read : α → (i : ι) → Except ε (V i)}
  (hstep : ∀ s x, step s x =
    (target x).elim (.ok s) fun i => slots.set s i <$> read (content x) i)

include hstep

/-- Entries for one slot have the same content, so whichever is read last says what the slot
holds. -/
theorem get_of_foldlM_eq_ok {xs : List κ}
    (agree : ∀ x ∈ xs, ∀ y ∈ xs, ∀ i, target x = some i → target y = some i →
      content x = content y) {s t : σ} (h : xs.foldlM step s = .ok t) :
    (∀ x ∈ xs, ∀ i, target x = some i → read (content x) i = .ok (slots.get t i)) ∧
      ∀ i, (∀ x ∈ xs, target x ≠ some i) → slots.get t i = slots.get s i := by
  induction xs generalizing s with
  | nil =>
      cases h
      simp
  | cons x xs ih =>
      rw [List.foldlM_cons, hstep] at h
      obtain ⟨middle, hmiddle, hrest⟩ := bind_eq_ok_iff.mp h
      obtain ⟨hfilled, hsame⟩ := ih (fun y hy z hz => agree y (List.mem_cons_of_mem _ hy) z
        (List.mem_cons_of_mem _ hz)) hrest
      cases hx : target x with
      | none =>
          rw [hx] at hmiddle
          cases hmiddle
          simpa [hx] using ⟨hfilled, hsame⟩
      | some i =>
          rw [hx] at hmiddle
          obtain ⟨v, hread, rfl⟩ := map_eq_ok_iff.mp hmiddle
          -- A later entry may write the slot again, but with the same content.
          have hhead : read (content x) i = .ok (slots.get t i) := by
            by_cases hlater : ∃ y ∈ xs, target y = some i
            · obtain ⟨y, hy, hyi⟩ := hlater
              rw [agree x (List.mem_cons_self ..) y (List.mem_cons_of_mem _ hy) i hx hyi]
              exact hfilled y hy i hyi
            · rw [hsame i fun y hy hyi => hlater ⟨y, hy, hyi⟩, slots.get_set_self]
              exact hread
          constructor
          · intro y hy j hyj
            rcases List.mem_cons.mp hy with rfl | hy
            · rw [hx] at hyj
              cases hyj
              exact hhead
            · exact hfilled y hy j hyj
          · intro j hj
            have hji : j ≠ i := by
              rintro rfl
              exact hj x (List.mem_cons_self ..) hx
            rw [hsame j fun y hy => hj y (List.mem_cons_of_mem _ hy),
              slots.get_set_of_ne s i v j hji]

/-- A draft that holds what the entries say, and else what the first one held, is read. -/
theorem foldlM_eq_ok_of_get {xs : List κ} {s t : σ}
    (filled : ∀ x ∈ xs, ∀ i, target x = some i → read (content x) i = .ok (slots.get t i))
    (same : ∀ i, (∀ x ∈ xs, target x ≠ some i) → slots.get t i = slots.get s i) :
    xs.foldlM step s = .ok t := by
  induction xs generalizing s with
  | nil =>
      have hst : s = t := slots.ext s t fun i => (same i (by simp)).symm
      rw [hst]
      rfl
  | cons x xs ih =>
      have hrest := fun y (hy : y ∈ xs) => filled y (List.mem_cons_of_mem _ hy)
      rw [List.foldlM_cons, hstep]
      cases hx : target x with
      | none =>
          rw [Option.elim_none, ok_bind]
          exact ih hrest fun i hi => same i (by simpa [hx] using hi)
      | some i =>
          rw [Option.elim_some, filled x (List.mem_cons_self ..) i hx, Except.map_ok, ok_bind]
          refine ih hrest fun j hj => ?_
          by_cases hji : j = i
          · subst hji
            rw [slots.get_set_self]
          · rw [slots.get_set_of_ne _ _ _ _ hji]
            exact same j (by simpa [hx, Ne.symm hji] using hj)

variable (target content read) in
/-- After reading, a slot holds what the entry for it says, or what it held before if there is
none. -/
theorem foldlM_eq_ok_iff {xs : List κ} {slot : ι → Option α}
    (hslot : ∀ i a, slot i = some a ↔ ∃ x ∈ xs, target x = some i ∧ content x = a) {s t : σ} :
    xs.foldlM step s = .ok t ↔
      ∀ i, (slot i).elim (.ok (slots.get s i)) (read · i) = .ok (slots.get t i) := by
  have hsome : ∀ x ∈ xs, ∀ i, target x = some i → slot i = some (content x) :=
    fun x hx i hxi => (hslot i _).mpr ⟨x, hx, hxi, rfl⟩
  have hnone : ∀ i, slot i = none ↔ ∀ x ∈ xs, target x ≠ some i := by
    intro i
    constructor
    · intro hi x hx hxi
      simp [hsome x hx i hxi] at hi
    · intro hi
      by_contra hne
      obtain ⟨a, ha⟩ := Option.ne_none_iff_exists'.mp hne
      obtain ⟨x, hx, hxi, -⟩ := (hslot i a).mp ha
      exact hi x hx hxi
  constructor
  · intro h i
    have hagree : ∀ x ∈ xs, ∀ y ∈ xs, ∀ i, target x = some i → target y = some i →
        content x = content y := by
      intro x hx y hy i hxi hyi
      exact Option.some.inj ((hsome x hx i hxi).symm.trans (hsome y hy i hyi))
    obtain ⟨hfilled, hsame⟩ := slots.get_of_foldlM_eq_ok hstep hagree h
    cases hi : slot i with
    | none => rw [Option.elim_none, hsame i ((hnone i).mp hi)]
    | some a =>
        obtain ⟨x, hx, hxi, rfl⟩ := (hslot i a).mp hi
        exact hfilled x hx i hxi
  · intro h
    apply slots.foldlM_eq_ok_of_get hstep
    · intro x hx i hxi
      have hread := h i
      rwa [hsome x hx i hxi] at hread
    · intro i hi
      have hread := h i
      rw [(hnone i).mpr hi] at hread
      exact (Except.ok.inj hread).symm

end Slots

/-- Reading the members of an object, of which each is meant for the slot with its name. -/
theorem Record.foldlM_eq_ok_iff {σ ι α ε : Type} {V : ι → Type} (slots : Slots σ V)
    (read : α → (i : ι) → Except ε (V i)) {ofKey? : String → Option ι} {key : ι → String}
    (hkey : ∀ name i, ofKey? name = some i ↔ key i = name) {step : σ → String × α → Except ε σ}
    (hstep : ∀ s entry, step s entry =
      (ofKey? entry.1).elim (.ok s) fun i => slots.set s i <$> read entry.2 i)
    {members : Record α} {s t : σ} :
    members.toList.foldlM step s = .ok t ↔
      ∀ i, (members.get? (key i)).elim (.ok (slots.get s i)) (read · i) =
        .ok (slots.get t i) := by
  refine slots.foldlM_eq_ok_iff _ _ read hstep fun i a => ?_
  rw [get?_eq_some_iff]
  constructor
  · intro h
    exact ⟨_, h, (hkey _ i).mpr rfl, rfl⟩
  · rintro ⟨⟨name, value⟩, h, hname, rfl⟩
    obtain rfl := (hkey name i).mp hname
    exact h

/-! ## Single values -/

namespace Json

theorem asText_eq_ok_iff {value : Json} {text : String} :
    value.asText = .ok text ↔ value = .string text := by
  cases value <;> simp [asText]

theorem asFlag_eq_ok_iff {value : Json} {flag : Bool} :
    value.asFlag = .ok flag ↔ value = .bool flag := by
  cases value <;> simp [asFlag]

theorem optional_eq_ok_none_iff {α : Type} {value : Json} {read : Except DecodeError α} :
    value.optional read = .ok none ↔ value = .null := by
  cases value <;> cases read <;> simp [optional, Except.map]

theorem optional_eq_ok_some_iff {α : Type} {value : Json} {read : Except DecodeError α} {a : α} :
    value.optional read = .ok (some a) ↔ value ≠ .null ∧ read = .ok a := by
  cases value <;> cases read <;> simp [optional, Except.map]

end Json

/-! ## Options -/

namespace Choice

/-- The members of an option that are read. -/
inductive Member
  | textKey
  | value

namespace Member

abbrev Value : Member → Type
  | textKey => String
  | value => Json

def key : Member → String
  | textKey => "textKey"
  | value => "value"

def ofKey? (name : String) : Option Member :=
  if name = "textKey" then some textKey else if name = "value" then some value else none

theorem ofKey?_eq_some_iff (name : String) (member : Member) :
    ofKey? name = some member ↔ member.key = name := by
  unfold ofKey?
  cases member <;> split_ifs <;> simp_all [key, eq_comm]

/-- What a value says in the place of a member. -/
def read (data : Json) : (member : Member) → Except DecodeError (Option member.Value)
  | textKey => data.optional data.asText
  | value => .ok (some data)

end Member

def Draft.slots : Slots Draft fun member : Member => Option member.Value where
  get draft
    | .textKey => draft.textKey
    | .value => draft.value
  set draft
    | .textKey, held => { draft with textKey := held }
    | .value, held => { draft with value := held }
  get_set_self draft member held := by cases member <;> rfl
  get_set_of_ne draft member held other hne := by
    cases member <;> cases other <;> first | rfl | exact absurd rfl hne
  ext left right h := by
    cases left
    cases right
    simpa using And.intro (h .textKey) (h .value)

theorem Draft.read_eq (draft : Draft) (entry : String × Json) :
    draft.read entry.1 entry.2 = (Member.ofKey? entry.1).elim (.ok draft) fun member =>
      Draft.slots.set draft member <$> Member.read entry.2 member := by
  unfold Draft.read Member.ofKey?
  split_ifs <;> rfl

theorem optional_asText_eq_ok_iff {data : Json} {held : Option String} :
    data.optional data.asText = .ok held ↔ SpellsKey (some data) held := by
  cases held with
  | none =>
      rw [Json.optional_eq_ok_none_iff]
      constructor
      · rintro rfl
        exact .null
      · rintro ⟨⟩
        rfl
  | some key =>
      rw [Json.optional_eq_ok_some_iff, Json.asText_eq_ok_iff]
      constructor
      · rintro ⟨-, rfl⟩
        exact .text key
      · rintro ⟨⟩
        exact ⟨nofun, rfl⟩

theorem spellsKey_iff {slot : Option Json} {held : Option String} :
    SpellsKey slot held ↔
      slot.elim (.ok none) (fun data => data.optional data.asText) = .ok held := by
  cases slot with
  | none =>
      rw [Option.elim_none]
      constructor
      · rintro ⟨⟩
        rfl
      · rintro ⟨⟩
        exact .omitted
  | some data => exact optional_asText_eq_ok_iff.symm

theorem ofJson_object_eq_ok_iff {members : Record Json} {choice : Choice} :
    ofJson (.object members) = .ok choice ↔ Spells (.object members) choice := by
  have hvalue : ∀ slot : Option Json, slot = some choice.value ↔
      slot.elim (.ok none) (Member.read · .value) = .ok (some choice.value) := by
    intro slot
    cases slot <;> simp [Member.read]
  rw [ofJson, bind_eq_ok_iff_eq_ok (a := ⟨choice.textKey, some choice.value⟩),
    Record.foldlM_eq_ok_iff Draft.slots Member.read Member.ofKey?_eq_some_iff Draft.read_eq]
  · constructor
    · intro h
      exact .object (spellsKey_iff.mpr (h .textKey)) ((hvalue _).mpr (h .value))
    · rintro (⟨htextKey, hmember⟩ | _) member
      cases member with
      | textKey => exact spellsKey_iff.mp htextKey
      | value => exact (hvalue _).mp hmember
  · rintro ⟨textKey, value⟩
    cases value <;> cases choice <;> simp [pure_eq_ok, throw_eq_error]

theorem ofJson_array_eq_ok_iff {items : List Json} {choice : Choice} :
    ofJson (.array items) = .ok choice ↔ Spells (.array items) choice := by
  constructor
  · intro h
    match items with
    | [] => cases h
    | first :: rest =>
        rw [ofJson, bind_eq_ok_iff] at h
        obtain ⟨textKey, htextKey, hrest⟩ := h
        match rest with
        | [] => cases hrest
        | [value] =>
            cases hrest
            exact .array (optional_asText_eq_ok_iff.mp htextKey)
        | _ :: _ :: _ => cases hrest
  · rintro (_ | htextKey)
    rw [ofJson, optional_asText_eq_ok_iff.mpr htextKey]
    rfl

/-- The values that are read as an option are its spellings. -/
theorem ofJson_eq_ok_iff {data : Json} {choice : Choice} :
    ofJson data = .ok choice ↔ Spells data choice := by
  cases data with
  | object members => exact ofJson_object_eq_ok_iff
  | array items => exact ofJson_array_eq_ok_iff
  | null | bool value | number value | string value =>
      constructor <;> intro h <;> cases h

end Choice

namespace TypeDef

/-! ## Attributes -/

def Draft.slots : Slots Draft fun a : Attribute => Option a.Value where
  get draft
    | .kind => draft.kind
    | .notNull => draft.notNull
    | .ofType => draft.ofType
    | .fields => draft.fields
    | .options => draft.options
    | .required => draft.required
    | .name => draft.name
  set draft
    | .kind, held => { draft with kind := held }
    | .notNull, held => { draft with notNull := held }
    | .ofType, held => { draft with ofType := held }
    | .fields, held => { draft with fields := held }
    | .options, held => { draft with options := held }
    | .required, held => { draft with required := held }
    | .name, held => { draft with name := held }
  get_set_self draft a held := by cases a <;> rfl
  get_set_of_ne draft a held b hne := by
    cases a <;> cases b <;> first | rfl | exact absurd rfl hne
  ext left right h := by
    cases left
    cases right
    simpa using ⟨h .kind, h .notNull, h .ofType, h .fields, h .options, h .required, h .name⟩

/-- What a value that is not `null` says in the place of an attribute. -/
def Reading.present (reading : Reading) : (a : Attribute) → Except DecodeError a.Value
  | .kind => reading.value.asText.map Kind.ofName
  | .notNull => reading.value.asFlag
  | .ofType => reading.definition
  | .fields => reading.fields
  | .options => Choice.listOfJson reading.value
  | .required => reading.value.asFlag
  | .name => reading.value.asText

/-- What a value says in the place of an attribute. The kind alone cannot be absent. -/
def Reading.held (reading : Reading) (a : Attribute) : Except DecodeError (Option a.Value) :=
  if a = .kind then some <$> reading.present a else reading.value.optional (reading.present a)

theorem Draft.read_eq (draft : Draft) (reading : Reading) (a : Attribute) :
    draft.read reading.attributeReader a = Draft.slots.set draft a <$> reading.held a := by
  cases a with
  | kind =>
      show (reading.present .kind >>= fun kind => pure { draft with kind := some kind }) =
        Draft.slots.set draft .kind <$> (some <$> reading.present .kind)
      cases reading.present .kind <;> rfl
  | _ => rfl

/-- The draft of a definition that has been read as a whole. -/
def toDraft (d : TypeDef) : Draft :=
  ⟨some d.kind, d.notNull, d.ofType, d.fields, d.options, d.required, d.name⟩

theorem get_toDraft (d : TypeDef) (a : Attribute) : Draft.slots.get d.toDraft a = d.get? a := by
  cases a <;> rfl

theorem Draft.complete?_eq_some_iff {draft : Draft} {d : TypeDef} :
    draft.complete? = some d ↔ draft = d.toDraft := by
  constructor
  · intro h
    obtain ⟨kind, hkind, rfl⟩ := Option.map_eq_some_iff.mp h
    cases draft
    cases hkind
    rfl
  · rintro rfl
    cases d
    rfl

/-- Each attribute of a definition is what the value in its place says, and is absent if there is
none. -/
def ReadFrom (slot : Attribute → Option Reading) (d : TypeDef) : Prop :=
  ∀ a, (slot a).elim (.ok none) (·.held a) = .ok (d.get? a)

theorem readFrom_iff {slot : Attribute → Option Reading} {d : TypeDef} :
    ReadFrom slot d ↔ ∀ a, (slot a).elim (.ok (Draft.slots.get {} a)) (·.held a) =
      .ok (Draft.slots.get d.toDraft a) := by
  have hempty : ∀ a, Draft.slots.get {} a = none := by
    intro a
    cases a <;> rfl
  simp only [ReadFrom, get_toDraft, hempty]

theorem ofMembers_eq_ok_iff {members : Record Reading} {d : TypeDef} :
    ofMembers members = .ok d ↔ ReadFrom (fun a => members.get? a.key) d := by
  rw [readFrom_iff, ofMembers, bind_eq_ok_iff_eq_ok (a := d.toDraft),
    Record.foldlM_eq_ok_iff Draft.slots Reading.held Attribute.ofKey?_eq_some_iff]
  · rintro draft ⟨name, reading⟩
    dsimp only
    cases Attribute.ofKey? name with
    | none => rfl
    | some a => exact draft.read_eq reading a
  · intro draft
    rw [← Draft.complete?_eq_some_iff]
    cases draft.complete? with
    | none => simp [throw_eq_error]
    | some d' => simp [pure_eq_ok]

theorem Attribute.getElem?_all_iff {a : Attribute} {i : Nat} :
    all[i]? = some a ↔ a.position = i := by
  have hposition : all[a.position]? = some a := by cases a <;> rfl
  constructor
  · intro h
    have hlt : a.position < all.length := (List.getElem?_eq_some_iff.mp hposition).1
    exact (List.getElem?_inj hlt nodup_all).mp (hposition.trans h.symm)
  · rintro rfl
    exact hposition

theorem Attribute.mem_zip_all_iff {α : Type} {items : List α} {entry : α × Attribute} :
    entry ∈ items.zip all ↔ items[entry.2.position]? = some entry.1 := by
  rw [List.mem_iff_getElem?]
  constructor
  · rintro ⟨i, hi⟩
    obtain ⟨hitem, ha⟩ := List.getElem?_zip_eq_some.mp hi
    rwa [getElem?_all_iff.mp ha]
  · intro h
    exact ⟨_, List.getElem?_zip_eq_some.mpr ⟨h, getElem?_all_iff.mpr rfl⟩⟩

theorem ofItems_eq_ok_iff {items : List Reading} {d : TypeDef} :
    ofItems items = .ok d ↔
      items.length ≤ Attribute.all.length ∧ ReadFrom (fun a => items[a.position]?) d := by
  by_cases hlength : items.length ≤ Attribute.all.length
  · simp only [hlength, true_and]
    rw [readFrom_iff, ofItems, bind_eq_ok_iff_eq_ok (a := d.toDraft),
      Draft.slots.foldlM_eq_ok_iff (fun entry => some entry.2) Prod.fst Reading.held]
    · rintro draft ⟨reading, a⟩
      exact draft.read_eq reading a
    · intro a reading
      simp [Attribute.mem_zip_all_iff]
    · intro draft
      rw [← Draft.complete?_eq_some_iff]
      cases draft.complete? with
      | none => simp [throw_eq_error]
      | some d' => simp [hlength, pure_eq_ok]
  · -- Surplus items are not read, only counted once the draft is complete.
    simp only [hlength, false_and, iff_false]
    intro h
    obtain ⟨draft, -, hd⟩ := bind_eq_ok_iff.mp h
    cases hcomplete : draft.complete? with
    | none => simp [hcomplete, throw_eq_error] at hd
    | some d' => simp [hcomplete, hlength, throw_eq_error] at hd

end TypeDef

end ValueSchema
