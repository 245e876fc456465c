import ValueSchema.Proofs.Registry.Runs
import ValueSchema.Proofs.Spelling.Reading

/-! # Writing and reading a registry -/

namespace ValueSchema

/-! ## Entries in order -/

namespace Entries

theorem IsSorted.nodup {entries : Entries} (h : entries.IsSorted) :
    (entries.map Prod.fst).Nodup := by
  refine List.pairwise_map.mpr (h.imp fun {left right} hlt heq => ?_)
  rw [heq] at hlt
  exact String.lt_irrefl _ hlt

theorem mem_map_fst_iff {entries : Entries} {name : String} :
    name ∈ entries.map Prod.fst ↔ (entries.lookup name).isSome = true := by
  simp only [List.mem_map, List.lookup_isSome_iff, beq_iff_eq, @eq_comm _ name]

theorem lookup_eq_some_iff {entries : Entries} (h : (entries.map Prod.fst).Nodup) {name : String}
    {d : TypeDef} : entries.lookup name = some d ↔ (name, d) ∈ entries := by
  induction entries with
  | nil => simp
  | cons head rest ih =>
      obtain ⟨other, e⟩ := head
      rw [List.map_cons, List.nodup_cons] at h
      rw [lookup_cons, List.mem_cons, Prod.mk.injEq]
      by_cases hname : name = other
      · subst hname
        have hrest : (name, d) ∉ rest := fun hmem => h.1 (List.mem_map.mpr ⟨_, hmem, rfl⟩)
        simp [hrest, eq_comm]
      · simp [hname, ih h.2]

/-- A record has no name twice, so it does not matter which definition was written last. -/
theorem latest_toList (definitions : Record TypeDef) (name : String) :
    latest definitions.toList name = definitions.get? name := by
  have hnodup : (definitions.toList.reverse.map Prod.fst).Nodup := by
    rw [List.map_reverse, definitions.map_fst_toList]
    exact List.nodup_reverse.mpr definitions.nodup
  ext d
  rw [latest, lookup_eq_some_iff hnodup, List.mem_reverse, Record.get?_eq_some_iff]

/-- Entries in order are determined by what is found under each name. -/
theorem eq_of_lookup_eq {entries entries' : Entries} (h : entries.IsSorted) (h' : entries'.IsSorted)
    (hlookup : ∀ name, entries.lookup name = entries'.lookup name) : entries = entries' := by
  have hmem : ∀ entry, entry ∈ entries ↔ entry ∈ entries' := by
    rintro ⟨name, d⟩
    rw [← lookup_eq_some_iff h.nodup, ← lookup_eq_some_iff h'.nodup, hlookup]
  have hperm : entries.Perm entries' :=
    (List.perm_ext_iff_of_nodup h.nodup.of_map h'.nodup.of_map).mpr hmem
  refine hperm.eq_of_pairwise ?_ h h'
  intro left right _ _ hlt hgt
  exact absurd (String.lt_trans hlt hgt) (String.lt_irrefl _)

theorem mem_map_fst_ofList_iff {definitions : Record TypeDef} {name : String} :
    name ∈ (ofList definitions.toList).map Prod.fst ↔ name ∈ definitions.names := by
  rw [mem_map_fst_iff, track_ofList, latest_toList, Option.isSome_iff_exists,
    Record.mem_names_iff]

end Entries

namespace Registry

/-- A registry is determined by the definition under each name. -/
theorem ext_get? {r r' : Registry} (h : ∀ name, r.get? name = r'.get? name) : r = r' := by
  obtain ⟨entries, sorted, unreserved⟩ := r
  obtain ⟨entries', sorted', unreserved'⟩ := r'
  obtain rfl : entries = entries' := Entries.eq_of_lookup_eq sorted sorted' h
  rfl

/-! ## The written form -/

/-- The entries as a record, in their order. -/
def definitions (r : Registry) : Record TypeDef := .ofList r.entries

theorem toList_definitions (r : Registry) : r.definitions.toList = r.entries :=
  Record.toList_ofList r.entries r.sorted.nodup

theorem names_definitions (r : Registry) : r.definitions.names = r.names := by
  rw [← Record.map_fst_toList, toList_definitions, names]

theorem get?_definitions (r : Registry) (name : String) :
    r.definitions.get? name = r.get? name := by
  ext d
  rw [Record.get?_eq_some_iff, toList_definitions, get?,
    Entries.lookup_eq_some_iff r.sorted.nodup]

theorem toJson_eq (r : Registry) : r.toJson = .object (r.definitions.map TypeDef.toJson) := by
  have hnodup : ((r.entries.map fun entry => (entry.1, entry.2.toJson)).map Prod.fst).Nodup := by
    rw [List.map_map]
    exact r.sorted.nodup
  rw [toJson]
  congr 1
  apply Record.ext_toList
  rw [Record.toList_ofList _ hnodup, Record.toList_map, toList_definitions]

/-- A registry is written with its names in the order of their bytes, each with its definition. -/
structure WrittenInOrder (r : Registry) (members : Record Json) : Prop where
  increasing : members.names.Pairwise fun left right => utf8Bytes left < utf8Bytes right
  each : ∀ name, members.get? name = (r.get? name).map TypeDef.toJson

theorem writtenInOrder_definitions (r : Registry) :
    r.WrittenInOrder (r.definitions.map TypeDef.toJson) where
  increasing := by
    have hnames : (r.definitions.map TypeDef.toJson).names = r.names := r.names_definitions
    rw [hnames]
    exact List.pairwise_map.mpr (r.sorted.imp utf8Bytes_lt)
  each := by
    intro name
    rw [Record.get?_map, get?_definitions]

/-! ## Reading -/

/-- The least tag among names, in the order of their bytes. -/
structure IsLeastTag (names : List String) (kind : Builtin) : Prop where
  mem : kind.tag ∈ names
  least : ∀ other : Builtin, other.tag ∈ names →
    other = kind ∨ utf8Bytes kind.tag < utf8Bytes other.tag

theorem IsLeastTag.unique {names : List String} {kind kind' : Builtin}
    (h : IsLeastTag names kind) (h' : IsLeastTag names kind') : kind = kind' := by
  rcases h.least kind' h'.mem with heq | hlt
  · exact heq.symm
  rcases h'.least kind h.mem with heq | hgt
  · exact heq
  exact absurd (List.lt_trans hlt hgt) (List.lt_irrefl _)

variable {definitions : Record TypeDef}

/-- The first entry with a reserved name has the least tag. -/
theorem isLeastTag_of_ofRecord {error : DecodeError} (h : ofRecord definitions = .error error) :
    ∃ kind, error = .reservedName kind.tag ∧ IsLeastTag definitions.names kind := by
  rw [ofRecord] at h
  split at h
  · next entry hfind =>
      obtain ⟨hreserved, before, after, hentries, hbefore⟩ := List.find?_eq_some_iff_append.mp hfind
      obtain ⟨kind, hkind⟩ := isReserved_iff.mp hreserved
      have hsorted := Entries.isSorted_ofList definitions.toList
      rw [Entries.IsSorted, hentries, List.pairwise_append, List.pairwise_cons] at hsorted
      refine ⟨kind, by rw [hkind]; cases h; rfl, ?_, fun other hother => ?_⟩
      · rw [hkind, ← Entries.mem_map_fst_ofList_iff, hentries]
        simp
      · rw [← Entries.mem_map_fst_ofList_iff, hentries] at hother
        obtain ⟨entry', hmem, hname⟩ := List.mem_map.mp hother
        rcases List.mem_append.mp hmem with hmem | hmem
        · -- No entry before the one that was found has a reserved name.
          have hunreserved := hbefore entry' hmem
          rw [hname, isReserved_iff.mpr ⟨other, rfl⟩] at hunreserved
          cases hunreserved
        · rcases List.mem_cons.mp hmem with rfl | hmem
          · exact .inl (Builtin.tag_injective (hname.symm.trans hkind.symm))
          · right
            rw [hkind, ← hname]
            exact utf8Bytes_lt (hsorted.2.1.1 entry' hmem)
  · cases h

theorem get?_of_ofRecord {r : Registry} (h : ofRecord definitions = .ok r) (name : String) :
    r.get? name = definitions.get? name := by
  rw [get?, track_of_ofRecord h, Entries.latest_toList]

theorem tag_not_mem_names {r : Registry} (h : ∀ name, r.get? name = definitions.get? name)
    (kind : Builtin) : kind.tag ∉ definitions.names := by
  rw [← Record.get?_eq_none_iff, ← h, ← Option.isNone_iff_eq_none, ← Option.isSome_eq_false_iff]
  exact r.not_contains_tag kind

theorem exists_ofRecord_iff :
    (∃ r, ofRecord definitions = .ok r) ↔ ∀ kind : Builtin, kind.tag ∉ definitions.names := by
  constructor
  · rintro ⟨r, h⟩
    exact tag_not_mem_names (get?_of_ofRecord h)
  · intro h
    cases hrecord : ofRecord definitions with
    | ok r => exact ⟨r, rfl⟩
    | error error =>
        obtain ⟨kind, -, hleast⟩ := isLeastTag_of_ofRecord hrecord
        exact absurd hleast.mem (h kind)

/-- A record of definitions is refused for its least tag. -/
theorem ofRecord_eq_error_iff {error : DecodeError} :
    ofRecord definitions = .error error ↔
      ∃ kind, error = .reservedName kind.tag ∧ IsLeastTag definitions.names kind := by
  constructor
  · exact isLeastTag_of_ofRecord
  · rintro ⟨kind, rfl, hleast⟩
    cases hrecord : ofRecord definitions with
    | ok r => exact absurd hleast.mem (exists_ofRecord_iff.mp ⟨r, hrecord⟩ kind)
    | error error =>
        obtain ⟨kind', rfl, hleast'⟩ := isLeastTag_of_ofRecord hrecord
        rw [hleast.unique hleast']

theorem ofRecord_definitions (r : Registry) : ofRecord r.definitions = .ok r := by
  have hunreserved : ∀ kind : Builtin, kind.tag ∉ r.definitions.names :=
    tag_not_mem_names fun name => (r.get?_definitions name).symm
  obtain ⟨r', hr'⟩ := exists_ofRecord_iff.mpr hunreserved
  rw [hr', ext_get? fun name => (get?_of_ofRecord hr' name).trans (r.get?_definitions name)]

/-- An object of definitions is read as a record with the same names. -/
theorem ofJson_object {members : Record Json}
    (h : ∀ name value, members.get? name = some value → ∃ d, TypeDef.ofJson value = .ok d) :
    ∃ definitions : Record TypeDef, definitions.names = members.names ∧
      ofJson (.object members) = ofRecord definitions := by
  cases hread : TypeDef.recordOfJson (.object members) with
  | error error =>
      rw [TypeDef.recordOfJson_object] at hread
      obtain ⟨entry, hentry, herror⟩ := Record.exists_of_mapM_eq_error hread
      obtain ⟨d, hd⟩ := h entry.1 entry.2 (Record.get?_eq_some_iff.mpr hentry)
      cases herror.symm.trans hd
  | ok definitions =>
      refine ⟨definitions, ?_, by rw [ofJson, hread, ok_bind]⟩
      rw [TypeDef.recordOfJson_object, Record.mapM_eq_ok_iff] at hread
      exact hread.names_eq.symm

/-- What is written of a registry is read as the registry again. -/
theorem ofJson_toJson {r : Registry} (h : ∀ name d, r.get? name = some d → d.IsUnreserved) :
    ofJson r.toJson = .ok r := by
  have heach : (r.definitions.map TypeDef.toJson).mapM TypeDef.ofJson = .ok r.definitions := by
    rw [Record.mapM_map, Record.mapM_eq_ok_iff]
    refine .of_names_eq rfl fun name d e hd he => ?_
    cases hd.symm.trans he
    rw [get?_definitions] at hd
    exact ((TypeDef.readAsSpelled _).definition d).mpr ⟨d.spells_toJson, h name d hd⟩
  rw [toJson_eq, ofJson, TypeDef.recordOfJson_object, heach, ok_bind, ofRecord_definitions]

/-- Writing a registry is canonical and can be undone. Two runs that lead to the same definitions
under the same names are written alike, in the order of the bytes of the names. What is written is
read as the same registry, unless a definition refers to a tag. An object of definitions is
refused exactly if a tag is among its names, and then for the least one. -/
theorem toJson_canonical_invertible :
    (∀ {start start' : Registry} {log log' : Log}, Origin start log → Origin start' log' →
      ∀ requests requests' : List Request,
        (∀ name, (start.run requests).get? name = (start'.run requests').get? name) →
          (start.run requests).toJson = (start'.run requests').toJson) ∧
    (∀ r : Registry, ∃ members, r.toJson = .object members ∧ r.WrittenInOrder members) ∧
    (∀ r : Registry, (∀ name d, r.get? name = some d → d.IsUnreserved) →
      ofJson r.toJson = .ok r) ∧
    ∀ members : Record Json,
      (∀ name value, members.get? name = some value → ∃ d, TypeDef.ofJson value = .ok d) →
        ((∃ error, ofJson (.object members) = .error error) ↔
          ∃ kind : Builtin, kind.tag ∈ members.names) ∧
        ∀ error, ofJson (.object members) = .error error ↔
          ∃ kind, error = .reservedName kind.tag ∧ IsLeastTag members.names kind := by
  refine ⟨fun _ _ requests requests' h => ?_, fun r => ?_, fun r h => ofJson_toJson h,
    fun members h => ?_⟩
  · rw [ext_get? h]
  · exact ⟨_, r.toJson_eq, r.writtenInOrder_definitions⟩
  · obtain ⟨definitions, hnames, hread⟩ := ofJson_object h
    rw [hread, ← hnames]
    refine ⟨?_, fun error => ofRecord_eq_error_iff⟩
    constructor
    · rintro ⟨error, herror⟩
      obtain ⟨kind, -, hleast⟩ := ofRecord_eq_error_iff.mp herror
      exact ⟨kind, hleast.mem⟩
    · rintro ⟨kind, hkind⟩
      cases hrecord : ofRecord definitions with
      | ok r => exact absurd hkind (exists_ofRecord_iff.mp ⟨r, hrecord⟩ kind)
      | error error => exact ⟨error, rfl⟩

section Palette

/-- A colour is registered late and a shade is replaced. -/
def paletteRequests : List Request :=
  [.register "shade" (.builtin .int), .insert "shade" (.builtin .float),
    .register "int" (.builtin .float), .register "Émail" (.oneOf [.null, .bool true]),
    .register "colour" (.arrayOf (.reference "shade"))]

/-- The same definitions in another order, from pairs of which one has a tag for its name. -/
def palettePairs : List (String × TypeDef) :=
  [("Émail", .oneOf [.null, .bool true]), ("shape", .builtin .object),
    ("colour", .arrayOf (.reference "shade")), ("shade", .builtin .bool)]

def palette : Registry := run ∅ paletteRequests

/-- Definitions in two spellings, two of them under tags. -/
def paletteDraft : Record Json := .ofList
  [("shape", .object (.ofList [("kind", .string "int")])), ("tone", .array [.string "shade"]),
    ("float", .array [.string "bool", .null])]

theorem toJson_canonical_invertible_palette :
    palette.names = ["colour", "shade", "Émail"] ∧
    palette.toJson = ((ofList palettePairs).run [.insert "shade" (.builtin .float)]).toJson ∧
    ofJson palette.toJson = .ok palette ∧
    ofJson (.object paletteDraft) = .error (.reservedName "float") := by
  obtain ⟨hcanonical, -, hinvertible, hrefused⟩ := toJson_canonical_invertible
  refine ⟨by decide +kernel, ?_, ?_, ?_⟩
  · exact hcanonical .empty (.collected palettePairs) paletteRequests _ fun name => rfl
  · refine hinvertible palette fun name d hd => ?_
    have hunreserved : ∀ entry ∈ palette.entries, entry.2.IsUnreserved := by decide +kernel
    exact hunreserved _ (mem_entries_of_get? hd)
  · have hdefinitions : ∀ entry ∈ paletteDraft.toList, ∃ d, TypeDef.ofJson entry.2 = .ok d :=
      List.forall_mem_cons.mpr ⟨⟨_, rfl⟩,
        List.forall_mem_cons.mpr ⟨⟨_, rfl⟩, List.forall_mem_singleton.mpr ⟨_, rfl⟩⟩⟩
    have hleast : IsLeastTag paletteDraft.names .float := by
      refine ⟨by decide +kernel, fun other => ?_⟩
      cases other <;> decide +kernel
    refine ((hrefused paletteDraft fun name value hvalue => ?_).2 _).mpr ⟨.float, rfl, hleast⟩
    exact hdefinitions _ (Record.get?_eq_some_iff.mp hvalue)

end Palette

end Registry

end ValueSchema
