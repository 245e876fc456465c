import ValueSchema.Proofs.Computation
import ValueSchema.Proofs.Registry.ByteOrder
import ValueSchema.Proofs.Resolution
import ValueSchema.TypeDef.Source

/-! # Runs of a registry

The writes that are granted are kept in a log, which says what the registry must hold. One request
keeps the two together, so every run does. -/

namespace ValueSchema

/-! ## Entries and logs -/

/-- Writes in the order in which they were made. -/
abbrev Log := List (String × TypeDef)

/-- The definition that was written last under a name. -/
def latest (log : Log) (name : String) : Option TypeDef :=
  log.reverse.lookup name

namespace Entries

theorem lookup_cons (name : String) (d : TypeDef) (entries : Entries) (key : String) :
    List.lookup key ((name, d) :: entries) = if key = name then some d else entries.lookup key := by
  rw [List.lookup_cons]
  cases h : key == name <;> simp_all

theorem lookup_insert (name : String) (d : TypeDef) (entries : Entries) (key : String) :
    (entries.insert name d).lookup key = if key = name then some d else entries.lookup key := by
  induction entries with
  | nil => exact lookup_cons name d [] key
  | cons head rest ih =>
      obtain ⟨other, e⟩ := head
      rw [insert]
      split
      · rw [lookup_cons]
      · next hnlt =>
          split
          · next hlt =>
              have hne : name ≠ other := fun h => String.lt_irrefl name (by rwa [← h] at hlt)
              rw [lookup_cons, lookup_cons, ih]
              by_cases hkey : key = name
              · simp [hkey, hne]
              · simp [hkey]
          · next hngt =>
              obtain rfl : name = other := eq_of_not_lt hnlt hngt
              rw [lookup_cons, lookup_cons]
              by_cases hkey : key = name <;> simp [hkey]

/-- Under each name stands the definition that was written last. -/
def Track (entries : Entries) (log : Log) : Prop :=
  ∀ name, entries.lookup name = latest log name

variable {entries : Entries} {log : Log}

theorem Track.insert (h : entries.Track log) (name : String) (d : TypeDef) :
    (entries.insert name d).Track (log ++ [(name, d)]) := by
  intro key
  rw [lookup_insert, h key, latest, latest, List.reverse_append, List.reverse_singleton,
    List.singleton_append, lookup_cons]

theorem Track.foldl (h : entries.Track log) (pairs : List (String × TypeDef)) :
    Track (pairs.foldl (fun entries pair => Entries.insert pair.1 pair.2 entries) entries)
      (log ++ pairs) := by
  induction pairs generalizing entries log with
  | nil => rwa [List.append_nil]
  | cons pair pairs ih =>
      rw [List.foldl_cons, List.append_cons]
      exact ih (h.insert pair.1 pair.2)

theorem track_ofList (pairs : List (String × TypeDef)) : (ofList pairs).Track pairs := by
  have hnil : Track [] [] := fun _ => rfl
  exact hnil.foldl pairs

end Entries

theorem isReserved_iff {name : String} :
    isReserved name = true ↔ ∃ kind : Builtin, kind.tag = name := by
  rw [isReserved, Option.isSome_iff_exists]
  constructor
  · rintro ⟨kind, h⟩
    exact ⟨kind, Builtin.tag_of_ofTag? h⟩
  · rintro ⟨kind, rfl⟩
    exact ⟨kind, kind.ofTag?_tag⟩

namespace Registry

/-! ## Requests -/

/-- The pairs whose names are not reserved. -/
def unreservedPairs (pairs : List (String × TypeDef)) : List (String × TypeDef) :=
  pairs.filter fun pair => !isReserved pair.1

/-- What may be asked of a registry. -/
inductive Request
  | register (name : String) (d : TypeDef)
  | insert (name : String) (d : TypeDef)
  | extend (pairs : List (String × TypeDef))

namespace Request

/-- Whether a request is granted after the writes of a log. -/
def granted (log : Log) : Request → Bool
  | register name _ => !isReserved name && (latest log name).isNone
  | insert name _ => !isReserved name
  | extend _ => true

/-- What a request writes if it is granted. -/
def pairs : Request → Log
  | register name d => [(name, d)]
  | insert name d => [(name, d)]
  | extend pairs => unreservedPairs pairs

/-- The definition that a request replaces and gives back. -/
def replaced (log : Log) : Request → Option TypeDef
  | insert name _ => latest log name
  | register _ _ | extend _ => none

/-- The log after a request. -/
def record (log : Log) (request : Request) : Log :=
  if request.granted log then log ++ request.pairs else log

end Request

/-- The log after a number of requests. -/
def history (log : Log) (requests : List Request) : Log :=
  requests.foldl Request.record log

/-- What a registry answers to a request, and the registry after it. -/
def answer (r : Registry) : Request → Except WriteError (Option TypeDef) × Registry
  | .register name d =>
      let (reply, r') := r.register name d
      (reply.map fun _ => none, r')
  | .insert name d => r.insert name d
  | .extend pairs => (.ok none, r.extend pairs)

/-- The registry after a request. -/
def submit (r : Registry) (request : Request) : Registry := (r.answer request).2

def run (r : Registry) (requests : List Request) : Registry := requests.foldl submit r

section Writes

variable {r : Registry} {log : Log} {name : String}

theorem insert_of_unreserved (r : Registry) (d : TypeDef) (h : isReserved name = false) :
    r.insert name d = (.ok (r.get? name), r.set name d h) := by
  rw [insert, dif_pos h]

theorem insert_of_isReserved (r : Registry) (d : TypeDef) (h : isReserved name = true) :
    r.insert name d = (.error (.reserved name), r) := by
  rw [insert, dif_neg (by simp [h])]

theorem register_of_isReserved (r : Registry) (d : TypeDef) (h : isReserved name = true) :
    r.register name d = (.error (.reserved name), r) := by
  rw [register, dif_neg (by simp [h])]

theorem register_of_contains (d : TypeDef) (h : isReserved name = false)
    (taken : r.contains name = true) : r.register name d = (.error (.duplicate name), r) := by
  rw [register, dif_pos h, if_pos taken]

theorem register_of_not_contains (d : TypeDef) (h : isReserved name = false)
    (free : r.contains name = false) : r.register name d = (.ok (), r.set name d h) := by
  rw [register, dif_pos h, if_neg (by simp [free])]

theorem contains_eq (h : r.entries.Track log) (name : String) :
    r.contains name = (latest log name).isSome := by
  rw [contains, get?, h name]

theorem track_extend (h : r.entries.Track log) (pairs : List (String × TypeDef)) :
    (r.extend pairs).entries.Track (log ++ unreservedPairs pairs) := by
  induction pairs generalizing r log with
  | nil => simpa [extend, unreservedPairs] using h
  | cons pair pairs ih =>
      rw [extend, List.foldl_cons, unreservedPairs, List.filter_cons]
      cases hname : isReserved pair.1 with
      | true =>
          rw [insert_of_isReserved r pair.2 hname]
          exact ih h
      | false =>
          rw [insert_of_unreserved r pair.2 hname]
          simp only [Bool.not_false, if_true]
          rw [List.append_cons]
          exact ih (h.insert pair.1 pair.2)

/-- A request is granted or refused as the log says. A refusal leaves the registry as it is. -/
theorem answer_of_track (h : r.entries.Track log) (request : Request) :
    Yields
      (fun previous => request.granted log = true ∧ previous = request.replaced log ∧
        (r.submit request).entries.Track (log ++ request.pairs))
      (fun _ => request.granted log = false ∧ r.submit request = r) (r.answer request).1 := by
  cases request with
  | register name d =>
      rw [submit, answer]
      cases hname : isReserved name with
      | true =>
          rw [register_of_isReserved r d hname]
          exact ⟨by simp [Request.granted, hname], rfl⟩
      | false =>
          have hcontains := contains_eq h name
          cases hlatest : latest log name with
          | some entry =>
              rw [register_of_contains d hname (by simp [hcontains, hlatest])]
              exact ⟨by simp [Request.granted, hlatest], rfl⟩
          | none =>
              rw [register_of_not_contains d hname (by simp [hcontains, hlatest])]
              exact ⟨by simp [Request.granted, hname, hlatest], rfl, h.insert name d⟩
  | insert name d =>
      rw [submit, answer]
      cases hname : isReserved name with
      | true =>
          rw [insert_of_isReserved r d hname]
          exact ⟨by simp [Request.granted, hname], rfl⟩
      | false =>
          rw [insert_of_unreserved r d hname]
          exact ⟨by simp [Request.granted, hname], h name, h.insert name d⟩
  | extend pairs => exact ⟨rfl, rfl, track_extend h pairs⟩

theorem track_submit (h : r.entries.Track log) (request : Request) :
    (r.submit request).entries.Track (request.record log) := by
  have hanswer := answer_of_track h request
  rw [Request.record]
  cases hrequest : (r.answer request).1 with
  | error error =>
      obtain ⟨hrefused, hsame⟩ := hanswer.allowed_of_eq_error hrequest
      rw [hrefused, hsame]
      exact h
  | ok previous =>
      obtain ⟨hgranted, -, htrack⟩ := hanswer.good_of_eq_ok hrequest
      rw [if_pos hgranted]
      exact htrack

/-- A run keeps a registry and its log together. -/
theorem track_run (h : r.entries.Track log) (requests : List Request) :
    (r.run requests).entries.Track (history log requests) := by
  induction requests generalizing r log with
  | nil => exact h
  | cons request requests ih => exact ih (track_submit h request)

end Writes

/-! ## Origins -/

/-- How a registry is made, and the writes that this amounts to. -/
inductive Origin : Registry → Log → Prop
  | empty : Origin ∅ []
  | checked {pairs : List (String × TypeDef)} {r : Registry} (h : ofList? pairs = .ok r) :
      Origin r pairs
  | collected (pairs : List (String × TypeDef)) : Origin (ofList pairs) (unreservedPairs pairs)
  | decoded {value : Json} {definitions : Record TypeDef} {r : Registry}
      (hread : TypeDef.recordOfJson value = .ok definitions) (h : ofJson value = .ok r) :
      Origin r definitions.toList
  | parsed {text : String} {definitions : Record TypeDef} {r : Registry}
      (hread : (TypeDef.Source.level Json.Reader.maxNesting).fields.run text = .ok definitions)
      (h : ofText text = .ok r) : Origin r definitions.toList

section Origins

variable {r : Registry} {pairs : List (String × TypeDef)}

theorem insertOrFail_of_unreserved (r : Registry) {pair : String × TypeDef}
    (h : isReserved pair.1 = false) : r.insertOrFail pair = .ok (r.insert pair.1 pair.2).2 := by
  rw [insertOrFail, insert_of_unreserved r pair.2 h]
  rfl

theorem insertOrFail_of_isReserved (r : Registry) {pair : String × TypeDef}
    (h : isReserved pair.1 = true) : r.insertOrFail pair = .error (.reserved pair.1) := by
  rw [insertOrFail, insert_of_isReserved r pair.2 h]
  rfl

theorem foldlM_insertOrFail_of_unreserved (h : ∀ pair ∈ pairs, isReserved pair.1 = false)
    (r : Registry) : pairs.foldlM insertOrFail r = .ok (r.extend pairs) := by
  induction pairs generalizing r with
  | nil => rfl
  | cons pair pairs ih =>
      rw [List.forall_mem_cons] at h
      rw [List.foldlM_cons, extend, List.foldl_cons, insertOrFail_of_unreserved r h.1, ok_bind]
      exact ih h.2 _

theorem foldlM_insertOrFail_of_isReserved (h : ∃ pair ∈ pairs, isReserved pair.1 = true)
    (r : Registry) : ∃ error, pairs.foldlM insertOrFail r = .error error := by
  induction pairs generalizing r with
  | nil => simp at h
  | cons pair pairs ih =>
      rw [List.foldlM_cons]
      cases hname : isReserved pair.1 with
      | true =>
          rw [insertOrFail_of_isReserved r hname]
          exact ⟨_, rfl⟩
      | false =>
          rw [insertOrFail_of_unreserved r hname, ok_bind]
          refine ih ?_ _
          simpa [hname] using h

theorem ofList?_eq_error_iff :
    (∃ error, ofList? pairs = .error error) ↔ ∃ pair ∈ pairs, isReserved pair.1 = true := by
  constructor
  · rintro ⟨error, h⟩
    by_contra hnone
    have hall : ∀ pair ∈ pairs, isReserved pair.1 = false := by simpa using hnone
    rw [ofList?, foldlM_insertOrFail_of_unreserved hall] at h
    cases h
  · intro h
    exact foldlM_insertOrFail_of_isReserved h empty

theorem unreserved_of_ofList? (h : ofList? pairs = .ok r) :
    ∀ pair ∈ pairs, isReserved pair.1 = false := by
  by_contra hsome
  have hreserved : ∃ pair ∈ pairs, isReserved pair.1 = true := by simpa using hsome
  obtain ⟨error, herror⟩ := ofList?_eq_error_iff.mpr hreserved
  cases h.symm.trans herror

theorem eq_ofList_of_ofList? (h : ofList? pairs = .ok r) : r = ofList pairs := by
  have hfold := foldlM_insertOrFail_of_unreserved (unreserved_of_ofList? h) empty
  exact Except.ok.inj (h.symm.trans hfold)

theorem track_ofList (pairs : List (String × TypeDef)) :
    (ofList pairs).entries.Track (unreservedPairs pairs) := by
  have hempty : empty.entries.Track [] := fun _ => rfl
  exact track_extend hempty pairs

theorem track_of_ofRecord {definitions : Record TypeDef} (h : ofRecord definitions = .ok r) :
    r.entries.Track definitions.toList := by
  rw [ofRecord] at h
  split at h
  · cases h
  · cases h
    exact Entries.track_ofList definitions.toList

/-- A text is read if nothing but blanks is left of it. -/
theorem run_eq_ok_iff {α : Type} {reader : Json.Reader α} {text : String} {result : α} :
    reader.run text = .ok result ↔ ∃ rest, StateT.run reader text.toList = .ok (result, rest) ∧
      (rest.dropWhile Json.Reader.isBlank).isEmpty = true := by
  rw [Json.Reader.run, bind_eq_ok_iff]
  constructor
  · rintro ⟨⟨result', rest⟩, hreader, h⟩
    dsimp only at h
    split at h
    · next hblank =>
        cases h
        exact ⟨rest, hreader, hblank⟩
    · cases h
  · rintro ⟨rest, hreader, hblank⟩
    exact ⟨(result, rest), hreader, if_pos hblank⟩

/-- A registry is read from a text if its definitions are and none has a reserved name. -/
theorem ofText_eq_ok_iff {text : String} :
    ofText text = .ok r ↔ ∃ definitions,
      (TypeDef.Source.level Json.Reader.maxNesting).fields.run text = .ok definitions ∧
        ofRecord definitions = .ok r := by
  simp only [ofText, run_eq_ok_iff, StateT.run_bind, bind_eq_ok_iff]
  constructor
  · rintro ⟨_, ⟨⟨definitions, rest⟩, hread, h⟩, hblank⟩
    dsimp only at h
    cases hrecord : ofRecord definitions with
    | error error =>
        rw [hrecord] at h
        cases h
    | ok registry =>
        rw [hrecord] at h
        cases h
        exact ⟨definitions, ⟨_, hread, hblank⟩, hrecord⟩
  · rintro ⟨definitions, ⟨rest, hread, hblank⟩, hrecord⟩
    refine ⟨rest, ⟨(definitions, rest), hread, ?_⟩, hblank⟩
    rw [hrecord]
    rfl

theorem Origin.track {log : Log} (h : Origin r log) : r.entries.Track log := by
  cases h with
  | empty => exact fun _ => rfl
  | checked h =>
      have hpairs : unreservedPairs log = log :=
        List.filter_eq_self.mpr (by simpa using unreserved_of_ofList? h)
      have htrack := track_ofList log
      rwa [hpairs, ← eq_ofList_of_ofList? h] at htrack
  | collected pairs => exact track_ofList pairs
  | @decoded value definitions _ hread h =>
      rw [ofJson, hread, ok_bind] at h
      exact track_of_ofRecord h
  | parsed hread h =>
      obtain ⟨definitions, hread', h⟩ := ofText_eq_ok_iff.mp h
      cases hread.symm.trans hread'
      exact track_of_ofRecord h

theorem Origin.exists_of_ofJson {value : Json} (h : ofJson value = .ok r) :
    ∃ log, Origin r log := by
  obtain ⟨definitions, hread, -⟩ := bind_eq_ok_iff.mp h
  exact ⟨definitions.toList, .decoded hread h⟩

theorem Origin.exists_of_ofText {text : String} (h : ofText text = .ok r) :
    ∃ log, Origin r log := by
  obtain ⟨definitions, hread, -⟩ := ofText_eq_ok_iff.mp h
  exact ⟨definitions.toList, .parsed hread h⟩

end Origins

/-! ## What a registry holds -/

/-- What is true of a registry after the writes of a log. -/
structure Holds (r : Registry) (log : Log) : Prop where
  no_tag : ∀ kind : Builtin, r.contains kind.tag = false
  get?_eq : ∀ name, r.get? name = latest log name
  granted_iff : ∀ request,
    (∃ previous, (r.answer request).1 = .ok previous) ↔ request.granted log = true
  replaced : ∀ request previous,
    (r.answer request).1 = .ok previous → previous = request.replaced log
  unchanged : ∀ request error, (r.answer request).1 = .error error → r.submit request = r
  names_increasing : r.names.Pairwise fun left right => utf8Bytes left < utf8Bytes right
  mem_names_iff : ∀ name, name ∈ r.names ↔ r.contains name = true
  length_names : r.names.length = r.size

theorem not_contains_tag (r : Registry) (kind : Builtin) : r.contains kind.tag = false := by
  rw [contains, Option.isSome_eq_false_iff, Option.isNone_iff_eq_none]
  by_contra hsome
  obtain ⟨d, hd⟩ := Option.ne_none_iff_exists'.mp hsome
  have hunreserved := r.unreserved _ (mem_entries_of_get? hd)
  rw [isReserved_iff.mpr ⟨kind, rfl⟩] at hunreserved
  cases hunreserved

theorem Holds.of_track {r : Registry} {log : Log} (h : r.entries.Track log) :
    Holds r log where
  no_tag := r.not_contains_tag
  get?_eq := h
  granted_iff := by
    intro request
    have hanswer := answer_of_track h request
    cases hrequest : (r.answer request).1 with
    | error error => simp [hanswer.allowed_of_eq_error hrequest]
    | ok previous => simp [hanswer.good_of_eq_ok hrequest]
  replaced := by
    intro request previous hrequest
    exact ((answer_of_track h request).good_of_eq_ok hrequest).2.1
  unchanged := by
    intro request error hrequest
    exact ((answer_of_track h request).allowed_of_eq_error hrequest).2
  names_increasing := List.pairwise_map.mpr (r.sorted.imp utf8Bytes_lt)
  mem_names_iff := by
    intro name
    simp only [names, contains, get?, List.mem_map, List.lookup_isSome_iff, beq_iff_eq,
      @eq_comm _ name]
  length_names := List.length_map ..

/-- However a registry is made and whatever is asked of it, it holds the definition that was
written last under each name and no definition under a tag. A list of pairs is refused as a whole
if one of its names is a tag, and collected otherwise. -/
theorem holds_run {r : Registry} {log : Log} (origin : Origin r log)
    (requests : List Request) :
    (r.run requests).Holds (history log requests) ∧
    ∀ pairs : List (String × TypeDef),
      ((∃ error, ofList? pairs = .error error) ↔
        ∃ pair ∈ pairs, ∃ kind : Builtin, kind.tag = pair.1) ∧
      ∀ r', ofList? pairs = .ok r' → r' = ofList pairs := by
  refine ⟨.of_track (track_run origin.track requests), fun pairs => ⟨?_, fun r' h => ?_⟩⟩
  · simp only [ofList?_eq_error_iff, isReserved_iff]
  · exact eq_ofList_of_ofList? h

section Drafts

def drafts : List (String × TypeDef) :=
  [("é", .builtin .float), ("int", .builtin .string), ("z", .builtin .int)]

def changes : List Request :=
  [.register "z" (.builtin .bool), .insert "bool" (.builtin .int),
    .extend [("a", .builtin .bool), ("func", .builtin .int), ("a", .builtin .string)],
    .register "Z" (.builtin .array), .insert "z" (.reference "a")]

theorem holds_run_drafts :
    ((ofList drafts).run changes).names = ["Z", "a", "z", "é"] ∧
    ((ofList drafts).run changes).get? "z" = some (.reference "a") ∧
    ((ofList drafts).run changes).get? "a" = some (.builtin .string) ∧
    ((ofList drafts).run changes).contains "int" = false ∧
    (∀ d, ((ofList drafts).run changes).submit (.register "z" d) = (ofList drafts).run changes) ∧
    (∃ error, ofList? drafts = .error error) := by
  obtain ⟨holds, hpairs⟩ := holds_run (.collected drafts) changes
  refine ⟨by decide +kernel, ?_, ?_, holds.no_tag .int, fun d => ?_, ?_⟩
  · rw [holds.get?_eq]
    rfl
  · rw [holds.get?_eq]
    rfl
  · have taken : ((ofList drafts).run changes).contains "z" = true := by
      rw [contains, holds.get?_eq]
      rfl
    refine holds.unchanged _ (.duplicate "z") ?_
    rw [answer, register_of_contains d rfl taken]
    rfl
  · exact (hpairs drafts).1.mpr ⟨("int", .builtin .string), by simp [drafts], .int, rfl⟩

end Drafts

end Registry

end ValueSchema
