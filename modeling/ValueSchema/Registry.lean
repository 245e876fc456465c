import ValueSchema.TypeDef.Decoding

/-! # Registries

Entries are sorted, so registries with the same definitions under the same names are equal. -/

namespace ValueSchema

/-- Named definitions in increasing order of names. -/
abbrev Entries := List (String × TypeDef)

namespace Entries

/-- Sets the definition of a name, in its place in the order. -/
def insert (name : String) (d : TypeDef) : Entries → Entries
  | [] => [(name, d)]
  | (other, e) :: rest =>
      if name < other then (name, d) :: (other, e) :: rest
      else if other < name then (other, e) :: insert name d rest
      else (name, d) :: rest

def IsSorted (entries : Entries) : Prop := entries.Pairwise fun left right => left.1 < right.1

theorem eq_of_not_lt {left right : String} (h : ¬left < right) (h' : ¬right < left) :
    left = right :=
  String.le_antisymm (String.not_lt.mp h') (String.not_lt.mp h)

theorem mem_insert {name : String} {d : TypeDef} {entries : Entries} {entry : String × TypeDef}
    (h : entry ∈ insert name d entries) : entry = (name, d) ∨ entry ∈ entries := by
  induction entries with
  | nil => exact Or.inl (List.mem_singleton.mp h)
  | cons head rest ih =>
      rw [insert] at h
      split at h
      · exact List.mem_cons.mp h
      · split at h
        · rcases List.mem_cons.mp h with hhead | hrest
          · exact Or.inr (hhead ▸ List.mem_cons_self ..)
          · exact (ih hrest).imp_right (List.mem_cons_of_mem _)
        · exact (List.mem_cons.mp h).imp_right (List.mem_cons_of_mem _)

theorem isSorted_insert (name : String) (d : TypeDef) {entries : Entries}
    (h : entries.IsSorted) : (insert name d entries).IsSorted := by
  induction entries with
  | nil => exact List.pairwise_singleton _ _
  | cons head rest ih =>
      have hhead := (List.pairwise_cons.mp h).1
      have hrest := (List.pairwise_cons.mp h).2
      rw [insert]
      split
      · next hlt =>
          refine List.pairwise_cons.mpr ⟨?_, h⟩
          intro entry hentry
          rcases List.mem_cons.mp hentry with rfl | hentry
          · exact hlt
          · exact String.lt_trans hlt (hhead entry hentry)
      · next hnlt =>
          split
          · next hlt =>
              refine List.pairwise_cons.mpr ⟨?_, ih hrest⟩
              intro entry hentry
              rcases mem_insert hentry with rfl | hentry
              · exact hlt
              · exact hhead entry hentry
          · next hngt =>
              refine List.pairwise_cons.mpr ⟨?_, hrest⟩
              intro entry hentry
              rw [eq_of_not_lt hnlt hngt]
              exact hhead entry hentry

/-- The entries that result from inserting named definitions one after the other. -/
def ofList (pairs : List (String × TypeDef)) : Entries :=
  pairs.foldl (fun entries pair => insert pair.1 pair.2 entries) []

theorem isSorted_ofList (pairs : List (String × TypeDef)) : (ofList pairs).IsSorted := by
  suffices general : ∀ (pairs : List (String × TypeDef)) (entries : Entries), entries.IsSorted →
      (pairs.foldl (fun entries pair => insert pair.1 pair.2 entries) entries).IsSorted by
    exact general pairs [] List.Pairwise.nil
  intro pairs
  induction pairs with
  | nil => exact fun _ h => h
  | cons pair pairs ih => exact fun entries h => ih _ (isSorted_insert pair.1 pair.2 h)

end Entries

/-- Whether a name is the tag of a built-in kind. -/
def isReserved (name : String) : Bool := (Builtin.ofTag? name).isSome

/-- A registry of named definitions. -/
structure Registry where
  entries : Entries
  sorted : entries.IsSorted
  unreserved : ∀ entry ∈ entries, isReserved entry.1 = false

namespace Registry

/-- Why a definition is not written to a registry. -/
inductive WriteError
  | duplicate (name : String)
  | reserved (name : String)
deriving DecidableEq, Repr

def WriteError.message : WriteError → String
  | .duplicate name => "duplicate type definition: " ++ name
  | .reserved name => reservedNameMessage name

def empty : Registry := ⟨[], List.Pairwise.nil, by simp⟩

instance : EmptyCollection Registry := ⟨empty⟩

instance : Inhabited Registry := ⟨empty⟩

/-- The definition under a name. -/
def get? (r : Registry) (name : String) : Option TypeDef := r.entries.lookup name

def contains (r : Registry) (name : String) : Bool := (r.get? name).isSome

def size (r : Registry) : Nat := r.entries.length

/-- The names in increasing order. -/
def names (r : Registry) : List String := r.entries.map Prod.fst

/-- Sets the definition of a name that is not reserved. -/
def set (r : Registry) (name : String) (d : TypeDef) (h : isReserved name = false) : Registry where
  entries := r.entries.insert name d
  sorted := Entries.isSorted_insert name d r.sorted
  unreserved := by
    intro entry hentry
    rcases Entries.mem_insert hentry with rfl | hentry
    · exact h
    · exact r.unreserved entry hentry

/-- Adds a definition under a new name. The reply comes with the registry after it. -/
def register (r : Registry) (name : String) (d : TypeDef) : Except WriteError Unit × Registry :=
  if h : isReserved name = false then
    if r.contains name then (.error (.duplicate name), r) else (.ok (), r.set name d h)
  else
    (.error (.reserved name), r)

/-- Adds or replaces a definition and replies with the one that was there before. -/
def insert (r : Registry) (name : String) (d : TypeDef) :
    Except WriteError (Option TypeDef) × Registry :=
  if h : isReserved name = false then (.ok (r.get? name), r.set name d h)
  else (.error (.reserved name), r)

/-- Adds or replaces definitions in order. One with a reserved name is skipped. -/
def extend (r : Registry) (pairs : List (String × TypeDef)) : Registry :=
  pairs.foldl (fun r pair => (r.insert pair.1 pair.2).2) r

/-- The registry of the pairs without reserved names. -/
def ofList (pairs : List (String × TypeDef)) : Registry := empty.extend pairs

/-- Adds or replaces a definition, or fails if it is refused. -/
def insertOrFail (r : Registry) (pair : String × TypeDef) : Except WriteError Registry :=
  let (reply, r') := r.insert pair.1 pair.2
  reply.map fun _ => r'

/-- The registry of the pairs, unless a name is reserved. -/
def ofList? (pairs : List (String × TypeDef)) : Except WriteError Registry :=
  pairs.foldlM insertOrFail empty

/-- A registry as an object with its entries in order. -/
def toJson (r : Registry) : Json :=
  .object (Record.ofList (r.entries.map fun entry => (entry.1, entry.2.toJson)))

/-- The registry of a record of definitions. The least reserved name is refused first. -/
def ofRecord (definitions : Record TypeDef) : Except DecodeError Registry :=
  let entries := Entries.ofList definitions.toList
  match h : entries.find? fun entry => isReserved entry.1 with
  | some entry => .error (.reservedName entry.1)
  | none =>
      .ok
        { entries
          sorted := Entries.isSorted_ofList definitions.toList
          unreserved := by simpa using List.find?_eq_none.mp h }

/-- Reads a registry from an object of definitions. -/
def ofJson (value : Json) : Except DecodeError Registry := do
  ofRecord (← TypeDef.recordOfJson value)

end Registry

end ValueSchema
