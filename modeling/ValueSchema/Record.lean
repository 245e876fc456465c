/-! # Ordered records

The names are an index of the type of values, so a record can be nested in the type of its own
values without losing the condition on its names. -/

namespace ValueSchema

/-- One value for each name of a list. -/
inductive Values (α : Type) : List String → Type
  | nil : Values α []
  | cons {name : String} {names : List String} (value : α) (rest : Values α names) :
      Values α (name :: names)

namespace Values

/-- The values with their names, in order. -/
def toList {α : Type} : {names : List String} → Values α names → List (String × α)
  | [], .nil => []
  | name :: _, .cons value rest => (name, value) :: rest.toList

/-- The value of the first occurrence of a name. -/
def get? {α : Type} (key : String) : {names : List String} → Values α names → Option α
  | [], .nil => none
  | name :: _, .cons value rest => if name = key then some value else rest.get? key

def map {α β : Type} (f : α → β) : {names : List String} → Values α names → Values β names
  | [], .nil => .nil
  | _ :: _, .cons value rest => .cons (f value) (rest.map f)

/-- Applies `f` to the values from left to right and stops at the first failure. -/
def mapM {ε α β : Type} (f : α → Except ε β) :
    {names : List String} → Values α names → Except ε (Values β names)
  | [], .nil => .ok .nil
  | _ :: _, .cons value rest => do
      let value ← f value
      let rest ← rest.mapM f
      return .cons value rest

/-- Replaces the value of every occurrence of a name. -/
def set {α : Type} (key : String) (new : α) :
    {names : List String} → Values α names → Values α names
  | [], .nil => .nil
  | name :: _, .cons value rest => .cons (if name = key then new else value) (rest.set key new)

/-- Adds a named value at the end. The names are part of the result, so that they are built only
once. -/
def push {α : Type} (key : String) (new : α) :
    {names : List String} → Values α names → (all : List String) × Values α all
  | [], .nil => ⟨[key], .cons new .nil⟩
  | name :: _, .cons value rest =>
      let ⟨all, values⟩ := rest.push key new
      ⟨name :: all, .cons value values⟩

theorem push_fst {α : Type} (key : String) (new : α) {names : List String}
    (values : Values α names) : (values.push key new).1 = names ++ [key] := by
  induction values with
  | nil => rfl
  | cons value rest ih => simp [push, ih]

end Values

/-- Named values in order, no name twice. -/
structure Record (α : Type) where
  names : List String
  nodup : names.Nodup
  values : Values α names

namespace Record

def empty {α : Type} : Record α := ⟨[], .nil, .nil⟩

instance {α : Type} : EmptyCollection (Record α) := ⟨empty⟩

instance {α : Type} : Inhabited (Record α) := ⟨empty⟩

def toList {α : Type} (r : Record α) : List (String × α) := r.values.toList

def size {α : Type} (r : Record α) : Nat := r.names.length

def get? {α : Type} (r : Record α) (key : String) : Option α := r.values.get? key

def map {α β : Type} (f : α → β) (r : Record α) : Record β := ⟨r.names, r.nodup, r.values.map f⟩

/-- Applies `f` to the values from left to right and stops at the first failure. -/
def mapM {ε α β : Type} (f : α → Except ε β) (r : Record α) : Except ε (Record β) :=
  (r.values.mapM f).map fun values => ⟨r.names, r.nodup, values⟩

theorem nodup_append_singleton {names : List String} {key : String} (nodup : names.Nodup)
    (fresh : key ∉ names) : (names ++ [key]).Nodup := by
  rw [List.nodup_append]
  refine ⟨nodup, by simp, ?_⟩
  intro a ha b hb
  rw [List.mem_singleton] at hb
  intro hab
  exact fresh (hb ▸ hab ▸ ha)

/-- A name keeps its first position and takes its last value; a new name goes to the end. -/
def insert {α : Type} (r : Record α) (key : String) (value : α) : Record α :=
  if h : key ∈ r.names then
    ⟨r.names, r.nodup, r.values.set key value⟩
  else
    let pushed := r.values.push key value
    { names := pushed.1
      nodup := r.values.push_fst key value ▸ nodup_append_singleton r.nodup h
      values := pushed.2 }

/-- The record that results from inserting the named values in order. -/
def ofList {α : Type} (entries : List (String × α)) : Record α :=
  entries.foldl (fun r entry => r.insert entry.1 entry.2) empty

end Record

/-! ## The view of each operation -/

namespace Values

@[simp] theorem map_fst_toList {α : Type} {names : List String} (values : Values α names) :
    values.toList.map Prod.fst = names := by
  induction values with
  | nil => rfl
  | cons value rest ih => simp [toList, ih]

theorem toList_injective {α : Type} {names : List String} (left right : Values α names)
    (h : left.toList = right.toList) : left = right := by
  induction left with
  | nil => cases right; rfl
  | cons value rest ih =>
      cases right with
      | cons value' rest' =>
          simp only [toList, List.cons.injEq, Prod.mk.injEq, true_and] at h
          rw [h.1, ih rest' h.2]

@[simp] theorem toList_map {α β : Type} (f : α → β) {names : List String}
    (values : Values α names) :
    (values.map f).toList = values.toList.map fun entry => (entry.1, f entry.2) := by
  induction values with
  | nil => rfl
  | cons value rest ih => simp [map, toList, ih]

theorem get?_map {α β : Type} (f : α → β) (key : String) {names : List String}
    (values : Values α names) : (values.map f).get? key = (values.get? key).map f := by
  induction values with
  | nil => rfl
  | cons value rest ih =>
      simp only [map, get?, ih]
      split <;> rfl

@[simp] theorem toList_push {α : Type} (key : String) (new : α) {names : List String}
    (values : Values α names) :
    (values.push key new).2.toList = values.toList ++ [(key, new)] := by
  induction values with
  | nil => rfl
  | cons value rest ih => exact congrArg (List.cons _) ih

theorem toList_set {α : Type} (key : String) (new : α) {names : List String}
    (values : Values α names) :
    (values.set key new).toList =
      values.toList.map fun entry => if entry.1 = key then (entry.1, new) else entry := by
  induction values with
  | nil => rfl
  | cons value rest ih =>
      simp only [set, toList, ih, List.map_cons, List.cons.injEq, and_true]
      split <;> rfl

end Values

namespace Record

@[simp] theorem map_fst_toList {α : Type} (r : Record α) : r.toList.map Prod.fst = r.names :=
  r.values.map_fst_toList

@[simp] theorem length_toList {α : Type} (r : Record α) : r.toList.length = r.size := by
  rw [← List.length_map (f := Prod.fst), map_fst_toList, size]

@[simp] theorem toList_empty {α : Type} : (empty : Record α).toList = [] := rfl

/-- A record is determined by its view. -/
@[ext] theorem ext_toList {α : Type} {left right : Record α} (h : left.toList = right.toList) :
    left = right := by
  obtain ⟨names, nodup, values⟩ := left
  obtain ⟨names', nodup', values'⟩ := right
  have hnames : names = names' := by
    rw [← values.map_fst_toList, ← values'.map_fst_toList]
    exact congrArg (List.map Prod.fst) h
  subst hnames
  rw [Values.toList_injective values values' h]

@[simp] theorem toList_map {α β : Type} (f : α → β) (r : Record α) :
    (r.map f).toList = r.toList.map fun entry => (entry.1, f entry.2) :=
  r.values.toList_map f

theorem get?_map {α β : Type} (f : α → β) (r : Record α) (key : String) :
    (r.map f).get? key = (r.get? key).map f :=
  r.values.get?_map f key

theorem toList_insert_of_mem {α : Type} (r : Record α) (key : String) (value : α)
    (h : key ∈ r.names) :
    (r.insert key value).toList =
      r.toList.map fun entry => if entry.1 = key then (entry.1, value) else entry := by
  rw [insert, dif_pos h]
  exact r.values.toList_set key value

theorem toList_insert_of_not_mem {α : Type} (r : Record α) (key : String) (value : α)
    (h : key ∉ r.names) : (r.insert key value).toList = r.toList ++ [(key, value)] := by
  rw [insert, dif_neg h]
  exact r.values.toList_push key value

/-- Distinct names make a record with exactly the given entries. -/
theorem toList_ofList {α : Type} (entries : List (String × α))
    (h : (entries.map Prod.fst).Nodup) : (ofList entries).toList = entries := by
  suffices general : ∀ (rest : List (String × α)) (r : Record α),
      ((r.toList ++ rest).map Prod.fst).Nodup →
        (rest.foldl (fun r entry => r.insert entry.1 entry.2) r).toList = r.toList ++ rest by
    simpa [ofList] using general entries empty (by simpa using h)
  intro rest
  induction rest with
  | nil => intro r _; simp
  | cons entry rest ih =>
      intro r hr
      have hfresh : entry.1 ∉ r.names := by
        rw [List.map_append, List.map_cons, map_fst_toList, List.nodup_append] at hr
        intro hmem
        exact hr.2.2 _ hmem _ (List.mem_cons_self ..) rfl
      have hinsert := toList_insert_of_not_mem r entry.1 entry.2 hfresh
      rw [List.foldl_cons, ih _ (by rw [hinsert]; simpa using hr), hinsert]
      simp

end Record

end ValueSchema
