import ValueSchema.Record
import ValueSchema.Json.Number

/-! # JSON values

Functions on values are given by `Json.fold`, of which the equations `fold_array` and
`fold_object` are all that is needed. -/

namespace ValueSchema

/-- A JSON value. -/
inductive Json
  | null
  | bool (value : Bool)
  | number (value : Number)
  | string (value : String)
  | array (items : List Json)
  | object (members : Record Json)

namespace Json

instance : Inhabited Json := ⟨.null⟩

/-- The results for the children of a value. -/
inductive Children (α : Type)
  | leaf
  | items (results : List α)
  | members (results : Record α)

mutual

/-- The result of a value, computed by `step` from the value and the results for its children. -/
def fold {α : Type} (step : Json → Children α → α) : Json → α
  | .null => step .null .leaf
  | .bool value => step (.bool value) .leaf
  | .number value => step (.number value) .leaf
  | .string value => step (.string value) .leaf
  | .array items => step (.array items) (.items (foldItems step items))
  | .object members => step (.object members) (.members (foldMembers step members))
termination_by structural value => value

def foldItems {α : Type} (step : Json → Children α → α) : List Json → List α
  | [] => []
  | item :: items => fold step item :: foldItems step items
termination_by structural items => items

def foldMembers {α : Type} (step : Json → Children α → α) : Record Json → Record α
  | ⟨names, nodup, values⟩ => ⟨names, nodup, foldValues step values⟩
termination_by structural members => members

def foldValues {α : Type} (step : Json → Children α → α) :
    {names : List String} → Values Json names → Values α names
  | _, .nil => .nil
  | _, .cons value rest => .cons (fold step value) (foldValues step rest)
termination_by structural _ values => values

end

theorem foldItems_eq_map {α : Type} (step : Json → Children α → α) (items : List Json) :
    foldItems step items = items.map (fold step) := by
  induction items with
  | nil => rfl
  | cons item items ih => rw [foldItems, ih, List.map_cons]

theorem foldValues_eq_map {α : Type} (step : Json → Children α → α) {names : List String}
    (values : Values Json names) : foldValues step values = values.map (fold step) := by
  induction values with
  | nil => rfl
  | cons value rest ih => rw [foldValues, ih, Values.map]

theorem foldMembers_eq_map {α : Type} (step : Json → Children α → α) (members : Record Json) :
    foldMembers step members = members.map (fold step) := by
  rw [foldMembers, foldValues_eq_map, Record.map]

@[simp] theorem fold_null {α : Type} (step : Json → Children α → α) :
    fold step .null = step .null .leaf := rfl

@[simp] theorem fold_bool {α : Type} (step : Json → Children α → α) (value : Bool) :
    fold step (.bool value) = step (.bool value) .leaf := rfl

@[simp] theorem fold_number {α : Type} (step : Json → Children α → α) (value : Number) :
    fold step (.number value) = step (.number value) .leaf := rfl

@[simp] theorem fold_string {α : Type} (step : Json → Children α → α) (value : String) :
    fold step (.string value) = step (.string value) .leaf := rfl

@[simp] theorem fold_array {α : Type} (step : Json → Children α → α) (items : List Json) :
    fold step (.array items) = step (.array items) (.items (items.map (fold step))) := by
  rw [fold, foldItems_eq_map]

@[simp] theorem fold_object {α : Type} (step : Json → Children α → α) (members : Record Json) :
    fold step (.object members) = step (.object members) (.members (members.map (fold step))) := by
  rw [fold, foldMembers_eq_map]

/-- A property holds of every value if it holds of an array whenever it holds of its items, and
of an object whenever it holds of the values of its members. -/
theorem induction {motive : Json → Prop} (null : motive .null)
    (bool : ∀ value, motive (.bool value)) (number : ∀ value, motive (.number value))
    (string : ∀ value, motive (.string value))
    (array : ∀ items : List Json, (∀ item ∈ items, motive item) → motive (.array items))
    (object : ∀ members : Record Json, (∀ entry ∈ members.toList, motive entry.2) →
      motive (.object members))
    (value : Json) : motive value := by
  refine @Json.rec motive (fun items => ∀ item ∈ items, motive item)
    (fun members => ∀ entry ∈ members.toList, motive entry.2)
    (fun _ values => ∀ entry ∈ values.toList, motive entry.2)
    null bool number string array object ?_ ?_ ?_ ?_ ?_ value
  · intro item hitem
    cases hitem
  · intro item items hitem hitems other hother
    rcases List.mem_cons.mp hother with rfl | hother
    · exact hitem
    · exact hitems other hother
  · intro names nodup values hvalues
    exact hvalues
  · intro entry hentry
    cases hentry
  · intro name names value rest hvalue hrest entry hentry
    rcases List.mem_cons.mp hentry with rfl | hentry
    · exact hvalue
    · exact hrest entry hentry

/-! ## Equality -/

/-- Equality of two values that are neither arrays nor objects. -/
def sameLeaf : Json → Json → Bool
  | .null, .null => true
  | .bool a, .bool b => a == b
  | .number a, .number b => a.same b
  | .string a, .string b => a == b
  | _, _ => false

/-- Equality of values: arrays item by item, objects without regard to order, numbers within a
kind. -/
def same : Json → Json → Bool :=
  fold fun value children other =>
    match children, other with
    | .leaf, other => value.sameLeaf other
    | .items tests, .array others =>
        tests.length == others.length && (tests.zip others).all fun (test, item) => test item
    | .members tests, .object others =>
        tests.size == others.size &&
          tests.toList.all fun (name, test) => (others.get? name).any test
    | _, _ => false

/-- Equality in which two numbers are compared across kinds. Numbers inside arrays and objects
are not. -/
def valueEq : Json → Json → Bool
  | .number a, .number b => a.numEq b
  | a, b => a.same b

/-! ## Classification -/

def isNull : Json → Bool
  | .null => true
  | _ => false

def isBool : Json → Bool
  | .bool _ => true
  | _ => false

def isNumber : Json → Bool
  | .number _ => true
  | _ => false

def isIntegral : Json → Bool
  | .number value => value.isIntegral
  | _ => false

def isString : Json → Bool
  | .string _ => true
  | _ => false

def isArray : Json → Bool
  | .array _ => true
  | _ => false

def isObject : Json → Bool
  | .object _ => true
  | _ => false

def isScalar (value : Json) : Bool := value.isBool || value.isNumber || value.isString

/-- The name of a value's type in messages. A whole number is an `int` whatever its kind. -/
def typeName : Json → String
  | .null => "null"
  | .bool _ => "bool"
  | .number value => if value.isIntegral then "int" else "float"
  | .string _ => "string"
  | .array _ => "array"
  | .object _ => "object"

end Json

end ValueSchema
