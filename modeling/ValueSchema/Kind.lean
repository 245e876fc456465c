/-! # Kinds of types -/

namespace ValueSchema

/-- The built-in kinds. -/
inductive Builtin
  | string
  | bool
  | int
  | float
  | scalar
  | oneOf
  | shape
  | object
  | objectOf
  | array
  | arrayOf
  | func
  | component
deriving DecidableEq, Repr

namespace Builtin

/-- All built-in kinds in their listing order. -/
def all : List Builtin :=
  [string, bool, int, float, scalar, oneOf, shape, object, objectOf, array, arrayOf, func,
    component]

def tag : Builtin → String
  | string => "string"
  | bool => "bool"
  | int => "int"
  | float => "float"
  | scalar => "scalar"
  | oneOf => "oneOf"
  | shape => "shape"
  | object => "object"
  | objectOf => "objectOf"
  | array => "array"
  | arrayOf => "arrayOf"
  | func => "func"
  | component => "component"

/-- The built-in kind with exactly this tag. -/
def ofTag? (name : String) : Option Builtin := all.find? fun kind => kind.tag == name

/-- Whether `null` stands for an absent value of this kind. -/
def isNullable : Builtin → Bool
  | object | objectOf | shape => true
  | _ => false

theorem mem_all (kind : Builtin) : kind ∈ all := by
  cases kind <;> decide

@[simp] theorem ofTag?_tag (kind : Builtin) : ofTag? kind.tag = some kind := by
  cases kind <;> decide

theorem tag_injective {left right : Builtin} (h : left.tag = right.tag) : left = right := by
  simpa using congrArg ofTag? h

theorem tag_of_ofTag? {name : String} {kind : Builtin} (h : ofTag? name = some kind) :
    kind.tag = name := by
  simpa using List.find?_some h

end Builtin

/-- The message for a name that is no tag. -/
def unknownBuiltinMessage (name : String) : String := "unknown builtin kind: " ++ name

/-- The kind of a definition. -/
inductive Kind
  | builtin (kind : Builtin)
  | reference (name : String)
deriving DecidableEq, Repr

namespace Kind

/-- A tag names its built-in kind and any other name is a reference. -/
def ofName (name : String) : Kind :=
  match Builtin.ofTag? name with
  | some kind => .builtin kind
  | none => .reference name

def name : Kind → String
  | .builtin kind => kind.tag
  | .reference name => name

def isBuiltin : Kind → Bool
  | .builtin _ => true
  | .reference _ => false

@[simp] theorem name_ofName (name : String) : (ofName name).name = name := by
  unfold ofName
  split
  · next kind h => exact Builtin.tag_of_ofTag? h
  · rfl

end Kind

end ValueSchema
