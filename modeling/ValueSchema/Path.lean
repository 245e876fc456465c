import ValueSchema.Json.Basic

/-! # Positions in a value -/

namespace ValueSchema

/-- One step into a value. -/
inductive Step
  | key (name : String)
  | index (position : Nat)
deriving DecidableEq, Repr

/-- A step as it stands in a path text. -/
def Step.text : Step → String
  | .key name => "." ++ name
  | .index position => "[" ++ Nat.repr position ++ "]"

/-- The text of the position that a path leads to. -/
def pathText (path : List Step) : String :=
  path.foldl (fun text step => text ++ step.text) "$"

namespace Json

/-- The child of a value that a step leads to. -/
def child? : Json → Step → Option Json
  | .object members, .key name => members.get? name
  | .array items, .index position => items[position]?
  | _, _ => none

/-- The part of a value that a path leads to. -/
def at? (value : Json) : List Step → Option Json
  | [] => some value
  | step :: path => (value.child? step).bind fun child => child.at? path

@[simp] theorem at?_nil (value : Json) : value.at? [] = some value := rfl

@[simp] theorem at?_cons (value : Json) (step : Step) (path : List Step) :
    value.at? (step :: path) = (value.child? step).bind fun child => child.at? path := rfl

/-- Following a path and then another is following the two in a row. -/
theorem at?_append (value : Json) (path rest : List Step) :
    value.at? (path ++ rest) = (value.at? path).bind fun part => part.at? rest := by
  induction path generalizing value with
  | nil => rfl
  | cons step path ih =>
      rw [List.cons_append, at?_cons, at?_cons, Option.bind_assoc]
      cases value.child? step with
      | none => rfl
      | some child => exact ih child

end Json

end ValueSchema
