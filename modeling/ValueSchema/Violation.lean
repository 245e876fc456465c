/-! # Violations and reports -/

namespace ValueSchema

/-- A mismatch between a value and its type. -/
inductive Violation
  | missingRequired (path : String)
  | typeMismatch (path expected actual : String)
  | nullNotAllowed (path : String)
  | notAnOption (path value : String)
deriving DecidableEq, Repr

namespace Violation

def path : Violation → String
  | .missingRequired path => path
  | .typeMismatch path _ _ => path
  | .nullNotAllowed path => path
  | .notAnOption path _ => path

def message : Violation → String
  | .missingRequired path => "missing required field: " ++ path
  | .typeMismatch path expected actual =>
      "invalid type at '" ++ path ++ "': expected " ++ expected ++ ", got " ++ actual
  | .nullNotAllowed path => "null is not allowed at '" ++ path ++ "'"
  | .notAnOption path value =>
      "value " ++ value ++ " at '" ++ path ++ "' is not one of the declared options"

end Violation

/-- The outcome of checking a value. -/
structure Report where
  valid : Bool
  violations : List Violation
deriving DecidableEq, Repr

namespace Report

/-- A check without violations. -/
def success : Report := ⟨true, []⟩

/-- A check that was not made. -/
def unchecked : Report := ⟨false, []⟩

instance : Inhabited Report := ⟨unchecked⟩

/-- A check with one violation. -/
def single (violation : Violation) : Report := ⟨false, [violation]⟩

def add (report : Report) (violation : Violation) : Report :=
  ⟨false, report.violations ++ [violation]⟩

def merge (report other : Report) : Report :=
  ⟨report.valid && other.valid, report.violations ++ other.violations⟩

/-- All reports in one. -/
def join : List Report → Report
  | [] => success
  | report :: reports => report.merge (join reports)

@[simp] theorem success_merge (report : Report) : success.merge report = report := rfl

@[simp] theorem merge_success (report : Report) : report.merge success = report := by
  simp [merge, success]

theorem merge_assoc (first second third : Report) :
    (first.merge second).merge third = first.merge (second.merge third) := by
  simp [merge, Bool.and_assoc]

/-- Adding a violation is merging the report that has only this one. -/
theorem add_eq_merge_single (report : Report) (violation : Violation) :
    report.add violation = report.merge (single violation) := by
  simp [add, merge, single]

end Report

end ValueSchema
