import ValueSchema.Kind
import ValueSchema.Path

/-! # Failures

A value that merely does not conform to its type is reported as a violation instead. -/

namespace ValueSchema

/-- What a definition lacks for its kind. -/
inductive Defect
  | missingElementType
  | missingFields
  | missingOptions
  | noOptions
deriving DecidableEq, Repr

def Defect.message : Defect → String
  | .missingElementType => "missing ofType"
  | .missingFields => "missing fields"
  | .missingOptions => "missing options"
  | .noOptions => "options must not be empty"

/-- Why an operation on definitions has no result. -/
inductive Failure
  | unresolvedType (name : String)
  | incompatibleStep (kind : Builtin) (step : Step)
  | uncoercible (source target : Builtin)
  | missingTargetField (name : String)
  | invalidDefinition (kind : Kind) (defect : Defect)
  | recursionLimit (limit : Nat)
deriving DecidableEq, Repr

def Failure.message : Failure → String
  | .unresolvedType name => "unresolved type: " ++ name
  | .incompatibleStep kind step =>
      "path step '" ++ step.text ++ "' is not applicable to kind " ++ kind.tag
  | .uncoercible source target => "cannot coerce " ++ source.tag ++ " to " ++ target.tag
  | .missingTargetField name => "destination shape has no field '" ++ name ++ "'"
  | .invalidDefinition kind defect =>
      "invalid " ++ kind.name ++ " definition: " ++ defect.message
  | .recursionLimit limit => "type definition nesting exceeds depth limit " ++ Nat.repr limit

end ValueSchema
