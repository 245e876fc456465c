import ValueSchema.Settings.Document

/-! # Settings

The one setting is the depth limit of type-driven recursion. -/

namespace ValueSchema

/-- The settings of the library. -/
structure Settings where
  maxDepth : Nat
  positive : 0 < maxDepth
deriving DecidableEq

namespace Settings

def standard : Settings := ⟨64, by decide⟩

instance : Inhabited Settings := ⟨standard⟩

/-- Why there is no text at a path. -/
inductive FileProblem
  | missing
  | isDirectory
  | notText
deriving DecidableEq, Repr

def FileProblem.message : FileProblem → String
  | .missing => "No such file or directory (os error 2)"
  | .isDirectory => "Is a directory (os error 21)"
  | .notText => "stream did not contain valid UTF-8"

/-- Why settings are not loaded. -/
inductive LoadError
  | unreadable (path : String) (problem : FileProblem)
  | malformed
  | zeroDepth
deriving DecidableEq, Repr

def LoadError.message : LoadError → String
  | .unreadable path problem => "failed to read config file " ++ path ++ ": " ++ problem.message
  | .malformed => "malformed settings"
  | .zeroDepth => "max_depth must be at least 1"

/-- The settings with a depth limit, which has 64 bits. -/
def ofDepth (depth : Nat) : Except LoadError Settings :=
  if positive : 0 < depth then
    if depth < 18446744073709551616 then .ok ⟨depth, positive⟩ else .error .malformed
  else .error .zeroDepth

/-- Reads settings from a document. -/
def ofText (text : String) : Except LoadError Settings :=
  match Document.entries? text with
  | some [] => .ok standard
  | some [(key, depth)] => if key = "max_depth" then ofDepth depth else .error .malformed
  | _ => .error .malformed

/-- What is found at a path. -/
inductive File
  | contents (bytes : ByteArray)
  | missing
  | directory

/-- Loads settings from what is found at a path. -/
def load (path : String) : File → Except LoadError Settings
  | .contents bytes =>
      match String.fromUTF8? bytes with
      | some text => ofText text
      | none => .error (.unreadable path .notText)
  | .missing => .error (.unreadable path .missing)
  | .directory => .error (.unreadable path .isDirectory)

end Settings

end ValueSchema
