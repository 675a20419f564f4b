/-
# Diagnostics

What is told to the user about one file.

Key definitions: `Severity`, `Diagnostic`, `Diagnostic.ofFailure`,
`Diagnostic.plain`, `errorCount`.
-/
import DeadBranch.Failure

namespace DeadBranch

/-- How bad it is. -/
inductive Severity where
  | info | warning | error
deriving DecidableEq, Repr

/-- How a severity is written in front of a message. -/
def Severity.label : Severity → String
  | info => "INFO"
  | warning => "WARNING"
  | error => "ERROR"

/-- A message about a file. -/
structure Diagnostic where
  severity : Severity
  message : String
  location : Option Location := none
  /-- What the message is about. -/
  context : Option String := none
  code : Option String := none
deriving DecidableEq, Repr

namespace Diagnostic

/-- A failure as a diagnostic, with its place. -/
def ofFailure (f : Failure) : Diagnostic := ⟨.error, f.message, f.location?, none, none⟩

/-- The message, with its code in brackets. -/
def display (d : Diagnostic) : String :=
  d.message ++ match d.code with
    | some code => " [" ++ code ++ "]"
    | none => ""

/-- The diagnostic on one line. -/
def plain (d : Diagnostic) : String :=
  "[" ++ d.context.getD "leanify" ++ "] " ++ d.severity.label ++ ": " ++ d.display ++
    match d.location with
    | some location => " (at " ++ location.display ++ ")"
    | none => ""

/-- Is it an error? -/
def isError (d : Diagnostic) : Bool := d.severity == .error

/-- The byte of a source that the diagnostic points at. -/
def offset? (source : List Char) (d : Diagnostic) : Option Nat :=
  d.location.bind fun l => byteOffset? source l.line l.column

end Diagnostic

/-- How many of the diagnostics are errors. -/
def errorCount (ds : List Diagnostic) : Nat := ds.countP (·.isError)

end DeadBranch
