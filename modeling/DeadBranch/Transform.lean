/-
# Transforming a file

What becomes of the bytes of one file. A file of another kind passes through.
One that can be read, has something to fold and can be written is written anew;
all others keep their bytes, and a failure is told in a diagnostic. How programs
are read and written is a parameter.

Key definitions: `Language`, `Transform`, `Transform.isTarget`, `Status`,
`Transformed`, `Transform.applyIn`, `Transform.apply`.
-/
import DeadBranch.Diagnostic
import DeadBranch.Disk.Basic
import DeadBranch.Printer.Tree
import DeadBranch.Settings
import DeadBranch.Shrink

namespace DeadBranch

/-- How the programs in files are read and written. -/
structure Language where
  read : (code : String) → (path : Option String) → ParseMode → Except Failure Source
  print : Style → Program → Except Failure String

/-- Writing a program never fails. -/
def Language.javascript : Language := ⟨Source.read, fun style p => .ok (p.print style)⟩

/-- How files are transformed. -/
structure Transform where
  extensions : List String
  mode : ParseMode
  outerConstants : Bool
  style : Style

/-- What became of a file. -/
inductive Status where
  /-- It is none of the files to shrink. -/
  | passThrough
  /-- There was nothing to fold. -/
  | unchanged
  | changed
  | failed
deriving DecidableEq, Repr

/-- The name of a status. -/
def Status.name : Status → String
  | passThrough => "PassThrough"
  | unchanged => "Unchanged"
  | changed => "Rewritten"
  | failed => "Failed"

/-- A file after its transformation. -/
structure Transformed where
  bytes : Bytes
  status : Status
  folds : List FoldRecord
  diagnostic : Option Diagnostic
  log : List LogLine

namespace Transformed

/-- The file keeps its bytes. -/
def untouched (bytes : Bytes) (status : Status) (log : List LogLine) : Transformed :=
  ⟨bytes, status, [], none, log⟩

/-- The file keeps its bytes, and the failure is told. -/
def ofFailure (path : String) (bytes : Bytes) (log : List LogLine) (failure : Failure) :
    Transformed :=
  { untouched bytes .failed
      (log ++ [⟨.error, "leanify error at file " ++ path ++ ": " ++ failure.message⟩]) with
    diagnostic := some { Diagnostic.ofFailure failure with context := some path } }

end Transformed

namespace Transform

/-- The transformation that settings ask for. -/
def ofSettings (s : Settings) : Except Settings.Fault Transform := do
  return ⟨s.extensions, s.parseMode, s.outerConstants, ← s.style⟩

/-- Is a file one to shrink? -/
def isTarget (t : Transform) (path : String) : Bool :=
  (DiskPath.extension? path).any t.extensions.contains

/-- The program in a file. -/
def readFile (l : Language) (t : Transform) (path : String) (bytes : Bytes) :
    Except Failure Source := do
  l.read (← (Utf8.decode bytes).mapError .utf8) (some path) t.mode

/-- What is left of a program. -/
def shrinkSource (t : Transform) (source : Source) : Shrunk :=
  shrink t.outerConstants source.locate source.program

/-- Transforms a file with programs of a language. -/
def applyIn (l : Language) (t : Transform) (path : String) (bytes : Bytes) : Transformed :=
  if !t.isTarget path then
    .untouched bytes .passThrough [⟨.debug, "passing through " ++ path⟩]
  else
    match t.readFile l path bytes with
    | .error failure => .ofFailure path bytes [] failure
    | .ok source =>
      let shrunk := t.shrinkSource source
      let log := source.log ++ shrunk.log
      match shrunk.missing with
      | some span =>
        .ofFailure path bytes log (.unexpectedNode (source.locate span.start)
          "function boundary has no scope in the scope graph")
      | none =>
        if shrunk.folds.isEmpty then .untouched bytes .unchanged log
        else
          match l.print t.style shrunk.program with
          | .error failure => .ofFailure path bytes log failure
          | .ok text =>
            let count := shrunk.folds.length
            ⟨Utf8.encode text, .changed, shrunk.folds, none,
              log ++ [⟨.info, "leanify optimized " ++ path ++ s!" ({count} folds)"⟩]⟩

/-- Transforms a file. -/
def apply (t : Transform) (path : String) (bytes : Bytes) : Transformed :=
  t.applyIn .javascript path bytes

end Transform
end DeadBranch
