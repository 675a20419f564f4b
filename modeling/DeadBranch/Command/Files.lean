/-
# The files of a command

Inputs are files, which are taken as they are, and directories, which are
walked for the files that the globs let through. Each file is transformed by
itself, and the outcomes are put in the order of their paths. How files are read
is a parameter: one that was found may refuse to be read.

Key definitions: `InputFile`, `collect`, `Reader`, `Outcome`, `transformFiles`,
`Finding`, `findings`, `Summary`, `summarize`.
-/
import DeadBranch.Command.Failure
import DeadBranch.Transform

namespace DeadBranch

/-- A file to look at. -/
structure InputFile where
  path : String
  /-- Its path from the input it was found under. -/
  relative : String
deriving DecidableEq, Repr

/-! ### Collecting -/

/-- Which of the files below a directory are looked at. -/
structure FileFilter where
  included : List Glob
  excluded : List Glob

namespace FileFilter

/-- Reads globs. -/
def parseAll (patterns : List String) : Except CommandFailure (List Glob) :=
  patterns.mapM fun pattern => (Glob.parse pattern).mapError (.glob pattern)

/-- The filter that settings ask for. -/
def ofSettings (s : Settings) : Except CommandFailure FileFilter := do
  return ⟨← parseAll s.included, ← parseAll s.excluded⟩

/-- Is a file let through? Without globs to include it by, every one is. -/
def accepts (f : FileFilter) (relative : String) : Bool :=
  (f.included.isEmpty || f.included.any (·.isMatch relative)) &&
    !f.excluded.any (·.isMatch relative)

end FileFilter

/-- The files below a directory that a filter lets through. -/
def filesBelow (d : Disk) (filter : FileFilter) (dir : String) (place : Place) : List InputFile :=
  let files := (d.below place).map fun names =>
    (⟨DiskPath.joinAll dir names, DiskPath.ofNames names⟩ : InputFile)
  files.filter fun file => filter.accepts file.relative

/-- The files that one input stands for. -/
def collectInput (d : Disk) (s : Settings) (input : String) :
    Except CommandFailure (List InputFile) :=
  match d.find input with
  | .error _ => .error (.noSuchInput input)
  | .ok place =>
    if d.isDirAt place then do
      return filesBelow d (← FileFilter.ofSettings s) input place
    else .ok [⟨input, (DiskPath.fileName? input).getD input⟩]

/-- The files that inputs stand for. -/
def collect (d : Disk) (s : Settings) (inputs : List String) :
    Except CommandFailure (List InputFile) := do
  return (← inputs.mapM (collectInput d s)).flatten

/-! ### Transforming -/

/-- How files are read, by their paths. -/
abbrev Reader := String → Except Disk.Fault Bytes

/-- A file with what became of it. -/
structure Outcome where
  file : InputFile
  input : Bytes
  output : Transformed

/-- Reads and transforms a file. -/
def Outcome.ofFile (read : Reader) (t : Transform) (file : InputFile) :
    Except CommandFailure Outcome := do
  let input ← (read file.path).mapError (.unreadable file.path)
  return ⟨file, input, t.apply file.path input⟩

/-- What is logged about a file. -/
def Outcome.log (o : Outcome) : List LogLine :=
  o.output.log ++ [⟨.debug, o.file.path ++ ": " ++ o.output.status.name⟩]

/-- Outcomes in the order of their paths. -/
def sortOutcomes (outcomes : List Outcome) : List Outcome :=
  outcomes.mergeSort fun a b => (DiskPath.compare a.file.path b.file.path).isLE

/-- Reads and transforms files; one that cannot be read is a failure of them
all. -/
def transformFiles (read : Reader) (t : Transform) (files : List InputFile) :
    Except CommandFailure (List Outcome) := do
  return sortOutcomes (← files.mapM (Outcome.ofFile read t))

/-! ### Reporting -/

/-- A conditional that folds. -/
structure Finding where
  file : String
  location : Location
  kind : FoldKind

/-- The conditionals that fold. -/
def findings (outcomes : List Outcome) : List Finding :=
  outcomes.flatMap fun o => o.output.folds.map fun fold => ⟨o.file.path, fold.location, fold.kind⟩

/-- Outcomes in numbers. -/
structure Summary where
  files : Nat
  changed : Nat
  folds : Nat
  failed : Nat
deriving DecidableEq, Repr

/-- Counts outcomes. -/
def summarize (outcomes : List Outcome) : Summary where
  files := outcomes.length
  changed := outcomes.countP (·.output.status == .changed)
  folds := (findings outcomes).length
  failed := outcomes.countP (·.output.status == .failed)

end DeadBranch
