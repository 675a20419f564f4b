/-
# Running a command

A command is carried out on a disk: it leaves a disk, an output and notes, and
may have failed. Only `shrink` writes, and only where its options say: into
a directory, in place of the files it changed, to the output if a single file
is all it was given, or nowhere.

Key definitions: `Run`, `Destination`, `shrinkReading`, `shrinkCommand`,
`checkCommand`, `evalCommand`, `loadSettings`, `Report`, `runProgram`.
-/
import DeadBranch.Command.Arguments
import DeadBranch.Command.Report
import DeadBranch.Evaluate

namespace DeadBranch

/-- What a command leaves. -/
structure Run where
  disk : Disk
  output : Bytes
  notes : List Note
  failure : Option CommandFailure

namespace Run

/-- A run that failed before it did anything. -/
def failed (d : Disk) (notes : List Note) (f : CommandFailure) : Run := ⟨d, [], notes, some f⟩

/-- A run that says more. -/
def say (r : Run) (notes : List Note) : Run := { r with notes := r.notes ++ notes }

end Run

/-! ### Shrinking -/

/-- Where results go. -/
inductive Destination where
  | output
  | directory (path : String)
  | inPlace
  | nowhere
deriving DecidableEq, Repr

/-- The destination that options ask for. A single file goes to the output if
they ask for none. -/
def destination? (d : Disk) (paths : List String) (options : ShrinkOptions)
    (files : List InputFile) : Option Destination :=
  if options.dryRun then some .nowhere
  else match options.outDir with
    | some dir => some (.directory dir)
    | none =>
      if options.inPlace then some .inPlace
      else match files, paths with
        | [_], [path] => if d.isFile path then some .output else none
        | _, _ => none

/-- The path that an outcome is written to, if it is written. -/
def writtenTo? (o : Outcome) : Destination → Option String
  | .directory dir => some (DiskPath.join dir o.file.relative)
  | .inPlace => if o.output.status = .changed then some o.file.path else none
  | .output => none
  | .nowhere => none

/-- The disk after an outcome went where it belongs. -/
def writeOutcome (destination : Destination) (d : Disk) (o : Outcome) : Except Disk.Fault Disk :=
  match writtenTo? o destination with
  | some path => d.write path o.output.bytes
  | none => .ok d

/-- What an outcome adds to the output. -/
def shown (destination : Destination) (o : Outcome) : Bytes :=
  if destination = .output then o.output.bytes else []

/-- Lets outcomes go where they belong, one after the other. -/
def deliver (destination : Destination) : List Outcome → Run → Run
  | [], r => r
  | o :: outcomes, r =>
    let r := r.say (failureNotes o)
    match writeOutcome destination r.disk o with
    | .error fault => { r with failure := some (.unwritable fault) }
    | .ok disk =>
      deliver destination outcomes { r with disk, output := r.output ++ shown destination o }

/-- The closing lines of a run. -/
def summaryNotes (s : Summary) : List Note :=
  Note.line s!"✓ {s.files} file(s), {s.changed} rewritten, {s.folds} branch(es) folded" ::
    if s.failed = 0 then [] else [.line s!"✗ {s.failed} file(s) emitted unchanged after errors"]

/-- Reads and transforms files as settings ask for. -/
def transformReading (read : Reader) (s : Settings) (files : List InputFile) :
    Except CommandFailure (List Outcome) := do
  let t ← (Transform.ofSettings s).mapError (.settings none)
  transformFiles read t files

/-- Transforms files of a disk as settings ask for. -/
def transformAs (d : Disk) (s : Settings) (files : List InputFile) :
    Except CommandFailure (List Outcome) :=
  transformReading d.read s files

/-- Shrinks files that are found on a disk and read by a reader. All of them are
read before the first is written. -/
def shrinkReading (read : Reader) (d : Disk) (s : Settings) (paths : List String)
    (options : ShrinkOptions) : Run :=
  match collect d s paths with
  | .error f => .failed d [] f
  | .ok [] => ⟨d, [], [.log ⟨.warn, "no input files matched"⟩], none⟩
  | .ok files =>
    match destination? d paths options files with
    | none => .failed d [] .noDestination
    | some destination =>
      let started := [Note.log ⟨.info, s!"Shrinking {files.length} file(s)"⟩]
      match transformReading read s files with
      | .error f => .failed d started f
      | .ok outcomes =>
        let log := logNotes (outcomes.flatMap Outcome.log)
        let r := deliver destination outcomes ⟨d, [], started ++ log, none⟩
        if r.failure.isSome then r else r.say (summaryNotes (summarize outcomes))

/-- Shrinks files of a disk. -/
def shrinkCommand (d : Disk) (s : Settings) (paths : List String) (options : ShrinkOptions) : Run :=
  shrinkReading d.read d s paths options

/-! ### Checking and evaluating -/

/-- Lists what folds. -/
def checkCommand (d : Disk) (s : Settings) (paths : List String) (json : Bool) : Run :=
  match (do transformAs d s (← collect d s paths)) with
  | .error f => .failed d [] f
  | .ok outcomes =>
    let fs := findings outcomes
    let notes := logNotes (outcomes.flatMap Outcome.log) ++ outcomes.flatMap failureNotes
    if json then ⟨d, Utf8.encode (findingsJson fs ++ "\n"), notes, none⟩
    else
      let count := Note.line s!"ℹ {fs.length} foldable conditional(s) in {outcomes.length} file(s)"
      ⟨d, Utf8.encode (String.join (fs.map fun f => f.display ++ "\n")), notes ++ [count], none⟩

/-- An expression's value in words. -/
def valueText (e : Expr) : String := ((evaluate .empty e).map Value.display).getD "indeterminate"

/-- Evaluates an expression. -/
def evalCommand (d : Disk) (expression : String) : Run :=
  let started := [Note.log ⟨.info, "Evaluating expression: " ++ expression⟩]
  match Source.read expression none .strict with
  | .error f => .failed d started (.expression f)
  | .ok source =>
    let notes := started ++ logNotes source.log
    match source.expression with
    | .error f => .failed d notes (.expression f)
    | .ok e => ⟨d, Utf8.encode (valueText e ++ "\n"), notes, none⟩

/-- Carries out a command. -/
def runCommand (d : Disk) (s : Settings) : Command → Run
  | .shrink paths options => shrinkCommand d s paths options
  | .check paths json => checkCommand d s paths json
  | .eval expression => evalCommand d expression

/-! ### The program -/

/-- The settings in a file. -/
def settingsIn (d : Disk) (file : String) : Except CommandFailure Settings := do
  let bytes ← (d.read file).mapError fun fault => .unreadableSettings file fault.message
  let text ← (Utf8.decode bytes).mapError fun _ =>
    .unreadableSettings file "stream did not contain valid UTF-8"
  (Settings.ofToml text).mapError (.settings (some file))

/-- The settings file of a directory. -/
def localSettings : String := "leanify.toml"

/-- The settings: those of the file that was named, else of the working
directory, else of the user. -/
def loadSettings (d : Disk) (named user : Option String) : Except CommandFailure Settings :=
  match named with
  | some file => settingsIn d file
  | none =>
    if d.holds localSettings then settingsIn d localSettings
    else match user.filter d.holds with
      | some file => settingsIn d file
      | none => .ok {}

/-- The level of the log that arguments ask for. -/
def logLevel (a : Arguments) : Level :=
  if a.quiet then .error
  else match a.verbosity with
    | 0 => .warn
    | 1 => .info
    | _ => .trace

/-- What the program leaves. -/
structure Report where
  exitCode : Nat
  output : Bytes
  /-- The lines of what is said besides the output. -/
  errors : List String
  disk : Disk

/-- What the program says about its use. -/
def usage : String :=
  "Usage: leanify [OPTIONS] <COMMAND>\n\n" ++
  "Commands:\n" ++
  "  shrink <PATHS>...  Remove statically dead branches from JavaScript files\n" ++
  "  check [PATHS]...   Report foldable conditionals without writing\n" ++
  "  eval <EXPR>        Evaluate a standalone expression\n\n" ++
  "Options:\n" ++
  "  -v, --verbose          Log each fold (-v), or every scope and binding decision (-vv)\n" ++
  "  -q, --quiet            Only log errors\n" ++
  "  -c, --config <FILE>    Read settings from this file instead of ./leanify.toml\n" ++
  "  -C, --directory <DIR>  Resolve inputs and outputs relative to this directory\n" ++
  "  -o, --out-dir <DIR>    Write results under this directory (shrink)\n" ++
  "      --in-place         Overwrite changed files in place (shrink)\n" ++
  "      --dry-run          Report what would change without writing anything (shrink)\n" ++
  "      --json             Print findings as JSON (check)\n" ++
  "  -h, --help             Print help\n" ++
  "  -V, --version          Print version\n"

/-- What is left when arguments are not carried out. -/
def Report.ofStop (d : Disk) : Arguments.Stop → Report
  | .help => ⟨0, Utf8.encode usage, [], d⟩
  | .version => ⟨0, Utf8.encode "leanify 0.1.0\n", [], d⟩
  | .misuse => ⟨2, [], ["error: these arguments cannot be used", "", usage], d⟩

/-- What a run comes to, when the log goes down to a level. -/
def Report.ofRun (threshold : Level) (r : Run) : Report :=
  let notes := match r.failure with
    | some f => r.notes ++ commandFailureNotes f ++ [Note.log ⟨.debug, "command failed"⟩]
    | none => r.notes
  ⟨if r.failure.isSome then 1 else 0, r.output, notes.flatMap (Note.render threshold), r.disk⟩

/-- Runs the program with arguments on a disk; `user` is where the user's
settings would be. -/
def runProgram (user : Option String) (args : List String) (d : Disk) : Report :=
  match Arguments.read args with
  | .error stop => .ofStop d stop
  | .ok a =>
    match a.directory.elim (.ok d) d.enter with
    | .error fault => ⟨1, [], ["Error: IO error: " ++ fault.message], d⟩
    | .ok d =>
      .ofRun (logLevel a) <|
        match loadSettings d a.config user with
        | .error f => .failed d [] f
        | .ok s => runCommand d s a.command

end DeadBranch
