/-
# Command-line arguments

The command line has options of its own, then the name of a command, then the
command's words and options. The options in front may also stand behind the
name; one that is given in both places counts there as it stands behind it.
Options may be joined (`-vv`, `-od`, `--config=f`), and `--` ends them.

Arguments are gone through from the left; the first that cannot be taken, or
that asks for help or the version, ends the reading.

Key definitions: `Command`, `Arguments`, `Arguments.Stop`, `Arguments.read`.
-/

namespace DeadBranch

/-- Where results of shrinking may be asked to go. -/
structure ShrinkOptions where
  outDir : Option String
  inPlace : Bool
  dryRun : Bool
deriving DecidableEq, Repr

/-- What is to be done. -/
inductive Command where
  | shrink (paths : List String) (options : ShrinkOptions)
  | check (paths : List String) (json : Bool)
  | eval (expression : String)
deriving DecidableEq, Repr

/-- A command with what it is given. -/
structure Arguments where
  /-- How often more was asked for in the log. -/
  verbosity : Nat
  quiet : Bool
  /-- A settings file. -/
  config : Option String
  /-- The directory to work in. -/
  directory : Option String
  command : Command
deriving DecidableEq, Repr

namespace Arguments

/-- Why arguments are not carried out. -/
inductive Stop where
  | help | version | misuse
deriving DecidableEq, Repr

/-! ### Options -/

/-- An option. -/
inductive Flag where
  | verbose | quiet | config | directory | help | version | outDir | inPlace | dryRun | json
deriving DecidableEq, Repr

namespace Flag

/-- The name of an option behind two hyphens. -/
def long : Flag → String
  | verbose => "verbose"
  | quiet => "quiet"
  | config => "config"
  | directory => "directory"
  | help => "help"
  | version => "version"
  | outDir => "out-dir"
  | inPlace => "in-place"
  | dryRun => "dry-run"
  | json => "json"

/-- The letter of an option behind one hyphen. -/
def short? : Flag → Option Char
  | verbose => some 'v'
  | quiet => some 'q'
  | config => some 'c'
  | directory => some 'C'
  | help => some 'h'
  | version => some 'V'
  | outDir => some 'o'
  | _ => none

/-- Is an option followed by a path? -/
def takesValue : Flag → Bool
  | config => true
  | directory => true
  | outDir => true
  | _ => false

end Flag

/-- The name of a command. -/
inductive Name where
  | shrink | check | eval
deriving DecidableEq, Repr

/-- The command of a name. -/
def Name.ofText? : String → Option Name
  | "shrink" => some shrink
  | "check" => some check
  | "eval" => some eval
  | _ => none

/-- The options that may be given anywhere. -/
def everywhere : List Flag := [.verbose, .quiet, .config, .directory, .help]

/-- The options in front of a command (`none`), or behind its name. -/
def flagsOf : Option Name → List Flag
  | none => .version :: everywhere
  | some .shrink => .outDir :: .inPlace :: .dryRun :: everywhere
  | some .check => .json :: everywhere
  | some .eval => everywhere

/-! ### One side of the command's name -/

/-- What was read on one side of the name. -/
structure Side where
  flags : List (Flag × Option String)
  words : List String
deriving DecidableEq, Repr

namespace Side

/-- Was an option given? -/
def has (s : Side) (f : Flag) : Bool := s.flags.any (·.1 == f)

/-- How often an option was given. -/
def count (s : Side) (f : Flag) : Nat := s.flags.countP (·.1 == f)

/-- The value of an option. -/
def value? (s : Side) (f : Flag) : Option String := (s.flags.lookup f).join

/-- Adds an option. Only `verbose` may be repeated, and no path is empty. -/
def addFlag (s : Side) (f : Flag) (value : Option String) : Except Stop Side :=
  if f = .help then .error .help
  else if f = .version then .error .version
  else if f ≠ .verbose ∧ s.has f ∨ value = some "" then .error .misuse
  else .ok { s with flags := s.flags ++ [(f, value)] }

/-- Adds a word behind a command's name. All words are paths but the one that
`eval` takes. -/
def addWord (name : Name) (s : Side) (word : String) : Except Stop Side :=
  let fits := if name = .eval then s.words.isEmpty else word ≠ ""
  if fits then .ok { s with words := s.words ++ [word] } else .error .misuse

end Side

/-- The characters of joined letters: options without values up to one with
a value, whose value is what follows. If nothing follows, the option is still
to get its value. -/
def readLetters (known : List Flag) (s : Side) : List Char → Except Stop (Side × Option Flag)
  | [] => .ok (s, none)
  | c :: rest =>
    match known.find? (·.short? == some c) with
    | none => .error .misuse
    | some f =>
      if !f.takesValue then do readLetters known (← s.addFlag f none) rest
      else
        match rest with
        | [] => .ok (s, some f)
        | '=' :: value => do return (← s.addFlag f (some (String.ofList value)), none)
        | value => do return (← s.addFlag f (some (String.ofList value)), none)

/-- An option behind two hyphens, with a value behind an equals sign. -/
def readLong (known : List Flag) (s : Side) (text : List Char) : Except Stop (Side × Option Flag) :=
  let name := String.ofList (text.takeWhile (· != '='))
  let value := ((text.dropWhile (· != '=')).tail?).map String.ofList
  match known.find? (·.long == name), value with
  | none, _ => .error .misuse
  | some f, none => if f.takesValue then .ok (s, some f) else do return (← s.addFlag f none, none)
  | some f, some value =>
    if f.takesValue then do return (← s.addFlag f (some value), none) else .error .misuse

/-- Does an argument look like an option? -/
def isOption (arg : String) : Bool := arg.toList.head? == some '-' && arg != "-"

/-- Reads an argument that looks like an option. -/
def readOption (known : List Flag) (s : Side) (arg : String) : Except Stop (Side × Option Flag) :=
  match arg.toList with
  | '-' :: '-' :: text => readLong known s text
  | _ :: letters => readLetters known s letters
  | [] => .error .misuse

/-- Reads what stands behind a command's name, `pending` being an option that
is to get its value. -/
def readBehind (name : Name) (s : Side) (pending : Option Flag) : List String → Except Stop Side
  | [] => if pending.isSome then .error .misuse else .ok s
  | arg :: args =>
    match pending with
    | some f =>
      if isOption arg then .error .misuse
      else do readBehind name (← s.addFlag f (some arg)) none args
    | none =>
      if arg = "--" then args.foldlM (Side.addWord name) s
      else if isOption arg then do
        let (s, pending) ← readOption (flagsOf (some name)) s arg
        readBehind name s pending args
      else do readBehind name (← s.addWord name arg) none args

/-- Reads what stands in front of a command's name, up to the name. -/
def readFront (s : Side) (pending : Option Flag) :
    List String → Except Stop (Side × Name × List String)
  | [] => .error .misuse
  | arg :: args =>
    match pending with
    | some f =>
      if isOption arg then .error .misuse
      else do readFront (← s.addFlag f (some arg)) none args
    | none =>
      if arg = "--" then .error .misuse
      else if isOption arg then do
        let (s, pending) ← readOption (flagsOf none) s arg
        readFront s pending args
      else
        match Name.ofText? arg with
        | some name => .ok (s, name, args)
        | none =>
          if arg = "help" ∧ (args = [] ∨ args.length = 1 ∧ args.all fun a =>
              a == "help" || (Name.ofText? a).isSome) then
            .error .help
          else .error .misuse

/-! ### Both sides -/

/-- Options that must not be given on one side together. -/
def conflicts : List (Flag × Flag) := [(.quiet, .verbose), (.outDir, .inPlace)]

/-- Does a side hold no options that exclude each other? -/
def Side.isConsistent (s : Side) : Bool := conflicts.all fun (f, g) => !(s.has f && s.has g)

/-- The command that a name and what follows it ask for. -/
def commandOf (name : Name) (s : Side) : Except Stop Command :=
  match name with
  | .shrink =>
    if s.words.isEmpty then .error .misuse
    else .ok (.shrink s.words ⟨s.value? .outDir, s.has .inPlace, s.has .dryRun⟩)
  | .check => .ok (.check (if s.words.isEmpty then ["."] else s.words) (s.has .json))
  | .eval =>
    match s.words with
    | [word] => .ok (.eval word)
    | _ => .error .misuse

/-- Reads arguments. -/
def read (args : List String) : Except Stop Arguments := do
  let (front, name, args) ← readFront ⟨[], []⟩ none args
  let behind ← readBehind name ⟨[], []⟩ none args
  let command ← commandOf name behind
  if !front.isConsistent || !behind.isConsistent then throw .misuse
  return {
    verbosity := (if behind.has .verbose then behind else front).count .verbose
    quiet := behind.has .quiet || front.has .quiet
    config := (behind.value? .config).or (front.value? .config)
    directory := (behind.value? .directory).or (front.value? .directory)
    command }

end Arguments
end DeadBranch
