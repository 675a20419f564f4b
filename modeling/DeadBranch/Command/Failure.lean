/-
# Failures of a command

Why a command gives up. What is wrong with one file is not such a failure: it
is told in a diagnostic, and the file keeps its bytes.

Key definitions: `CommandFailure`, `CommandFailure.kind`,
`CommandFailure.message`.
-/
import DeadBranch.Failure
import DeadBranch.Glob
import DeadBranch.Settings

namespace DeadBranch

/-- A reason for giving up on a command. -/
inductive CommandFailure where
  /-- A settings file, if one was named, holds settings that cannot be used. -/
  | settings (file : Option String) (fault : Settings.Fault)
  | unreadableSettings (file detail : String)
  | noSuchInput (path : String)
  | glob (pattern : String) (fault : Glob.Fault)
  | noDestination
  | unreadable (path : String) (fault : Disk.Fault)
  | unwritable (fault : Disk.Fault)
  | expression (failure : Failure)
deriving DecidableEq, Repr

namespace CommandFailure

/-- What a failure is about. -/
inductive Kind where
  | io | config | input | transform
deriving DecidableEq, Repr

/-- How a kind is written in front of a failure. -/
def Kind.label : Kind → String
  | io => "IO error"
  | config => "Configuration error"
  | input => "Invalid input"
  | transform => "Transform error"

/-- The kind of a failure. -/
def kind : CommandFailure → Kind
  | settings _ _ => .config
  | unreadableSettings _ _ => .config
  | noSuchInput _ => .input
  | glob _ _ => .input
  | noDestination => .input
  | unreadable _ _ => .io
  | unwritable _ => .io
  | expression _ => .transform

/-- The failure in words, without its kind. -/
def detail : CommandFailure → String
  | settings none fault => fault.message
  | settings (some file) fault => file ++ ": " ++ fault.message
  | unreadableSettings file detail => "Failed to read config file " ++ file ++ ": " ++ detail
  | noSuchInput path => "No such file or directory: " ++ path
  | glob pattern fault =>
    "Invalid glob pattern '" ++ pattern ++ "': error parsing glob '" ++ pattern ++ "': " ++
      fault.message
  | noDestination => "multiple inputs need --out-dir, --in-place or --dry-run"
  | unreadable path fault => path ++ ": " ++ fault.message
  | unwritable fault => fault.message
  | expression failure => failure.message

/-- The failure in words. -/
def message (f : CommandFailure) : String := f.kind.label ++ ": " ++ f.detail

end CommandFailure
end DeadBranch
