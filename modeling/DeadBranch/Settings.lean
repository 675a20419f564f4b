/-
# Settings

What a settings file may say, with what holds where it is silent. A key of
another name is passed over; a known one has to have a value of its kind. A
group of settings may also be a list of its values in order.

Key definitions: `Settings`, `Settings.Fault`, `Settings.ofToml`,
`Settings.style`.
-/
import DeadBranch.Printer.Layout
import DeadBranch.Source.Read
import DeadBranch.Toml.Read

namespace DeadBranch

/-- Which files are changed, and how. -/
structure Settings where
  /-- The extensions of the files that are shrunk. -/
  extensions : List String := ["js"]
  /-- Do constants of outer scopes count as well? -/
  outerConstants : Bool := false
  /-- Do faults that do not stop the reading count? -/
  strictParse : Bool := true
  minify : Bool := false
  asciiOnly : Bool := false
  /-- The line ending by its name. -/
  lineEnding : String := "lf"
  /-- The globs of the files below a directory that are looked at. -/
  included : List String := ["**/*.js"]
  /-- The globs of the files below a directory that are not. -/
  excluded : List String := ["**/node_modules/**"]
deriving DecidableEq, Repr

namespace Settings

/-- Why settings cannot be used. -/
inductive Fault where
  | malformed (fault : Toml.Fault)
  | wrongKind (key : String)
  | lineEnding (name : String)
deriving DecidableEq, Repr

/-- The fault in words. -/
def Fault.message : Fault → String
  | malformed fault => s!"Failed to parse config: line {fault.line} is not well formed"
  | wrongKind key => "Failed to parse config: a value of another kind is expected for " ++ key
  | lineEnding name => "unknown line ending '" ++ name ++ "'"

/-! ### Kinds of values -/

/-- A value as a text. -/
def asText : Toml → Option String
  | .text s => some s
  | _ => none

/-- A value as a truth value. -/
def asBool : Toml → Option Bool
  | .bool b => some b
  | _ => none

/-- A value as a list of texts. -/
def asTexts : Toml → Option (List String)
  | .list items => items.mapM asText
  | _ => none

/-- A value as a group of settings with the given names. A date is a group
that sets nothing. -/
def asGroup (names : List String) : Toml → Option Entries
  | .table _ entries => some entries
  | .list items => some (names.zip items)
  | .tables items => some (names.zip items)
  | .date => some []
  | _ => none

/-- What a key is set to, or what holds without it. -/
def setting {α : Type} (entries : Entries) (key : String) (kind : Toml → Option α) (default : α) :
    Except Fault α :=
  match entries.lookup key with
  | none => .ok default
  | some value =>
    match kind value with
    | some x => .ok x
    | none => .error (.wrongKind key)

/-! ### Reading -/

/-- The settings that a table holds. -/
def ofEntries (entries : Entries) : Except Fault Settings := do
  let base : Settings := {}
  let group (key : String) (names : List String) := setting entries key (asGroup names) []
  let transform ← group "transform" ["extensions", "outer_scope_constants", "strict_parse"]
  let output ← group "output" ["minify", "ascii_only", "line_ending"]
  let files ← group "files" ["include", "exclude"]
  return {
    extensions := ← setting transform "extensions" asTexts base.extensions
    outerConstants := ← setting transform "outer_scope_constants" asBool base.outerConstants
    strictParse := ← setting transform "strict_parse" asBool base.strictParse
    minify := ← setting output "minify" asBool base.minify
    asciiOnly := ← setting output "ascii_only" asBool base.asciiOnly
    lineEnding := ← setting output "line_ending" asText base.lineEnding
    included := ← setting files "include" asTexts base.included
    excluded := ← setting files "exclude" asTexts base.excluded }

/-- The way in which programs are written. -/
def style (s : Settings) : Except Fault Style :=
  match LineEnding.ofText? s.lineEnding with
  | some lineEnding => .ok ⟨s.minify, s.asciiOnly, lineEnding⟩
  | none => .error (.lineEnding s.lineEnding)

/-- The way in which programs are read. -/
def parseMode (s : Settings) : ParseMode := if s.strictParse then .strict else .loose

/-- The settings in a TOML document. -/
def ofToml (document : String) : Except Fault Settings := do
  let entries ← (Toml.read document).mapError .malformed
  let settings ← ofEntries entries
  let _ ← settings.style
  return settings

end Settings
end DeadBranch
