/-
# Reports

What a command says besides its output: log lines, which the level that was
asked for lets through or not, and lines that are always said. Findings are
listed one a line, or as JSON.

Key definitions: `Note`, `Note.render`, `failureNotes`, `Finding.display`,
`findingsJson`.
-/
import DeadBranch.Command.Files

namespace DeadBranch

/-- Something that is said. -/
inductive Note where
  | log (entry : LogLine)
  | line (text : String)
deriving DecidableEq, Repr

/-- The lines that are said when the log goes down to a level. -/
def Note.render (threshold : Level) : Note → List String
  | log entry => (LogLine.upTo threshold [entry]).map LogLine.display
  | line text => [text]

/-- Log lines as notes. -/
def logNotes (lines : List LogLine) : List Note := lines.map Note.log

/-! ### Failures -/

/-- A diagnostic that points at a byte of a file. -/
def labelledLines (d : Diagnostic) (path : String) (offset : Nat) : List String :=
  ["Error: " ++ d.message, s!"  here: byte {offset} of " ++ path,
    "  help: the file was emitted unchanged"]

/-- What is said about a file that failed: where, if its text has such a
place. -/
def failureNotes (o : Outcome) : List Note :=
  match o.output.diagnostic with
  | none => []
  | some d =>
    let offset := ((Utf8.decode o.input).toOption).bind fun text => d.offset? text.toList
    match offset with
    | some offset => (labelledLines d o.file.path offset).map Note.line
    | none => [.line d.plain]

/-- What is said about a command that failed. -/
def commandFailureNotes (f : CommandFailure) : List Note :=
  match f.kind with
  | .config => [.line ("Error: " ++ f.message),
      .line "  help: check leanify.toml for correct syntax and values"]
  | .input => [.line ("Error: " ++ f.message)]
  | _ => [.log ⟨.error, f.message⟩]

/-! ### Findings -/

/-- A finding on a line. -/
def Finding.display (f : Finding) : String := f.location.display ++ ": " ++ f.kind.describe

/-- The name of a kind of fold. -/
def foldName : FoldKind → String
  | .keptConsequent => "kept_consequent"
  | .keptAlternate => "kept_alternate"
  | .removed => "removed"

/-- One character of a JSON text. -/
def jsonChar (c : Char) : String :=
  match c with
  | '"' => "\\\""
  | '\\' => "\\\\"
  | '\n' => "\\n"
  | '\r' => "\\r"
  | '\t' => "\\t"
  | '\x08' => "\\b"
  | '\x0c' => "\\f"
  | c =>
    if c.toNat < 32 then
      let digits := Nat.toDigits 16 c.toNat
      "\\u" ++ String.ofList (List.replicate (4 - digits.length) '0' ++ digits)
    else c.toString

/-- A text in JSON. -/
def jsonText (s : String) : String := "\"" ++ String.join (s.toList.map jsonChar) ++ "\""

/-- The lines of a finding in JSON. -/
def Finding.jsonLines (f : Finding) : List String :=
  let file := match f.location.file with
    | some file => jsonText file
    | none => "null"
  ["  \x7b",
   "    \"file\": " ++ jsonText f.file ++ ",",
   "    \"location\": \x7b",
   "      \"file\": " ++ file ++ ",",
   s!"      \"line\": {f.location.line},",
   s!"      \"column\": {f.location.column}",
   "    \x7d,",
   "    \"kind\": " ++ jsonText (foldName f.kind),
   "  \x7d"]

/-- Findings as a JSON list. -/
def findingsJson (fs : List Finding) : String :=
  if fs.isEmpty then "[]"
  else
    "[\n" ++ ",\n".intercalate (fs.map fun f => "\n".intercalate f.jsonLines) ++ "\n]"

end DeadBranch
