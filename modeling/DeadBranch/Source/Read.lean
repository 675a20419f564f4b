/-
# Reading a source

A source is a text with the program that it is. What is wrong with it without
stopping the reading counts in strict mode, where the first of it is a failure;
in loose mode it is only logged.

Key definitions: `ParseMode`, `Source`, `Source.read`, `readExpression`.
-/
import DeadBranch.Failure
import DeadBranch.Log
import DeadBranch.Parser.Program

namespace DeadBranch

/-- What is done about faults that do not stop the reading. -/
inductive ParseMode where
  | strict | loose
deriving DecidableEq, Repr

/-- A program with the text it was read from. -/
structure Source where
  program : Program
  text : List Char
  path : Option String
  /-- What was logged while reading it. -/
  log : List LogLine

/-- The place of a byte of a text. -/
def locate (text : List Char) (path : Option String) (position : Nat) : Location :=
  let (line, column) := lineColumn text position
  ⟨path, line, column⟩

/-- A fault as a failure. -/
def Fault.toFailure (text : List Char) (path : Option String) (f : Fault) : Failure :=
  .parse (locate text path f.position) f.cause.message

namespace Source

/-- The place of a byte of a source. -/
def locate (s : Source) (position : Nat) : Location := DeadBranch.locate s.text s.path position

/-- What is logged when a program was read. -/
def readLog (text : List Char) (path : Option String) (parsed : Parsed) : List LogLine :=
  parsed.faults.map (fun f =>
    ⟨.warn, "recovered from parse error: " ++ (f.toFailure text path).message⟩) ++
  [⟨.debug, "parsed " ++ path.getD "<javascript>" ++ " as " ++
    (if parsed.program.goal = .module then "module" else "script")⟩]

/-- Reads a text. -/
def read (code : String) (path : Option String) (mode : ParseMode) : Except Failure Source :=
  let text := dropMark code.toList
  match parseProgram text with
  | .error fault => .error (fault.toFailure text path)
  | .ok parsed =>
    match mode, parsed.faults with
    | .strict, fault :: _ => .error (fault.toFailure text path)
    | _, _ => .ok ⟨parsed.program, text, path, readLog text path parsed⟩

/-- The expression that a source is, if it is one. -/
def expression (s : Source) : Except Failure Expr :=
  let fail (detail : String) := Except.error (Failure.parse ⟨none, 1, 1⟩ detail)
  match s.program.stmts with
  | [.expr e] => .ok e
  | [_] => fail "expected an expression"
  | stmts => fail s!"expected a single expression, found {stmts.length} statements"

end Source

/-- Reads a text that is one expression. -/
def readExpression (code : String) : Except Failure Expr := do
  (← Source.read code none .strict).expression

end DeadBranch
