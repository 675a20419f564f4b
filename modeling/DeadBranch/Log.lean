/-
# Log lines

What is worth telling about a run, by how much one has to ask for it. A log may
be read on a terminal, so a character that a terminal would take as an order is
written by its number.

Key definitions: `Level`, `LogLine`, `LogLine.display`.
-/
import DeadBranch.Text.Quoted

namespace DeadBranch

/-- How important a log line is, the most important first. -/
inductive Level where
  | error | warn | info | debug | trace
deriving DecidableEq, Repr

namespace Level

/-- The place in the order of importance. -/
def rank : Level → Nat
  | error => 0 | warn => 1 | info => 2 | debug => 3 | trace => 4

/-- The name of a level, right-aligned in five columns. -/
def label : Level → String
  | error => "ERROR" | warn => " WARN" | info => " INFO" | debug => "DEBUG" | trace => "TRACE"

end Level

/-- One line of the log. -/
structure LogLine where
  level : Level
  text : String
deriving DecidableEq, Repr

/-- The characters below U+0080 that a terminal obeys: bell, backspace, form
feed, escape and delete. -/
def terminalControls : List Nat := [0x07, 0x08, 0x0c, 0x1b, 0x7f]

/-- One character as the log shows it. -/
def logChar (c : Char) : String :=
  let n := c.toNat
  if terminalControls.contains n then "\\x" ++ (if n < 16 then "0" else "") ++ Text.hex n
  else if 0x80 ≤ n && n ≤ 0x9f then "\\u\x7b" ++ Text.hex n ++ "\x7d"
  else c.toString

/-- How a line is written. -/
def LogLine.display (l : LogLine) : String :=
  l.level.label ++ " " ++ String.join (l.text.toList.map logChar)

/-- The lines that are at least as important as the given level. -/
def LogLine.upTo (threshold : Level) (lines : List LogLine) : List LogLine :=
  lines.filter (·.level.rank ≤ threshold.rank)

end DeadBranch
