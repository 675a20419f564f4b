/-
# Lines and columns

Lines end at a line feed, at a carriage return, or at the two together, and
count from one; so do columns, in 16-bit units. Positions in the source are
bytes of its UTF-8 form.

A second rule, `byteOffset?`, goes the other way for showing a source line: for
it lines end at a line feed alone, columns count characters, and a column past
the end of its line means the end.

Key definitions: `Location`, `lineColumnBy`, `lineColumn`, `byteOffset?`.
-/
import DeadBranch.Text.Units

namespace DeadBranch

/-- A place in a file, or in a text without one. -/
structure Location where
  file : Option String
  line : Nat
  column : Nat
deriving DecidableEq, Repr

/-- How a place is shown. -/
def Location.display (l : Location) : String :=
  match l.file with
  | some file => s!"{file}:{l.line}:{l.column}"
  | none => s!"{l.line}:{l.column}"

/-- Line and column after `left` bytes of the characters, starting from the
given line and column; a character is `width` columns wide. -/
def lineColumnFrom (width : Char → Nat) (line column : Nat) : Nat → List Char → Nat × Nat
  | _, [] => (line, column)
  | left, c :: cs =>
    if left < c.utf8Size then (line, column)
    else if c = '\n' then lineColumnFrom width (line + 1) 1 (left - 1) cs
    else if c = '\r' ∧ cs.head? ≠ some '\n' then lineColumnFrom width (line + 1) 1 (left - 1) cs
    else lineColumnFrom width line (column + width c) (left - c.utf8Size) cs

/-- Line and column of a byte of a source, by the width of its characters. -/
def lineColumnBy (width : Char → Nat) (source : List Char) (position : Nat) : Nat × Nat :=
  lineColumnFrom width 1 1 position source

/-- How many columns a character is wide: one for each of its units. -/
def unitWidth (c : Char) : Nat := (Text.unitsOf c).length

/-- Line and column of a byte of a source. -/
def lineColumn (source : List Char) (position : Nat) : Nat × Nat :=
  lineColumnBy unitWidth source position

/-- How many bytes characters take. -/
def byteLength : List Char → Nat
  | [] => 0
  | c :: cs => c.utf8Size + byteLength cs

/-- What follows the first `count` line feeds, and the bytes up to there. -/
def dropLines (count passed : Nat) : List Char → Option (Nat × List Char)
  | [] => if count = 0 then some (passed, []) else none
  | c :: cs =>
    if count = 0 then some (passed, c :: cs)
    else if c = '\n' then dropLines (count - 1) (passed + 1) cs
    else dropLines count (passed + c.utf8Size) cs

/-- The byte at which a line and column stand, both counted from one. -/
def byteOffset? (source : List Char) (line column : Nat) : Option Nat :=
  if line = 0 ∨ column = 0 then none
  else (dropLines (line - 1) 0 source).map fun (passed, cs) =>
    passed + byteLength ((cs.takeWhile (· ≠ '\n')).take (column - 1))

end DeadBranch
