/-
# Layout

A printed program is first a list of pieces: texts, line breaks and changes of
the indentation. `render` makes a text of them. A line break at the start of a
line has no effect, and the indentation is written before the first text of a
line, so that no line ends in blanks of its own making.

Key definitions: `Style`, `Piece`, `render`.
-/

namespace DeadBranch

/-- How lines end. -/
inductive LineEnding where
  | lf | crlf
deriving DecidableEq, Repr

/-- The characters of a line end. -/
def LineEnding.text : LineEnding → String
  | lf => "\n"
  | crlf => "\r\n"

/-- The line ending that is meant by a word, or by the characters
themselves. -/
def LineEnding.ofText? (s : String) : Option LineEnding :=
  if s = "\n" ∨ s = "lf" ∨ s = "LF" then some lf
  else if s = "\r\n" ∨ s = "crlf" ∨ s = "CRLF" then some crlf
  else none

/-- How a program is printed. -/
structure Style where
  /-- Without blanks that are not needed. -/
  minify : Bool := false
  /-- With escapes for all characters outside ASCII. -/
  asciiOnly : Bool := false
  lineEnding : LineEnding := .lf
deriving DecidableEq, Repr

/-- A piece of a printed program. -/
inductive Piece where
  | text (s : String)
  /-- The line ends, if something is in it. -/
  | line
  | indent
  | dedent
deriving DecidableEq, Repr

/-- Pieces in order. -/
abbrev Pieces := List Piece

/-- Where rendering stands. -/
structure Page where
  text : String := ""
  atLineStart : Bool := true
  depth : Nat := 0

/-- The blanks in front of a line. -/
def indentation (depth : Nat) : String := String.ofList (List.replicate (4 * depth) ' ')

/-- Adds a piece. -/
def Page.add (lineEnd : String) (p : Page) : Piece → Page
  | .text s =>
    if s.isEmpty then p
    else if p.atLineStart then
      { p with text := p.text ++ indentation p.depth ++ s, atLineStart := false }
    else { p with text := p.text ++ s }
  | .line => if p.atLineStart then p else { p with text := p.text ++ lineEnd, atLineStart := true }
  | .indent => { p with depth := p.depth + 1 }
  | .dedent => { p with depth := p.depth - 1 }

/-- The text that pieces make. -/
def render (lineEnd : String) (pieces : Pieces) : String :=
  (pieces.foldl (Page.add lineEnd) {}).text

/-! ### Building pieces -/

/-- One text. -/
def say (s : String) : Pieces := [.text s]

/-- A blank that is needed. -/
def space : Pieces := say " "

namespace Style

/-- A blank that is only there to be looked at. -/
def gap (st : Style) : Pieces := if st.minify then [] else space

/-- A blank that is needed if `needed`. -/
def gapIf (st : Style) (needed : Bool) : Pieces := if needed then space else st.gap

/-- A line break, unless the print is minified. -/
def line (st : Style) : Pieces := if st.minify then [] else [.line]

/-- Pieces one step further to the right. -/
def indented (st : Style) (pieces : Pieces) : Pieces :=
  if st.minify then pieces else .indent :: pieces ++ [.dedent]

/-- Entries on one line, with commas between them. -/
def commaList (st : Style) (entries : List Pieces) : Pieces :=
  (say "," ++ st.gap).intercalate entries

/-- A comma after the last entry, if that is a hole. -/
def closingComma (st : Style) (lastIsHole : Bool) : Pieces :=
  if lastIsHole then say "," ++ st.gap else []

/-- Entries on a line of their own each, with commas between them. -/
def commaLines (st : Style) (entries : List Pieces) (lastIsHole : Bool) : Pieces :=
  st.indented (st.line ++ (say "," ++ st.line).intercalate entries ++ st.closingComma lastIsHole
    ++ st.line)

/-- Entries on a line of their own each. -/
def lines (st : Style) (entries : List Pieces) : Pieces :=
  st.indented (st.line ++ entries.flatMap (· ++ st.line))

end Style
end DeadBranch
