/-
# Where the reader of tokens stands

What a character means depends on where it is: the text of a template is read
as it is written, an expression inserted in it as any other, and the closing
brace of the insertion leads back to the text. To tell, the reader keeps the
braces and templates that are open.

A slash is a mark of its own. Where the grammar finds one in the place of an
operand, it says so, and the reader takes what follows as the rest of a regular
expression.

Key definitions: `Nesting`, `Lexing`, `Lexing.note`.
-/
import DeadBranch.Token.Basic

namespace DeadBranch

/-- What is open. -/
inductive Nesting where
  /-- A brace, that of an insertion in a template included. -/
  | brace
  /-- A template that starts at a byte. -/
  | template (start : Nat)
deriving DecidableEq, Repr

/-- A regular expression whose rest is to be read. -/
structure OpenRegex where
  start : Nat
  /-- What follows its slash. -/
  source : List Char

/-- Where the reader of tokens stands. -/
structure Lexing where
  position : Nat
  source : List Char
  isFirst : Bool := true
  /-- What is open, the innermost first. -/
  nestings : List Nesting := []
  /-- Was the last token a part of a template? -/
  afterPart : Bool := false
  /-- The regular expression to be read next. One that does not end stays. -/
  regex : Option OpenRegex := none

namespace Lexing

/-- What is open after a token that starts at `start`. -/
def step (l : Lexing) (token : Token) (start : Nat) : List Nesting :=
  match token, l.nestings with
  | .mark "\x7b", nestings | .mark "$\x7b", nestings => .brace :: nestings
  | .mark "\x7d", _ :: outer => outer
  | .mark "`", .template _ :: outer => outer
  | .mark "`", nestings => .template start :: nestings
  | _, nestings => nestings

/-- The state after a token. -/
def note (l : Lexing) (token : Token) (start stop : Nat) (rest : List Char) : Lexing :=
  let afterPart := match token with
    | .template _ _ => true
    | _ => false
  { position := stop, source := rest, isFirst := false, nestings := l.step token start, afterPart }

/-- The state in which the rest of a regular expression comes next. Its mark was
the last token; `front` is what the mark holds of its pattern. -/
def openRegex (l : Lexing) (start : Nat) (front : List Char) : Lexing :=
  { l with regex := some ⟨start, front ++ l.source⟩ }

end Lexing
end DeadBranch
