/-
# Reading a TOML document

A document is read statement by statement: headers, which say where the keys
below them belong, and keys with values. Lists may run over lines and hold
comments, tables in braces may not.

Key definitions: `Toml.readValue`, `Toml.Fault`, `Toml.read`.
-/
import DeadBranch.Toml.Scalar

namespace DeadBranch
namespace Toml

/-- The characters without blanks in front. -/
def skipGaps (cs : List Char) : List Char := cs.dropWhile isGap

/-- The characters without blanks, line ends and comments in front. -/
def skipLines (inComment : Bool) : List Char → List Char
  | [] => []
  | '\n' :: rest => skipLines false rest
  | '\r' :: '\n' :: rest => skipLines false rest
  | c :: rest =>
    if inComment then if isPlain c then skipLines true rest else c :: rest
    else if isGap c then skipLines false rest
    else if c == '#' then skipLines true rest
    else c :: rest

/-- What follows the end of a line that has nothing more but a comment. -/
def readLineEnd (cs : List Char) : Option (List Char) :=
  let cs := skipGaps cs
  let cs := if cs.head? == some '#' then cs.dropWhile isPlain else cs
  match cs with
  | [] => some []
  | '\n' :: rest => some rest
  | '\r' :: '\n' :: rest => some rest
  | _ => none

/-! ### Keys -/

/-- A character of a key without quotes. -/
def isKeyChar (c : Char) : Bool := c.isAlphanum || c == '_' || c == '-'

/-- One part of a key. -/
def readKeyPart (cs : List Char) : Option (String × List Char) :=
  if cs.head?.any isKeyChar then
    some (String.ofList (cs.takeWhile isKeyChar), cs.dropWhile isKeyChar)
  else (readQuoted cs).map fun (s, rest) => (String.ofList s, rest)

/-- The parts of a key, dots between them; at most `limit` of them. Blanks
around the parts do not count. -/
def readKeyParts : Nat → List Char → Option (List String × List Char)
  | 0, _ => none
  | limit + 1, cs => do
    let (part, rest) ← readKeyPart (skipGaps cs)
    match skipGaps rest with
    | '.' :: rest => do
      let (parts, rest) ← readKeyParts limit rest
      return (part :: parts, rest)
    | rest => return ([part], rest)

/-- How deep a document nests at most. -/
def deepest : Nat := 79

/-- A dotted key. -/
def readKey (cs : List Char) : Option (List String × List Char) := readKeyParts deepest cs

/-! ### Values -/

/-- The items of a list, from behind its bracket; each takes up a
character. -/
def readItems (readItem : List Char → Option (Toml × List Char)) :
    Nat → List Char → Option (List Toml × List Char)
  | 0, _ => none
  | limit + 1, cs =>
    match skipLines false cs with
    | ']' :: rest => some ([], rest)
    | cs => do
      let (item, rest) ← readItem cs
      match skipLines false rest with
      | ']' :: rest => return ([item], rest)
      | ',' :: rest => do
        let (items, rest) ← readItems readItem limit rest
        return (item :: items, rest)
      | _ => none

/-- A key, an equals sign and a value. -/
def readPair (readItem : List Char → Option (Toml × List Char)) (cs : List Char) :
    Option ((List String × Toml) × List Char) := do
  match ← readKey cs with
  | (key, '=' :: rest) => do
    let (value, rest) ← readItem (skipGaps rest)
    return ((key, value), rest)
  | _ => none

/-- The pairs of a table in braces from the first one on, added to what was
read before; each takes up a character. -/
def readPairs (readItem : List Char → Option (Toml × List Char)) :
    Nat → Entries → List Char → Option (Entries × List Char)
  | 0, _, _ => none
  | limit + 1, entries, cs => do
    let ((key, value), rest) ← readPair readItem cs
    let entries ← entries.putKey value key
    match skipGaps rest with
    | '\x7d' :: rest => return (entries, rest)
    | ',' :: rest => readPairs readItem limit entries rest
    | _ => none

/-- A value; lists and tables in it nest at most `depth` deep. -/
def readValue (depth : Nat) (cs : List Char) : Option (Toml × List Char) :=
  match depth, cs with
  | 0, '[' :: _ => none
  | 0, '\x7b' :: _ => none
  | depth + 1, '[' :: rest =>
    (readItems (readValue depth) (rest.length + 1) rest).map fun (items, rest) =>
      (.list items, rest)
  | depth + 1, '\x7b' :: rest =>
    match skipGaps rest with
    | '\x7d' :: rest => some (.table .braces [], rest)
    | rest =>
      (readPairs (readValue depth) (rest.length + 1) [] rest).map fun (entries, rest) =>
        (.table .braces entries, rest)
  | _, cs => readScalar cs

/-! ### Documents -/

/-- Where keys belong, and what was read. -/
structure Draft where
  place : List String
  entries : Entries

/-- One statement. -/
def readStatement (d : Draft) : List Char → Option (Draft × List Char)
  | '[' :: '[' :: rest => do
    match ← readKey rest with
    | (path, ']' :: ']' :: rest) => return (⟨path, ← d.entries.openItem path⟩, ← readLineEnd rest)
    | _ => none
  | '[' :: rest => do
    match ← readKey rest with
    | (path, ']' :: rest) => return (⟨path, ← d.entries.openTable path⟩, ← readLineEnd rest)
    | _ => none
  | cs => do
    let ((key, value), rest) ← readPair (readValue deepest) cs
    return (⟨d.place, ← d.entries.within d.place (Entries.putKey value key)⟩, ← readLineEnd rest)

/-- The statements that follow, each at least a character long; if one cannot
be read, the characters from it on. -/
def readStatements : Nat → Draft → List Char → Except (List Char) Entries
  | 0, _, cs => .error cs
  | limit + 1, d, cs =>
    match skipLines false cs with
    | [] => .ok d.entries
    | cs =>
      match readStatement d cs with
      | some (d, rest) => readStatements limit d rest
      | none => .error cs

/-- A statement that cannot be read, by its line. -/
structure Fault where
  line : Nat
deriving DecidableEq, Repr

/-- The number of line feeds. -/
def lineFeeds (cs : List Char) : Nat := cs.count '\n'

/-- The table that a document describes. -/
def read (document : String) : Except Fault Entries :=
  let cs := match document.toList with
    | '\uFEFF' :: rest => rest
    | cs => cs
  (readStatements (cs.length + 1) ⟨[], []⟩ cs).mapError fun rest =>
    ⟨lineFeeds cs - lineFeeds rest + 1⟩

end Toml
end DeadBranch
