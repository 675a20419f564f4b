/-
# Globs

A glob describes paths. It is matched against the bytes of a path, from end to
end: `?` stands for one byte and `*` for any bytes, slashes included; `**` as a
whole piece of the path stands for any directories; brackets hold a set and
braces alternatives. A character of several bytes in a set stands for each of
its bytes.

Key definitions: `Glob`, `Glob.parse`, `Glob.Fault`, `Glob.isMatch`.
-/
import DeadBranch.Disk.Basic
import DeadBranch.Text.Utf8

namespace DeadBranch

/-- A part of a glob. -/
inductive GlobToken where
  | literal (c : Char)
  /-- `?` -/
  | anyOne
  /-- `*` -/
  | anyMany
  /-- `**` and a slash in front: any directories, or none. -/
  | leading
  /-- A slash and `**` at the end: something below. -/
  | trailing
  /-- `**` between slashes: a slash, or two with anything between them. -/
  | between
  /-- A set of characters, or of all others. -/
  | oneOf (negated : Bool) (ranges : List (Char × Char))
  | alternates (branches : List (List GlobToken))

/-- A pattern for paths. -/
structure Glob where
  tokens : List GlobToken

namespace Glob

/-- Why a text is no glob. -/
inductive Fault where
  | unclosedSet
  | invalidRange (low high : Char)
  | unopenedGroup
  | unclosedGroup
  | danglingEscape
deriving DecidableEq, Repr

/-- The fault in words. -/
def Fault.message : Fault → String
  | unclosedSet => "unclosed character class; missing ']'"
  | invalidRange low high => "invalid range; '" ++ low.toString ++ "' > '" ++ high.toString ++ "'"
  | unopenedGroup =>
    "unopened alternate group; missing '\x7b' (maybe escape '\x7d' with '[\x7d]'?)"
  | unclosedGroup =>
    "unclosed alternate group; missing '\x7d' (maybe escape '\x7b' with '[\x7b]'?)"
  | danglingEscape => "dangling '\\'"

/-! ### Reading -/

/-- Alternatives while they are read: the branch at hand and those before it,
the last first. -/
structure Group where
  tokens : List GlobToken
  branches : List (List GlobToken)

/-- A glob while it is read, with the groups around the one at hand. -/
structure Draft where
  group : Group
  outer : List Group

namespace Draft

/-- Adds a token. -/
def push (d : Draft) (t : GlobToken) : Draft :=
  { d with group := { d.group with tokens := t :: d.group.tokens } }

/-- Replaces the last token. -/
def swap (d : Draft) (t : GlobToken) : Draft :=
  { d with group := { d.group with tokens := t :: d.group.tokens.tail } }

/-- Opens a group. -/
def openGroup (d : Draft) : Draft := ⟨⟨[], []⟩, d.group :: d.outer⟩

/-- Starts the next branch of a group. -/
def nextBranch (d : Draft) : Draft :=
  { d with group := ⟨[], d.group.tokens.reverse :: d.group.branches⟩ }

/-- Closes a group. -/
def closeGroup (d : Draft) : Except Fault Draft :=
  match d.outer with
  | [] => .error .unopenedGroup
  | group :: outer =>
    let branches := (d.group.tokens.reverse :: d.group.branches).reverse
    .ok (Draft.push ⟨group, outer⟩ (.alternates branches))

/-- What two stars stand for, by the characters before and behind them; and
whether they take the slash behind them with them. -/
def stars (d : Draft) (before behind : Option Char) : Draft × Bool :=
  let plain := ((d.push .anyMany).push .anyMany, false)
  let inGroup := !d.outer.isEmpty
  let ends := behind.isNone || (inGroup && (behind == some ',' || behind == some '\x7d'))
  let slash := behind == some '/'
  if d.group.tokens.isEmpty then
    if behind.isNone || slash then (d.push .leading, slash) else plain
  else if before != some '/' && !(inGroup && (before == some ',' || before == some '\x7b')) then
    plain
  else if !ends && !slash then plain
  else match d.group.tokens.head? with
    | some .leading => (d, slash)
    | some .trailing => (d, slash)
    | _ => (d.swap (if ends then .trailing else .between), slash)

end Draft

/-- What the next character is read as. -/
inductive Mode where
  | plain
  | escaped
  /-- A member of a set; `first` if none was read yet, `inRange` if it ends a
  range. -/
  | set (negated first inRange : Bool) (ranges : List (Char × Char))

/-- The next character of a set, the ranges of it so far being the last
first. -/
def addToSet (c : Char) (first inRange : Bool) (ranges : List (Char × Char)) :
    Except Fault (Bool × List (Char × Char)) :=
  match inRange, ranges with
  | true, (low, _) :: ranges =>
    if c < low then .error (.invalidRange low c) else .ok (false, (low, c) :: ranges)
  | _, _ => if c = '-' ∧ ¬first then .ok (true, ranges) else .ok (false, (c, c) :: ranges)

/-- The set with a range left open, which is a hyphen. -/
def closeSet (negated inRange : Bool) (ranges : List (Char × Char)) : GlobToken :=
  .oneOf negated ((if inRange then ('-', '-') :: ranges else ranges).reverse)

/-- Reads the rest of a glob, `before` being the character before it. -/
def parseFrom (before : Option Char) (d : Draft) : Mode → List Char → Except Fault Draft
  | .plain, [] => if d.outer.isEmpty then .ok d else .error .unclosedGroup
  | .escaped, [] => .error .danglingEscape
  | .set _ _ _ _, [] => .error .unclosedSet
  | .escaped, c :: rest => parseFrom (some c) (d.push (.literal c)) .plain rest
  | .set negated first inRange ranges, c :: rest =>
    if c = ']' ∧ ¬first then
      parseFrom (some c) (d.push (closeSet negated inRange ranges)) .plain rest
    else do
      let (inRange, ranges) ← addToSet c first inRange ranges
      parseFrom (some c) d (.set negated false inRange ranges) rest
  | .plain, '*' :: '*' :: '/' :: rest =>
    match d.stars before (some '/') with
    | (d, true) => parseFrom (some '/') d .plain rest
    | (d, false) => parseFrom (some '*') d .plain ('/' :: rest)
  | .plain, '*' :: '*' :: rest => parseFrom (some '*') (d.stars before rest.head?).1 .plain rest
  | .plain, '[' :: '!' :: rest => parseFrom (some '!') d (.set true true false []) rest
  | .plain, '[' :: '^' :: rest => parseFrom (some '^') d (.set true true false []) rest
  | .plain, c :: rest =>
    match c with
    | '?' => parseFrom (some c) (d.push .anyOne) .plain rest
    | '*' => parseFrom (some c) (d.push .anyMany) .plain rest
    | '[' => parseFrom (some c) d (.set false true false []) rest
    | '\x7b' => parseFrom (some c) d.openGroup .plain rest
    | '\x7d' => do parseFrom (some c) (← d.closeGroup) .plain rest
    | ',' =>
      let d := if d.outer.isEmpty then d.push (.literal c) else d.nextBranch
      parseFrom (some c) d .plain rest
    | '\\' => parseFrom (some c) d .escaped rest
    | _ => parseFrom (some c) (d.push (.literal c)) .plain rest

/-- Reads a glob. -/
def parse (pattern : String) : Except Fault Glob := do
  let d ← parseFrom none ⟨⟨[], []⟩, []⟩ .plain pattern.toList
  return ⟨d.group.tokens.reverse⟩

/-! ### Matching -/

/-- The bytes of a character. -/
def bytesOf (c : Char) : Bytes := Utf8.encode c.toString

/-- What may be left of bytes when any number was taken off their front. -/
def rests : Bytes → List Bytes
  | [] => [[]]
  | b :: bs => (b :: bs) :: rests bs

/-- The byte of a slash. -/
def slash : UInt8 := 0x2f

/-- What follows each slash. -/
def afterSlashes : Bytes → List Bytes
  | [] => []
  | b :: bs => if b = slash then bs :: afterSlashes bs else afterSlashes bs

/-- The ranges of bytes that a range of characters stands for. -/
def byteRanges : Char × Char → List (UInt8 × UInt8)
  | (low, high) =>
    let each := List.map fun b : UInt8 => (b, b)
    if low = high then each (bytesOf low)
    else
      each (bytesOf low).dropLast ++
        [((bytesOf low).getLastD 0, (bytesOf high).headD 0)] ++ each (bytesOf high).tail

/-- Is a byte in a set? -/
def inSet (ranges : List (Char × Char)) (b : UInt8) : Bool :=
  (ranges.flatMap byteRanges).any fun (low, high) => low ≤ b && b ≤ high

mutual

/-- Does a token stand for nothing at all? -/
def isBlankToken : GlobToken → Bool
  | .alternates branches => areBlankBranches branches
  | _ => false

/-- Do tokens stand for nothing at all? -/
def areBlankTokens : List GlobToken → Bool
  | [] => true
  | t :: ts => isBlankToken t && areBlankTokens ts

/-- Do all branches stand for nothing at all? -/
def areBlankBranches : List (List GlobToken) → Bool
  | [] => true
  | branch :: branches => areBlankTokens branch && areBlankBranches branches

end

mutual

/-- Can a token be taken off the front of bytes so that `accept` holds of the
rest? -/
def matchToken (accept : Bytes → Bool) (bytes : Bytes) : GlobToken → Bool
  | .literal c =>
    (bytesOf c).isPrefixOf bytes && accept (bytes.drop (bytesOf c).length)
  | .anyOne => !bytes.isEmpty && accept bytes.tail
  | .anyMany => (rests bytes).any accept
  | .leading => accept bytes || (afterSlashes bytes).any accept
  | .trailing => bytes.head? == some slash && (rests bytes.tail).any accept
  | .between =>
    bytes.head? == some slash && (accept bytes.tail || (afterSlashes bytes.tail).any accept)
  | .oneOf negated ranges =>
    bytes.head?.any (fun b => inSet ranges b != negated) && accept bytes.tail
  | .alternates branches =>
    if areBlankBranches branches then accept bytes else matchBranches accept bytes branches

/-- Can tokens be taken off the front of bytes so that `accept` holds of the
rest? -/
def matchTokens (accept : Bytes → Bool) (bytes : Bytes) : List GlobToken → Bool
  | [] => accept bytes
  | t :: ts => matchToken (fun bytes => matchTokens accept bytes ts) bytes t

/-- Can one of the branches that stand for something be taken off? -/
def matchBranches (accept : Bytes → Bool) (bytes : Bytes) : List (List GlobToken) → Bool
  | [] => false
  | branch :: branches =>
    (!areBlankTokens branch && matchTokens accept bytes branch) ||
      matchBranches accept bytes branches

end

/-- Does a path match a glob? -/
def isMatch (g : Glob) (path : String) : Bool :=
  match g.tokens with
  | [.leading] => true
  | tokens => matchTokens List.isEmpty (Utf8.encode path) tokens

end Glob
end DeadBranch
