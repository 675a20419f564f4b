/-
# Reading tokens

`scan` reads one token: first blanks and comments are passed over, then the
first character decides. In a template nothing is passed over, and what is read
is either a part of it as it is written or the mark that ends the part. The rest
of a regular expression is read where the grammar asks for it.

Key definitions: `skim`, `scanRegex`, `scanTemplate`, `scan`.
-/
import DeadBranch.Token.Nesting
import DeadBranch.Token.Text

namespace DeadBranch

/-! ### Blanks and comments -/

/-- The blanks of a source, less the line ends. -/
def sourceBlanks : Ranges := [
  (0x0, 0x0), (0x9, 0x9), (0xb, 0xc), (0x20, 0x20), (0x85, 0x85), (0xa0, 0xa0), (0x1680, 0x1680),
  (0x2000, 0x200a), (0x202f, 0x202f), (0x205f, 0x205f), (0x3000, 0x3000), (0xfeff, 0xfeff)]

/-- Is it passed over between tokens? -/
def isSourceBlank (c : Char) : Bool := c == ' ' || sourceBlanks.contains c

/-- Where passing over stands. -/
inductive Skim where
  | blank
  | lineComment
  | blockComment (start : Nat)

/-- What passing over comes to. -/
structure Skimmed where
  rest : List Char
  position : Nat
  afterBreak : Bool
  complaints : List Complaint
  /-- The start of the first legacy comment: what follows it counts as starting
  there. -/
  legacy : Option Nat
  /-- The start of a comment that does not end. -/
  unterminated : Option Nat

/-- Passes over blanks and comments. `<!--` opens a comment to the end of the
line, and so does `-->` after a line break. -/
def skim (mode : Skim) (afterBreak : Bool) (complaints : List Complaint) (legacy : Option Nat)
    (position : Nat) : List Char → Skimmed
  | [] =>
    let unterminated := match mode with
      | .blockComment start => some start
      | _ => none
    ⟨[], position, afterBreak, complaints, legacy, unterminated⟩
  | c :: cs =>
    match mode, c, cs with
    | .blockComment _, '*', '/' :: cs => skim .blank afterBreak complaints legacy (position + 2) cs
    | .blockComment start, c, cs =>
      skim (.blockComment start) (afterBreak || isLineEnd c) complaints legacy
        (position + c.utf8Size) cs
    | .lineComment, c, cs =>
      if isLineEnd c then skim .blank true complaints legacy (position + c.utf8Size) cs
      else skim .lineComment afterBreak complaints legacy (position + c.utf8Size) cs
    | .blank, '/', '/' :: cs => skim .lineComment afterBreak complaints legacy (position + 2) cs
    | .blank, '/', '*' :: cs =>
      skim (.blockComment position) afterBreak complaints legacy (position + 2) cs
    | .blank, '<', '!' :: '-' :: '-' :: cs =>
      skim .lineComment afterBreak (complaints ++ [⟨.moduleCode, position, .legacyComment⟩])
        (some (legacy.getD position)) (position + 4) cs
    | .blank, '-', '-' :: '>' :: cs =>
      if afterBreak then
        skim .lineComment afterBreak (complaints ++ [⟨.moduleCode, position, .legacyComment⟩])
          (some (legacy.getD position)) (position + 3) cs
      else ⟨'-' :: '-' :: '>' :: cs, position, afterBreak, complaints, legacy, none⟩
    | .blank, c, cs =>
      if isLineEnd c then skim .blank true complaints legacy (position + c.utf8Size) cs
      else if isSourceBlank c then
        skim .blank afterBreak complaints legacy (position + c.utf8Size) cs
      else ⟨c :: cs, position, afterBreak, complaints, legacy, none⟩

/-! ### Regular expressions -/

/-- The pattern of a regular expression after its opening slash, and what is
after the closing one, if there is one; a slash in brackets does not close
it. -/
def cutRegex (inClass : Bool) : List Char → List Char × Option (List Char)
  | [] => ([], none)
  | '\\' :: c :: cs =>
    if isLineEnd c then (['\\'], none)
    else
      let (body, rest) := cutRegex inClass cs
      ('\\' :: c :: body, rest)
  | c :: cs =>
    if isLineEnd c then ([], none)
    else if c == '/' && !inClass then ([], some cs)
    else
      let inClass := if c == '[' then true else if c == ']' then false else inClass
      let (body, rest) := cutRegex inClass cs
      (c :: body, rest)

/-- A regular expression, after its opening slash. Flags begin like a name. -/
def scanRegex (start : Nat) (cs : List Char) : Scanned :=
  match cutRegex false cs with
  | (body, none) =>
    ⟨.bad ⟨start, .regexUnterminated⟩, '/' :: body, cs.drop body.length, []⟩
  | (body, some rest) =>
    if rest.head?.any Text.isNameStart then
      let flags := scanWord (fun _ => false) (start + 2 + byteLength body) rest
      let token := match flags.token with
        | .word name => Token.regex (String.ofList body) name
        | token => token
      ⟨token, '/' :: body ++ '/' :: flags.raw, flags.rest, flags.complaints⟩
    else ⟨.regex (String.ofList body) "", '/' :: body ++ ['/'], rest, []⟩

/-! ### Templates -/

/-- A part of a template from some place on. -/
structure TemplateTail where
  text : List Char := []
  raw : List Char := []
  rest : List Char
  fault : Option Fault := none
  isEnded : Bool := true

/-- One more character as it is written, and how the part shows it. -/
def TemplateTail.push (c shown : Char) (t : TemplateTail) : TemplateTail :=
  { t with text := shown :: t.text, raw := c :: t.raw }

/-- Reads a part of a template from a byte position on, up to its closing mark
or the next insertion. A carriage return alone is shown as a line feed. The
first `skip` characters belong to an escape. -/
def templateTail (position skip : Nat) : List Char → TemplateTail
  | [] => { rest := [], isEnded := false }
  | c :: cs =>
    if 0 < skip then (templateTail (position + c.utf8Size) (skip - 1) cs).push c c
    else if c == '\x60' || (c == '$' && cs.head? == some '\x7b') then { rest := c :: cs }
    else if c == '\\' then
      match readEscape true cs with
      | .error e =>
        let tail := (templateTail (position + 1) e.taken.length cs).push c c
        { tail with fault := some (tail.fault.getD ⟨position, e.cause⟩) }
      | .ok e => (templateTail (position + 1) e.taken.length cs).push c c
    else
      let shown := if c == '\r' && cs.head? != some '\n' then '\n' else c
      (templateTail (position + c.utf8Size) 0 cs).push c shown

/-- A part of a template, or the mark that ends it if the last token was such a
part. The template started at `start`. -/
def scanTemplate (start position : Nat) (afterPart : Bool) (cs : List Char) : Scanned :=
  match cs, afterPart with
  | [], _ => ⟨.eof, [], [], []⟩
  | '\x60' :: cs, true => ⟨.mark "`", ['\x60'], cs, []⟩
  | '$' :: '\x7b' :: cs, true => ⟨.mark "$\x7b", ['$', '\x7b'], cs, []⟩
  | cs, _ =>
    let tail := templateTail position 0 cs
    if tail.isEnded then
      ⟨.template (String.ofList tail.text) tail.fault, tail.raw, tail.rest, []⟩
    else ⟨.bad ⟨start, .templateUnterminated⟩, tail.raw, tail.rest, []⟩

/-! ### Tokens -/

/-- The marks, longer ones before their beginnings. -/
def marks : List String := [
  ">>>=", "...", "===", "!==", "**=", "<<=", ">>=", ">>>", "&&=", "||=", "??=",
  "=>", "==", "!=", "<=", ">=", "++", "--", "**", "<<", ">>", "&&", "||", "??",
  "+=", "-=", "*=", "/=", "%=", "&=", "|=", "^=",
  "\x7b", "\x7d", "(", ")", "[", "]", ";", ",", "<", ">", "+", "-", "*", "/", "%", "&", "|", "^",
  "!", "~", "?", ":", "=", ".", "@", "#", "`"]

/-- A mark, or a character that begins no token. -/
def scanMark (start : Nat) (cs : List Char) : Scanned :=
  match marks.find? (fun text => text.toList.isPrefixOf cs) with
  | some text => ⟨.mark text, text.toList, cs.drop text.length, []⟩
  | none => ⟨.bad ⟨start, .characterUnexpected (cs.headD ' ')⟩, cs.take 1, cs.drop 1, []⟩

/-- The token that begins with the first of the given characters. -/
def scanToken (isReserved : String → Bool) (start : Nat) (cs : List Char) : Scanned :=
  match cs with
  | [] => ⟨.eof, [], [], []⟩
  | c :: tail =>
    if Text.isNameStart c || c == '\\' then scanWord isReserved start cs
    else if isDigit c || (c == '.' && tail.head?.any isDigit) then scanNumber start cs
    else if c == '"' || c == '\'' then scanString start c tail
    else scanMark start cs

/-- A token in its place, with what is to be said about it and where the reader
stands after it. -/
structure Scan where
  reading : Reading
  complaints : List Complaint
  after : Lexing

/-- The reader after a token was cut out at `start`, seen as starting at
`shown`. -/
def Lexing.take (l : Lexing) (shown start : Nat) (afterBreak : Bool) (scanned : Scanned)
    (complaints : List Complaint) : Scan :=
  let stop := start + byteLength scanned.raw
  let after := match scanned.token with
    | .eof => { l with position := stop, source := scanned.rest, isFirst := false }
    | token => l.note token shown stop scanned.rest
  ⟨⟨scanned.token, shown, stop, afterBreak⟩, complaints ++ scanned.complaints, after⟩

/-- Reads the next token. The words that `isReserved` tells must not have escapes
behind their first character. A regular expression that cannot be read leaves
the reader where it is. -/
def scan (isReserved : String → Bool) (l : Lexing) : Scan :=
  match l.regex, l.nestings with
  | some regex, _ =>
    let scanned := scanRegex regex.start regex.source
    match scanned.token with
    | .regex _ _ => l.take l.position regex.start false scanned []
    | token => ⟨⟨token, l.position, l.position, false⟩, [], l⟩
  | none, .template start :: _ =>
    let scanned := scanTemplate start l.position l.afterPart l.source
    l.take l.position l.position l.isFirst scanned []
  | none, _ =>
    let skimmed := skim .blank l.isFirst [] none l.position l.source
    match skimmed.unterminated with
    | some opening =>
      let fault : Fault := ⟨opening, .commentUnterminated⟩
      l.take skimmed.position skimmed.position skimmed.afterBreak ⟨.bad fault, [], [], []⟩
        skimmed.complaints
    | none =>
      let scanned := scanToken isReserved skimmed.position skimmed.rest
      l.take (skimmed.legacy.getD skimmed.position) skimmed.position skimmed.afterBreak scanned
        skimmed.complaints

end DeadBranch
