/-
# The state of reading a program

Reading goes from token to token. A token is read from the source when it is
first looked at, in the surroundings of that moment; whether code is strict, or
what is reserved, may have changed since the token before it. The state holds
the tokens that were read and not yet taken, where the last one taken stood,
and what was found wrong without stopping the reading. Some of that counts only
if the program turns out to be a module; it is kept apart.

What surrounds the place being read (a function, a loop) is a `Surroundings`
that is handed down.

A fault that stops the reading leaves the state as it was when the fault was
met: a few places go on from there.

Key definitions: `Surroundings`, `ParseState`, `Parse`, and the small steps
`peek`, `demand`, `advance`, `eatMark`, `expectMark`, `eatSemicolon`.
-/
import DeadBranch.Token.Scan
import DeadBranch.Tree.Basic

namespace DeadBranch

/-- What surrounds the place being read. -/
structure Surroundings where
  strict : Bool := false
  isModule : Bool := false
  inFunction : Bool := false
  /-- Is there a function other than an arrow function around, or a class? -/
  hasNewTarget : Bool := false
  isAsync : Bool := false
  isGenerator : Bool := false
  inParams : Bool := false
  inField : Bool := false
  inStaticBlock : Bool := false
  /-- May members of `super` be used? -/
  hasSuper : Bool := false
  canBreak : Bool := false
  canContinue : Bool := false
  /-- Is this the head of a `for`, and if so, of one with `await`? -/
  loopHead : Option Bool := none
  /-- Is `in` an operator here? It is not in the head of a `for`. -/
  allowIn : Bool := false

/-- The words that are reserved in strict code only. -/
def strictWords : List String :=
  ["implements", "package", "protected", "interface", "private", "public"]

/-- Is a word reserved? -/
def Surroundings.isReserved (s : Surroundings) (name : String) : Bool :=
  if name == "let" then s.strict
  else if name == "await" then s.isAsync || s.inStaticBlock || s.isModule
  else if name == "yield" then s.isGenerator || s.strict
  else keywords.contains name || valueWords.contains name || name == "enum"
    || (s.strict && strictWords.contains name)

/-- Where reading stands. -/
structure ParseState where
  lexing : Lexing
  /-- The next token, if it was looked at. -/
  next : Option Reading := none
  /-- The token after the next one, if it was looked at. -/
  second : Option Reading := none
  lastStart : Nat := 0
  lastStop : Nat := 0
  /-- What was found wrong so far, the latest first. -/
  faults : List Fault := []
  /-- What is wrong if the program is a module, the latest first. -/
  moduleFaults : List Fault := []
  /-- Was there something that only a module can hold? -/
  isModule : Bool := false
  labels : List String := []
  /-- Where the operand began that may turn out to be the parameters of an arrow
  function. -/
  arrowStart : Option Nat := none
  /-- Where brackets opened whose last entry has a comma after it, with that
  comma. -/
  trailingCommas : List (Nat × Nat) := []

/-- Steps of reading. -/
abbrev Parse := ReaderT Surroundings (EStateM Fault ParseState)

namespace Parse

/-! ### Looking at tokens -/

/-- Something is wrong. -/
def record (fault : Fault) : Parse Unit := modify fun s => { s with faults := fault :: s.faults }

/-- Something is wrong if the program is a module. -/
def recordForModule (fault : Fault) : Parse Unit :=
  modify fun s => { s with moduleFaults := fault :: s.moduleFaults }

/-- Voices a complaint about a token. -/
def voice (complaint : Complaint) : Parse Unit := do
  let s ← read
  let counts := match complaint.concern with
    | .everywhere => true
    | .strictCode => s.strict
    | .moduleCode => s.isModule
  if counts then record complaint.fault else recordForModule complaint.fault

/-- Reads a token from the source. -/
def readToken : Parse Reading := do
  let scanned := scan (← read).isReserved (← get).lexing
  scanned.complaints.forM voice
  modify fun s => { s with lexing := scanned.after }
  return scanned.reading

/-- The next token in its place. -/
def peekReading : Parse Reading := do
  let s ← get
  match s.next with
  | some reading => return reading
  | none =>
    let reading ← match s.second with
      | some reading => pure reading
      | none => readToken
    modify fun s => { s with next := some reading, second := none }
    return reading

/-- The next token. -/
def peek : Parse Token := return (← peekReading).token

/-- The token after the next one, in its place. -/
def peekSecond : Parse Reading := do
  let _ ← peekReading
  match (← get).second with
  | some reading => return reading
  | none =>
    let reading ← readToken
    modify fun s => { s with second := some reading }
    return reading

/-- Takes the next token. -/
def advance : Parse Unit := do
  let reading ← peekReading
  modify fun s => { s with next := none, lastStart := reading.start, lastStop := reading.stop }

/-- Where the next token starts; at the end of the source, where the last one
stopped. -/
def here : Parse Nat := do
  let reading ← peekReading
  match reading.token with
  | .eof => return (← get).lastStop
  | _ => return reading.start

/-- The place that faults are reported at: the next token if it was looked at
and there is one, else the last one. -/
def position : Parse Nat := do
  let s ← get
  return match s.next with
    | some reading => if reading.token = .eof then s.lastStart else reading.start
    | none => s.lastStart

/-- Where the last token started. -/
def lastStart : Parse Nat := return (← get).lastStart

/-- Where the last token stopped. -/
def lastStop : Parse Nat := return (← get).lastStop

/-- Is there a line break before the next token? The end of the source counts as
one. -/
def afterBreak : Parse Bool := do
  let reading ← peekReading
  return reading.token = .eof || reading.afterBreak

/-! ### Faults -/

/-- Something is wrong, and reading goes on. If the next token is none, that is
recorded first. -/
def complainFault (fault : Fault) : Parse Unit := do
  match ← peek with
  | .bad inner => advance; record inner
  | _ => pure ()
  record fault

/-- Something is wrong at a place, and reading goes on. -/
def complain (position : Nat) (cause : Cause) : Parse Unit := complainFault ⟨position, cause⟩

/-- Something is wrong in modules. -/
def complainInModule (position : Nat) (cause : Cause) : Parse Unit := do
  if (← read).isModule then record ⟨position, cause⟩ else recordForModule ⟨position, cause⟩

/-- Reading stops. If the next token is none, that is recorded. -/
def failAt {α : Type} (position : Nat) (cause : Cause) : Parse α := do
  match ← peek with
  | .bad inner => advance; complainFault inner
  | _ => pure ()
  throw ⟨position, cause⟩

/-- Reading stops at the next token. -/
def fail {α : Type} (cause : Cause) : Parse α := do failAt (← position) cause

/-- The next token is not what is wanted. -/
def unexpected {α : Type} (wanted : String) : Parse α := do
  let token ← peek
  fail (.unexpectedToken token.describe wanted)

/-- Fails if the next token is none. -/
def checkToken : Parse Unit := do
  match ← peek with
  | .bad fault => advance; throw fault
  | _ => return

/-- The next token. Fails if it is none, and at the end of the source. -/
def demand : Parse Token := do
  checkToken
  match ← peek with
  | .eof => throw ⟨← lastStop, .unexpectedEnd⟩
  | token => return token

/-! ### Taking tokens -/

/-- Is the next token this mark? -/
def isMark (text : String) : Parse Bool := return (← peek) == .mark text

/-- Is the next token one of these marks? -/
def isAnyMark (texts : List String) : Parse Bool := do
  match ← peek with
  | .mark text => return texts.contains text
  | _ => return false

/-- Is the next token this word? -/
def isWord (name : String) : Parse Bool := return (← peek) == .word name

/-- Does the source end here? -/
def atEnd : Parse Bool := return (← peek) == .eof

/-- Takes the mark if it is next. -/
def eatMark (text : String) : Parse Bool := do
  if ← isMark text then advance; return true
  return false

/-- Takes the word if it is next. -/
def eatWord (name : String) : Parse Bool := do
  if ← isWord name then advance; return true
  return false

/-- The next token was to be another one. -/
def failExpected {α : Type} (wanted : String) : Parse α := do
  let token ← peek
  fail (.expected wanted token.describe)

/-- Takes the mark, which must be next. -/
def expectMark (text : String) : Parse Unit := do
  unless ← eatMark text do failExpected text

/-- Takes the word, which must be next. -/
def expectWord (name : String) : Parse Unit := do
  unless ← eatWord name do failExpected name

/-- May a statement end before the next token? -/
def atStatementEnd : Parse Bool := do
  match ← peek with
  | .eof => return true
  | .mark ";" => return true
  | .mark "\x7d" => return true
  | _ => afterBreak

/-- Takes a semicolon, or finds that none is needed. -/
def eatSemicolon : Parse Bool := do
  if ← eatMark ";" then return true
  atStatementEnd

/-- A statement must end here. -/
def expectSemicolon : Parse Unit := do
  unless ← eatSemicolon do failExpected ";"

/-! ### Running steps -/

/-- Runs a step with changed surroundings. -/
def within {α : Type} (change : Surroundings → Surroundings) (step : Parse α) : Parse α :=
  withReader change step

/-- Runs a step where `in` is an operator. -/
def withIn {α : Type} (step : Parse α) : Parse α := within ({ · with allowIn := true }) step

/-- Runs a step; if it fails, goes on from where it failed. -/
def recover {α : Type} (step : Parse α) (handler : Fault → Parse α) : Parse α :=
  fun surroundings s =>
    match step surroundings s with
    | .ok a s' => .ok a s'
    | .error fault s' => handler fault surroundings s'

/-- Runs a step that sees none of the labels outside it. -/
def withoutLabels {α : Type} (step : Parse α) : Parse α := fun surroundings s =>
  let restore (t : ParseState) := { t with
    labels := s.labels, arrowStart := s.arrowStart, trailingCommas := s.trailingCommas }
  match step surroundings { s with labels := [], arrowStart := none, trailingCommas := [] } with
  | .ok a s' => .ok a (restore s')
  | .error fault s' => .error fault (restore s')

end Parse
end DeadBranch
