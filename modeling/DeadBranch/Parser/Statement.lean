/-
# Statements

One function for each form of statement, and `parseStmt`, which tells them
apart by their first token. A declaration may only stand where statements are
listed: elsewhere `let` is a name, `const` no statement at all, and a function
or a class a fault that does not stop the reading.

Key definitions: `parseVars`, `parseFor`, `parseStmt`, `parseTopStmt`.
-/
import DeadBranch.Parser.Expression

namespace DeadBranch
namespace Parse

variable (g : Grammar)

/-! ### Declarations -/

/-- Is the target a pattern rather than a name? -/
def isPattern : Expr → Bool
  | .arrayPattern _ => true
  | .objectPattern _ => true
  | _ => false

/-- Is `in` or `of` next? -/
def atForEach : Parse Bool := return (← isWord "of") || (← isWord "in")

/-- One variable of a declaration. A pattern needs a value, and in strict code a
constant does, except in the head of a loop over the parts of one. -/
def parseDeclarator (inLoopHead : Bool) (kind : VarKind) : Parse Declarator := do
  let start ← here
  let target ← g.binding
  if inLoopHead && (← atForEach) then return .mk target .absent
  if ← eatMark "=" then return .mk target (← g.assign).expr
  if kind == .constKind && (← read).strict then complain start .constWithoutValue
  else if isPattern target then failAt start .patternWithoutValue
  return .mk target .absent

/-- The variables of a declaration with the places where they start. A comma must
not be the last of it; `wordStop` is where its keyword stopped. -/
def parseDeclarators (inLoopHead : Bool) (kind : VarKind) (wordStop : Nat) :
    Nat → Parse (List (Nat × Declarator))
  | 0 => fail .nestedTooDeeply
  | fuel + 1 => do
    if (← isMark ";") || (← atEnd) then
      let last ← lastStart
      complain (if (← lastStop) == wordStop then wordStop else last) .trailingComma
      return []
    let start ← here
    let allowIn := kind != .varKind || !inLoopHead
    let first ← within (fun s => { s with allowIn := s.allowIn || allowIn })
      (parseDeclarator g inLoopHead kind)
    if ← eatMark "," then
      return (start, first) :: (← parseDeclarators inLoopHead kind wordStop fuel)
    return [(start, first)]

/-- Skips to the end of a statement. -/
def skipToSemicolon : Nat → Parse Unit
  | 0 => return
  | fuel + 1 => do
    if ← eatSemicolon then return
    advance
    match ← peek with
    | .bad _ => return
    | _ => skipToSemicolon fuel

/-- Does what follows `let` make it a declaration? -/
def followsLet : Token → Bool
  | .mark text => text == "[" || text == "\x7b"
  | .word "let" | .word "yield" | .word "await" => true
  | token => token.isPlainWord

/-- The keyword of a variable declaration, if one is next. -/
def varKind? : Parse (Option VarKind) := do
  if ← isWord "var" then return some .varKind
  if ← isWord "const" then return some .constKind
  if ← isWord "let" then
    if followsLet (← peekSecond).token then return some .letKind
  return none

/-- A variable declaration as a statement. If something follows that cannot, it
is skipped. -/
def parseVars (kind : VarKind) : Parse Decl := do
  advance
  let declarators ← parseDeclarators g false kind (← lastStop) g.fuel
  unless ← eatSemicolon do
    complain (← position) .semicolonExpected
    let _ ← recover g.expr fun fault => return .leaf fault.position .absent
    skipToSemicolon g.fuel
  return .vars kind (declarators.map (·.2))

/-! ### Conditionals and loops -/

/-- An expression in parentheses. -/
def parseTest : Parse Expr := do
  expectMark "("
  let test ← withIn g.expr
  expectMark ")"
  return test.expr

/-- An `if` statement. -/
def parseIf : Parse Stmt := do
  let start ← here
  advance
  let test ← parseTest g
  let consequent ← g.stmt false
  let alternate ← if ← eatWord "else" then some <$> g.stmt false else pure none
  return .ifElse ⟨start, ← lastStop⟩ test consequent alternate

/-- The body of a loop. -/
def parseLoopBody : Parse Stmt :=
  within ({ · with canBreak := true, canContinue := true }) (g.stmt false)

/-- A `while` statement. -/
def parseWhile : Parse Stmt := do
  advance
  let test ← parseTest g
  return .whileLoop test (← parseLoopBody g)

/-- A `do` statement. -/
def parseDo : Parse Stmt := do
  advance
  let body ← parseLoopBody g
  expectWord "while"
  let test ← parseTest g
  let _ ← eatSemicolon
  return .doWhile test body

/-- What is between the parentheses of a `for` statement. -/
inductive ForHead where
  | parts (head : LoopHead) (test update : Expr)
  | each (overKeys : Bool) (head : LoopHead) (subject : Expr)

/-- The head of a `for` statement with three parts, after the first
semicolon. -/
def parseForParts (head : LoopHead) : Parse ForHead := do
  let test ← if ← eatMark ";" then pure .absent else
    let test ← withIn g.expr
    expectMark ";"
    pure test.expr
  let update ← if ← isMark ")" then pure .absent else Term.expr <$> withIn g.expr
  return .parts head test update

/-- The head of a `for` statement over the parts of a value, from `in` or `of`
on. -/
def parseForEach (head : LoopHead) : Parse ForHead := do
  let overKeys ← isWord "in"
  advance
  let subject ← withIn (if overKeys then g.expr else g.assign)
  return .each overKeys head subject.expr

/-- Checks what a loop over the parts of a value declares: one variable, without
a value. -/
def checkLoopVars : List (Nat × Declarator) → Parse Unit
  | [(start, .mk _ init)] => do
    if ((← read).strict || (← isWord "of")) && !init.isAbsent then complain start .loopInitializer
  | declarators => (declarators.drop 1).forM fun (start, _) => complain start .loopVariables

/-- What is between the parentheses of a `for` statement. -/
def parseForHead : Parse ForHead := do
  match ← varKind? with
  | some kind =>
    advance
    let declarators ← parseDeclarators g true kind (← lastStop) g.fuel
    let head := LoopHead.decl kind (declarators.map (·.2))
    if ← atForEach then
      checkLoopVars declarators
      parseForEach g head
    else
      expectMark ";"
      parseForParts g head
  | none =>
    if ← eatMark ";" then parseForParts g (.expr .absent)
    else
      let e ← within ({ · with allowIn := false }) g.expr
      if ← atForEach then
        let pattern ← toPattern .target e
        parseForEach g (.expr pattern)
      else
        expectMark ";"
        parseForParts g (.expr e.expr)

/-- A `for` statement. -/
def parseFor : Parse Stmt := do
  let start ← here
  advance
  let awaitStart ← here
  let isAwait ← eatWord "await"
  expectMark "("
  let head ← within ({ · with loopHead := some isAwait }) (parseForHead g)
  expectMark ")"
  let body ← parseLoopBody g
  let span : Span := ⟨start, ← lastStop⟩
  match head with
  | .parts head test update =>
    if isAwait then failAt awaitStart .loopAwait
    return .forLoop span head test update body
  | .each true head subject =>
    if isAwait then failAt awaitStart .loopAwait
    return .forEach span .keys head subject body
  | .each false head subject =>
    return .forEach span (if isAwait then .awaited else .values) head subject body

/-! ### Other statements -/

/-- Is a case next? -/
def atCase : Parse Bool := return (← isWord "case") || (← isWord "default")

/-- The statements of a case. -/
def parseCaseBody : Nat → Parse (List Stmt)
  | 0 => fail .nestedTooDeeply
  | fuel + 1 => do
    if (← atEnd) || (← atCase) || (← isMark "\x7d") then return []
    let first ← g.stmt true
    return first :: (← parseCaseBody fuel)

/-- The cases of a switch. -/
def parseCases (hasDefault : Bool) : Nat → Parse (List Case)
  | 0 => fail .nestedTooDeeply
  | fuel + 1 => do
    unless ← atCase do return []
    let isDefault ← isWord "default"
    advance
    let test ← if isDefault then
        if hasDefault then fail .defaultRepeated
        pure none
      else some <$> Term.expr <$> withIn g.expr
    expectMark ":"
    let body ← parseCaseBody g g.fuel
    return .mk test body :: (← parseCases (hasDefault || isDefault) fuel)

/-- A `switch` statement. -/
def parseSwitch : Parse Stmt := do
  let start ← here
  advance
  let subject ← parseTest g
  expectMark "\x7b"
  let cases ← within ({ · with canBreak := true }) (parseCases g false g.fuel)
  expectMark "\x7d"
  return .switch ⟨start, ← lastStop⟩ subject cases

/-- A catch clause, if one is next. -/
def parseHandler? : Parse (Option Handler) := do
  let start ← here
  unless ← eatWord "catch" do return none
  let param ← if ← eatMark "(" then
      let param ← g.binding
      expectMark ")"
      pure param
    else pure .absent
  let body ← parseBlock g
  return some (.mk ⟨start, ← lastStop⟩ param body)

/-- A final block, if one is next. -/
def parseFinalizer? : Parse (Option Block) := do
  unless ← eatWord "finally" do return none
  return some (← parseBlock g)

/-- A `try` statement. One without a handler and a final block is a fault, but
reading goes on. -/
def parseTry : Parse Stmt := do
  advance
  let body ← parseBlock g
  let place ← here
  let handler ← parseHandler? g
  let finalizer ← parseFinalizer? g
  if handler.isNone && finalizer.isNone then complain place .semicolonExpected
  return .tryCatch body handler finalizer

/-- A catch clause or a final block without a `try` statement: a fault, but
reading goes on behind it. -/
def parseStrayHandler : Parse Stmt := do
  complain (← position) .semicolonExpected
  let _ ← recover (parseHandler? g) fun _ => return none
  let _ ← recover (parseFinalizer? g) fun _ => return none
  return .expr .absent

/-- A `return` statement. -/
def parseReturn : Parse Stmt := do
  let start ← here
  advance
  let value ← if ← atStatementEnd then pure .absent else Term.expr <$> withIn g.expr
  expectSemicolon
  unless (← read).inFunction do complain start .returnNotAllowed
  return .ret value

/-- A `throw` statement. -/
def parseThrow : Parse Stmt := do
  advance
  if ← afterBreak then fail .throwLineBreak
  let value ← withIn g.expr
  expectSemicolon
  return .throw value.expr

/-- The label of a `break` or `continue`, on the same line. -/
def parseJumpLabel : Parse (Option String) := do
  if ← eatSemicolon then return none
  let label ← parseReference
  expectSemicolon
  return some label

/-- A `break` statement. -/
def parseBreak : Parse Stmt := do
  let start ← here
  advance
  let label ← parseJumpLabel
  let labels := (← get).labels
  if label.any (!labels.contains ·) then complain start .breakLabelUnknown
  else unless (← read).canBreak do complain start .breakNotAllowed
  return .exitTo label

/-- A `continue` statement. -/
def parseContinue : Parse Stmt := do
  let start ← here
  advance
  let label ← parseJumpLabel
  let labels := (← get).labels
  if !(← read).canContinue then complain start .continueNotAllowed
  else if label.any (!labels.contains ·) then complain start .continueLabelUnknown
  return .continueTo label

/-- A `with` statement, which modules do not have. -/
def parseWith : Parse Stmt := do
  complainInModule (← here) .withNotAllowed
  advance
  let object ← parseTest g
  return .withObject object (← within ({ · with inFunction := true }) (g.stmt false))

/-- Complains about the function that a label stands before. -/
def checkLabeledFunction (start : Nat) : Decl → Parse Unit
  | .function _ (.block head _ _ _) => do
    if (← read).strict then complain start .labeledFunction
    if head.isAsync || head.isGenerator then complain start .labeledGenerator
  | _ => return

/-- A statement with a label, after its colon. -/
def parseLabeled (labelStart : Nat) (label : String) : Parse Stmt :=
  within ({ · with canBreak := true }) do
    if (← get).labels.contains label then complain labelStart (.labelRepeated label)
    modify fun s => { s with labels := label :: s.labels }
    let body ← if ← isWord "function" then
        let start ← here
        let decl ← parseFunctionDecl g
        checkLabeledFunction start decl
        pure (.decl decl)
      else g.stmt false
    modify fun s => { s with labels := s.labels.erase label }
    return .labeled label body

/-- An expression as a statement, or a statement with a label. An operator after
its end is a fault, but reading goes on. -/
def parseExprStmt : Parse Stmt := do
  let e ← withIn g.expr
  match e.expr with
  | .ident name => if ← eatMark ":" then return ← parseLabeled g e.start name
  | _ => pure ()
  if ← eatSemicolon then return .expr e.expr
  checkToken
  match ← peek with
  | token =>
    if isBinaryMark token then
      complain (← position) .semicolonExpected
      return .expr (← parseBinaryTail g 0 g.fuel e).expr
    else fail .statementEndExpected

/-- Complains about a declaration where none may stand. -/
def checkDeclAllowed (allowed : Bool) : Parse Unit := do
  unless allowed do complain (← position) .declarationNotAllowed

/-- The statements that begin with a keyword. -/
def parseKeywordStmt? (allowDecls : Bool) (word : String) : Option (Parse Stmt) :=
  match word with
  | "if" => some (parseIf g)
  | "while" => some (parseWhile g)
  | "do" => some (parseDo g)
  | "for" => some (parseFor g)
  | "switch" => some (parseSwitch g)
  | "try" => some (parseTry g)
  | "catch" => some (parseStrayHandler g)
  | "finally" => some (parseStrayHandler g)
  | "return" => some (parseReturn g)
  | "throw" => some (parseThrow g)
  | "break" => some parseBreak
  | "continue" => some parseContinue
  | "with" => some (parseWith g)
  | "debugger" => some do advance; expectSemicolon; return .debugger
  | "function" => some do checkDeclAllowed allowDecls; .decl <$> parseFunctionDecl g
  | "class" => some do checkDeclAllowed allowDecls; .decl <$> parseClassDecl g
  | "var" => some (.decl <$> parseVars g .varKind)
  | _ => none

/-- A statement that begins with `import` and is no import: what is imported when
the program runs. -/
def parseImportExpr : Parse Stmt := do
  let e ← g.expr
  let _ ← eatSemicolon
  return .expr e.expr

/-- Does `import` begin an expression here? -/
def atImportExpr : Parse Bool := do
  if ← isWord "import" then
    let second ← peekSecond
    return second.token == .mark "(" || second.token == .mark "."
  return false

/-- A statement that begins with a word which is no keyword of a statement. -/
def parseWordStmt (allowDecls : Bool) : Parse Stmt := do
  if ← atImportExpr then parseImportExpr g
  else if (← isWord "import") || (← isWord "export") then fail .importInScript
  else
    let kind ← if allowDecls then varKind? else pure none
    match kind with
    | some kind => return .decl (← parseVars g kind)
    | none =>
      if ← atAsyncFunction then return .decl (← parseFunctionDecl g)
      parseExprStmt g

/-- A statement. -/
def parseStmt (allowDecls : Bool) : Parse Stmt := do
  match ← demand with
  | .mark "\x7b" => return .block (← parseBlock g)
  | .mark ";" => advance; return .empty
  | .word name =>
    match parseKeywordStmt? g allowDecls name with
    | some statement => statement
    | none => parseWordStmt g allowDecls
  | _ => parseExprStmt g

/-- A statement of a program. One that begins with `await` makes it a module, and
a missing semicolon after it is passed over. -/
def parseTopStmt : Parse Stmt := do
  let start ← here
  if ← eatWord "await" then
    modify ({ · with isModule := true })
    let e ← parseAwait g start
    let e ← withIn (parseBinaryTail g 0 g.fuel e)
    let _ ← eatSemicolon
    return .expr e.expr
  parseStmt g true

end Parse
end DeadBranch
