/-
# Expressions

The levels of the grammar from literals up to the comma. Operators with two
operands are read by their rank: the higher the rank, the tighter they bind. An
arrow function ends an expression: no operator follows it.

What stands in parentheses is read as a list of expressions; when an arrow
follows, they are turned into parameters.

Key definitions: `parsePrimary`, `parseSubscripts`, `parseUnary`,
`parseBinary`, `parseAssign`, `parseExpr`.
-/
import DeadBranch.Parser.Closure

namespace DeadBranch
namespace Parse

variable (g : Grammar)

/-! ### Lists and templates -/

/-- An element of an array or an argument. -/
def parseSpreadable : Parse Term := do
  let start ← here
  if ← eatMark "..." then
    let operand ← withIn g.assign
    return .mk (.spread operand.expr) start [operand]
  withIn g.assign

/-- The arguments of a call, up to the closing parenthesis. -/
def parseArgumentList (start : Nat) (isImport isFirst : Bool) : Nat → Parse (List Expr)
  | 0 => fail .nestedTooDeeply
  | fuel + 1 => do
    if (← atEnd) || (← isMark ")") then return []
    unless isFirst do
      expectMark ","
      if ← isMark ")" then
        if isImport then failAt start .trailingCommaInImport
        return []
    let first ← parseSpreadable g
    return first.expr :: (← parseArgumentList start isImport false fuel)

/-- The arguments of a call; the opening parenthesis is next. -/
def parseArguments (isImport : Bool) : Parse (List Expr) := do
  let start ← here
  expectMark "("
  let args ← parseArgumentList g start isImport true g.fuel
  expectMark ")"
  return args

/-- The elements of an array that opened at `start`, up to the closing
bracket. -/
def parseElements (start : Nat) : Nat → Parse (List Term)
  | 0 => fail .nestedTooDeeply
  | fuel + 1 => do
    if (← atEnd) || (← isMark "]") then return []
    if ← isMark "," then
      let place ← here
      advance
      return .leaf place .absent :: (← parseElements start fuel)
    let first ← parseSpreadable g
    unless ← isMark "]" do
      expectMark ","
      if ← isMark "]" then
        let comma ← lastStart
        modify fun s => { s with trailingCommas := (start, comma) :: s.trailingCommas }
    return first :: (← parseElements start fuel)

/-- An array; its opening bracket is next. -/
def parseArray : Parse Term := do
  let start ← here
  advance
  let elements ← parseElements g start g.fuel
  expectMark "]"
  return .mk (.array (elements.map Term.expr)) start elements

/-- One part of a template as it is written. What is wrong with its escapes does
not matter to a tag. -/
def parseTemplatePart (isTagged : Bool) : Parse String := do
  match ← demand with
  | .template raw fault =>
    advance
    match fault with
    | some fault => unless isTagged do throw fault
    | none => pure ()
    return raw
  | _ => unexpected "template token"

/-- The parts of a template, and the expressions in between. -/
def parseTemplateParts (isTagged : Bool) : Nat → Parse (List String × List Expr)
  | 0 => fail .nestedTooDeeply
  | fuel + 1 => do
    let raw ← parseTemplatePart isTagged
    if ← isMark "`" then return ([raw], [])
    expectMark "$\x7b"
    let inserted ← withIn g.expr
    expectMark "\x7d"
    let (raws, exprs) ← parseTemplateParts isTagged fuel
    return (raw :: raws, inserted.expr :: exprs)

/-- A template; its opening mark is next. -/
def parseTemplate (isTagged : Bool) : Parse (List String × List Expr) := do
  advance
  let parts ← parseTemplateParts g isTagged g.fuel
  expectMark "`"
  return parts

/-! ### Primary expressions -/

/-- The flags of a regular expression. -/
def regexFlags : List Char := ['d', 'g', 'i', 'm', 's', 'u', 'y']

/-- Complains about the flags of a regular expression that started at `start`. -/
def checkFlags (start : Nat) (flags : List Char) : Parse Unit := do
  unless flags.all regexFlags.contains do complain start .regexFlagsUnknown
  match (regexFlags ++ flags).find? (1 < flags.count ·) with
  | some flag => complain start (.regexFlagRepeated flag)
  | none => return

/-- A regular expression; the mark it opens with is next. `front` is what the mark
holds of its pattern. -/
def parseRegex (front : List Char) : Parse Term := do
  let start ← here
  advance
  modify fun s => { s with lexing := s.lexing.openRegex start front }
  match ← peek with
  | .regex pattern flags =>
    advance
    checkFlags start flags.toList
    return .leaf start (.literal (.regex pattern flags))
  | _ => fail .expressionExpected

/-- The parameters that the entries of parentheses stand for, and the comma after
the last one. -/
def toParams (comma : Option Nat) : List Term → Parse (List Expr)
  | [] => return []
  | [.mk (.spread operand) start parts] => do
    if operand.isAssignment then complain start .restWithDefault
    match comma with
    | some place => complain place .commaAfterRest
    | none => pure ()
    spreadPatterns .param parts
  | .mk (.spread _) start _ :: rest => do
    complain start .restParamNotLast
    toParams comma rest
  | t :: rest => do
    let first ← toPattern .param t
    return first :: (← toParams comma rest)

/-- The entries of parentheses, up to the closing one, and the comma after the
last. An arrow after a plain name makes a function of it. -/
def parseEntries (comma : Option Nat) : Nat → Parse (List Term × Option Nat)
  | 0 => fail .nestedTooDeeply
  | fuel + 1 => do
    if (← atEnd) || (← isMark ")") then return ([], comma)
    let isAsync ← if ← isWord "async" then
        match (← peekSecond).token with
        | .mark "(" | .word "function" => pure true
        | .word name => pure !(← read).isReserved name
        | .name _ => pure true
        | _ => pure false
      else pure false
    let start ← here
    modify fun s => { s with arrowStart := some start }
    let entry ← parseSpreadable g
    let more ← if ← eatMark "=>" then
        match entry.expr with
        | .ident name => pure [← parseArrowBody g start isAsync [.ident name]]
        | _ => pure []
      else pure []
    let comma ← if ← isMark ")" then pure none else
      expectMark ","
      if ← isMark ")" then some <$> lastStart else pure none
    let (entries, comma) ← parseEntries comma fuel
    return (entry :: more ++ entries, comma)

/-- Complains about properties with a default, which only patterns have. -/
def checkNoDefaults : Term → Parse Unit
  | .mk (.object properties) _ parts =>
    (properties.zip parts).forM fun
      | (.shorthand _ fallback, part) =>
        unless fallback.isAbsent do complain part.start .shorthandDefault
      | _ => return
  | _ => return

/-- The expression that parentheses hold, which are no parameters. -/
def parenthesized (start : Nat) (entries : List Term) : Parse Term := do
  if entries.isEmpty then failAt start .parensEmpty
  if entries.any (fun t => isRest t.expr) then failAt start .spreadInParens
  match entries with
  | [entry] => return .leaf start (.paren entry.expr)
  | _ => return .leaf start (.paren (.other .sequence (entries.map Term.expr)))

/-- Is the token a mark that is an operator of two operands? -/
def isBinaryMark : Token → Bool
  | .mark text => (BinaryOp.ofText? text).isSome
  | _ => false

/-- Does a function have a block for a body? -/
def hasBlockBody : Expr → Bool
  | .closure (.block _ _ _ _) => true
  | _ => false

/-- The operators that follow an arrow function with a block for a body. There is
a semicolon missing before them and, if more follows, behind them: both are
faults, but reading goes on. -/
def parseArrowOperators (arrow : Term) : Parse Term := do
  complain (← position) .semicolonExpected
  let e ← g.operators arrow
  unless ← atStatementEnd do complain (← position) .semicolonExpected
  return e

/-- Parentheses with what may follow them; the opening one is next. They hold an
expression, the parameters of an arrow function, or after `async`, at
`asyncStart`, arguments. -/
def parseParens (mayBeArrow : Bool) (asyncStart : Option Nat) : Parse Term := do
  let start ← match asyncStart with
    | some start => pure start
    | none => here
  let (entries, comma) ← withIn do
    expectMark "("
    let entries ← parseEntries g none g.fuel
    expectMark ")"
    return entries
  if ← isMark "=>" then
    if ← afterBreak then fail .arrowLineBreak
    unless mayBeArrow do fail .arrowNotAllowed
    advance
    let params ← toParams comma entries
    let arrow ← parseArrowBody g start asyncStart.isSome params
    unless hasBlockBody arrow.expr do return arrow
    checkToken
    if isBinaryMark (← peek) then parseArrowOperators g arrow else return arrow
  else
    entries.forM fun
      | .mk (.spread _) _ parts => parts.forM checkNoDefaults
      | entry => checkNoDefaults entry
    match asyncStart with
    | some _ => return .leaf start (.other .call (.ident "async" :: entries.map Term.expr))
    | none => parenthesized start entries

/-- Is `of` next in the head of a `for`, where it is no parameter? -/
def atLoopOf : Parse Bool := do
  if (← read).loopHead.isSome && (← isWord "of") then
    return (← peekSecond).token != .mark "=>"
  return false

/-- A name, or an arrow function with a name as its parameter. -/
def parseNameOrArrow (start : Nat) (mayBeArrow : Bool) : Parse Term := do
  let name ← parseReference
  if mayBeArrow && !(← afterBreak) then
    if name == "async" && (← atName) then
      if ← atLoopOf then
        if (← read).loopHead == some false then complain start .loopOverAsync
        return .leaf start (.ident name)
      let param ← parseBoundName
      expectMark "=>"
      return ← parseArrowBody g start true [.ident param]
    if ← eatMark "=>" then
      if name == "eval" || name == "arguments" then
        if (← read).strict then complainInModule start .evalBound
      return ← parseArrowBody g start false [.ident name]
  return .leaf start (.ident name)

/-- An expression that begins with a word of any kind, private names included. -/
def parseWordExpr (start : Nat) (mayBeArrow : Bool) : Parse Term := do
  if ← isWord "class" then return .leaf start (← parseClassExpr g)
  if (← isWord "let") || (← atName) then parseNameOrArrow g start mayBeArrow
  else if ← eatMark "#" then return .leaf start (.other (.privateName (← parseWord)) [])
  else fail .expressionExpected

/-- `async` as the first word of a function, of a call, or as a name. -/
def parseAsync (start : Nat) (mayBeArrow : Bool) : Parse Term := do
  if ← atAsyncFunction then return .leaf start (.closure (← parseFunctionExpr g))
  let second ← peekSecond
  if mayBeArrow && second.token == .mark "(" && !second.afterBreak then
    advance
    parseParens g mayBeArrow (some start)
  else parseWordExpr g start mayBeArrow

/-- An expression that is not made of others by operators. -/
def parsePrimary : Parse Term := do
  let start ← here
  let mayBeArrow := (← get).arrowStart == some start
  let literal (value : Literal) : Parse Term := do advance; return .leaf start (.literal value)
  match ← peek with
  | .word "this" => advance; return .leaf start (.other (.word "this") [])
  | .word "async" => parseAsync g start mayBeArrow
  | .mark "[" => parseArray g
  | .mark "\x7b" => parseObject g
  | .word "function" => return .leaf start (.closure (← parseFunctionExpr g))
  | .word "null" => literal .null
  | .word "true" => literal (.bool true)
  | .word "false" => literal (.bool false)
  | .number value raw => literal (.number value raw)
  | .bigint value raw => literal (.bigint value raw)
  | .string value raw => literal (.string value raw)
  | .mark "/" => parseRegex []
  | .mark "/=" => parseRegex ['=']
  | .mark "`" =>
    let (raws, exprs) ← parseTemplate g false
    return .leaf start (.other (.template raws) exprs)
  | .mark "(" => parseParens g mayBeArrow none
  | _ => parseWordExpr g start mayBeArrow

/-! ### Members and calls -/

/-- Is it a part of an optional chain? -/
def isChain : Expr → Bool
  | .other (.chainMember _ _) _ => true
  | .other (.chainPrivate _ _) _ => true
  | .other (.chainIndex _) _ => true
  | .other (.chainCall _) _ => true
  | _ => false

/-- Is it this bare word? -/
def isBare (word : String) : Expr → Bool
  | .other (.word text) [] => text == word
  | _ => false

/-- Complains about a member of `super` where there is none. -/
def checkSuper (base : Term) : Parse Unit := do
  if isBare "super" base.expr && !(← read).hasSuper then complain base.start .superNotAllowed

/-- The member of `base` whose name is next. -/
def parseMemberName (base : Term) (isOptional : Bool) : Parse Expr := do
  let chained := isOptional || isChain base.expr
  if ← isMark "#" then
    let name ← parsePrivateName
    checkSuper base
    let form := if chained then Form.chainPrivate isOptional name else .privateMember name
    return .other form [base.expr]
  let name ← parseWord
  if isBare "import" base.expr then
    unless name == "meta" do unexpected "meta"
    return .other (.word "import.meta") []
  checkSuper base
  if chained then return .other (.chainMember isOptional name) [base.expr]
  return .member base.expr name

/-- The element of `base` whose key is next, after the opening bracket. -/
def parseIndex (base : Term) (isOptional : Bool) : Parse Expr := do
  let key ← withIn g.expr
  expectMark "]"
  checkSuper base
  if isOptional || isChain base.expr then
    return .other (.chainIndex isOptional) [base.expr, key.expr]
  return .index base.expr key.expr

/-- A call of `base`; the opening parenthesis is next. -/
def parseCall (base : Term) (isOptional : Bool) : Parse Expr := do
  let args ← parseArguments g (isBare "import" base.expr)
  if isOptional || isChain base.expr then
    if isBare "super" base.expr || isBare "import" base.expr then fail .superOptional
    return .other (.chainCall isOptional) (base.expr :: args)
  return .other .call (base.expr :: args)

/-- Is the mark of an optional chain next? It is made of two. -/
def atOptional : Parse Bool := do
  if ← isMark "?" then return (← peekSecond).token == .mark "."
  return false

/-- One member, call or template that follows an expression, if there is one. -/
def parseSubscript? (allowCalls : Bool) (base : Term) : Parse (Option Expr) := do
  checkToken
  if ← atOptional then
    advance
    match (← peekSecond).token with
    | .mark "[" => advance; advance; some <$> parseIndex g base true
    | .mark "(" => advance; some <$> parseCall g base true
    | _ => advance; some <$> parseMemberName base true
  else if ← eatMark "[" then some <$> parseIndex g base false
  else if allowCalls && (← isMark "(") then some <$> parseCall g base false
  else if ← eatMark "." then some <$> parseMemberName base false
  else if isBare "super" base.expr then fail .superNotAllowed
  else if isBare "import" base.expr then fail .importNotAllowed
  else if ← isMark "`" then
    let (raws, exprs) ← parseTemplate g true
    if isChain base.expr then complain base.start .templateInChain
    return some (.other (.tagged raws) (base.expr :: exprs))
  else return none

/-- The members, calls and templates that follow an expression. -/
def parseSubscripts (allowCalls : Bool) : Nat → Term → Parse Term
  | 0, _ => fail .nestedTooDeeply
  | fuel + 1, base => do
    match ← parseSubscript? g allowCalls base with
    | some e => parseSubscripts allowCalls fuel (.leaf base.start e)
    | none => return base

/-- `new.target`, after its point. -/
def parseNewTarget (start : Nat) : Parse Term := do
  unless ← eatWord "target" do unexpected "target"
  unless (← read).hasNewTarget do complain start .newTargetNotAllowed
  parseSubscripts g false g.fuel (.leaf start (.other (.word "new.target") []))

/-- Is it a part of an optional chain that is optional itself? -/
def isOptionalStep : Expr → Bool
  | .other (.chainMember isOptional _) _ => isOptional
  | .other (.chainPrivate isOptional _) _ => isOptional
  | .other (.chainIndex isOptional) _ => isOptional
  | .other (.chainCall isOptional) _ => isOptional
  | _ => false

/-- `new` and what it is applied to, after the word. -/
def parseNew (start : Nat) : Parse Term := do
  if ← eatMark "." then parseNewTarget g start
  else
    let callee ← g.callee
    if isArrow callee.expr then return callee
    if isOptionalStep callee.expr then failAt callee.start .newOverChain
    if ← isMark "(" then
      let args ← parseArguments g false
      parseSubscripts g false g.fuel (.leaf start (.other (.new true) (callee.expr :: args)))
    else return .leaf start (.other (.new false) [callee.expr])

/-- Members without calls, and what `new` is applied to. -/
def parseCallee : Parse Term := do
  let start ← here
  if ← eatWord "new" then parseNew g start
  else if ← eatWord "super" then
    parseSubscripts g false g.fuel (.leaf start (.other (.word "super") []))
  else if ← eatWord "import" then
    parseSubscripts g false g.fuel (.leaf start (.other (.word "import") []))
  else
    let base ← parsePrimary g
    if isArrow base.expr then return base
    parseSubscripts g false g.fuel base

/-- Is it `new` without arguments? -/
def isNewWithoutArguments : Expr → Bool
  | .other (.new false) _ => true
  | _ => false

/-- An expression that may stand to the left of an assignment. -/
def parseLeftHand : Parse Term := do
  let start ← here
  if ← eatWord "super" then
    parseSubscripts g true g.fuel (.leaf start (.other (.word "super") []))
  else if ← eatWord "import" then
    parseSubscripts g true g.fuel (.leaf start (.other (.word "import") []))
  else
    let base ← parseCallee g
    if isArrow base.expr || isNewWithoutArguments base.expr then return base
    if ← isMark "(" then
      let e ← parseCall g base false
      parseSubscripts g true g.fuel (.leaf start e)
    else return base

/-! ### Operators -/

/-- The operator of one operand that is next. -/
def unaryOp? : Token → Option UnaryOp
  | .mark text => UnaryOp.ofText? text
  | .word name => if ["void", "typeof", "delete"].contains name then UnaryOp.ofText? name else none
  | _ => none

/-- `await` and its operand, after the word. Where no operand can follow, the word
is a name. -/
def parseAwait (start : Nat) : Parse Term := do
  if ← isMark "*" then fail .awaitStar
  let s ← read
  if !s.isAsync && ((← isAnyMark [")", "]", ","]) || (← atStatementEnd)) then
    if s.isModule then complain start .awaitAsName
    return .leaf start (.ident "await")
  if s.inFunction && !s.isAsync then complain (← position) .awaitNotAllowed
  if s.inParams && !s.inFunction then complain start .awaitInParams
  let operand ← g.unary
  return .leaf start (.other .await [operand.expr])

/-- An operand with the operators of one operand around it. The operand of one
of them may be missing: that is a fault, but reading goes on. -/
def parseUnary : Parse Term := do
  let start ← here
  let token ← peek
  if token == .mark "++" || token == .mark "--" then
    advance
    let target ← g.unary
    checkTarget target
    return .leaf start (.other (.update token.describe true) [target.expr])
  match unaryOp? token with
  | some op =>
    advance
    let operand ← recover g.unary fun fault => do
      complainFault fault
      return .leaf fault.position .absent
    match op, operand.expr with
    | .delete, .ident _ => complainInModule operand.start .deleteName
    | _, _ => pure ()
    return .leaf start (.unary op operand.expr)
  | none =>
    if ← eatWord "await" then parseAwait g start
    else
      let e ← parseLeftHand g
      if isArrow e.expr || (← afterBreak) then return e
      let token ← peek
      if token == .mark "++" || token == .mark "--" then
        checkTarget e
        advance
        return .leaf start (.other (.update token.describe false) [e.expr])
      return e

/-- How tightly an operator of two operands binds. -/
def rank : BinaryOp → Nat
  | .coalesce | .or => 1
  | .and => 2
  | .bitOr => 3
  | .bitXor => 4
  | .bitAnd => 5
  | .looseEq | .looseNe | .strictEq | .strictNe => 6
  | .lt | .le | .gt | .ge | .hasKey | .instanceof => 7
  | .shiftLeft | .shiftRight | .shiftRightUnsigned => 8
  | .add | .sub => 9
  | .mul | .div | .rem => 10
  | .pow => 11

/-- The operator of two operands that is next. -/
def binaryOp? (s : Surroundings) : Token → Option BinaryOp
  | .mark text => BinaryOp.ofText? text
  | .word "in" => if s.allowIn then some .hasKey else none
  | .word "instanceof" => some .instanceof
  | _ => none

/-- Is it an operation of one of these operators, without parentheses? -/
def isOperation (ops : List BinaryOp) : Expr → Bool
  | .binary op _ _ => ops.contains op
  | _ => false

/-- Complains about `??` with an operand that is an operation of `&&` or `||`
without parentheses. -/
def checkCoalescing (left right : Term) : Parse Unit := do
  if isOperation [.and, .or] left.expr then complain left.start .coalescingMixed
  if isOperation [.and, .or] right.expr then complain right.start .coalescingMixed

/-- Complains about `&&` or `||` with an operation of `??` to its left without
parentheses. -/
def checkLogical (t : Term) : Parse Unit :=
  match t.expr with
  | .binary op left _ =>
    if (op == .and || op == .or) && isOperation [.coalesce] left then
      complain t.start .coalescingMixed
    else return
  | _ => return

/-- May it not stand to the left of `**`? -/
def isUnaryOperation : Expr → Bool
  | .unary _ _ => true
  | .other .await _ => true
  | _ => false

/-- The operators of a rank above `least`, and their operands, that follow a
left operand. -/
def parseBinaryTail (least : Nat) : Nat → Term → Parse Term
  | 0, _ => fail .nestedTooDeeply
  | fuel + 1, left => do
    checkToken
    match binaryOp? (← read) (← peek) with
    | none => checkLogical left; return left
    | some op =>
      if rank op ≤ least then checkLogical left; return left
      else
        advance
        if op == .pow && isUnaryOperation left.expr then fail .powerOverUnary
        let operand ← g.unary
        let right ← parseBinaryTail (if op == .pow then rank op - 1 else rank op) fuel operand
        if op == .coalesce then checkCoalescing left right
        let whole := Term.leaf left.start (.binary op left.expr right.expr)
        checkLogical whole
        parseBinaryTail least fuel whole

/-- Operators of two operands. A missing first operand is a fault, but reading
goes on if an operator is there. -/
def parseBinary : Parse Term := do
  let left ← recover (parseUnary g) fun fault => do
    match binaryOp? (← read) (← demand) with
    | some _ =>
      complain (← position) .expressionExpected
      return .leaf fault.position .absent
    | none => throw fault
  if isArrow left.expr then return left
  parseBinaryTail g 0 g.fuel left

/-- The choice between two expressions. -/
def parseCond : Parse Term := do
  let start ← here
  let test ← parseBinary g
  if isArrow test.expr then return test
  if ← eatMark "?" then
    let consequent ← withIn g.assign
    expectMark ":"
    let alternate ← g.assign
    return .leaf start (.cond test.expr consequent.expr alternate.expr)
  return test

/-! ### Assignments -/

/-- The operator of an assignment: `none` for a plain one. -/
def assignOp? : Token → Option (Option BinaryOp)
  | .mark "=" => some none
  | .mark text =>
    if text.endsWith "=" then (BinaryOp.ofText? (text.dropEnd 1).copy).bind fun op =>
      if rank op == 6 || rank op == 7 then none else some (some op)
    else none
  | _ => none

/-- The marks that an expression can begin with. -/
def openingMarks : List String :=
  ["(", "[", "\x7b", "`", "+", "-", "!", "~", "++", "--", "#", "*", "/", "/=", "%"]

/-- The keywords that an expression can begin with. -/
def openingKeywords : List String := [
  "await", "class", "delete", "function", "import", "let", "new", "super", "this", "typeof", "void",
  "yield"]

/-- Can an expression begin with the token? -/
def beginsExpr : Token → Bool
  | .word name => !keywords.contains name || openingKeywords.contains name
  | .mark text => openingMarks.contains text
  | .eof | .bad _ | .template _ _ => false
  | _ => true

/-- `yield` and its operand; the word is next. -/
def parseYield : Parse Term := do
  let start ← here
  advance
  let s ← read
  if s.inParams && !s.inFunction then failAt start .yieldInParams
  checkToken
  if (← atStatementEnd) || !beginsExpr (← peek) then
    return .leaf start (.other (.yield false) [])
  let delegate ← eatMark "*"
  let operand ← g.assign
  return .leaf start (.other (.yield delegate) [operand.expr])

/-- Is it an operation, which nothing can be assigned to? -/
def isOperator : Expr → Bool
  | .cond _ _ _ | .binary _ _ _ | .unary _ _ => true
  | .other (.update _ _) _ => true
  | _ => false

/-- The assignment to what was read, if there is one. -/
def parseAssignTail (start : Nat) (left : Term) : Parse Term := do
  checkToken
  match assignOp? (← peek) with
  | none => return left
  | some none =>
    let target ← toPattern .target left
    advance
    let value ← g.assign
    return .leaf start (.assign none target value.expr)
  | some (some op) =>
    unless left.expr.isSimpleTarget (← read).strict do complain left.start .targetNotSimple
    advance
    let value ← g.assign
    return .leaf start (.assign (some op) left.expr value.expr)

/-- Can the parameters of an arrow function begin with the token? -/
def beginsArrow : Token → Bool
  | .mark "(" | .word "yield" => true
  | token => token.isPlainWord

/-- An expression without commas. -/
def parseAssign : Parse Term := do
  let start ← here
  if (← read).isGenerator && (← isWord "yield") then parseYield g
  else
    let token ← demand
    modify fun s => { s with arrowStart := if beginsArrow token then some start else none }
    let e ← parseCond g
    if isArrow e.expr || isOperator e.expr then return e
    parseAssignTail g start e

/-- The operands of commas after the first. -/
def parseOperands : Nat → Parse (List Expr)
  | 0 => fail .nestedTooDeeply
  | fuel + 1 => do
    unless ← eatMark "," do return []
    let first ← g.assign
    return first.expr :: (← parseOperands fuel)

/-- An expression. -/
def parseExpr : Parse Term := do
  let first ← g.assign
  let rest ← parseOperands g g.fuel
  if rest.isEmpty then return first
  return .leaf first.start (.other .sequence (first.expr :: rest))

end Parse
end DeadBranch
