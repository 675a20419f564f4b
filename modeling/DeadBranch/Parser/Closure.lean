/-
# Blocks, functions and classes

A function body is read in surroundings of its own: it may return, what it
holds cannot break out of it, and labels outside are out of reach. If the first
statement of a body says so, the rest of it is strict code, except in an arrow
function.

Key definitions: `parseBlock`, `parseBody`, `parseClosure`, `parseArrowBody`,
`parseProperty`, `parseMember`, `parseClassTail`.
-/
import DeadBranch.Parser.Pattern

namespace DeadBranch
namespace Parse

variable (g : Grammar)

/-! ### Blocks -/

/-- Does a statement turn on strict code? -/
def isUseStrict : Stmt → Bool
  | .expr (.literal (.string _ raw)) => raw == "'use strict'" || raw == "\"use strict\""
  | _ => false

/-- Statements with the places where they start, up to a closing brace, which is
taken. At the end of the source it is missing: that is a fault, but the
statements count. -/
def parseStmts : Nat → Parse (List (Nat × Stmt))
  | 0 => fail .nestedTooDeeply
  | fuel + 1 => do
    if ← atEnd then
      complain (← position) (.expected "\x7d" "<eof>")
      return []
    checkToken
    if ← eatMark "\x7d" then return []
    let start ← here
    let first ← g.stmt true
    return (start, first) :: (← parseStmts fuel)

/-- Statements in braces, and where the first of them starts that says the code is
strict. If it is the very first, it makes the others so. -/
def parseBraces (allowStrict : Bool) : Parse (Block × Option Nat) := do
  let start ← here
  expectMark "\x7b"
  let stmts ← if !allowStrict || (← isMark "\x7d") || (← atEnd) then parseStmts g g.fuel else
    let firstStart ← here
    let first ← g.stmt true
    let rest ← within (fun s => { s with strict := s.strict || isUseStrict first })
      (parseStmts g g.fuel)
    pure ((firstStart, first) :: rest)
  let strict := stmts.find? fun (_, stmt) => isUseStrict stmt
  return (.mk ⟨start, ← lastStop⟩ (stmts.map (·.2)), strict.map (·.1))

/-- Statements in braces. -/
def parseBlock : Parse Block := return (← parseBraces g false).1

/-- Is every parameter a plain name? -/
def areNames (params : List Expr) : Bool :=
  params.all fun
    | .ident _ => true
    | _ => false

/-- The braces of a function with the given parameters. Only a function with plain
names for parameters may say that it is strict code. -/
def parseBody (isArrow : Bool) (params : List Expr) : Parse Block := do
  let (body, strict) ← parseBraces g (!isArrow)
  match strict with
  | some place => unless areNames params do complain place .strictWithPatterns
  | none => pure ()
  return body

/-! ### Functions -/

/-- The surroundings inside the body of a function. -/
def intoBody (isArrow isAsync isGenerator : Bool) (s : Surroundings) : Surroundings :=
  { s with
    inFunction := true, hasNewTarget := s.hasNewTarget || !isArrow, isAsync, isGenerator
    inStaticBlock := false, canBreak := false, canContinue := false }

/-- Parameters and body of a function that started at `start`. The parameters,
with the place of the first, are checked before their closing parenthesis is
taken. -/
def parseClosure (head : ClosureHead) (start : Nat) (check : Nat → List Expr → Parse Unit) :
    Parse Closure :=
  within (fun s => { s with isAsync := head.isAsync, isGenerator := head.isGenerator }) do
    expectMark "("
    let inside (s : Surroundings) : Surroundings :=
      { s with inParams := true, inFunction := false, hasNewTarget := true }
    let params ← within inside do
      let paramStart ← here
      let params ← parseParamList g none g.fuel
      check paramStart params
      return params
    expectMark ")"
    let inside (s : Surroundings) : Surroundings :=
      { intoBody false head.isAsync head.isGenerator s with allowIn := true }
    let body ← within inside (withoutLabels (parseBody g false params))
    return .block head ⟨start, ← lastStop⟩ params body

/-- A function after the words that open it. -/
def parseFunctionTail (start : Nat) (isAsync isGenerator : Bool) (name : Option String) :
    Parse Closure :=
  within (fun s => { s with hasSuper := false, inField := false })
    (parseClosure g ⟨.function, name, isAsync, isGenerator⟩ start fun _ _ => return)

/-- `async` and `function` in front of a function. -/
def parseFunctionWords : Parse (Bool × Bool) := do
  let isAsync ← eatWord "async"
  expectWord "function"
  let isGenerator ← eatMark "*"
  return (isAsync, isGenerator)

/-- A function expression, with or without a name. -/
def parseFunctionExpr : Parse Closure := do
  let start ← here
  let (isAsync, isGenerator) ← parseFunctionWords
  let name ← within (fun s => { s with isAsync, isGenerator }) parseBoundName?
  parseFunctionTail g start isAsync isGenerator name

/-- A function declaration, which has a name. -/
def parseFunctionDecl : Parse Decl := do
  let start ← here
  let (isAsync, isGenerator) ← parseFunctionWords
  let name ← parseBoundName
  return .function name (← parseFunctionTail g start isAsync isGenerator (some name))

/-- Is an asynchronous function next? -/
def atAsyncFunction : Parse Bool := do
  if ← isWord "async" then
    let second ← peekSecond
    return second.token == .word "function" && !second.afterBreak
  return false

/-- The body of an arrow function, after its arrow. -/
def parseArrowBody (start : Nat) (isAsync : Bool) (params : List Expr) : Parse Term := do
  let head : ClosureHead := ⟨.arrow, none, isAsync, false⟩
  within (intoBody true isAsync false) <| withoutLabels do
    if ← isMark "\x7b" then
      let body ← parseBody g true params
      return .leaf start (.closure (.block head ⟨start, ← lastStop⟩ params body))
    let result ← g.assign
    return .leaf start (.closure (.concise head ⟨start, ← lastStop⟩ params result.expr))

/-- Is it an arrow function? -/
def isArrow : Expr → Bool
  | .closure (.block head _ _ _) => head.boundary == .arrow
  | .closure (.concise head _ _ _) => head.boundary == .arrow
  | _ => false

/-! ### Methods and properties -/

/-- Runs a step in the surroundings of a method. -/
def inMethod {α : Type} (step : Parse α) : Parse α :=
  within (fun s => { s with hasSuper := true, inField := false }) step

/-- Is it a rest element? -/
def isRest : Expr → Bool
  | .spread _ => true
  | _ => false

/-- Checks the parameters of an accessor. `place` is where their number is
complained about, `paramStart` where the first of them starts. -/
def checkAccessor (role : Role) (place paramStart : Nat) (params : List Expr) : Parse Unit := do
  match role with
  | .get => unless params.isEmpty do complain place .getterParameters
  | .set =>
    unless params.length == 1 do complain place .setterParameters
    if params.head?.any isRest then complain paramStart .setterRest
  | _ => return

/-- A function without its parameters, or with the first one only, as the
accessors of objects have them. -/
def accessorBody (role : Role) : Closure → Closure
  | .block head span params body =>
    .block head span (if role == .get then [] else params.take 1) body
  | body => body

/-- A method of an object, after its key. -/
def parseMethod (start : Nat) (key : Key) (isAsync isGenerator : Bool) : Parse Property := do
  let body ← inMethod
    (parseClosure g ⟨.function, none, isAsync, isGenerator⟩ start fun _ _ => return)
  return .method .plain false key body

/-- An accessor of an object, after the word that opens it. -/
def parseAccessor (start : Nat) (role : Role) : Parse Property := do
  let place ← here
  let key ← parseKey g
  let boundary := if role == .get then Boundary.getter else .setter
  let body ← inMethod
    (parseClosure g ⟨boundary, none, false, false⟩ start (checkAccessor role place))
  return .method role false key (accessorBody role body)

/-- What follows the key of a property that is a word and has no value: nothing,
a default, or the key of a method that the word says something about. -/
def parseShorthand (start : Nat) (name : String) : Parse Property := do
  if ← eatMark "?" then complain (← lastStart) .optionalProperty
  if ← isAnyMark ["=", ",", "\x7d"] then
    if (← read).isReserved name then complain start .shorthandReserved
    if ← eatMark "=" then return .shorthand name (← withIn g.assign).expr
    return .shorthand name .absent
  if name == "get" then parseAccessor g start .get
  else if name == "set" then parseAccessor g start .set
  else if name == "async" then
    let isGenerator ← eatMark "*"
    parseMethod g start (← parseKey g) true isGenerator
  else unexpected "... , *,  (, [, :, , ?, = or an identifier"

/-- A property of an object, with the term of its value. -/
def parseProperty : Parse (Property × List Term) := do
  let start ← here
  if ← eatMark "..." then
    let operand ← withIn g.assign
    return (.spread operand.expr, [operand])
  if ← eatMark "*" then return (← parseMethod g start (← parseKey g) false true, [])
  let key ← parseKey g
  if ← eatMark ":" then
    let value ← withIn g.assign
    return (.pair key value.expr, [value])
  if ← isMark "(" then return (← parseMethod g start key false false, [])
  match key with
  | .ident name => return (← parseShorthand g start name, [])
  | _ => unexpected "identifier"

/-- The properties of an object that opened at `start`, up to its closing brace,
which is taken. -/
def parseProperties (start : Nat) : Nat → Parse (List (Property × Term))
  | 0 => fail .nestedTooDeeply
  | fuel + 1 => do
    if ← eatMark "\x7d" then return []
    let place ← here
    let (property, parts) ← parseProperty g
    unless ← isMark "\x7d" do
      expectMark ","
      if ← isMark "\x7d" then
        let comma ← lastStart
        modify fun s => { s with trailingCommas := (start, comma) :: s.trailingCommas }
    return (property, .mk .absent place parts) :: (← parseProperties start fuel)

/-- An object; its opening brace is next. -/
def parseObject : Parse Term := do
  let start ← here
  advance
  let properties ← parseProperties g start g.fuel
  return .mk (.object (properties.map (·.1))) start (properties.map (·.2))

/-! ### Classes -/

/-- Does a key say `constructor`? -/
def isConstructorKey : Key → Bool
  | .ident name => name == "constructor"
  | .string value _ => value == "constructor"
  | _ => false

/-- The key of a class member. -/
def parseMemberKey : Parse Key := do
  if ← isMark "#" then
    let start ← here
    let name ← parsePrivateName
    if name == "constructor" then complain start .constructorPrivate
    return .privateName name
  parseKey g

/-- Does a class member end after its key? A line break ends it if asked for. -/
def atFieldEnd (lineBreaks : Bool) : Parse Bool := do
  if ← isAnyMark ["=", "\x7d", ";"] then return true
  if lineBreaks then atStatementEnd else return false

/-- A field of a class, after its key at `keyStart`. -/
def parseField (isStatic : Bool) (key : Key) (keyStart : Nat) : Parse Property := do
  if isConstructorKey key then failAt keyStart .constructorField
  within (fun s => { s with allowIn := true, inField := true }) do
    let value ← if ← eatMark "=" then Term.expr <$> g.assign else pure .absent
    unless ← eatSemicolon do complain (← position) .semicolonExpected
    return .field isStatic key value

/-- What is said about a member of a class before its parameters. -/
structure MemberHead where
  start : Nat
  isStatic : Bool
  role : Role := .plain
  isAsync : Bool := false
  isGenerator : Bool := false

/-- A method of a class, after its key. -/
def parseMemberTail (head : MemberHead) (place : Nat) (key : Key) : Parse Property := do
  let body ← inMethod (parseClosure g ⟨.function, none, head.isAsync, head.isGenerator⟩ head.start
    (checkAccessor head.role place))
  return .method head.role head.isStatic key body

/-- The word at the front of a member that opens an accessor, if it does. -/
def accessorRole? (key : Key) : Parse (Option Role) := do
  let role := match key with
    | .ident "get" => some Role.get
    | .ident "set" => some .set
    | _ => none
  if role.isSome && !(← atFieldEnd false) && !((← afterBreak) && (← isMark "*")) then return role
  return none

/-- A member of a class that has no constructor's key, after its first key. -/
def parseNamedMember (head : MemberHead) (keyStart : Nat) (key : Key) : Parse Property := do
  let role ← accessorRole? key
  if role.isNone && (← atFieldEnd true) then parseField g head.isStatic key keyStart
  else
    match key, role with
    | .ident "async", _ =>
      if ← afterBreak then
        unexpected "* for generator, private key, identifier or async"
      else
        let isGenerator ← eatMark "*"
        let key ← parseMemberKey g
        if isConstructorKey key then complain (← position) .constructorAsync
        parseMemberTail g { head with isAsync := true, isGenerator } keyStart key
    | _, some role =>
      let key ← parseMemberKey g
      if isConstructorKey key then complain keyStart .constructorAccessor
      parseMemberTail g { head with role } keyStart key
    | _, none => unexpected "* for generator, private key, identifier or async"

/-- A block in a class that runs once. -/
def parseStaticBlock : Parse Property := do
  return .staticBlock (← within (fun s => { s with inStaticBlock := true, inField := true })
    (parseBlock g))

/-- A member of a class, after `static` if that is a word of its own. -/
def parsePlainMember (head : MemberHead) : Parse Property := do
  if head.isStatic && (← isMark "\x7b") then parseStaticBlock g
  else if ← eatMark "*" then
    let key ← parseMemberKey g
    if isConstructorKey key then complain (← position) .constructorGenerator
    parseMemberTail g { head with isGenerator := true } head.start key
  else
    let keyStart ← here
    let key ← parseMemberKey g
    if ← isMark "(" then
      if isConstructorKey key && !head.isStatic then
        let body ← inMethod (parseClosure g ⟨.constructor, none, false, false⟩ head.start
          fun _ _ => return)
        return .method .constructor false key body
      parseMemberTail g head keyStart key
    else parseNamedMember g head keyStart key

/-- A member of a class. -/
def parseMember : Parse Property := do
  let start ← here
  if ← eatWord "static" then
    let key := Key.ident "static"
    if ← isMark "(" then parseMemberTail g { start, isStatic := false } start key
    else if ← atFieldEnd false then parseField g false key start
    else parsePlainMember g { start, isStatic := true }
  else parsePlainMember g { start, isStatic := false }

/-- Is the member a constructor? -/
def isConstructor : Property → Bool
  | .method .constructor _ _ _ => true
  | _ => false

/-- The members of a class up to its closing brace. -/
def parseMembers (hasConstructor : Bool) : Nat → Parse (List Property)
  | 0 => fail .nestedTooDeeply
  | fuel + 1 => do
    if (← atEnd) || (← isMark "\x7d") then return []
    if ← eatMark ";" then return .empty :: (← parseMembers hasConstructor fuel)
    let start ← here
    let member ← within ({ · with hasSuper := true }) (parseMember g)
    if hasConstructor && isConstructor member then complain start .constructorRepeated
    return member :: (← parseMembers (hasConstructor || isConstructor member) fuel)

/-- What follows the name of a class. -/
def parseClassTail : Parse (List Property × Expr) := do
  let parent ← if ← eatWord "extends" then Term.expr <$> g.leftHand else pure .absent
  if ← eatWord "extends" then
    complain (← lastStart) .extendsRepeated
    let _ ← g.leftHand
  expectMark "\x7b"
  let members ← parseMembers g false g.fuel
  if ← atEnd then complain (← position) (.expected "\x7d" "<eof>") else expectMark "\x7d"
  return (members, parent)

/-- The surroundings inside a class: all of it is strict code. -/
def intoClass (s : Surroundings) : Surroundings := { s with strict := true, hasNewTarget := true }

/-- A class expression; its word is next. -/
def parseClassExpr : Parse Expr :=
  within intoClass do
    advance
    let name ← parseBoundName?
    let (members, parent) ← parseClassTail g
    return .classExpr name members parent

/-- A class declaration; its word is next. -/
def parseClassDecl : Parse Decl :=
  within intoClass do
    advance
    let name ← parseBoundName
    let (members, parent) ← parseClassTail g
    return .classDecl name members parent

end Parse
end DeadBranch
