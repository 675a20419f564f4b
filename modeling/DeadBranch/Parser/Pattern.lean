/-
# Names and patterns

What is bound by a declaration or a parameter is read as a pattern at once.
What stands to the left of `=`, and the parameters of an arrow function, are
read as expressions first and turned into patterns when the `=` or the arrow is
seen. For that, expressions are read as terms, which know the places of their
parts.

Key definitions: `Term`, `Grammar`, `parseName`, `parseBinding`, `toPattern`.
-/
import DeadBranch.Parser.State

namespace DeadBranch

/-- An expression with the byte it starts at. The elements of an array, the
properties of an object and the operand of `...` are parts; a property has its
value as a part. -/
inductive Term where
  | mk (expr : Expr) (start : Nat) (parts : List Term)

namespace Term

/-- The expression. -/
def expr : Term → Expr
  | mk e _ _ => e

/-- The byte it starts at. -/
def start : Term → Nat
  | mk _ p _ => p

/-- An expression whose parts are of no concern. -/
def leaf (start : Nat) (e : Expr) : Term := .mk e start []

end Term

/-- Is no part of what members are taken from an optional chain? -/
def Expr.isPlainBase : Expr → Bool
  | .member base _ => base.isPlainBase
  | .index base _ => base.isPlainBase
  | .other (.privateMember _) [base] => base.isPlainBase
  | .other (.chainMember _ _) _ | .other (.chainPrivate _ _) _ => false
  | .other (.chainIndex _) _ | .other (.chainCall _) _ => false
  | _ => true

/-- May it be assigned to as it is? -/
def Expr.isSimpleTarget (strict : Bool) : Expr → Bool
  | .ident name => !(strict && (name == "eval" || name == "arguments"))
  | .paren inner => inner.isSimpleTarget strict
  | .member base _ => base.isPlainBase
  | .index base _ => base.isPlainBase
  | .other (.privateMember _) [base] => base.isPlainBase
  | _ => false

/-- The parts of the grammar that refer to each other. `fuel` bounds how often
a repetition in it goes round. -/
structure Grammar where
  fuel : Nat
  expr : Parse Term
  assign : Parse Term
  unary : Parse Term
  /-- The operators of two operands that follow a left operand, and their right
  operands. -/
  operators : Term → Parse Term
  /-- What may stand to the left of an assignment. -/
  leftHand : Parse Term
  /-- What `new` is applied to. -/
  callee : Parse Term
  binding : Parse Expr
  /-- A statement; only some places take declarations. -/
  stmt : Bool → Parse Stmt

namespace Parse

/-! ### Names -/

/-- The plain words that modules do not take as names. -/
def moduleWords : List String := ["let", "yield", "static"] ++ strictWords

/-- Is a name next? -/
def atName : Parse Bool := do
  match ← peek with
  | .word name => return !(← read).isReserved name
  | .name _ => return true
  | _ => return false

/-- Takes a name, which must be next. The two words that are names in some places
are taken as such if asked for. -/
def parseName (allowYield allowAwait : Bool) : Parse String := do
  match ← demand with
  | .word name =>
    advance
    let start ← lastStart
    let s ← read
    if name == "enum" then complain start (.nameReserved name)
    if moduleWords.contains name then complainInModule start (.nameReserved name)
    if name == "await" then
      if s.inStaticBlock then failAt start .nameExpected
      if s.isModule || s.isAsync then failAt start .awaitAsName
      unless allowAwait do failAt start .nameExpected
    else if name == "yield" then unless allowYield do failAt start .nameExpected
    else if name != "let" && (keywords.contains name || valueWords.contains name) then
      failAt start .nameExpected
    else if name == "arguments" && s.inField then complain start .argumentsInField
    return name
  | .name text => advance; return text
  | _ => fail .nameExpected

/-- Takes a name that is referred to. -/
def parseReference : Parse String := do
  let s ← read
  parseName (!s.isGenerator) (!s.isAsync)

/-- Takes a name that is bound. -/
def parseBoundName : Parse String := do
  let name ← parseName true true
  let start ← lastStart
  let s ← read
  if name == "eval" || name == "arguments" then complainInModule start .evalBound
  if (s.isAsync || s.inStaticBlock) && name == "await" then complain start .nameExpected
  if s.isGenerator && name == "yield" then complain start .nameExpected
  return name

/-- Takes a name that is bound, if one is next. -/
def parseBoundName? : Parse (Option String) := do
  if ← atName then return some (← parseBoundName)
  return none

/-- Takes a word of any kind, which must be next. -/
def parseWord : Parse String := do
  match ← demand with
  | .word name | .name name => advance; return name
  | _ => fail .nameExpected

/-- Takes a private name; its mark is next. -/
def parsePrivateName : Parse String := do
  let start ← here
  advance
  let stop ← lastStop
  unless (← here) == stop do failAt start .spaceInPrivateName
  parseWord

/-! ### Patterns that bind -/

variable (g : Grammar)

/-- The key of a property, private names apart. -/
def parseKey : Parse Key := do
  match ← demand with
  | .word name | .name name => advance; return .ident name
  | .string value raw => advance; return .string value raw
  | .number value raw => advance; return .number value raw
  | .bigint value raw => advance; return .bigint value raw
  | .mark "[" =>
    advance
    let key ← withIn g.assign
    expectMark "]"
    return .computed key.expr
  | _ => unexpected "identifier, string literal, numeric literal or [ for the computed key"

/-- An element of a pattern: a pattern with a default, if there is one. -/
def parseBindingElement : Parse Expr := do
  let target ← g.binding
  if ← eatMark "=" then return .withDefault target (← withIn g.assign).expr
  return target

/-- The elements of an array pattern up to its closing bracket. `rest` is where
a rest element started that should have been the last. -/
def parseBindingElements (rest : Option Nat) : Nat → Parse (List Expr)
  | 0 => fail .nestedTooDeeply
  | fuel + 1 => do
    if (← atEnd) || (← isMark "]") then return []
    if ← eatMark "," then return .absent :: (← parseBindingElements rest fuel)
    match rest with
    | some start => complain start .restNotLast
    | none => pure ()
    let start ← here
    let isRest ← eatMark "..."
    let element ← if isRest then pure (.spread (← g.binding)) else parseBindingElement g
    unless ← isMark "]" do
      expectMark ","
      if isRest && (← isMark "]") then complain (← lastStart) .commaAfterRest
    return element :: (← parseBindingElements (if isRest then some start else rest) fuel)

/-- A property of an object pattern. -/
def parseBindingProperty : Parse Property := do
  if ← eatMark "..." then return .spread (← g.binding)
  let start ← here
  let key ← parseKey g
  if ← eatMark ":" then return .pair key (← parseBindingElement g)
  match key with
  | .ident name =>
    if ← eatMark "=" then return .shorthand name (← withIn g.assign).expr
    if (← read).isReserved name then complain start .shorthandReserved
    return .shorthand name .absent
  | _ => unexpected "an identifier"

/-- The properties of an object pattern with their places, up to its closing
brace, and the comma after the last one. -/
def parseBindingProperties (comma : Option Nat) : Nat → Parse (List (Nat × Property) × Option Nat)
  | 0 => fail .nestedTooDeeply
  | fuel + 1 => do
    if ← eatMark "\x7d" then return ([], comma)
    let start ← here
    let property ← parseBindingProperty g
    let comma ← if ← isMark "\x7d" then pure none else
      expectMark ","
      if ← isMark "\x7d" then some <$> lastStart else pure none
    let (properties, comma) ← parseBindingProperties comma fuel
    return ((start, property) :: properties, comma)

/-- Checks the rest properties of an object pattern. -/
def checkRestProperties (comma : Option Nat) : List (Nat × Property) → Parse Unit
  | [] => return
  | [(start, .spread operand)] =>
    match operand, comma with
    | .ident _, some place => complain place .commaAfterRest
    | .ident _, none => return
    | _, _ => failAt start .restNotName
  | [_] => return
  | (start, .spread _) :: rest => do
    complain start .restNotLast
    checkRestProperties comma rest
  | _ :: rest => checkRestProperties comma rest

/-- What a declaration or parameter binds: a name or a pattern. -/
def parseBinding : Parse Expr := do
  match ← demand with
  | .word _ | .name _ => return .ident (← parseBoundName)
  | .mark "[" =>
    advance
    let elements ← parseBindingElements g none g.fuel
    expectMark "]"
    return .arrayPattern elements
  | .mark "\x7b" =>
    advance
    let (properties, comma) ← parseBindingProperties g none g.fuel
    checkRestProperties comma properties
    return .objectPattern (properties.map (·.2))
  | _ => unexpected "yield, an identifier, [ or \x7b"

/-- The parameters of a function up to the closing parenthesis. `rest` is where
a rest parameter started that should have been the last. -/
def parseParamList (rest : Option Nat) : Nat → Parse (List Expr)
  | 0 => fail .nestedTooDeeply
  | fuel + 1 => do
    if (← atEnd) || (← isMark ")") then return []
    match rest with
    | some start => complain start .restParamNotLast
    | none => pure ()
    let start ← here
    let isRest ← eatMark "..."
    let param ← if isRest then
        let nameStart ← here
        let target ← g.binding
        if ← eatMark "=" then
          let value ← withIn g.assign
          complain nameStart .restWithDefault
          pure (.spread (.withDefault target value.expr))
        else pure (.spread target)
      else parseBindingElement g
    unless ← isMark ")" do
      expectMark ","
      if isRest && (← isMark ")") then complain (← lastStart) .commaAfterRest
    return param :: (← parseParamList (if isRest then some start else rest) fuel)

end Parse

/-! ### Expressions as patterns -/

/-- What a pattern is for. -/
inductive PatternUse where
  /-- What stands to the left of `=`. -/
  | target
  /-- A part of such a pattern. -/
  | targetPart
  /-- A parameter, or a part of one. -/
  | param
deriving DecidableEq, Repr

/-- What the parts of a pattern are for. -/
def PatternUse.part : PatternUse → PatternUse
  | target | targetPart => targetPart
  | param => param

/-- Is it of a form that a part of an assigned pattern may have, apart from
whether it can be assigned to? -/
def Expr.mayBeTarget : Expr → Bool
  | .member _ _ | .index _ _ | .literal _ | .ident _ | .classExpr _ _ _ | .paren _ => true
  | .closure (.block head _ _ _) => head.boundary != .arrow
  | .other (.privateMember _) _ | .other .call _ | .other (.new _) _ => true
  | .other (.template _) _ => true
  | _ => false

/-- Is it an array or an object? -/
def Expr.isBracketed : Expr → Bool
  | .array _ | .object _ => true
  | _ => false

/-- Is it an assignment? -/
def Expr.isAssignment : Expr → Bool
  | .assign _ _ _ => true
  | _ => false

/-- Is it a hole, or missing? -/
def Term.isAbsent (t : Term) : Bool := t.expr.isAbsent

namespace Parse

/-- Complains about what cannot be assigned to. -/
def checkTarget (target : Term) : Parse Unit := do
  unless target.expr.isSimpleTarget (← read).strict do complain target.start .targetInvalid

/-- What is left of a term that is no pattern. -/
def notPattern (start : Nat) : Parse Expr := do
  complain start .patternInvalid
  return .absent

/-- Complains about a comma after the rest element of brackets that opened at
`start`. -/
def checkCommaAfterRest (start : Nat) : Parse Unit := do
  match (← get).trailingCommas.lookup start with
  | some comma => complain comma .commaAfterRest
  | none => return

mutual

/-- An expression as the pattern it stands for. -/
def toPattern (use : PatternUse) : Term → Parse Expr
  | .mk e start parts => do
    if e.isAbsent then return .absent
    if use == .target && !e.isBracketed then
      checkTarget (.leaf start e)
      return e
    if use == .targetPart && !e.isBracketed && !e.isAssignment then
      if e.mayBeTarget then
        unless e.isSimpleTarget (← read).strict do complain start .targetNotSimple
        return e
      complain start .patternInvalid
    match e with
    | .assign none target value => return .withDefault target value
    | .object properties => return .objectPattern (← propertyPatterns use start properties parts)
    | .array _ => return .arrayPattern (← elementPatterns use start parts)
    | .ident name => return .ident name
    | _ => notPattern start

/-- The elements of an array that opened at `start` as those of a pattern. A
rest element must be the last. -/
def elementPatterns (use : PatternUse) (start : Nat) : List Term → Parse (List Expr)
  | [] => return []
  | .mk (.spread operand) dots parts :: rest => do
    if rest.isEmpty then
      if operand.isAssignment then complain dots .restWithDefault
      checkCommaAfterRest start
      return (← spreadPatterns use.part parts)
    complain dots .restNotLast
    elementPatterns use start rest
  | t :: rest => do
    let first ← toPattern use.part t
    return first :: (← elementPatterns use start rest)

/-- The operand of a rest element as one. -/
def spreadPatterns (use : PatternUse) : List Term → Parse (List Expr)
  | [] => return []
  | t :: _ => return [.spread (← toPattern use t)]

/-- The properties of an object that opened at `start` as those of a pattern.
The parts are those of the same properties. -/
def propertyPatterns (use : PatternUse) (start : Nat) :
    List Property → List Term → Parse (List Property)
  | property :: properties, .mk _ place parts :: rest => do
    let first ← match property with
      | .shorthand name fallback => pure [Property.shorthand name fallback]
      | .pair key _ =>
        let values ← valuePatterns use.part parts
        pure (values.map (.pair key ·))
      | .spread operand =>
        if rest.isEmpty then checkCommaAfterRest start else complain place .restNotLast
        if use == .param then
          match operand with
          | .ident name => pure [.spread (.ident name)]
          | _ => complain place .restNotName; pure [.spread .absent]
        else
          let values ← valuePatterns use.part parts
          if operand.isAssignment then complain place .restWithDefault
          pure (values.map .spread)
      | _ => failAt place .patternInvalid
    return first ++ (← propertyPatterns use start properties rest)
  | _, _ => return []

/-- The value of a property as a pattern. -/
def valuePatterns (use : PatternUse) : List Term → Parse (List Expr)
  | [] => return []
  | t :: _ => return [← toPattern use t]

end

end Parse
end DeadBranch
