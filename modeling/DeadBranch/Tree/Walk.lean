/-
# Walking through a tree

One walk serves the collection of scopes and the removal of dead branches. It
goes through a program in source order, except that the members of a class come
before the class it extends, and the test of a `do` statement before its body.
At the boundaries of functions and blocks, at declarations and at `if`
statements it calls a `Visitor`, which may keep a state; at an `if` statement
the visitor decides which parts stay. A statement that goes leaves nothing
behind in a list of statements or after `else`, and `Stmt.removed` elsewhere.

Both visitors, the one that collects scopes and the one that removes branches, act at
the same five kinds of boundaries (`Boundary`). The walk only tells them which kind
begins and when it ends; what happens there is decided by each visitor's `enter` and
`leave`.

The key of a method is outside its function, that of an accessor of an object or
of a constructor inside.

Key definitions: `Visitor`, `Decision`, `walkStmt`, `walkProgram`.
-/
import DeadBranch.Tree.Basic

namespace DeadBranch

/-- What becomes of an `if` statement. -/
inductive Decision where
  | keep | consequent | alternate
deriving DecidableEq, Repr

/-- What is done on a walk. -/
structure Visitor (σ : Type) where
  /-- A function begins, with its parameters. -/
  enter : Boundary → Span → List Expr → StateM σ Unit
  leave : StateM σ Unit
  /-- A block begins. -/
  openBlock : Span → StateM σ Unit
  closeBlock : StateM σ Unit
  declareVars : VarKind → List Declarator → StateM σ Unit
  declareFunction : String → StateM σ Unit
  declareClass : String → StateM σ Unit
  /-- The parameter of a catch clause. -/
  declareCaught : Expr → StateM σ Unit
  declareImports : List String → StateM σ Unit
  /-- An `if` statement, with its place, its test and whether it has an
  alternate. -/
  decide : Span → Expr → Bool → StateM σ Decision

variable {σ : Type} (v : Visitor σ)

/-- Does the key of a method belong to the inside of its function? -/
def ClosureHead.holdsKey (head : ClosureHead) : Bool :=
  match head.boundary with
  | .getter | .setter | .constructor => true
  | _ => false

/-- Drops what is left of a removed alternate. -/
def Stmt.alternateOf (s : Stmt) : Option Stmt := if s.isRemoved then none else some s

mutual

/-- Walks through an expression or pattern. -/
def walkExpr : Expr → StateM σ Expr
  | .absent => return .absent
  | .literal value => return .literal value
  | .ident name => return .ident name
  | .paren inner => return .paren (← walkExpr inner)
  | .unary op operand => return .unary op (← walkExpr operand)
  | .binary op left right => return .binary op (← walkExpr left) (← walkExpr right)
  | .cond test consequent alternate =>
    return .cond (← walkExpr test) (← walkExpr consequent) (← walkExpr alternate)
  | .assign op target value => return .assign op (← walkExpr target) (← walkExpr value)
  | .member object name => return .member (← walkExpr object) name
  | .index object key => return .index (← walkExpr object) (← walkExpr key)
  | .array elements => return .array (← walkExprs elements)
  | .object properties => return .object (← walkProperties properties)
  | .spread operand => return .spread (← walkExpr operand)
  | .arrayPattern elements => return .arrayPattern (← walkExprs elements)
  | .objectPattern properties => return .objectPattern (← walkProperties properties)
  | .withDefault target fallback => return .withDefault (← walkExpr target) (← walkExpr fallback)
  | .closure body => return .closure (← walkClosure body)
  | .classExpr name members parent =>
    return .classExpr name (← walkProperties members) (← walkExpr parent)
  | .other form parts => return .other form (← walkExprs parts)

/-- Walks through expressions in order. -/
def walkExprs : List Expr → StateM σ (List Expr)
  | [] => return []
  | e :: rest => return (← walkExpr e) :: (← walkExprs rest)

/-- Walks through a key. -/
def walkKey : Key → StateM σ Key
  | .computed key => return .computed (← walkExpr key)
  | key => return key

/-- Walks through a property or class member. -/
def walkProperty : Property → StateM σ Property
  | .pair key value => return .pair (← walkKey key) (← walkExpr value)
  | .shorthand name fallback => return .shorthand name (← walkExpr fallback)
  | .spread operand => return .spread (← walkExpr operand)
  | .method role isStatic key (.block head span params body) => do
    if head.holdsKey then
      v.enter head.boundary span params
      let key ← walkKey key
      let params ← walkExprs params
      let body ← walkBlock body
      v.leave
      return .method role isStatic key (.block head span params body)
    else
      let key ← walkKey key
      v.enter head.boundary span params
      let params ← walkExprs params
      let body ← walkBlock body
      v.leave
      return .method role isStatic key (.block head span params body)
  | .method role isStatic key body =>
    return .method role isStatic (← walkKey key) (← walkClosure body)
  | .field isStatic key value => return .field isStatic (← walkKey key) (← walkExpr value)
  | .staticBlock body => return .staticBlock (← walkBlock body)
  | .empty => return .empty

/-- Walks through properties in order. -/
def walkProperties : List Property → StateM σ (List Property)
  | [] => return []
  | p :: rest => return (← walkProperty p) :: (← walkProperties rest)

/-- Walks through a function. -/
def walkClosure : Closure → StateM σ Closure
  | .block head span params body => do
    v.enter head.boundary span params
    let params ← walkExprs params
    let body ← walkBlock body
    v.leave
    return .block head span params body
  | .concise head span params result => do
    v.enter head.boundary span params
    let params ← walkExprs params
    let result ← walkExpr result
    v.leave
    return .concise head span params result

/-- Walks through a block. -/
def walkBlock : Block → StateM σ Block
  | .mk span stmts => do
    v.openBlock span
    let stmts ← walkStmts stmts
    v.closeBlock
    return .mk span stmts

/-- Walks through a declared variable. -/
def walkDeclarator : Declarator → StateM σ Declarator
  | .mk target init => return .mk (← walkExpr target) (← walkExpr init)

/-- Walks through declared variables in order. -/
def walkDeclarators : List Declarator → StateM σ (List Declarator)
  | [] => return []
  | d :: rest => return (← walkDeclarator d) :: (← walkDeclarators rest)

/-- Walks through a declaration. All of its names are declared first. -/
def walkDecl : Decl → StateM σ Decl
  | .vars kind declarators => do
    v.declareVars kind declarators
    return .vars kind (← walkDeclarators declarators)
  | .function name body => do
    v.declareFunction name
    return .function name (← walkClosure body)
  | .classDecl name members parent => do
    v.declareClass name
    return .classDecl name (← walkProperties members) (← walkExpr parent)

/-- Walks through what a loop starts with. -/
def walkLoopHead : LoopHead → StateM σ LoopHead
  | .decl kind declarators => do
    v.declareVars kind declarators
    return .decl kind (← walkDeclarators declarators)
  | .expr e => return .expr (← walkExpr e)

/-- Walks through a statement. Only the parts of an `if` statement that stay are
walked through. -/
def walkStmt : Stmt → StateM σ Stmt
  | .empty => return .empty
  | .removed => return .removed
  | .expr e => return .expr (← walkExpr e)
  | .block body => return .block (← walkBlock body)
  | .decl d => return .decl (← walkDecl d)
  | .ifElse span test consequent alternate => do
    match ← v.decide span test alternate.isSome with
    | .keep =>
      let test ← walkExpr test
      let consequent ← walkStmt consequent
      let alternate ← walkAlternate alternate
      return .ifElse span test consequent alternate
    | .consequent => walkStmt consequent
    | .alternate =>
      match alternate with
      | none => return .removed
      | some alternate => walkStmt alternate
  | .whileLoop test body => return .whileLoop (← walkExpr test) (← walkStmt body)
  | .doWhile test body => return .doWhile (← walkExpr test) (← walkStmt body)
  | .forLoop span head test update body => do
    v.openBlock span
    let head ← walkLoopHead head
    let test ← walkExpr test
    let update ← walkExpr update
    let body ← walkStmt body
    v.closeBlock
    return .forLoop span head test update body
  | .forEach span iteration head subject body => do
    v.openBlock span
    let head ← walkLoopHead head
    let subject ← walkExpr subject
    let body ← walkStmt body
    v.closeBlock
    return .forEach span iteration head subject body
  | .labeled label body => return .labeled label (← walkStmt body)
  | .withObject object body => return .withObject (← walkExpr object) (← walkStmt body)
  | .switch span subject cases => do
    v.openBlock span
    let subject ← walkExpr subject
    let cases ← walkCases cases
    v.closeBlock
    return .switch span subject cases
  | .tryCatch body handler finalizer => do
    let body ← walkBlock body
    let handler ← walkHandler handler
    let finalizer ← walkFinalizer finalizer
    return .tryCatch body handler finalizer
  | .ret value => return .ret (← walkExpr value)
  | .throw value => return .throw (← walkExpr value)
  | .exitTo label => return .exitTo label
  | .continueTo label => return .continueTo label
  | .debugger => return .debugger

/-- Walks through what follows `else`. -/
def walkAlternate : Option Stmt → StateM σ (Option Stmt)
  | none => return none
  | some s => return (← walkStmt s).alternateOf

/-- Walks through statements in order; removed ones are dropped. -/
def walkStmts : List Stmt → StateM σ (List Stmt)
  | [] => return []
  | s :: rest => do
    let s ← walkStmt s
    let rest ← walkStmts rest
    return if s.isRemoved then rest else s :: rest

/-- Walks through a case. -/
def walkCase : Case → StateM σ Case
  | .mk none body => return .mk none (← walkStmts body)
  | .mk (some test) body => return .mk (some (← walkExpr test)) (← walkStmts body)

/-- Walks through cases in order. -/
def walkCases : List Case → StateM σ (List Case)
  | [] => return []
  | c :: rest => return (← walkCase c) :: (← walkCases rest)

/-- Walks through a catch clause. -/
def walkHandler : Option Handler → StateM σ (Option Handler)
  | none => return none
  | some (.mk span param body) => do
    v.openBlock span
    v.declareCaught param
    let param ← walkExpr param
    let body ← walkBlock body
    v.closeBlock
    return some (.mk span param body)

/-- Walks through a final block. -/
def walkFinalizer : Option Block → StateM σ (Option Block)
  | none => return none
  | some body => return some (← walkBlock body)

end

/-- The names that imports bind. -/
def ImportName.bound : ImportName → String
  | default name => name
  | star name => name
  | named _ name => name

/-- Walks through one item of a program. -/
def walkItem : Item → StateM σ Item
  | .stmt s => return .stmt (← walkStmt v s)
  | .importNames names source => do
    v.declareImports (names.map ImportName.bound)
    return .importNames names source
  | .exportNames names source => return .exportNames names source
  | .exportAll source => return .exportAll source
  | .exportDecl d => return .exportDecl (← walkDecl v d)
  | .exportDefault isDecl e => return .exportDefault isDecl (← walkExpr v e)

/-- Is it what is left of a removed statement? -/
def Item.isRemoved : Item → Bool
  | .stmt s => s.isRemoved
  | _ => false

/-- Walks through items in order; removed ones are dropped. -/
def walkItems : List Item → StateM σ (List Item)
  | [] => return []
  | i :: rest => do
    let i ← walkItem v i
    let rest ← walkItems rest
    return if i.isRemoved then rest else i :: rest

/-- Walks through a program. -/
def walkProgram (p : Program) : StateM σ Program :=
  return { p with items := ← walkItems v p.items }

end DeadBranch
