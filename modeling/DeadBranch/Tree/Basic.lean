/-
# Syntax trees of JavaScript

The tree keeps what evaluation, scoping and printing look at. Forms of
expressions that never have a value before the program runs (calls, templates,
optional chains and so on) share one constructor, `Expr.other`, which holds
their parts in source order. Patterns are expressions of the forms that may
stand to the left of `=`, so that one conversion serves assignments and
parameters alike. A part that is left out is `Expr.absent`.

Source ranges are kept only where something is confined to them: blocks, loops,
switches, catch clauses and functions, and on `if` statements, whose place is
reported.

Key definitions: `Expr`, `Stmt`, `Closure`, `Property`, `Item`, `Program`.
-/
import DeadBranch.Value.Operator

namespace DeadBranch

/-- A range of the source, in bytes: from `start` up to, not including,
`stop`. -/
structure Span where
  start : Nat
  stop : Nat
deriving DecidableEq, Repr, Inhabited

/-- Does a position lie in the range? -/
def Span.contains (s : Span) (position : Nat) : Bool := s.start ≤ position && position < s.stop

/-- A literal, with the text it was written as where there is a choice. -/
inductive Literal where
  | number (value : Number) (raw : String)
  | string (value raw : String)
  | bool (value : Bool)
  | null
  | bigint (value : Nat) (raw : String)
  | regex (pattern flags : String)
deriving DecidableEq

/-- The kinds of functions, each of which opens a scope of its own for
declarations. -/
inductive Boundary where
  | function | arrow | constructor | getter | setter
deriving DecidableEq, Repr

/-- What is said about a function before its parameters. -/
structure ClosureHead where
  boundary : Boundary
  name : Option String
  isAsync : Bool
  isGenerator : Bool
deriving DecidableEq, Repr

/-- The keyword of a variable declaration. -/
inductive VarKind where
  | constKind | letKind | varKind
deriving DecidableEq, Repr

/-- How a variable declaration begins. -/
def VarKind.text : VarKind → String
  | constKind => "const" | letKind => "let" | varKind => "var"

/-- The role of a method. -/
inductive Role where
  | plain | get | set | constructor
deriving DecidableEq, Repr

/-- How a `for` loop over the parts of a value goes through them. -/
inductive Iteration where
  | keys | values | awaited
deriving DecidableEq, Repr

/-- The forms of expressions that never have a value before the program runs.
Their parts are given beside them, in source order. -/
inductive Form where
  /-- `this`, `super`, `import`, `new.target` or `import.meta`: no parts. -/
  | word (text : String)
  /-- A private name as an operand: no parts. -/
  | privateName (name : String)
  /-- The object. -/
  | privateMember (name : String)
  /-- The object; with `?.` if `optional`, else further on in a chain. -/
  | chainMember (optional : Bool) (name : String)
  /-- The object. -/
  | chainPrivate (optional : Bool) (name : String)
  /-- The object and the key. -/
  | chainIndex (optional : Bool)
  /-- The callee and the arguments. -/
  | chainCall (optional : Bool)
  /-- The callee and the arguments. -/
  | call
  /-- The callee and the arguments, if there is a list of them. -/
  | new (hasArguments : Bool)
  /-- The operands of the comma. -/
  | sequence
  /-- The operand; `op` is `++` or `--`. -/
  | update (op : String) (before : Bool)
  /-- The operand. -/
  | await
  /-- The operand, if there is one. -/
  | yield (delegate : Bool)
  /-- The inserted expressions. -/
  | template (quasis : List String)
  /-- The tag and the inserted expressions. -/
  | tagged (quasis : List String)
deriving DecidableEq, Repr

mutual

/-- Expressions and patterns. -/
inductive Expr where
  | absent
  | literal (value : Literal)
  | ident (name : String)
  | paren (inner : Expr)
  | unary (op : UnaryOp) (operand : Expr)
  | binary (op : BinaryOp) (left right : Expr)
  | cond (test consequent alternate : Expr)
  /-- `target = value`, or with an operator `target op= value`. -/
  | assign (op : Option BinaryOp) (target value : Expr)
  | member (object : Expr) (name : String)
  | index (object key : Expr)
  /-- Elements; a hole is absent. -/
  | array (elements : List Expr)
  | object (properties : List Property)
  /-- `...operand`, in an array, in arguments, or at the end of a pattern. -/
  | spread (operand : Expr)
  | arrayPattern (elements : List Expr)
  | objectPattern (properties : List Property)
  /-- A pattern with the value it takes when there is none. -/
  | withDefault (target fallback : Expr)
  | closure (body : Closure)
  | classExpr (name : Option String) (members : List Property) (parent : Expr)
  | other (form : Form) (parts : List Expr)

/-- Keys of properties and of class members. -/
inductive Key where
  | ident (name : String)
  | string (value raw : String)
  | number (value : Number) (raw : String)
  | bigint (value : Nat) (raw : String)
  | computed (key : Expr)
  | privateName (name : String)

/-- Properties of objects and of object patterns, and members of classes. -/
inductive Property where
  | pair (key : Key) (value : Expr)
  /-- `name`, or in a pattern `name = fallback`. -/
  | shorthand (name : String) (fallback : Expr)
  | spread (operand : Expr)
  | method (role : Role) (isStatic : Bool) (key : Key) (body : Closure)
  | field (isStatic : Bool) (key : Key) (value : Expr)
  | staticBlock (body : Block)
  /-- A semicolon between class members. -/
  | empty

/-- Functions of every kind, methods included. -/
inductive Closure where
  | block (head : ClosureHead) (span : Span) (params : List Expr) (body : Block)
  /-- An arrow function whose body is an expression. -/
  | concise (head : ClosureHead) (span : Span) (params : List Expr) (result : Expr)

/-- Statements in braces. -/
inductive Block where
  | mk (span : Span) (stmts : List Stmt)

/-- One variable of a declaration. -/
inductive Declarator where
  | mk (target init : Expr)

/-- Declarations. -/
inductive Decl where
  | vars (kind : VarKind) (declarators : List Declarator)
  | function (name : String) (body : Closure)
  | classDecl (name : String) (members : List Property) (parent : Expr)

/-- What a `for` loop starts with. -/
inductive LoopHead where
  | decl (kind : VarKind) (declarators : List Declarator)
  | expr (e : Expr)

/-- Statements. -/
inductive Stmt where
  | empty
  /-- What is left of a statement that was removed. -/
  | removed
  | expr (e : Expr)
  | block (body : Block)
  | decl (d : Decl)
  | ifElse (span : Span) (test : Expr) (consequent : Stmt) (alternate : Option Stmt)
  | whileLoop (test : Expr) (body : Stmt)
  | doWhile (test : Expr) (body : Stmt)
  | forLoop (span : Span) (head : LoopHead) (test update : Expr) (body : Stmt)
  | forEach (span : Span) (iteration : Iteration) (head : LoopHead) (subject : Expr) (body : Stmt)
  | labeled (label : String) (body : Stmt)
  | withObject (object : Expr) (body : Stmt)
  | switch (span : Span) (subject : Expr) (cases : List Case)
  | tryCatch (body : Block) (handler : Option Handler) (finalizer : Option Block)
  | ret (value : Expr)
  | throw (value : Expr)
  | exitTo (label : Option String)
  | continueTo (label : Option String)
  | debugger

/-- One case of a switch; the default case has no test. -/
inductive Case where
  | mk (test : Option Expr) (body : List Stmt)

/-- A catch clause. -/
inductive Handler where
  | mk (span : Span) (param : Expr) (body : Block)

end

instance : Inhabited Expr := ⟨.absent⟩
instance : Inhabited Stmt := ⟨.empty⟩
instance : Inhabited Block := ⟨.mk default []⟩

/-- Is the part left out? -/
def Expr.isAbsent : Expr → Bool
  | absent => true
  | _ => false

/-- Is it what is left of a removed statement? -/
def Stmt.isRemoved : Stmt → Bool
  | removed => true
  | _ => false

mutual

/-- The names that a pattern binds, in source order. -/
def Expr.boundNames : Expr → List String
  | .ident name => [name]
  | .arrayPattern elements => elementNames elements
  | .objectPattern properties => propertyNames properties
  | .spread operand => operand.boundNames
  | .withDefault target _ => target.boundNames
  | _ => []

/-- The names that the elements of an array pattern bind. -/
def elementNames : List Expr → List String
  | [] => []
  | e :: es => e.boundNames ++ elementNames es

/-- The names that the properties of an object pattern bind. -/
def propertyNames : List Property → List String
  | [] => []
  | .pair _ value :: ps => value.boundNames ++ propertyNames ps
  | .shorthand name _ :: ps => name :: propertyNames ps
  | .spread operand :: ps => operand.boundNames ++ propertyNames ps
  | _ :: ps => propertyNames ps

end

/-- A name in a list of imports or exports. -/
inductive PublicName where
  | ident (name : String)
  | string (value raw : String)
deriving DecidableEq, Repr

/-- One entry of an import. -/
inductive ImportName where
  | default (name : String)
  | star (name : String)
  /-- `source as name`, or just `name`. -/
  | named (source : Option PublicName) (name : String)
deriving DecidableEq, Repr

/-- One entry of a list of exports. -/
inductive ExportName where
  | star (name : PublicName)
  /-- `source as name`, or just `source`. -/
  | named (source : PublicName) (name : Option PublicName)
deriving DecidableEq, Repr

/-- What a program consists of. -/
inductive Item where
  | stmt (s : Stmt)
  | importNames (names : List ImportName) (source : Literal)
  | exportNames (names : List ExportName) (source : Option Literal)
  | exportAll (source : Literal)
  | exportDecl (d : Decl)
  /-- A function or class as a declaration, or any other expression. -/
  | exportDefault (isDecl : Bool) (e : Expr)

/-- What a text is read as. -/
inductive Goal where
  | script | module
deriving DecidableEq, Repr

/-- A whole program. -/
structure Program where
  goal : Goal
  /-- What follows `#!` in the first line. -/
  shebang : Option String
  items : List Item

/-- The statements among the items. -/
def Program.stmts (p : Program) : List Stmt :=
  p.items.filterMap fun
    | .stmt s => some s
    | _ => none

end DeadBranch
