/-
# Scopes

Every declaration belongs to the nearest function around it, or to the program.
Declarations that are confined to a block remember the range of the innermost
open block of their function. A constant that is declared by a plain name keeps
its declaration, so that its value can be found even after the tree around it
has changed.

Scopes are numbered in the order in which the walk through the program comes to
them; the program is number 0, and every scope but it has a parent with a
smaller number.

Key definitions: `Binding`, `Scope`, `ScopeGraph`, `ScopeGraph.ofProgram`,
`ScopeGraph.ancestors`.
-/
import DeadBranch.Log
import DeadBranch.Tree.Walk

namespace DeadBranch

/-- How a name was declared. -/
inductive BindingKind where
  | constKind | letKind | varKind | function | classKind | param | imported
deriving DecidableEq, Repr

namespace BindingKind

/-- How a kind is named in messages. -/
def text : BindingKind → String
  | constKind => "Const" | letKind => "Let" | varKind => "Var" | function => "Function"
  | classKind => "Class" | param => "Param" | imported => "Import"

/-- Can the name never be assigned to? -/
def isImmutable : BindingKind → Bool
  | constKind => true
  | _ => false

/-- Is the declaration confined to a block? -/
def isLexical : BindingKind → Bool
  | constKind | letKind | classKind => true
  | _ => false

/-- The kind that a variable declaration makes. -/
def ofVarKind : VarKind → BindingKind
  | .constKind => constKind
  | .letKind => letKind
  | .varKind => varKind

end BindingKind

/-- A declared name. -/
structure Binding where
  name : String
  kind : BindingKind
  /-- The declaration of a constant with a plain name. -/
  declarator : Option Declarator
  /-- The block it is confined to; `none` if it spans its whole scope. -/
  block : Option Span

/-- Can code that starts at a position refer to the binding? -/
def Binding.visibleAt (position : Nat) (b : Binding) : Bool :=
  b.block.all (·.contains position)

/-- The kinds of scopes: that of the program, and those of functions. -/
inductive ScopeKind where
  | program | function | arrow | constructor | getter | setter
deriving DecidableEq, Repr

/-- How the kind of a scope is named in messages. -/
def ScopeKind.text : ScopeKind → String
  | program => "Program" | function => "Function" | arrow => "Arrow"
  | constructor => "Constructor" | getter => "Getter" | setter => "Setter"

/-- The kind of the scope that a function opens. -/
def Boundary.kind : Boundary → ScopeKind
  | function => .function | arrow => .arrow | constructor => .constructor
  | getter => .getter | setter => .setter

/-- What tells a function from the others: its kind and its range. -/
structure FunctionKey where
  boundary : Boundary
  span : Span
deriving DecidableEq, Repr

/-- What tells a scope from the others: its kind and its range. -/
structure ScopeKey where
  boundary : ScopeKind
  span : Span
deriving DecidableEq, Repr

/-- The key of the program. -/
def ScopeKey.program : ScopeKey := ⟨.program, ⟨0, 0⟩⟩

/-- The key of the scope that a function opens. -/
def ScopeKey.function (key : FunctionKey) : ScopeKey := ⟨key.boundary.kind, key.span⟩

instance : Coe FunctionKey ScopeKey := ⟨.function⟩

/-- A scope. -/
structure Scope where
  key : ScopeKey
  parent : Option Nat
  children : List Nat
  bindings : List Binding

namespace Scope

/-- The declarations of its constants, in order. -/
def constants (s : Scope) : List Declarator :=
  s.bindings.filterMap fun b => if b.kind.isImmutable then b.declarator else none

/-- Does it declare a name? -/
def declares (s : Scope) (name : String) : Bool := s.bindings.any (·.name == name)

/-- The bindings that code at a position can see, in order. -/
def visibleAt (s : Scope) (position : Nat) : List Binding :=
  s.bindings.filter (·.visibleAt position)

/-- What is logged when the scope is complete. -/
def summary (s : Scope) : LogLine :=
  let names := ", ".intercalate (s.bindings.map (·.name))
  ⟨.trace, "scope " ++ s.key.boundary.text ++ " declares [" ++ names ++ "]"⟩

end Scope

/-- The scopes of a program, by number. -/
structure ScopeGraph where
  scopes : List Scope
  /-- The numbers of the scopes other than the program, in the order in which
  they were complete. -/
  completed : List Nat

namespace ScopeGraph

/-- The scope with a number. -/
def get? (g : ScopeGraph) (id : Nat) : Option Scope := g.scopes[id]?

/-- The number of the scope with a key; of several the last. -/
def find? (g : ScopeGraph) (key : ScopeKey) : Option Nat :=
  (g.scopes.zipIdx.reverse.find? (·.1.key = key)).map (·.2)

/-- The parent of a scope. -/
def parent? (g : ScopeGraph) (id : Nat) : Option Nat := (g.get? id).bind (·.parent)

/-- The scope itself and those around it, at most `fuel` of them. -/
def ancestorsUpTo (g : ScopeGraph) : Nat → Nat → List Nat
  | 0, _ => []
  | fuel + 1, id => id :: match g.parent? id with
    | some parent => ancestorsUpTo g fuel parent
    | none => []

/-- The scope itself and those around it, the innermost first. Parents have
smaller numbers, so there are at most `id + 1`. -/
def ancestors (g : ScopeGraph) (id : Nat) : List Nat := g.ancestorsUpTo (id + 1) id

end ScopeGraph

/-! ### Collecting the scopes of a program -/

/-- Where collecting stands. -/
structure Collector where
  scopes : List Scope
  /-- The open scopes, the innermost first. -/
  stack : List Nat
  /-- The open blocks of the innermost function, the innermost first. -/
  blocks : List Span
  /-- The open blocks of the functions around it. -/
  saved : List (List Span)
  completed : List Nat

namespace Collector

/-- The innermost open scope. -/
def current (c : Collector) : Nat := c.stack.headD 0

/-- Declares a name in the innermost open scope. -/
def declare (kind : BindingKind) (name : String) (declarator : Option Declarator) (c : Collector) :
    Collector :=
  let block := if kind.isLexical then c.blocks.head? else none
  let b : Binding := ⟨name, kind, declarator, block⟩
  { c with scopes := c.scopes.modify c.current fun s => { s with bindings := s.bindings ++ [b] } }

/-- Declares the names of a pattern. -/
def declarePattern (kind : BindingKind) (pattern : Expr) (c : Collector) : Collector :=
  pattern.boundNames.foldl (fun c name => c.declare kind name none) c

/-- Declares one variable. -/
def declareVar (kind : VarKind) (c : Collector) : Declarator → Collector
  | .mk target init =>
    match kind, target with
    | .constKind, .ident name => c.declare .constKind name (some (.mk (.ident name) init))
    | kind, target => c.declarePattern (.ofVarKind kind) target

/-- Opens the scope of a function and declares its parameters. -/
def enter (boundary : Boundary) (span : Span) (params : List Expr) (c : Collector) : Collector :=
  let id := c.scopes.length
  let scope : Scope := ⟨.function ⟨boundary, span⟩, some c.current, [], []⟩
  let scopes := c.scopes.modify c.current fun s => { s with children := s.children ++ [id] }
  let c := { c with
    scopes := scopes ++ [scope], stack := id :: c.stack, blocks := []
    saved := c.blocks :: c.saved }
  params.foldl (fun c p => c.declarePattern .param p) c

/-- Closes the innermost scope. -/
def leave (c : Collector) : Collector :=
  { c with
    stack := c.stack.tail, blocks := c.saved.headD [], saved := c.saved.tail,
    completed := c.completed ++ [c.current] }

/-- Collects on a walk that changes nothing. -/
def visitor : Visitor Collector where
  enter boundary span params := modify (enter boundary span params)
  leave := modify leave
  openBlock span := modify fun c => { c with blocks := span :: c.blocks }
  closeBlock := modify fun c => { c with blocks := c.blocks.tail }
  declareVars kind declarators := modify fun c => declarators.foldl (declareVar kind) c
  declareFunction name := modify (declare .function name none)
  declareClass name := modify (declare .classKind name none)
  declareCaught pattern := modify (declarePattern .letKind pattern)
  declareImports names :=
    modify fun c => names.foldl (fun c name => c.declare .imported name none) c
  decide _ _ _ := return .keep

/-- Only the program is open. -/
def start : Collector := ⟨[⟨.program, none, [], []⟩], [0], [], [], []⟩

end Collector

/-- The scopes of a program. -/
def ScopeGraph.ofProgram (p : Program) : ScopeGraph :=
  let c := (walkProgram Collector.visitor p Collector.start).2
  ⟨c.scopes, c.completed⟩

/-- What is logged about the scopes. -/
def ScopeGraph.log (g : ScopeGraph) : List LogLine :=
  g.completed.filterMap fun id => (g.get? id).map Scope.summary

end DeadBranch
