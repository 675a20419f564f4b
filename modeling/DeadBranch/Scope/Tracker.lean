/-
# What is known at a place

A `Tracker` is the stack of scopes that a walk has entered. From it follows what
is known at a place: each scope around the place, from the innermost outwards,
contributes the names that are visible there and not declared further in. A
name is a usable constant if its scope is consulted, the name is declared once
among the visible ones, and the declaration is that of a constant by a plain
name; any other name must not be read.

Only the innermost scope is consulted, or all of them. Constants are bound from
the outermost scope inwards.

Key definitions: `Tracker`, `Frame`, `frames`, `Tracker.outlook`.
-/
import DeadBranch.Bind
import DeadBranch.Scope.Graph

namespace DeadBranch

/-- What one scope contributes at a place. -/
structure Frame where
  scope : Nat
  constants : List Declarator
  shadowed : List String

/-- Is a visible binding a usable constant? -/
def Binding.isUsable (visible : List Binding) (consulted : Bool) (b : Binding) : Bool :=
  consulted && b.kind.isImmutable && b.declarator.isSome &&
    (visible.filter (·.name == b.name)).length == 1

/-- What a scope contributes, given the names that are declared further in. -/
def Scope.frame (s : Scope) (id position : Nat) (consulted : Bool) (declared : List String) :
    Frame :=
  let visible := s.visibleAt position
  let fresh := visible.filter fun b => !declared.contains b.name
  { scope := id
    constants := fresh.filterMap fun b =>
      if b.isUsable visible consulted then b.declarator else none
    shadowed := (fresh.filter fun b => !b.isUsable visible consulted).map (·.name) }

/-- What the given scopes contribute, the innermost first. -/
def ScopeGraph.frames (g : ScopeGraph) (position : Nat) (consulted : Nat → Bool)
    (declared : List String) : List Nat → List Frame
  | [] => []
  | id :: rest =>
    match g.get? id with
    | none => frames g position consulted declared rest
    | some s =>
      s.frame id position (consulted id) declared ::
        frames g position consulted (declared ++ (s.visibleAt position).map (·.name)) rest

/-- What can be seen from a place, before anything is evaluated. -/
structure Outlook where
  frames : List Frame

namespace Outlook

/-- The usable constants, from the outermost scope inwards. -/
def constants (o : Outlook) : List Declarator := o.frames.reverse.flatMap (·.constants)

/-- The names that must not be read. -/
def shadowed (o : Outlook) : List String := o.frames.flatMap (·.shadowed)

/-- Nothing is known but the names that must not be read. -/
def blank (o : Outlook) : Associations := .ofShadowed o.shadowed

/-- What is known at the place. -/
def associations (o : Outlook) : Associations := bindAll o.blank o.constants

/-- What is logged when it is found out. -/
def log (o : Outlook) : List LogLine :=
  (o.frames.flatMap fun f => f.shadowed.map fun name =>
    ⟨.trace, s!"{name} is shadowed in scope {f.scope}"⟩) ++
  (bindAllFacts o.blank o.constants).filterMap fun fact =>
    if fact.copied then none
    else some ⟨.trace, "bind " ++ fact.path.display ++ " = " ++ fact.value.display⟩

end Outlook

/-- The scopes that a walk has entered, the innermost first; the last one is
the program. -/
structure Tracker where
  graph : ScopeGraph
  stack : List Nat

namespace Tracker

/-- A walk begins in the program. -/
def start (graph : ScopeGraph) : Tracker := ⟨graph, [0]⟩

/-- The innermost scope. -/
def current (t : Tracker) : Nat := t.stack.headD 0

/-- How many scopes have been entered. -/
def depth (t : Tracker) : Nat := t.stack.length

/-- Is there a scope with the key? -/
def knows (t : Tracker) (key : ScopeKey) : Bool := (t.graph.find? key).isSome

/-- Enters the scope with a key. If there is none the innermost scope is entered
once more, so that leaving stays in step. -/
def enter (t : Tracker) (key : ScopeKey) : Tracker :=
  { t with stack := (t.graph.find? key).getD t.current :: t.stack }

/-- What is logged on entering. -/
def enterLog (t : Tracker) (key : ScopeKey) : List LogLine :=
  match t.graph.find? key with
  | some id => [⟨.trace, s!"enter scope {id} (" ++ key.boundary.text ++ ")"⟩]
  | none => []

/-- Leaves the innermost scope; the program is never left. -/
def leave (t : Tracker) : Tracker :=
  { t with stack := if 1 < t.stack.length then t.stack.tail else t.stack }

/-- What can be seen from a position in the innermost scope. -/
def outlook (t : Tracker) (position : Nat) (wholeChain : Bool) : Outlook :=
  ⟨t.graph.frames position (fun id => wholeChain || id == t.current) []
    (t.graph.ancestors t.current)⟩

end Tracker
end DeadBranch
