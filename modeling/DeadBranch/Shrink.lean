/-
# Removing dead branches

One walk through a program folds every `if` statement whose test is known. What
is known comes from the scopes of the program as it was read, so earlier folds
do not change later ones. The branch that survives is walked through in turn, as
far as it stands.

Key definitions: `FoldRecord`, `Shrinker`, `shrink`.
-/
import DeadBranch.Fold
import DeadBranch.Scope.Tracker
import DeadBranch.Source.Location

namespace DeadBranch

/-- One folded `if` statement: where it was, and what happened. -/
structure FoldRecord where
  location : Location
  kind : FoldKind
deriving DecidableEq, Repr

/-- Where the walk stands. -/
structure Shrinker where
  tracker : Tracker
  folds : List FoldRecord
  log : List LogLine
  /-- The range of the first function that had no scope. -/
  missing : Option Span

namespace Shrinker

/-- The walk begins in the program. -/
def start (graph : ScopeGraph) : Shrinker := ⟨.start graph, [], [], none⟩

/-- The part of an `if` statement that a fold leaves. -/
def decisionOf : FoldKind → Decision
  | .keptConsequent => .consequent
  | .keptAlternate => .alternate
  | .removed => .alternate

/-- Decides about an `if` statement. -/
def decide (wholeChain : Bool) (locate : Nat → Location) (span : Span) (test : Expr)
    (hasAlternate : Bool) : StateM Shrinker Decision := do
  let s ← get
  let outlook := s.tracker.outlook span.start wholeChain
  match foldKind? outlook.associations test hasAlternate with
  | some kind =>
    let location := locate span.start
    let line : LogLine :=
      ⟨.info, "optimizing at " ++ location.display ++ ": " ++ kind.describe⟩
    modify fun s =>
      { s with folds := s.folds ++ [⟨location, kind⟩], log := s.log ++ outlook.log ++ [line] }
    return decisionOf kind
  | none =>
    let line := ⟨.debug, "kept conditional with indeterminate test"⟩
    modify fun s => { s with log := s.log ++ outlook.log ++ [line] }
    return .keep

/-- The walk that folds. Declarations are already known from the scopes. -/
def visitor (wholeChain : Bool) (locate : Nat → Location) : Visitor Shrinker where
  enter boundary span _ := modify fun s => { s with
    log := s.log ++ s.tracker.enterLog (.function ⟨boundary, span⟩)
    tracker := s.tracker.enter (.function ⟨boundary, span⟩)
    missing := s.missing.or
      (if s.tracker.knows (.function ⟨boundary, span⟩) then none else some span) }
  leave := modify fun s => { s with tracker := s.tracker.leave }
  openBlock _ := return
  closeBlock := return
  declareVars _ _ := return
  declareFunction _ := return
  declareClass _ := return
  declareCaught _ := return
  declareImports _ := return
  decide := decide wholeChain locate

end Shrinker

/-- A program after its dead branches were removed. -/
structure Shrunk where
  program : Program
  folds : List FoldRecord
  log : List LogLine
  /-- The range of a function for which no scope was found. -/
  missing : Option Span

/-- Removes the dead branches of a program. `wholeChain` consults the constants
of all scopes around a test instead of the innermost one only. -/
def shrink (wholeChain : Bool) (locate : Nat → Location) (p : Program) : Shrunk :=
  let graph := ScopeGraph.ofProgram p
  let (program, s) := walkProgram (Shrinker.visitor wholeChain locate) p (.start graph)
  ⟨program, s.folds, graph.log ++ s.log, s.missing⟩

end DeadBranch
