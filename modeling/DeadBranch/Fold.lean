/-
# Folding a conditional

A test whose value is known decides which branch of an `if` statement survives.

Key definitions: `FoldKind`, `foldKind?`, `Decision`.
-/
import DeadBranch.Evaluate

namespace DeadBranch

/-- What happened to an `if` statement. -/
inductive FoldKind where
  /-- The test is true: the alternate goes. -/
  | keptConsequent
  /-- The test is false: the consequent goes. -/
  | keptAlternate
  /-- The test is false and there is no alternate. -/
  | removed
deriving DecidableEq, Repr

/-- The fold in words. -/
def FoldKind.describe : FoldKind → String
  | keptConsequent => "drop alternate"
  | keptAlternate => "drop consequent"
  | removed => "drop statement"

/-- The fold that the value of a test makes. -/
def FoldKind.ofTest (isTrue hasAlternate : Bool) : FoldKind :=
  if isTrue then keptConsequent else if hasAlternate then keptAlternate else removed

/-- How an `if` statement with the given test folds; `none` if it stays. -/
def foldKind? (known : Associations) (test : Expr) (hasAlternate : Bool) : Option FoldKind :=
  (evaluate known test).map fun v => .ofTest v.truthy hasAlternate

/-- How a statement folds, if it is an `if` statement. -/
def Stmt.foldKind? (known : Associations) : Stmt → Option FoldKind
  | .ifElse _ test _ alternate => DeadBranch.foldKind? known test alternate.isSome
  | _ => none

end DeadBranch
