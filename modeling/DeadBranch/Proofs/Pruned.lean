/-
# Removing dead branches, said on the tree

`shrink` rewrites while it walks: it keeps a stack of scopes, decides about an
`if` statement when it comes to it and goes on in the part that is left. Here
the same is said without a walk. Each `if` statement has a verdict, which comes
from the scopes of the program as it was given and from the scope directly
around the statement (`ScopeGraph.verdict`). The pruned tree puts for every
statement with a true verdict its pruned consequent and for every one with a
false verdict its pruned alternate, or nothing; a statement that is nothing is
dropped from a list and after `else` and leaves `Stmt.removed` elsewhere. The
sites of a program are all its `if` statements, each with those around it; one
that lies in a part that the verdict on another drops is recorded nowhere.

The main result is that `shrink` leaves exactly the pruned tree and records
exactly the other sites that have a verdict, once each and in order.
That an earlier rewriting never changes a later verdict is in it: the verdicts
do not mention the rewritten tree.

Key definitions: `ScopeGraph.verdict`, `Stmt.pruned`, `Program.pruned`, `Site`,
`Outline.sites`, `Site.record?`.
Key theorems: `walkStmt_pruned`, `visit_folds`, `shrink_eq_pruned`.
-/
import DeadBranch.Proofs.Outline
import DeadBranch.Shrink

namespace DeadBranch

/-- What is known at a position directly in a scope. -/
def ScopeGraph.known (g : ScopeGraph) (wholeChain : Bool) (scope position : Nat) : Associations :=
  (Outlook.mk (g.frames position (fun id => wholeChain || id == scope) []
    (g.ancestors scope))).associations

/-- Whether the test of an `if` statement directly in a scope is true, if that is
known. -/
def ScopeGraph.verdict (g : ScopeGraph) (wholeChain : Bool) (scope : Nat) (span : Span)
    (test : Expr) : Option Bool :=
  (evaluate (g.known wholeChain scope span.start) test).map Value.truthy

/-- The scope directly inside a function that stands in a scope, found by the kind and range of
the function. -/
def ScopeGraph.inside (g : ScopeGraph) (scope : Nat) (key : FunctionKey) : Nat :=
  (g.find? key).getD scope

/-! ### The pruned tree -/

section Pruned

variable (g : ScopeGraph) (wholeChain : Bool)

mutual

/-- An expression or pattern with its functions pruned. -/
def Expr.pruned (scope : Nat) : Expr → Expr
  | .absent => .absent
  | .literal value => .literal value
  | .ident name => .ident name
  | .paren inner => .paren (inner.pruned scope)
  | .unary op operand => .unary op (operand.pruned scope)
  | .binary op left right => .binary op (left.pruned scope) (right.pruned scope)
  | .cond test consequent alternate =>
    .cond (test.pruned scope) (consequent.pruned scope) (alternate.pruned scope)
  | .assign op target value => .assign op (target.pruned scope) (value.pruned scope)
  | .member object name => .member (object.pruned scope) name
  | .index object key => .index (object.pruned scope) (key.pruned scope)
  | .array elements => .array (exprsPruned scope elements)
  | .object properties => .object (propertiesPruned scope properties)
  | .spread operand => .spread (operand.pruned scope)
  | .arrayPattern elements => .arrayPattern (exprsPruned scope elements)
  | .objectPattern properties => .objectPattern (propertiesPruned scope properties)
  | .withDefault target fallback => .withDefault (target.pruned scope) (fallback.pruned scope)
  | .closure body => .closure (body.pruned scope)
  | .classExpr name members parent =>
    .classExpr name (propertiesPruned scope members) (parent.pruned scope)
  | .other form parts => .other form (exprsPruned scope parts)

/-- Expressions, each pruned. -/
def exprsPruned (scope : Nat) : List Expr → List Expr
  | [] => []
  | e :: rest => e.pruned scope :: exprsPruned scope rest

/-- A key, pruned. -/
def Key.pruned (scope : Nat) : Key → Key
  | .computed key => .computed (key.pruned scope)
  | key => key

/-- A property or class member, pruned. The key of an accessor of an object or of
a constructor is inside its function. -/
def Property.pruned (scope : Nat) : Property → Property
  | .pair key value => .pair (key.pruned scope) (value.pruned scope)
  | .shorthand name fallback => .shorthand name (fallback.pruned scope)
  | .spread operand => .spread (operand.pruned scope)
  | .method role isStatic key (.block head span params body) =>
    let inner := g.inside scope ⟨head.boundary, span⟩
    .method role isStatic (key.pruned (if head.holdsKey then inner else scope))
      (.block head span (exprsPruned inner params) (body.pruned inner))
  | .method role isStatic key body => .method role isStatic (key.pruned scope) (body.pruned scope)
  | .field isStatic key value => .field isStatic (key.pruned scope) (value.pruned scope)
  | .staticBlock body => .staticBlock (body.pruned scope)
  | .empty => .empty

/-- Properties, each pruned. -/
def propertiesPruned (scope : Nat) : List Property → List Property
  | [] => []
  | p :: rest => p.pruned scope :: propertiesPruned scope rest

/-- A function, pruned: from here on its own scope is the one directly around. -/
def Closure.pruned (scope : Nat) : Closure → Closure
  | .block head span params body =>
    let inner := g.inside scope ⟨head.boundary, span⟩
    .block head span (exprsPruned inner params) (body.pruned inner)
  | .concise head span params result =>
    let inner := g.inside scope ⟨head.boundary, span⟩
    .concise head span (exprsPruned inner params) (result.pruned inner)

/-- A block, pruned. -/
def Block.pruned (scope : Nat) : Block → Block
  | .mk span stmts => .mk span (stmtsPruned scope stmts)

/-- A declared variable, pruned. -/
def Declarator.pruned (scope : Nat) : Declarator → Declarator
  | .mk target init => .mk (target.pruned scope) (init.pruned scope)

/-- Declared variables, each pruned. -/
def declaratorsPruned (scope : Nat) : List Declarator → List Declarator
  | [] => []
  | d :: rest => d.pruned scope :: declaratorsPruned scope rest

/-- A declaration, pruned. -/
def Decl.pruned (scope : Nat) : Decl → Decl
  | .vars kind declarators => .vars kind (declaratorsPruned scope declarators)
  | .function name body => .function name (body.pruned scope)
  | .classDecl name members parent =>
    .classDecl name (propertiesPruned scope members) (parent.pruned scope)

/-- What a loop starts with, pruned. -/
def LoopHead.pruned (scope : Nat) : LoopHead → LoopHead
  | .decl kind declarators => .decl kind (declaratorsPruned scope declarators)
  | .expr e => .expr (e.pruned scope)

/-- What is left of a statement; `none` if nothing is. -/
def Stmt.pruned (scope : Nat) : Stmt → Option Stmt
  | .empty => some .empty
  | .removed => none
  | .expr e => some (.expr (e.pruned scope))
  | .block body => some (.block (body.pruned scope))
  | .decl d => some (.decl (d.pruned scope))
  | .ifElse span test consequent alternate =>
    match g.verdict wholeChain scope span test with
    | some true => consequent.pruned scope
    | some false => alternatePruned scope alternate
    | none => some (.ifElse span (test.pruned scope) ((consequent.pruned scope).getD .removed)
        (alternatePruned scope alternate))
  | .whileLoop test body =>
    some (.whileLoop (test.pruned scope) ((body.pruned scope).getD .removed))
  | .doWhile test body => some (.doWhile (test.pruned scope) ((body.pruned scope).getD .removed))
  | .forLoop span head test update body =>
    some (.forLoop span (head.pruned scope) (test.pruned scope) (update.pruned scope)
      ((body.pruned scope).getD .removed))
  | .forEach span iteration head subject body =>
    some (.forEach span iteration (head.pruned scope) (subject.pruned scope)
      ((body.pruned scope).getD .removed))
  | .labeled label body => some (.labeled label ((body.pruned scope).getD .removed))
  | .withObject object body =>
    some (.withObject (object.pruned scope) ((body.pruned scope).getD .removed))
  | .switch span subject cases =>
    some (.switch span (subject.pruned scope) (casesPruned scope cases))
  | .tryCatch body handler finalizer =>
    some (.tryCatch (body.pruned scope) (handlerPruned scope handler)
      (finalizerPruned scope finalizer))
  | .ret value => some (.ret (value.pruned scope))
  | .throw value => some (.throw (value.pruned scope))
  | .exitTo label => some (.exitTo label)
  | .continueTo label => some (.continueTo label)
  | .debugger => some .debugger

/-- What is left after `else`. -/
def alternatePruned (scope : Nat) : Option Stmt → Option Stmt
  | none => none
  | some s => s.pruned scope

/-- What is left of statements, in order. -/
def stmtsPruned (scope : Nat) : List Stmt → List Stmt
  | [] => []
  | s :: rest => (s.pruned scope).toList ++ stmtsPruned scope rest

/-- A case, pruned. -/
def Case.pruned (scope : Nat) : Case → Case
  | .mk none body => .mk none (stmtsPruned scope body)
  | .mk (some test) body => .mk (some (test.pruned scope)) (stmtsPruned scope body)

/-- Cases, each pruned. -/
def casesPruned (scope : Nat) : List Case → List Case
  | [] => []
  | c :: rest => c.pruned scope :: casesPruned scope rest

/-- A catch clause, pruned. -/
def handlerPruned (scope : Nat) : Option Handler → Option Handler
  | none => none
  | some (.mk span param body) => some (.mk span (param.pruned scope) (body.pruned scope))

/-- A final block, pruned. -/
def finalizerPruned (scope : Nat) : Option Block → Option Block
  | none => none
  | some body => some (body.pruned scope)

end

/-- What is left of an item of a program. -/
def Item.pruned (scope : Nat) : Item → Option Item
  | .stmt s => (s.pruned g wholeChain scope).map .stmt
  | .importNames names source => some (.importNames names source)
  | .exportNames names source => some (.exportNames names source)
  | .exportAll source => some (.exportAll source)
  | .exportDecl d => some (.exportDecl (d.pruned g wholeChain scope))
  | .exportDefault isDecl e => some (.exportDefault isDecl (e.pruned g wholeChain scope))

/-- What is left of items, in order. -/
def itemsPruned (scope : Nat) : List Item → List Item
  | [] => []
  | i :: rest => (i.pruned g wholeChain scope).toList ++ itemsPruned scope rest

end Pruned

/-- A program with its dead branches removed, by the verdicts that its own scopes
give. -/
def Program.pruned (wholeChain : Bool) (p : Program) : Program :=
  { p with items := itemsPruned (.ofProgram p) wholeChain 0 p.items }

/-! ### The walk leaves the pruned tree -/

theorem Stmt.pruned_ne_removed (g : ScopeGraph) (wholeChain : Bool) (scope : Nat) :
    ∀ s : Stmt, s.pruned g wholeChain scope ≠ some .removed
  | .removed => by simp [Stmt.pruned]
  | .ifElse span test consequent none => by
    have hc := consequent.pruned_ne_removed g wholeChain scope
    rw [Stmt.pruned]
    split
    · exact hc
    · simp [alternatePruned]
    · simp
  | .ifElse span test consequent (some alternate) => by
    have hc := consequent.pruned_ne_removed g wholeChain scope
    have ha := alternate.pruned_ne_removed g wholeChain scope
    rw [Stmt.pruned]
    split
    · exact hc
    · simpa [alternatePruned] using ha
    · simp
  | .empty | .expr _ | .block _ | .decl _ | .whileLoop _ _ | .doWhile _ _ | .forLoop _ _ _ _ _
  | .forEach _ _ _ _ _ | .labeled _ _ | .withObject _ _ | .switch _ _ _ | .tryCatch _ _ _
  | .ret _ | .throw _ | .exitTo _ | .continueTo _ | .debugger => by simp [Stmt.pruned]

/-- In a list a statement that is nothing disappears. -/
theorem Stmt.pruned_toList_append (g : ScopeGraph) (wholeChain : Bool) (scope : Nat) (s : Stmt)
    (rest : List Stmt) :
    (if ((s.pruned g wholeChain scope).getD .removed).isRemoved then rest
      else (s.pruned g wholeChain scope).getD .removed :: rest) =
      (s.pruned g wholeChain scope).toList ++ rest := by
  have h := s.pruned_ne_removed g wholeChain scope
  cases hs : s.pruned g wholeChain scope with
  | none => rfl
  | some t => cases t <;> simp_all [Stmt.isRemoved]

/-- After `else` a statement that is nothing disappears. -/
theorem Stmt.pruned_alternateOf (g : ScopeGraph) (wholeChain : Bool) (scope : Nat) (s : Stmt) :
    ((s.pruned g wholeChain scope).getD .removed).alternateOf = s.pruned g wholeChain scope := by
  have h := s.pruned_ne_removed g wholeChain scope
  cases hs : s.pruned g wholeChain scope with
  | none => rfl
  | some t => cases t <;> simp_all [Stmt.alternateOf, Stmt.isRemoved]

/-- The walk stands directly in a scope of a graph. -/
structure Shrinker.At (g : ScopeGraph) (scope : Nat) (s : Shrinker) : Prop where
  graph : s.tracker.graph = g
  stack : ∃ rest, s.tracker.stack = scope :: rest

@[simp] theorem get_apply {σ : Type} (s : σ) : (get : StateM σ σ) s = (s, s) := rfl

@[simp] theorem modify_apply {σ : Type} (f : σ → σ) (s : σ) :
    (modify f : StateM σ PUnit) s = (⟨⟩, f s) := rfl

section Walk

variable {g : ScopeGraph} {scope : Nat} {s : Shrinker}
variable (wholeChain : Bool) (locate : Nat → Location)

@[simp] theorem Shrinker.visitor_openBlock (span : Span) :
    (Shrinker.visitor wholeChain locate).openBlock span s = ((), s) := rfl

@[simp] theorem Shrinker.visitor_closeBlock :
    (Shrinker.visitor wholeChain locate).closeBlock s = ((), s) := rfl

@[simp] theorem Shrinker.visitor_declareVars (kind : VarKind) (declarators : List Declarator) :
    (Shrinker.visitor wholeChain locate).declareVars kind declarators s = ((), s) := rfl

@[simp] theorem Shrinker.visitor_declareFunction (name : String) :
    (Shrinker.visitor wholeChain locate).declareFunction name s = ((), s) := rfl

@[simp] theorem Shrinker.visitor_declareClass (name : String) :
    (Shrinker.visitor wholeChain locate).declareClass name s = ((), s) := rfl

@[simp] theorem Shrinker.visitor_declareCaught (pattern : Expr) :
    (Shrinker.visitor wholeChain locate).declareCaught pattern s = ((), s) := rfl

@[simp] theorem Shrinker.visitor_declare (d : Declaration) :
    (Shrinker.visitor wholeChain locate).declare d s = ((), s) := by
  cases d <;> rfl

@[simp] theorem Shrinker.visitor_enter_tracker (boundary : Boundary) (span : Span)
    (params : List Expr) :
    ((Shrinker.visitor wholeChain locate).enter boundary span params s).2.tracker =
      s.tracker.enter (.function ⟨boundary, span⟩) := rfl

@[simp] theorem Shrinker.visitor_enter_folds (boundary : Boundary) (span : Span)
    (params : List Expr) :
    ((Shrinker.visitor wholeChain locate).enter boundary span params s).2.folds = s.folds := rfl

@[simp] theorem Shrinker.visitor_leave_tracker :
    ((Shrinker.visitor wholeChain locate).leave s).2.tracker = s.tracker.leave := rfl

@[simp] theorem Shrinker.visitor_leave_folds :
    ((Shrinker.visitor wholeChain locate).leave s).2.folds = s.folds := rfl

/-- The fold that is recorded for an `if` statement. -/
def foldRecord? (locate : Nat → Location) (verdict : Option Bool) (span : Span)
    (hasAlternate : Bool) : Option FoldRecord :=
  match verdict, hasAlternate with
  | none, _ => none
  | some true, _ => some ⟨locate span.start, .keptConsequent⟩
  | some false, true => some ⟨locate span.start, .keptAlternate⟩
  | some false, false => some ⟨locate span.start, .removed⟩

/-- What a verdict makes of an `if` statement. -/
def decisionOn : Option Bool → Decision
  | none => .keep
  | some true => .consequent
  | some false => .alternate

theorem Shrinker.At.associations (h : s.At g scope) (position : Nat) :
    (s.tracker.outlook position wholeChain).associations = g.known wholeChain scope position := by
  obtain ⟨hg, rest, hs⟩ := h
  simp [Tracker.outlook, Tracker.current, ScopeGraph.known, hg, hs]

/-- Where the walk stands tells the decision and what is recorded. -/
theorem Shrinker.At.decide (h : s.At g scope) (span : Span) (test : Expr) (hasAlternate : Bool) :
    let verdict := g.verdict wholeChain scope span test
    let decided := (Shrinker.visitor wholeChain locate).decide span test hasAlternate s
    decided.1 = decisionOn verdict ∧ decided.2.tracker = s.tracker ∧
      decided.2.folds = s.folds ++ (foldRecord? locate verdict span hasAlternate).toList := by
  have ha := h.associations wholeChain span.start
  simp only [Shrinker.visitor, Shrinker.decide, bind_apply, get_apply, ha, foldKind?,
    ScopeGraph.verdict]
  cases evaluate (g.known wholeChain scope span.start) test with
  | none => simp [decisionOn, foldRecord?]
  | some value =>
    cases hasAlternate <;> cases hv : value.truthy <;>
      simp [hv, decisionOn, foldRecord?, FoldKind.ofTest, Shrinker.decisionOf]

theorem Shrinker.At.enter (h : s.At g scope) (key : FunctionKey) (params : List Expr) :
    ((Shrinker.visitor wholeChain locate).enter key.boundary key.span params s).2.At g
      (g.inside scope key) := by
  obtain ⟨hg, rest, hs⟩ := h
  refine ⟨hg, s.tracker.stack, ?_⟩
  simp [Tracker.enter, Tracker.current, ScopeGraph.inside, hg, hs]

theorem Shrinker.At.of_tracker {t : Shrinker} (h : s.At g scope) (ht : t.tracker = s.tracker) :
    t.At g scope := by
  obtain ⟨hg, rest, hs⟩ := h
  exact ⟨by rw [ht, hg], rest, by rw [ht, hs]⟩

theorem Tracker.leave_enter {t : Tracker} (h : t.stack ≠ []) (key : FunctionKey) :
    (t.enter key).leave = t := by
  have : 0 < t.stack.length := List.length_pos_iff.mpr h
  simp [Tracker.leave, Tracker.enter, this]

/-- Going through an outline comes back to the scopes it started in. -/
theorem visit_tracker (o : Outline) : ∀ {scope : Nat} {s : Shrinker}, s.At g scope →
    (o.visit (Shrinker.visitor wholeChain locate) s).tracker = s.tracker := by
  induction o with
  | blank => intro _ s _; rfl
  | both first second ih1 ih2 =>
    intro scope s h
    rw [Outline.visit, ih2 (h.of_tracker (ih1 h)), ih1 h]
  | scope key params inside ih =>
    intro scope s h
    -- what is entered on top of the stack is what is left at the end
    obtain ⟨rest, hs⟩ := h.stack
    rw [Outline.visit, Shrinker.visitor_leave_tracker, ih (h.enter wholeChain locate key params),
      Shrinker.visitor_enter_tracker, Tracker.leave_enter (by simp [hs])]
  | block span inside ih => intro scope s h; exact ih h
  | declare d => intro _ s _; cases d <;> rfl
  | choice span test hasAlternate inTest consequent alternate iht ihc iha =>
    intro scope s h
    obtain ⟨-, ht, -⟩ := h.decide wholeChain locate span test hasAlternate
    have h1 := h.of_tracker ht
    simp only [Outline.visit]
    split
    · have h2 := h1.of_tracker (iht h1)
      rw [iha (h2.of_tracker (ihc h2)), ihc h2, iht h1, ht]
    · rw [ihc h1, ht]
    · rw [iha h1, ht]

theorem Shrinker.At.visit (h : s.At g scope) (o : Outline) :
    (o.visit (Shrinker.visitor wholeChain locate) s).At g scope :=
  h.of_tracker (visit_tracker wholeChain locate o h)

mutual

theorem walkExpr_pruned : ∀ (e : Expr) {scope : Nat} {s : Shrinker}, s.At g scope →
    (walkExpr (Shrinker.visitor wholeChain locate) e s).1 = e.pruned g wholeChain scope
  | .absent, _, _, _ | .literal _, _, _, _ | .ident _, _, _, _ => by simp [walkExpr, Expr.pruned]
  | .paren e, _, _, h | .unary _ e, _, _, h | .member e _, _, _, h | .spread e, _, _, h => by
    simp [walkExpr, Expr.pruned, walkExpr_pruned e h]
  | .binary _ d e, _, _, h | .assign _ d e, _, _, h | .index d e, _, _, h
  | .withDefault d e, _, _, h => by
    simp [walkExpr, Expr.pruned, walkExpr_state, walkExpr_pruned d h,
      walkExpr_pruned e (h.visit wholeChain locate d.outline)]
  | .cond c d e, _, _, h => by
    have hc := h.visit wholeChain locate c.outline
    have hd := hc.visit wholeChain locate d.outline
    simp [walkExpr, Expr.pruned, walkExpr_state, walkExpr_pruned c h, walkExpr_pruned d hc,
      walkExpr_pruned e hd]
  | .array es, _, _, h | .arrayPattern es, _, _, h | .other _ es, _, _, h => by
    simp [walkExpr, Expr.pruned, walkExprs_pruned es h]
  | .object ps, _, _, h | .objectPattern ps, _, _, h => by
    simp [walkExpr, Expr.pruned, walkProperties_pruned ps h]
  | .closure c, _, _, h => by simp [walkExpr, Expr.pruned, walkClosure_pruned c h]
  | .classExpr _ ps e, _, _, h => by
    simp [walkExpr, Expr.pruned, walkProperties_state, walkProperties_pruned ps h,
      walkExpr_pruned e (h.visit wholeChain locate (propertiesOutline ps))]

theorem walkExprs_pruned : ∀ (es : List Expr) {scope : Nat} {s : Shrinker}, s.At g scope →
    (walkExprs (Shrinker.visitor wholeChain locate) es s).1 = exprsPruned g wholeChain scope es
  | [], _, _, _ => by simp [walkExprs, exprsPruned]
  | e :: rest, _, _, h => by
    simp [walkExprs, exprsPruned, walkExpr_state, walkExpr_pruned e h,
      walkExprs_pruned rest (h.visit wholeChain locate e.outline)]

theorem walkKey_pruned : ∀ (k : Key) {scope : Nat} {s : Shrinker}, s.At g scope →
    (walkKey (Shrinker.visitor wholeChain locate) k s).1 = k.pruned g wholeChain scope
  | .computed e, _, _, h => by simp [walkKey, Key.pruned, walkExpr_pruned e h]
  | .ident _, _, _, _ | .string _ _, _, _, _ | .number _ _, _, _, _ | .bigint _ _, _, _, _
  | .privateName _, _, _, _ => by simp [walkKey, Key.pruned]

theorem walkProperty_pruned : ∀ (p : Property) {scope : Nat} {s : Shrinker}, s.At g scope →
    (walkProperty (Shrinker.visitor wholeChain locate) p s).1 = p.pruned g wholeChain scope
  | .pair k e, _, _, h | .field _ k e, _, _, h => by
    simp [walkProperty, Property.pruned, walkKey_state, walkKey_pruned k h,
      walkExpr_pruned e (h.visit wholeChain locate k.outline)]
  | .shorthand _ e, _, _, h | .spread e, _, _, h => by
    simp [walkProperty, Property.pruned, walkExpr_pruned e h]
  | .method _ _ k (.block head span params body), _, _, h => by
    by_cases hk : head.holdsKey
    · have h1 := h.enter wholeChain locate ⟨head.boundary, span⟩ params
      have h2 := h1.visit wholeChain locate k.outline
      have h3 := h2.visit wholeChain locate (exprsOutline params)
      simp [walkProperty, Property.pruned, hk, walkKey_state, walkExprs_state,
        walkKey_pruned k h1, walkExprs_pruned params h2, walkBlock_pruned body h3]
    · have h1 := h.visit wholeChain locate k.outline
      have h2 := h1.enter wholeChain locate ⟨head.boundary, span⟩ params
      have h3 := h2.visit wholeChain locate (exprsOutline params)
      simp [walkProperty, Property.pruned, hk, walkKey_state, walkExprs_state,
        walkKey_pruned k h, walkExprs_pruned params h2, walkBlock_pruned body h3]
  | .method _ _ k (.concise head span params result), _, _, h => by
    simp [walkProperty, Property.pruned, walkKey_state, walkKey_pruned k h,
      walkClosure_pruned (.concise head span params result) (h.visit wholeChain locate k.outline)]
  | .staticBlock b, _, _, h => by simp [walkProperty, Property.pruned, walkBlock_pruned b h]
  | .empty, _, _, _ => by simp [walkProperty, Property.pruned]

theorem walkProperties_pruned : ∀ (ps : List Property) {scope : Nat} {s : Shrinker},
    s.At g scope → (walkProperties (Shrinker.visitor wholeChain locate) ps s).1 =
      propertiesPruned g wholeChain scope ps
  | [], _, _, _ => by simp [walkProperties, propertiesPruned]
  | p :: rest, _, _, h => by
    simp [walkProperties, propertiesPruned, walkProperty_state, walkProperty_pruned p h,
      walkProperties_pruned rest (h.visit wholeChain locate p.outline)]

theorem walkClosure_pruned : ∀ (c : Closure) {scope : Nat} {s : Shrinker}, s.At g scope →
    (walkClosure (Shrinker.visitor wholeChain locate) c s).1 = c.pruned g wholeChain scope
  | .block head span params body, _, _, h => by
    have h1 := h.enter wholeChain locate ⟨head.boundary, span⟩ params
    have h2 := h1.visit wholeChain locate (exprsOutline params)
    simp [walkClosure, Closure.pruned, walkExprs_state, walkExprs_pruned params h1,
      walkBlock_pruned body h2]
  | .concise head span params result, _, _, h => by
    have h1 := h.enter wholeChain locate ⟨head.boundary, span⟩ params
    have h2 := h1.visit wholeChain locate (exprsOutline params)
    simp [walkClosure, Closure.pruned, walkExprs_state, walkExprs_pruned params h1,
      walkExpr_pruned result h2]

theorem walkBlock_pruned : ∀ (b : Block) {scope : Nat} {s : Shrinker}, s.At g scope →
    (walkBlock (Shrinker.visitor wholeChain locate) b s).1 = b.pruned g wholeChain scope
  | .mk span stmts, _, _, h => by simp [walkBlock, Block.pruned, walkStmts_pruned stmts h]

theorem walkDeclarator_pruned : ∀ (d : Declarator) {scope : Nat} {s : Shrinker}, s.At g scope →
    (walkDeclarator (Shrinker.visitor wholeChain locate) d s).1 = d.pruned g wholeChain scope
  | .mk target init, _, _, h => by
    simp [walkDeclarator, Declarator.pruned, walkExpr_state, walkExpr_pruned target h,
      walkExpr_pruned init (h.visit wholeChain locate target.outline)]

theorem walkDeclarators_pruned : ∀ (ds : List Declarator) {scope : Nat} {s : Shrinker},
    s.At g scope → (walkDeclarators (Shrinker.visitor wholeChain locate) ds s).1 =
      declaratorsPruned g wholeChain scope ds
  | [], _, _, _ => by simp [walkDeclarators, declaratorsPruned]
  | d :: rest, _, _, h => by
    simp [walkDeclarators, declaratorsPruned, walkDeclarator_state, walkDeclarator_pruned d h,
      walkDeclarators_pruned rest (h.visit wholeChain locate d.outline)]

theorem walkDecl_pruned : ∀ (d : Decl) {scope : Nat} {s : Shrinker}, s.At g scope →
    (walkDecl (Shrinker.visitor wholeChain locate) d s).1 = d.pruned g wholeChain scope
  | .vars kind ds, _, _, h => by
    simp [walkDecl, Decl.pruned, walkDeclarators_pruned ds h]
  | .function name c, _, _, h => by
    simp [walkDecl, Decl.pruned, walkClosure_pruned c h]
  | .classDecl name ps e, _, _, h => by
    simp [walkDecl, Decl.pruned, walkProperties_state,
      walkProperties_pruned ps h,
      walkExpr_pruned e (h.visit wholeChain locate (propertiesOutline ps))]

theorem walkLoopHead_pruned : ∀ (l : LoopHead) {scope : Nat} {s : Shrinker}, s.At g scope →
    (walkLoopHead (Shrinker.visitor wholeChain locate) l s).1 = l.pruned g wholeChain scope
  | .decl kind ds, _, _, h => by
    simp [walkLoopHead, LoopHead.pruned, walkDeclarators_pruned ds h]
  | .expr e, _, _, h => by simp [walkLoopHead, LoopHead.pruned, walkExpr_pruned e h]

/-- **The walk leaves the pruned statement.** Where nothing is left of it the
walk leaves `Stmt.removed`. -/
theorem walkStmt_pruned : ∀ (t : Stmt) {scope : Nat} {s : Shrinker}, s.At g scope →
    (walkStmt (Shrinker.visitor wholeChain locate) t s).1 =
      (t.pruned g wholeChain scope).getD .removed
  | .empty, _, _, _ | .removed, _, _, _ | .exitTo _, _, _, _ | .continueTo _, _, _, _
  | .debugger, _, _, _ => by simp [walkStmt, Stmt.pruned]
  | .expr e, _, _, h | .ret e, _, _, h | .throw e, _, _, h => by
    simp [walkStmt, Stmt.pruned, walkExpr_pruned e h]
  | .block b, _, _, h => by simp [walkStmt, Stmt.pruned, walkBlock_pruned b h]
  | .decl d, _, _, h => by simp [walkStmt, Stmt.pruned, walkDecl_pruned d h]
  | .ifElse span test consequent none, scope, s, h => by
    obtain ⟨hd, ht, -⟩ := h.decide wholeChain locate span test false
    have h1 := h.of_tracker ht
    simp only [walkStmt, Stmt.pruned, bind_apply, Option.isSome_none, hd]
    rcases g.verdict wholeChain scope span test with _ | _ | _
    · have h2 := h1.visit wholeChain locate test.outline
      simp [decisionOn, walkExpr_state, walkExpr_pruned test h1, walkStmt_pruned consequent h2,
        walkAlternate, alternatePruned]
    · simp [decisionOn, alternatePruned]
    · simp [decisionOn, walkStmt_pruned consequent h1]
  | .ifElse span test consequent (some alternate), scope, s, h => by
    obtain ⟨hd, ht, -⟩ := h.decide wholeChain locate span test true
    have h1 := h.of_tracker ht
    simp only [walkStmt, Stmt.pruned, bind_apply, Option.isSome_some, hd]
    rcases g.verdict wholeChain scope span test with _ | _ | _
    · have h2 := h1.visit wholeChain locate test.outline
      have h3 := h2.visit wholeChain locate consequent.outline
      simp [decisionOn, walkExpr_state, walkStmt_state, walkExpr_pruned test h1,
        walkStmt_pruned consequent h2, walkAlternate, walkStmt_pruned alternate h3,
        alternatePruned, Stmt.pruned_alternateOf]
    · simp [decisionOn, alternatePruned, walkStmt_pruned alternate h1]
    · simp [decisionOn, walkStmt_pruned consequent h1]
  | .whileLoop e body, _, _, h | .doWhile e body, _, _, h | .withObject e body, _, _, h => by
    simp [walkStmt, Stmt.pruned, walkExpr_state, walkExpr_pruned e h,
      walkStmt_pruned body (h.visit wholeChain locate e.outline)]
  | .forLoop span head test update body, _, _, h => by
    have h1 := h.visit wholeChain locate head.outline
    have h2 := h1.visit wholeChain locate test.outline
    have h3 := h2.visit wholeChain locate update.outline
    simp [walkStmt, Stmt.pruned, walkLoopHead_state, walkExpr_state, walkLoopHead_pruned head h,
      walkExpr_pruned test h1, walkExpr_pruned update h2, walkStmt_pruned body h3]
  | .forEach span _ head subject body, _, _, h => by
    have h1 := h.visit wholeChain locate head.outline
    have h2 := h1.visit wholeChain locate subject.outline
    simp [walkStmt, Stmt.pruned, walkLoopHead_state, walkExpr_state, walkLoopHead_pruned head h,
      walkExpr_pruned subject h1, walkStmt_pruned body h2]
  | .labeled _ body, _, _, h => by simp [walkStmt, Stmt.pruned, walkStmt_pruned body h]
  | .switch span subject cases, _, _, h => by
    simp [walkStmt, Stmt.pruned, walkExpr_state, walkExpr_pruned subject h,
      walkCases_pruned cases (h.visit wholeChain locate subject.outline)]
  | .tryCatch body handler finalizer, _, _, h => by
    have h1 := h.visit wholeChain locate body.outline
    have h2 := h1.visit wholeChain locate (handlerOutline handler)
    simp [walkStmt, Stmt.pruned, walkBlock_state, walkHandler_state, walkBlock_pruned body h,
      walkHandler_pruned handler h1, walkFinalizer_pruned finalizer h2]

theorem walkStmts_pruned : ∀ (ss : List Stmt) {scope : Nat} {s : Shrinker}, s.At g scope →
    (walkStmts (Shrinker.visitor wholeChain locate) ss s).1 = stmtsPruned g wholeChain scope ss
  | [], _, _, _ => by simp [walkStmts, stmtsPruned]
  | t :: rest, _, _, h => by
    simp only [walkStmts, stmtsPruned, bind_apply, pure_apply, walkStmt_state,
      walkStmt_pruned t h, walkStmts_pruned rest (h.visit wholeChain locate t.outline),
      Stmt.pruned_toList_append]

theorem walkCase_pruned : ∀ (c : Case) {scope : Nat} {s : Shrinker}, s.At g scope →
    (walkCase (Shrinker.visitor wholeChain locate) c s).1 = c.pruned g wholeChain scope
  | .mk none body, _, _, h => by simp [walkCase, Case.pruned, walkStmts_pruned body h]
  | .mk (some test) body, _, _, h => by
    simp [walkCase, Case.pruned, walkExpr_state, walkExpr_pruned test h,
      walkStmts_pruned body (h.visit wholeChain locate test.outline)]

theorem walkCases_pruned : ∀ (cs : List Case) {scope : Nat} {s : Shrinker}, s.At g scope →
    (walkCases (Shrinker.visitor wholeChain locate) cs s).1 = casesPruned g wholeChain scope cs
  | [], _, _, _ => by simp [walkCases, casesPruned]
  | c :: rest, _, _, h => by
    simp [walkCases, casesPruned, walkCase_state, walkCase_pruned c h,
      walkCases_pruned rest (h.visit wholeChain locate c.outline)]

theorem walkHandler_pruned : ∀ (c : Option Handler) {scope : Nat} {s : Shrinker}, s.At g scope →
    (walkHandler (Shrinker.visitor wholeChain locate) c s).1 = handlerPruned g wholeChain scope c
  | none, _, _, _ => by simp [walkHandler, handlerPruned]
  | some (.mk span param body), _, _, h => by
    simp [walkHandler, handlerPruned, walkExpr_state, walkExpr_pruned param h,
      walkBlock_pruned body (h.visit wholeChain locate param.outline)]

theorem walkFinalizer_pruned : ∀ (b : Option Block) {scope : Nat} {s : Shrinker}, s.At g scope →
    (walkFinalizer (Shrinker.visitor wholeChain locate) b s).1 =
      finalizerPruned g wholeChain scope b
  | none, _, _, _ => by simp [walkFinalizer, finalizerPruned]
  | some body, _, _, h => by simp [walkFinalizer, finalizerPruned, walkBlock_pruned body h]

end

theorem walkItem_pruned (i : Item) (h : s.At g scope) (rest : List Item) :
    (let walked := (walkItem (Shrinker.visitor wholeChain locate) i s).1
      if walked.isRemoved then rest else walked :: rest) =
      (i.pruned g wholeChain scope).toList ++ rest := by
  cases i with
  | stmt t =>
    have hr := t.pruned_ne_removed g wholeChain scope
    simp only [walkItem, walkStmt_pruned wholeChain locate t h, Item.pruned,
      Item.isRemoved, bind_apply, pure_apply]
    cases ht : t.pruned g wholeChain scope with
    | none => rfl
    | some u => cases u <;> simp_all [Stmt.isRemoved]
  | importNames names source => simp [walkItem, Item.pruned, Item.isRemoved]
  | exportNames names source => simp [walkItem, Item.pruned, Item.isRemoved]
  | exportAll source => simp [walkItem, Item.pruned, Item.isRemoved]
  | exportDecl d =>
    simp [walkItem, Item.pruned, Item.isRemoved, walkDecl_pruned wholeChain locate d h]
  | exportDefault isDecl e =>
    simp [walkItem, Item.pruned, Item.isRemoved, walkExpr_pruned wholeChain locate e h]

theorem walkItems_pruned : ∀ (is : List Item) {s : Shrinker}, s.At g scope →
    (walkItems (Shrinker.visitor wholeChain locate) is s).1 = itemsPruned g wholeChain scope is
  | [], _, _ => by simp [walkItems, itemsPruned]
  | i :: rest, s, h => by
    have h1 := h.visit wholeChain locate i.outline
    simp only [walkItems, itemsPruned, bind_apply, pure_apply, walkItem_state,
      walkItems_pruned rest h1]
    exact walkItem_pruned wholeChain locate i h _

end Walk

/-! ### The sites of a program -/

/-- An `if` statement, with the scope directly around it. -/
structure Conditional where
  scope : Nat
  span : Span
  test : Expr
  hasAlternate : Bool

/-- The parts of an `if` statement. -/
inductive Part where
  | test | consequent | alternate
deriving DecidableEq, Repr

/-- Does a verdict drop the part? -/
def Part.isDropped : Part → Option Bool → Bool
  | _, none => false
  | part, some true => part != .consequent
  | part, some false => part != .alternate

/-- The place of an `if` statement in a program. -/
structure Site where
  conditional : Conditional
  /-- The `if` statements around it, the innermost first, with the part of each
  in which it lies. -/
  around : List (Conditional × Part)

/-- All `if` statements of an outline, in the order of the walk. -/
def Outline.sites (g : ScopeGraph) (scope : Nat) (around : List (Conditional × Part)) :
    Outline → List Site
  | .blank => []
  | .both first second => first.sites g scope around ++ second.sites g scope around
  | .scope key _ inside => inside.sites g (g.inside scope key) around
  | .block _ inside => inside.sites g scope around
  | .declare _ => []
  | .choice span test hasAlternate inTest consequent alternate =>
    let here : Conditional := ⟨scope, span, test, hasAlternate⟩
    ⟨here, around⟩ :: (inTest.sites g scope ((here, .test) :: around) ++
      consequent.sites g scope ((here, .consequent) :: around) ++
      alternate.sites g scope ((here, .alternate) :: around))

/-- The `if` statements of a program. -/
def Program.sites (p : Program) : List Site := p.outline.sites (.ofProgram p) 0 []

section Sites

variable (g : ScopeGraph) (wholeChain : Bool)

/-- The verdict on an `if` statement. -/
def Conditional.verdict (c : Conditional) : Option Bool :=
  g.verdict wholeChain c.scope c.span c.test

/-- Does one of these `if` statements drop its part? -/
def anyDropped (around : List (Conditional × Part)) : Bool :=
  around.any fun (c, part) => part.isDropped (c.verdict g wholeChain)

/-- What is recorded for an `if` statement: the fold that its verdict makes,
unless the statement lies in a part that another one drops. -/
def Site.record? (locate : Nat → Location) (site : Site) : Option FoldRecord :=
  if anyDropped g wholeChain site.around then none
  else foldRecord? locate (site.conditional.verdict g wholeChain) site.conditional.span
    site.conditional.hasAlternate

variable {g} (locate : Nat → Location)

@[simp] theorem anyDropped_cons (c : Conditional) (part : Part)
    (around : List (Conditional × Part)) : anyDropped g wholeChain ((c, part) :: around) =
      (part.isDropped (c.verdict g wholeChain) || anyDropped g wholeChain around) := rfl

/-- Outside dropped parts, a part of an `if` statement is dropped by the verdict on
its test alone. -/
theorem anyDropped_inside {around : List (Conditional × Part)}
    (h : anyDropped g wholeChain around = false) (c : Conditional) (part : Part) :
    anyDropped g wholeChain ((c, part) :: around) =
      part.isDropped (g.verdict wholeChain c.scope c.span c.test) := by
  simp [Conditional.verdict, h]

/-- What lies in a dropped part is dropped, with all `if` statements in it. -/
theorem anyDropped_of_mem_sites (o : Outline) :
    ∀ {scope : Nat} {around : List (Conditional × Part)}, anyDropped g wholeChain around = true →
      ∀ site ∈ o.sites g scope around, anyDropped g wholeChain site.around = true := by
  induction o with
  | blank => simp [Outline.sites]
  | both first second ih1 ih2 =>
    intro _ _ h
    exact List.forall_mem_append.mpr ⟨ih1 h, ih2 h⟩
  | scope key params inside ih => intro _ _ h; exact ih h
  | block span inside ih => intro _ _ h; exact ih h
  | declare d => simp [Outline.sites]
  | choice span test hasAlternate inTest consequent alternate iht ihc iha =>
    intro scope around h
    have hpart : ∀ part, anyDropped g wholeChain
        ((⟨scope, span, test, hasAlternate⟩, part) :: around) = true := by
      simp [h]
    simp only [Outline.sites, List.forall_mem_cons, List.forall_mem_append]
    exact ⟨h, ⟨iht (hpart .test), ihc (hpart .consequent)⟩, iha (hpart .alternate)⟩

/-- Nothing is recorded for what lies in a dropped part. -/
theorem sites_records_of_dropped (o : Outline) {scope : Nat}
    {around : List (Conditional × Part)} (h : anyDropped g wholeChain around = true) :
    (o.sites g scope around).filterMap (Site.record? g wholeChain locate) = [] := by
  refine List.filterMap_eq_nil_iff.mpr fun site hsite => ?_
  simp [Site.record?, anyDropped_of_mem_sites wholeChain o h site hsite]

/-- Going through an outline records the folds of its sites, in order. -/
theorem visit_folds (o : Outline) :
    ∀ {scope : Nat} {s : Shrinker} {around : List (Conditional × Part)}, s.At g scope →
      anyDropped g wholeChain around = false →
      (o.visit (Shrinker.visitor wholeChain locate) s).folds =
        s.folds ++ (o.sites g scope around).filterMap (Site.record? g wholeChain locate) := by
  induction o with
  | blank => intro _ _ _ _ _; simp [Outline.sites]
  | both first second ih1 ih2 =>
    intro _ _ _ h hk
    rw [Outline.visit, ih2 (h.visit wholeChain locate first) hk, ih1 h hk, Outline.sites,
      List.filterMap_append, List.append_assoc]
  | scope key params inside ih =>
    intro _ _ _ h hk
    rw [Outline.visit, Shrinker.visitor_leave_folds, ih (h.enter wholeChain locate key params) hk,
      Shrinker.visitor_enter_folds, Outline.sites]
  | block span inside ih => intro _ _ _ h hk; exact ih h hk
  | declare d => intro _ _ _ _ _; simp [Outline.sites]
  | choice span test hasAlternate inTest consequent alternate iht ihc iha =>
    intro scope s around h hk
    obtain ⟨hd, ht, hf⟩ := h.decide wholeChain locate span test hasAlternate
    have h1 := h.of_tracker ht
    have hpart : ∀ part, anyDropped g wholeChain
        ((⟨scope, span, test, hasAlternate⟩, part) :: around) =
          part.isDropped (g.verdict wholeChain scope span test) := by
      simp [Conditional.verdict, hk]
    -- the fold of the statement itself, then those of the parts that its verdict keeps
    simp only [Outline.visit, Outline.sites, hd, List.filterMap_cons, List.filterMap_append,
      Site.record?, hk, Conditional.verdict]
    cases hv : g.verdict wholeChain scope span test with
    | none =>
      rw [hv] at hf hpart
      have h2 := h1.visit wholeChain locate inTest
      have h3 := h2.visit wholeChain locate consequent
      simp only [decisionOn]
      rw [iha h3 (hpart .alternate), ihc h2 (hpart .consequent), iht h1 (hpart .test), hf]
      simp [foldRecord?]
    | some isTrue =>
      rw [hv] at hf hpart
      cases isTrue with
      | true =>
        simp only [decisionOn]
        rw [ihc h1 (hpart .consequent), hf,
          sites_records_of_dropped wholeChain locate inTest (hpart .test),
          sites_records_of_dropped wholeChain locate alternate (hpart .alternate)]
        simp [foldRecord?]
      | false =>
        simp only [decisionOn]
        rw [iha h1 (hpart .alternate), hf,
          sites_records_of_dropped wholeChain locate inTest (hpart .test),
          sites_records_of_dropped wholeChain locate consequent (hpart .consequent)]
        cases hasAlternate <;> simp [foldRecord?]

end Sites

theorem Shrinker.at_start (p : Program) :
    Shrinker.At (.ofProgram p) 0 (.start (.ofProgram p)) :=
  ⟨rfl, [], rfl⟩

theorem shrink_program (wholeChain : Bool) (locate : Nat → Location) (p : Program) :
    (shrink wholeChain locate p).program = p.pruned wholeChain := by
  simp only [shrink, walkProgram, bind_apply, pure_apply,
    walkItems_pruned wholeChain locate p.items (Shrinker.at_start p), Program.pruned]

theorem shrink_folds (wholeChain : Bool) (locate : Nat → Location) (p : Program) :
    (shrink wholeChain locate p).folds =
      p.sites.filterMap (Site.record? (.ofProgram p) wholeChain locate) := by
  change (walkProgram (Shrinker.visitor wholeChain locate) p _).2.folds = _
  rw [walkProgram_state]
  exact visit_folds wholeChain locate p.outline (Shrinker.at_start p) rfl

/-- **One pass rewrites a program as its verdicts say.** What is left is the
pruned program, and the folds are those of the decided `if` statements that do
not lie in a dropped part, in the order of the text.

The scope around an `if` statement is looked up here by kind and range, as `shrink`
does it. If no two functions have the same kind and range, this is the scope that
collecting opened around the statement (`ScopeGraph.Holds.found`, `calls_collector`). -/
theorem shrink_eq_pruned (wholeChain : Bool) (locate : Nat → Location) (p : Program) :
    (shrink wholeChain locate p).program = p.pruned wholeChain ∧
      (shrink wholeChain locate p).folds =
        p.sites.filterMap (Site.record? (.ofProgram p) wholeChain locate) :=
  ⟨shrink_program wholeChain locate p, shrink_folds wholeChain locate p⟩

end DeadBranch
