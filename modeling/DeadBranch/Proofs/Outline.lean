/-
# What a walk meets in a program

A walk calls its visitor at functions, blocks, declarations and `if` statements
and nowhere else. The `Outline` of a program keeps exactly these, in the order
in which the walk comes to them and with the nesting they have; all else of the
syntax is gone. What a walk does to the state of its visitor is told by the
outline alone, whatever the visitor (`walkProgram_state`), so that what holds of
the scopes, of the tracker and of the recorded folds is shown by induction on
the six forms of an outline and not on the whole syntax.

Not covered: the tree that a walk leaves behind (see `DeadBranch.Proofs.Pruned`).

Key definitions: `Outline`, `Program.outline`, `Outline.visit`.
Key theorems: `walkStmt_state`, `walkProgram_state`.
-/
import DeadBranch.Tree.Walk
import DeadBranch.Scope.Graph

namespace DeadBranch

/-- A declaration, as a visitor is told about it. -/
inductive Declaration where
  | vars (kind : VarKind) (declarators : List Declarator)
  | function (name : String)
  | classDecl (name : String)
  | caught (pattern : Expr)
  | imports (names : List String)

/-- What a walk meets, in order. -/
inductive Outline where
  | blank
  /-- One part after the other. -/
  | both (first second : Outline)
  /-- A function with its parameters. -/
  | scope (key : FunctionKey) (params : List Expr) (inside : Outline)
  | block (span : Span) (inside : Outline)
  | declare (d : Declaration)
  /-- An `if` statement. Without an alternate the last part is blank. -/
  | choice (span : Span) (test : Expr) (hasAlternate : Bool)
      (inTest consequent alternate : Outline)

/-- One part after the other; a blank part leaves no trace. -/
def Outline.andThen : Outline → Outline → Outline
  | .blank, second => second
  | first, .blank => first
  | first, second => .both first second

@[simp] theorem Outline.blank_andThen (o : Outline) : Outline.andThen .blank o = o := by
  cases o <;> rfl

@[simp] theorem Outline.andThen_blank (o : Outline) : o.andThen .blank = o := by
  cases o <;> rfl

theorem Outline.andThen_of_ne {first second : Outline} (h1 : first ≠ .blank)
    (h2 : second ≠ .blank) : first.andThen second = .both first second := by
  cases first <;> cases second <;> simp_all [Outline.andThen]

/-! ### The outline of a tree -/

mutual

/-- What a walk meets in an expression or pattern. -/
def Expr.outline : Expr → Outline
  | .absent | .literal _ | .ident _ => .blank
  | .paren inner => inner.outline
  | .unary _ operand => operand.outline
  | .binary _ left right => .andThen left.outline right.outline
  | .cond test consequent alternate =>
    .andThen test.outline (.andThen consequent.outline alternate.outline)
  | .assign _ target value => .andThen target.outline value.outline
  | .member object _ => object.outline
  | .index object key => .andThen object.outline key.outline
  | .array elements => exprsOutline elements
  | .object properties => propertiesOutline properties
  | .spread operand => operand.outline
  | .arrayPattern elements => exprsOutline elements
  | .objectPattern properties => propertiesOutline properties
  | .withDefault target fallback => .andThen target.outline fallback.outline
  | .closure body => body.outline
  | .classExpr _ members parent => .andThen (propertiesOutline members) parent.outline
  | .other _ parts => exprsOutline parts

/-- What a walk meets in expressions. -/
def exprsOutline : List Expr → Outline
  | [] => .blank
  | e :: rest => .andThen e.outline (exprsOutline rest)

/-- What a walk meets in a key. -/
def Key.outline : Key → Outline
  | .computed key => key.outline
  | _ => .blank

/-- What a walk meets in a property or class member. -/
def Property.outline : Property → Outline
  | .pair key value => .andThen key.outline value.outline
  | .shorthand _ fallback => fallback.outline
  | .spread operand => operand.outline
  | .method _ _ key (.block head span params body) =>
    if head.holdsKey then
      .scope ⟨head.boundary, span⟩ params
        (.andThen key.outline (.andThen (exprsOutline params) body.outline))
    else
      .andThen key.outline
        (.scope ⟨head.boundary, span⟩ params (.andThen (exprsOutline params) body.outline))
  | .method _ _ key body => .andThen key.outline body.outline
  | .field _ key value => .andThen key.outline value.outline
  | .staticBlock body => body.outline
  | .empty => .blank

/-- What a walk meets in properties. -/
def propertiesOutline : List Property → Outline
  | [] => .blank
  | p :: rest => .andThen p.outline (propertiesOutline rest)

/-- What a walk meets in a function, the function included. -/
def Closure.outline : Closure → Outline
  | .block head span params body =>
    .scope ⟨head.boundary, span⟩ params (.andThen (exprsOutline params) body.outline)
  | .concise head span params result =>
    .scope ⟨head.boundary, span⟩ params (.andThen (exprsOutline params) result.outline)

/-- What a walk meets in a block, the block included. -/
def Block.outline : Block → Outline
  | .mk span stmts => .block span (stmtsOutline stmts)

/-- What a walk meets in a declared variable. -/
def Declarator.outline : Declarator → Outline
  | .mk target init => .andThen target.outline init.outline

/-- What a walk meets in declared variables. -/
def declaratorsOutline : List Declarator → Outline
  | [] => .blank
  | d :: rest => .andThen d.outline (declaratorsOutline rest)

/-- What a walk meets in a declaration, the declared names first. -/
def Decl.outline : Decl → Outline
  | .vars kind declarators =>
    .andThen (.declare (.vars kind declarators)) (declaratorsOutline declarators)
  | .function name body => .andThen (.declare (.function name)) body.outline
  | .classDecl name members parent =>
    .andThen (.declare (.classDecl name)) (.andThen (propertiesOutline members) parent.outline)

/-- What a walk meets where a loop starts. -/
def LoopHead.outline : LoopHead → Outline
  | .decl kind declarators =>
    .andThen (.declare (.vars kind declarators)) (declaratorsOutline declarators)
  | .expr e => e.outline

/-- What a walk meets in a statement. -/
def Stmt.outline : Stmt → Outline
  | .empty | .removed | .exitTo _ | .continueTo _ | .debugger => .blank
  | .expr e => e.outline
  | .block body => body.outline
  | .decl d => d.outline
  | .ifElse span test consequent alternate =>
    .choice span test alternate.isSome test.outline consequent.outline (alternateOutline alternate)
  | .whileLoop test body => .andThen test.outline body.outline
  | .doWhile test body => .andThen test.outline body.outline
  | .forLoop span head test update body =>
    .block span
      (.andThen head.outline (.andThen test.outline (.andThen update.outline body.outline)))
  | .forEach span _ head subject body =>
    .block span (.andThen head.outline (.andThen subject.outline body.outline))
  | .labeled _ body => body.outline
  | .withObject object body => .andThen object.outline body.outline
  | .switch span subject cases => .block span (.andThen subject.outline (casesOutline cases))
  | .tryCatch body handler finalizer =>
    .andThen body.outline (.andThen (handlerOutline handler) (finalizerOutline finalizer))
  | .ret value => value.outline
  | .throw value => value.outline

/-- What a walk meets after `else`. -/
def alternateOutline : Option Stmt → Outline
  | none => .blank
  | some s => s.outline

/-- What a walk meets in statements. -/
def stmtsOutline : List Stmt → Outline
  | [] => .blank
  | s :: rest => .andThen s.outline (stmtsOutline rest)

/-- What a walk meets in a case. -/
def Case.outline : Case → Outline
  | .mk none body => stmtsOutline body
  | .mk (some test) body => .andThen test.outline (stmtsOutline body)

/-- What a walk meets in cases. -/
def casesOutline : List Case → Outline
  | [] => .blank
  | c :: rest => .andThen c.outline (casesOutline rest)

/-- What a walk meets in a catch clause. -/
def handlerOutline : Option Handler → Outline
  | none => .blank
  | some (.mk span param body) =>
    .block span (.andThen (.declare (.caught param)) (.andThen param.outline body.outline))

/-- What a walk meets in a final block. -/
def finalizerOutline : Option Block → Outline
  | none => .blank
  | some body => body.outline

end

/-- What a walk meets in an item of a program. -/
def Item.outline : Item → Outline
  | .stmt s => s.outline
  | .importNames names _ => .declare (.imports (names.map ImportName.bound))
  | .exportNames _ _ | .exportAll _ => .blank
  | .exportDecl d => d.outline
  | .exportDefault _ e => e.outline

/-- What a walk meets in the items of a program. -/
def itemsOutline : List Item → Outline
  | [] => .blank
  | i :: rest => .andThen i.outline (itemsOutline rest)

/-- What a walk meets in a program. -/
def Program.outline (p : Program) : Outline := itemsOutline p.items

/-! ### Visiting an outline -/

variable {σ : Type} (v : Visitor σ)

/-- What a visitor does at a declaration. -/
def Visitor.declare : Declaration → StateM σ Unit
  | .vars kind declarators => v.declareVars kind declarators
  | .function name => v.declareFunction name
  | .classDecl name => v.declareClass name
  | .caught pattern => v.declareCaught pattern
  | .imports names => v.declareImports names

/-- The state of a visitor after it has gone through an outline. Of an `if`
statement it goes through the parts that it decides to keep. -/
@[simp] def Outline.visit : Outline → σ → σ
  | .blank, s => s
  | .both first second, s => second.visit (first.visit s)
  | .scope key params inside, s =>
    (v.leave (inside.visit (v.enter key.boundary key.span params s).2)).2
  | .block span inside, s => (v.closeBlock (inside.visit (v.openBlock span s).2)).2
  | .declare d, s => (v.declare d s).2
  | .choice span test hasAlternate inTest consequent alternate, s =>
    let decided := v.decide span test hasAlternate s
    match decided.1 with
    | .keep => alternate.visit (consequent.visit (inTest.visit decided.2))
    | .consequent => consequent.visit decided.2
    | .alternate => alternate.visit decided.2

@[simp] theorem visit_andThen (first second : Outline) (s : σ) :
    (first.andThen second).visit v s = second.visit v (first.visit v s) := by
  cases first <;> cases second <;> rfl

@[simp] theorem bind_apply {α β : Type} (m : StateM σ α) (f : α → StateM σ β) (s : σ) :
    (m >>= f) s = f (m s).1 (m s).2 := rfl

@[simp] theorem map_apply {α β : Type} (f : α → β) (m : StateM σ α) (s : σ) :
    (f <$> m) s = (f (m s).1, (m s).2) := rfl

@[simp] theorem pure_apply {α : Type} (a : α) (s : σ) : (pure a : StateM σ α) s = (a, s) := rfl

mutual

theorem walkExpr_state (s : σ) : ∀ e : Expr, (walkExpr v e s).2 = e.outline.visit v s
  | .absent | .literal _ | .ident _ => by simp [walkExpr, Expr.outline]
  | .paren e | .unary _ e | .member e _ | .spread e => by
    simp [walkExpr, Expr.outline, walkExpr_state]
  | .binary _ left right => by simp [walkExpr, Expr.outline, walkExpr_state]
  | .cond test consequent alternate => by simp [walkExpr, Expr.outline, walkExpr_state]
  | .assign _ target value => by simp [walkExpr, Expr.outline, walkExpr_state]
  | .index object key => by simp [walkExpr, Expr.outline, walkExpr_state]
  | .withDefault target fallback => by simp [walkExpr, Expr.outline, walkExpr_state]
  | .array es | .arrayPattern es | .other _ es => by simp [walkExpr, Expr.outline, walkExprs_state]
  | .object ps | .objectPattern ps => by simp [walkExpr, Expr.outline, walkProperties_state]
  | .closure body => by simp [walkExpr, Expr.outline, walkClosure_state]
  | .classExpr _ members parent => by
    simp [walkExpr, Expr.outline, walkProperties_state, walkExpr_state]

theorem walkExprs_state (s : σ) :
    ∀ es : List Expr, (walkExprs v es s).2 = (exprsOutline es).visit v s
  | [] => by simp [walkExprs, exprsOutline]
  | e :: rest => by simp [walkExprs, exprsOutline, walkExpr_state, walkExprs_state]

theorem walkKey_state (s : σ) : ∀ k : Key, (walkKey v k s).2 = k.outline.visit v s
  | .computed key => by simp [walkKey, Key.outline, walkExpr_state]
  | .ident _ | .string _ _ | .number _ _ | .bigint _ _ | .privateName _ => by
    simp [walkKey, Key.outline]

theorem walkProperty_state (s : σ) : ∀ p : Property, (walkProperty v p s).2 = p.outline.visit v s
  | .pair key value => by simp [walkProperty, Property.outline, walkKey_state, walkExpr_state]
  | .shorthand _ e | .spread e => by simp [walkProperty, Property.outline, walkExpr_state]
  | .method _ _ key (.block head span params body) => by
    -- the key is walked through inside the function or before it
    by_cases h : head.holdsKey
    · simp [walkProperty, Property.outline, h, walkKey_state, walkExprs_state, walkBlock_state]
    · simp [walkProperty, Property.outline, h, walkKey_state, walkExprs_state, walkBlock_state]
  | .method _ _ key (.concise head span params result) => by
    simp [walkProperty, Property.outline, walkKey_state, walkClosure_state]
  | .field _ key value => by simp [walkProperty, Property.outline, walkKey_state, walkExpr_state]
  | .staticBlock body => by simp [walkProperty, Property.outline, walkBlock_state]
  | .empty => by simp [walkProperty, Property.outline]

theorem walkProperties_state (s : σ) :
    ∀ ps : List Property, (walkProperties v ps s).2 = (propertiesOutline ps).visit v s
  | [] => by simp [walkProperties, propertiesOutline]
  | p :: rest => by
    simp [walkProperties, propertiesOutline, walkProperty_state, walkProperties_state]

theorem walkClosure_state (s : σ) : ∀ c : Closure, (walkClosure v c s).2 = c.outline.visit v s
  | .block head span params body => by
    simp [walkClosure, Closure.outline, walkExprs_state, walkBlock_state]
  | .concise head span params result => by
    simp [walkClosure, Closure.outline, walkExprs_state, walkExpr_state]

theorem walkBlock_state (s : σ) : ∀ b : Block, (walkBlock v b s).2 = b.outline.visit v s
  | .mk span stmts => by simp [walkBlock, Block.outline, walkStmts_state]

theorem walkDeclarator_state (s : σ) :
    ∀ d : Declarator, (walkDeclarator v d s).2 = d.outline.visit v s
  | .mk target init => by simp [walkDeclarator, Declarator.outline, walkExpr_state]

theorem walkDeclarators_state (s : σ) :
    ∀ ds : List Declarator, (walkDeclarators v ds s).2 = (declaratorsOutline ds).visit v s
  | [] => by simp [walkDeclarators, declaratorsOutline]
  | d :: rest => by
    simp [walkDeclarators, declaratorsOutline, walkDeclarator_state, walkDeclarators_state]

theorem walkDecl_state (s : σ) : ∀ d : Decl, (walkDecl v d s).2 = d.outline.visit v s
  | .vars kind declarators => by
    simp [walkDecl, Decl.outline, Visitor.declare, walkDeclarators_state]
  | .function name body => by simp [walkDecl, Decl.outline, Visitor.declare, walkClosure_state]
  | .classDecl name members parent => by
    simp [walkDecl, Decl.outline, Visitor.declare, walkProperties_state, walkExpr_state]

theorem walkLoopHead_state (s : σ) : ∀ h : LoopHead, (walkLoopHead v h s).2 = h.outline.visit v s
  | .decl kind declarators => by
    simp [walkLoopHead, LoopHead.outline, Visitor.declare, walkDeclarators_state]
  | .expr e => by simp [walkLoopHead, LoopHead.outline, walkExpr_state]

/-- What a walk through a statement does to the state, the outline tells. -/
theorem walkStmt_state (s : σ) : ∀ t : Stmt, (walkStmt v t s).2 = t.outline.visit v s
  | .empty | .removed | .exitTo _ | .continueTo _ | .debugger => by simp [walkStmt, Stmt.outline]
  | .expr e | .ret e | .throw e => by simp [walkStmt, Stmt.outline, walkExpr_state]
  | .block body => by simp [walkStmt, Stmt.outline, walkBlock_state]
  | .decl d => by simp [walkStmt, Stmt.outline, walkDecl_state]
  | .ifElse span test consequent none => by
    simp only [walkStmt, Stmt.outline, Outline.visit, bind_apply]
    cases (v.decide span test (none : Option Stmt).isSome s).1 with
    | keep => simp [walkExpr_state, walkStmt_state, walkAlternate_state]
    | consequent => simp [walkStmt_state]
    | alternate => simp [alternateOutline]
  | .ifElse span test consequent (some alternate) => by
    simp only [walkStmt, Stmt.outline, Outline.visit, bind_apply]
    cases (v.decide span test (some alternate).isSome s).1 with
    | keep => simp [walkExpr_state, walkStmt_state, walkAlternate_state]
    | consequent => simp [walkStmt_state]
    | alternate => simp [alternateOutline, walkStmt_state]
  | .whileLoop test body | .doWhile test body | .withObject test body => by
    simp [walkStmt, Stmt.outline, walkExpr_state, walkStmt_state]
  | .forLoop span head test update body => by
    simp [walkStmt, Stmt.outline, walkLoopHead_state, walkExpr_state, walkStmt_state]
  | .forEach span _ head subject body => by
    simp [walkStmt, Stmt.outline, walkLoopHead_state, walkExpr_state, walkStmt_state]
  | .labeled _ body => by simp [walkStmt, Stmt.outline, walkStmt_state]
  | .switch span subject cases => by simp [walkStmt, Stmt.outline, walkExpr_state, walkCases_state]
  | .tryCatch body handler finalizer => by
    simp [walkStmt, Stmt.outline, walkBlock_state, walkHandler_state, walkFinalizer_state]

theorem walkAlternate_state (s : σ) :
    ∀ a : Option Stmt, (walkAlternate v a s).2 = (alternateOutline a).visit v s
  | none => by simp [walkAlternate, alternateOutline]
  | some t => by simp [walkAlternate, alternateOutline, walkStmt_state]

theorem walkStmts_state (s : σ) :
    ∀ ss : List Stmt, (walkStmts v ss s).2 = (stmtsOutline ss).visit v s
  | [] => by simp [walkStmts, stmtsOutline]
  | t :: rest => by simp [walkStmts, stmtsOutline, walkStmt_state, walkStmts_state]

theorem walkCase_state (s : σ) : ∀ c : Case, (walkCase v c s).2 = c.outline.visit v s
  | .mk none body => by simp [walkCase, Case.outline, walkStmts_state]
  | .mk (some test) body => by simp [walkCase, Case.outline, walkExpr_state, walkStmts_state]

theorem walkCases_state (s : σ) :
    ∀ cs : List Case, (walkCases v cs s).2 = (casesOutline cs).visit v s
  | [] => by simp [walkCases, casesOutline]
  | c :: rest => by simp [walkCases, casesOutline, walkCase_state, walkCases_state]

theorem walkHandler_state (s : σ) :
    ∀ h : Option Handler, (walkHandler v h s).2 = (handlerOutline h).visit v s
  | none => by simp [walkHandler, handlerOutline]
  | some (.mk span param body) => by
    simp [walkHandler, handlerOutline, Visitor.declare, walkExpr_state, walkBlock_state]

theorem walkFinalizer_state (s : σ) :
    ∀ b : Option Block, (walkFinalizer v b s).2 = (finalizerOutline b).visit v s
  | none => by simp [walkFinalizer, finalizerOutline]
  | some body => by simp [walkFinalizer, finalizerOutline, walkBlock_state]

end

theorem walkItem_state (s : σ) (i : Item) : (walkItem v i s).2 = i.outline.visit v s := by
  cases i with
  | stmt t => simp [walkItem, Item.outline, walkStmt_state]
  | importNames names source => simp [walkItem, Item.outline, Visitor.declare]
  | exportNames names source => simp [walkItem, Item.outline]
  | exportAll source => simp [walkItem, Item.outline]
  | exportDecl d => simp [walkItem, Item.outline, walkDecl_state]
  | exportDefault isDecl e => simp [walkItem, Item.outline, walkExpr_state]

theorem walkItems_state (s : σ) :
    ∀ is : List Item, (walkItems v is s).2 = (itemsOutline is).visit v s
  | [] => by simp [walkItems, itemsOutline]
  | i :: rest => by simp [walkItems, itemsOutline, walkItem_state, walkItems_state]

/-- **The outline tells what a walk does.** Whatever the visitor, its state after
a walk through a program is its state after going through the outline. -/
theorem walkProgram_state (s : σ) (p : Program) :
    (walkProgram v p s).2 = p.outline.visit v s := by
  simp [walkProgram, Program.outline, walkItems_state]

end DeadBranch
