/-
# Pruning inside functions changes no value

Pruning rewrites statements, and in an expression statements occur only inside
functions and class bodies. Evaluation does not look there. So a pruned
expression has the value, reads the path, binds the names and states the facts
of the expression itself, whatever is known. What a walk meets in a pruned tree
can be told from the outline of the tree that was pruned (`Outline.pruned`).

Key definitions: `Outline.pruned`, `Outline.core`.
Key theorems: `evaluate_pruned`, `facts_pruned`, `outline_pruned`.
-/
import DeadBranch.Proofs.Pruned

namespace DeadBranch

section Values

variable (g : ScopeGraph) (wholeChain : Bool) (scope : Nat)

mutual

theorem boundNames_pruned : ∀ e : Expr, (e.pruned g wholeChain scope).boundNames = e.boundNames
  | .arrayPattern es => by simp only [Expr.pruned, Expr.boundNames, elementNames_pruned es]
  | .objectPattern ps => by simp only [Expr.pruned, Expr.boundNames, propertyNames_pruned ps]
  | .spread e => by simp only [Expr.pruned, Expr.boundNames, boundNames_pruned e]
  | .withDefault e _ => by simp only [Expr.pruned, Expr.boundNames, boundNames_pruned e]
  | .absent | .literal _ | .ident _ | .paren _ | .unary _ _ | .binary _ _ _ | .cond _ _ _
  | .assign _ _ _ | .member _ _ | .index _ _ | .array _ | .object _ | .closure _
  | .classExpr _ _ _ | .other _ _ => by simp only [Expr.pruned, Expr.boundNames]

theorem elementNames_pruned :
    ∀ es : List Expr, elementNames (exprsPruned g wholeChain scope es) = elementNames es
  | [] => by simp only [exprsPruned]
  | e :: es => by
    simp only [exprsPruned, elementNames, boundNames_pruned e, elementNames_pruned es]

theorem propertyNames_pruned : ∀ ps : List Property,
    propertyNames (propertiesPruned g wholeChain scope ps) = propertyNames ps
  | [] => by simp only [propertiesPruned]
  | .pair _ e :: ps | .spread e :: ps => by
    simp only [propertiesPruned, Property.pruned, propertyNames, boundNames_pruned e,
      propertyNames_pruned ps]
  | .shorthand _ _ :: ps | .method _ _ _ (.block _ _ _ _) :: ps
  | .method _ _ _ (.concise _ _ _ _) :: ps | .field _ _ _ :: ps | .staticBlock _ :: ps
  | .empty :: ps => by
    simp only [propertiesPruned, Property.pruned, propertyNames, propertyNames_pruned ps]

end

mutual

theorem evaluate_pruned (known : Associations) :
    ∀ e : Expr, evaluate known (e.pruned g wholeChain scope) = evaluate known e
  | .member object name => by
    simp only [Expr.pruned, evaluate, staticPath_pruned known object]
  | .index object key => by
    simp only [Expr.pruned, evaluate, staticPath_pruned known object, evaluate_pruned known key]
  | .paren e => by simp only [Expr.pruned, evaluate, evaluate_pruned known e]
  | .unary _ e => by simp only [Expr.pruned, evaluate, evaluate_pruned known e]
  | .binary _ e f => by
    simp only [Expr.pruned, evaluate, evaluate_pruned known e, evaluate_pruned known f]
  | .cond c e f => by
    simp only [Expr.pruned, evaluate, evaluate_pruned known c, evaluate_pruned known e,
      evaluate_pruned known f]
  | .assign none _ e => by simp only [Expr.pruned, evaluate, evaluate_pruned known e]
  | .assign (some _) _ _ | .absent | .literal _ | .ident _ | .array _ | .object _ | .spread _
  | .arrayPattern _ | .objectPattern _ | .withDefault _ _ | .closure _ | .classExpr _ _ _
  | .other _ _ => by simp only [Expr.pruned, evaluate]

theorem staticPath_pruned (known : Associations) :
    ∀ e : Expr, staticPath known (e.pruned g wholeChain scope) = staticPath known e
  | .member object name => by simp only [Expr.pruned, staticPath, staticPath_pruned known object]
  | .index object key => by
    simp only [Expr.pruned, staticPath, staticPath_pruned known object, evaluate_pruned known key]
  | .paren e => by simp only [Expr.pruned, staticPath, staticPath_pruned known e]
  | .absent | .literal _ | .ident _ | .unary _ _ | .binary _ _ _ | .cond _ _ _ | .assign _ _ _
  | .array _ | .object _ | .spread _ | .arrayPattern _ | .objectPattern _ | .withDefault _ _
  | .closure _ | .classExpr _ _ _ | .other _ _ => by simp only [Expr.pruned, staticPath]

end

theorem segment?_pruned (known : Associations) (key : Key) :
    (key.pruned g wholeChain scope).segment? known = key.segment? known := by
  cases key <;> simp [Key.pruned, Key.segment?, evaluate_pruned]

theorem isSpread_pruned (e : Expr) : (e.pruned g wholeChain scope).isSpread = e.isSpread := by
  cases e <;> simp [Expr.pruned, Expr.isSpread]

theorem pruned_eq_absent (e : Expr) : e.pruned g wholeChain scope = .absent ↔ e = .absent := by
  cases e <;> simp [Expr.pruned]

mutual

theorem factsOf_pruned : ∀ (known : Associations) (path : Path) (e : Expr),
    factsOf known path (e.pruned g wholeChain scope) = factsOf known path e
  | known, path, .object ps => by
    simp only [Expr.pruned, factsOf, factsOfProperties_pruned known path ps]
  | known, path, .array es => by
    simp only [Expr.pruned, factsOf, factsOfElements_pruned known path 0 es]
  | known, path, .member object name => by
    simp only [Expr.pruned, factsOf, staticPath, staticPath_pruned]
  | known, path, .index object key => by
    simp only [Expr.pruned, factsOf, staticPath, staticPath_pruned, evaluate_pruned]
  | known, path, .paren e => by simp only [Expr.pruned, factsOf, factsOf_pruned known path e]
  | known, path, .assign none _ e => by
    simp only [Expr.pruned, factsOf, factsOf_pruned known path e]
  | known, path, .unary op e => by
    simp only [Expr.pruned, factsOf, evaluate, evaluate_pruned]
  | known, path, .binary op e f => by
    simp only [Expr.pruned, factsOf, evaluate, evaluate_pruned]
  | known, path, .cond c e f => by
    simp only [Expr.pruned, factsOf, evaluate, evaluate_pruned]
  | _, _, .assign (some _) _ _ | _, _, .absent | _, _, .literal _ | _, _, .ident _
  | _, _, .spread _ | _, _, .arrayPattern _ | _, _, .objectPattern _ | _, _, .withDefault _ _
  | _, _, .closure _ | _, _, .classExpr _ _ _ | _, _, .other _ _ => by
    simp only [Expr.pruned, factsOf]

theorem factsOfProperties_pruned : ∀ (known : Associations) (path : Path) (ps : List Property),
    factsOfProperties known path (propertiesPruned g wholeChain scope ps) =
      factsOfProperties known path ps
  | _, _, [] => by simp only [propertiesPruned]
  | known, path, .pair key value :: ps => by
    simp only [propertiesPruned, Property.pruned, factsOfProperties, segment?_pruned,
      factsOf_pruned _ _ value, factsOfProperties_pruned _ path ps]
  | known, path, .shorthand name e :: ps => by
    simp only [propertiesPruned, Property.pruned]
    by_cases h : e = .absent
    · subst h
      simp only [Expr.pruned, factsOfProperties, factsOfProperties_pruned _ path ps]
    · have h' := mt (pruned_eq_absent g wholeChain scope e).mp h
      rw [factsOfProperties_fallback known path name h,
        factsOfProperties_fallback known path name h', factsOfProperties_pruned known path ps]
  | known, path, .spread _ :: ps | known, path, .method _ _ _ (.block _ _ _ _) :: ps
  | known, path, .method _ _ _ (.concise _ _ _ _) :: ps | known, path, .field _ _ _ :: ps
  | known, path, .staticBlock _ :: ps | known, path, .empty :: ps => by
    simp only [propertiesPruned, Property.pruned, factsOfProperties,
      factsOfProperties_pruned known path ps]

theorem factsOfElements_pruned : ∀ (known : Associations) (path : Path) (i : Nat) (es : List Expr),
    factsOfElements known path i (exprsPruned g wholeChain scope es) =
      factsOfElements known path i es
  | _, _, _, [] => by simp only [exprsPruned]
  | known, path, i, e :: es => by
    simp only [exprsPruned, factsOfElements, isSpread_pruned, factsOf_pruned _ _ e,
      factsOfElements_pruned _ path (i + 1) es]

end

theorem facts_pruned (known : Associations) (d : Declarator) :
    (d.pruned g wholeChain scope).facts known = d.facts known := by
  obtain ⟨target, init⟩ := d
  cases target <;> simp [Declarator.pruned, Expr.pruned, Declarator.facts, factsOf_pruned]

end Values

/-! ### The outline of a pruned tree -/

section Outlines

variable (g : ScopeGraph) (wholeChain : Bool)

/-- A declaration, pruned. -/
def Declaration.pruned (scope : Nat) : Declaration → Declaration
  | .vars kind declarators => .vars kind (declaratorsPruned g wholeChain scope declarators)
  | .caught pattern => .caught (pattern.pruned g wholeChain scope)
  | d => d

/-- What is left of an outline. Whether an alternate is left of an `if` statement
is not told. -/
def Outline.pruned (scope : Nat) : Outline → Outline
  | .blank => .blank
  | .both first second => (first.pruned scope).andThen (second.pruned scope)
  | .scope key params inside =>
    .scope key (exprsPruned g wholeChain (g.inside scope key) params)
      (inside.pruned (g.inside scope key))
  | .block span inside => .block span (inside.pruned scope)
  | .declare d => .declare (d.pruned g wholeChain scope)
  | .choice span test _ inTest consequent alternate =>
    match g.verdict wholeChain scope span test with
    | some true => consequent.pruned scope
    | some false => alternate.pruned scope
    | none => .choice span (test.pruned g wholeChain scope) false (inTest.pruned scope)
        (consequent.pruned scope) (alternate.pruned scope)

/-- An outline that does not tell whether `if` statements have alternates. -/
def Outline.core : Outline → Outline
  | .blank => .blank
  | .both first second => .both first.core second.core
  | .scope key params inside => .scope key params inside.core
  | .block span inside => .block span inside.core
  | .declare d => .declare d
  | .choice span test _ inTest consequent alternate =>
    .choice span test false inTest.core consequent.core alternate.core

@[simp] theorem Outline.core_andThen (first second : Outline) :
    (first.andThen second).core = first.core.andThen second.core := by
  cases first <;> cases second <;> rfl

@[simp] theorem Outline.pruned_andThen (scope : Nat) (first second : Outline) :
    (first.andThen second).pruned g wholeChain scope =
      (first.pruned g wholeChain scope).andThen (second.pruned g wholeChain scope) := by
  by_cases h1 : first = .blank
  · simp [h1, Outline.pruned]
  by_cases h2 : second = .blank
  · simp [h2, Outline.pruned]
  rw [Outline.andThen_of_ne h1 h2, Outline.pruned]

/-- A statement that is nothing has a blank outline. -/
theorem outline_getD_removed (s : Option Stmt) :
    (s.getD .removed).outline = alternateOutline s := by
  cases s <;> simp [alternateOutline, Stmt.outline]

theorem stmtsOutline_toList_append (s : Option Stmt) (rest : List Stmt) :
    stmtsOutline (s.toList ++ rest) = (alternateOutline s).andThen (stmtsOutline rest) := by
  cases s <;> simp [alternateOutline, stmtsOutline]

mutual

theorem Expr.outline_pruned : ∀ (scope : Nat) (e : Expr),
    (e.pruned g wholeChain scope).outline.core = e.outline.pruned g wholeChain scope
  | scope, .absent | scope, .literal _ | scope, .ident _ => by
    simp [Expr.pruned, Expr.outline, Outline.core, Outline.pruned]
  | scope, .paren e | scope, .unary _ e | scope, .member e _ | scope, .spread e => by
    simp only [Expr.pruned, Expr.outline, Expr.outline_pruned scope e]
  | scope, .binary _ e f | scope, .assign _ e f | scope, .index e f
  | scope, .withDefault e f => by
    simp only [Expr.pruned, Expr.outline, Outline.core_andThen, Outline.pruned_andThen,
      Expr.outline_pruned scope e, Expr.outline_pruned scope f]
  | scope, .cond c e f => by
    simp only [Expr.pruned, Expr.outline, Outline.core_andThen, Outline.pruned_andThen,
      Expr.outline_pruned scope c, Expr.outline_pruned scope e, Expr.outline_pruned scope f]
  | scope, .array es | scope, .arrayPattern es | scope, .other _ es => by
    simp only [Expr.pruned, Expr.outline, exprsOutline_pruned scope es]
  | scope, .object ps | scope, .objectPattern ps => by
    simp only [Expr.pruned, Expr.outline, propertiesOutline_pruned scope ps]
  | scope, .closure body => by
    simp only [Expr.pruned, Expr.outline, Closure.outline_pruned scope body]
  | scope, .classExpr _ members parent => by
    simp only [Expr.pruned, Expr.outline, Outline.core_andThen, Outline.pruned_andThen,
      propertiesOutline_pruned scope members, Expr.outline_pruned scope parent]

theorem exprsOutline_pruned : ∀ (scope : Nat) (es : List Expr),
    (exprsOutline (exprsPruned g wholeChain scope es)).core =
      (exprsOutline es).pruned g wholeChain scope
  | scope, [] => by simp [exprsPruned, exprsOutline, Outline.core, Outline.pruned]
  | scope, e :: es => by
    simp only [exprsPruned, exprsOutline, Outline.core_andThen, Outline.pruned_andThen,
      Expr.outline_pruned scope e, exprsOutline_pruned scope es]

theorem Key.outline_pruned : ∀ (scope : Nat) (k : Key),
    (k.pruned g wholeChain scope).outline.core = k.outline.pruned g wholeChain scope
  | scope, .computed e => by simp only [Key.pruned, Key.outline, Expr.outline_pruned scope e]
  | scope, .ident _ | scope, .string _ _ | scope, .number _ _ | scope, .bigint _ _
  | scope, .privateName _ => by simp [Key.pruned, Key.outline, Outline.core, Outline.pruned]

theorem Property.outline_pruned : ∀ (scope : Nat) (p : Property),
    (p.pruned g wholeChain scope).outline.core = p.outline.pruned g wholeChain scope
  | scope, .pair key e | scope, .field _ key e => by
    simp only [Property.pruned, Property.outline, Outline.core_andThen, Outline.pruned_andThen,
      Key.outline_pruned scope key, Expr.outline_pruned scope e]
  | scope, .shorthand _ e | scope, .spread e => by
    simp only [Property.pruned, Property.outline, Expr.outline_pruned scope e]
  | scope, .method _ _ key (.block head span params body) => by
    have hparams := exprsOutline_pruned (g.inside scope ⟨head.boundary, span⟩) params
    have hbody := Block.outline_pruned (g.inside scope ⟨head.boundary, span⟩) body
    -- the key is inside the function or before it
    by_cases h : head.holdsKey
    · have hkey := Key.outline_pruned (g.inside scope ⟨head.boundary, span⟩) key
      simp only [Property.pruned, Property.outline, h, if_true, Outline.core, Outline.pruned,
        Outline.core_andThen, Outline.pruned_andThen, hkey, hparams, hbody]
    · have hkey := Key.outline_pruned scope key
      simp only [Property.pruned, Property.outline, h, Outline.core, Outline.pruned,
        Outline.core_andThen, Outline.pruned_andThen, hkey, hparams, hbody, Bool.false_eq_true,
        if_false]
  | scope, .method _ _ key (.concise head span params result) => by
    simp only [Property.pruned, Closure.pruned, Property.outline, Closure.outline, Outline.core,
      Outline.pruned, Outline.core_andThen, Outline.pruned_andThen, Key.outline_pruned scope key,
      exprsOutline_pruned _ params, Expr.outline_pruned _ result]
  | scope, .staticBlock body => by
    simp only [Property.pruned, Property.outline, Block.outline_pruned scope body]
  | scope, .empty => by simp [Property.pruned, Property.outline, Outline.core, Outline.pruned]

theorem propertiesOutline_pruned : ∀ (scope : Nat) (ps : List Property),
    (propertiesOutline (propertiesPruned g wholeChain scope ps)).core =
      (propertiesOutline ps).pruned g wholeChain scope
  | scope, [] => by simp [propertiesPruned, propertiesOutline, Outline.core, Outline.pruned]
  | scope, p :: ps => by
    simp only [propertiesPruned, propertiesOutline, Outline.core_andThen, Outline.pruned_andThen,
      Property.outline_pruned scope p, propertiesOutline_pruned scope ps]

theorem Closure.outline_pruned : ∀ (scope : Nat) (c : Closure),
    (c.pruned g wholeChain scope).outline.core = c.outline.pruned g wholeChain scope
  | scope, .block head span params body => by
    simp only [Closure.pruned, Closure.outline, Outline.core, Outline.pruned, Outline.core_andThen,
      Outline.pruned_andThen, exprsOutline_pruned _ params, Block.outline_pruned _ body]
  | scope, .concise head span params result => by
    simp only [Closure.pruned, Closure.outline, Outline.core, Outline.pruned, Outline.core_andThen,
      Outline.pruned_andThen, exprsOutline_pruned _ params, Expr.outline_pruned _ result]

theorem Block.outline_pruned : ∀ (scope : Nat) (b : Block),
    (b.pruned g wholeChain scope).outline.core = b.outline.pruned g wholeChain scope
  | scope, .mk span stmts => by
    simp only [Block.pruned, Block.outline, Outline.core, Outline.pruned,
      stmtsOutline_pruned scope stmts]

theorem Declarator.outline_pruned : ∀ (scope : Nat) (d : Declarator),
    (d.pruned g wholeChain scope).outline.core = d.outline.pruned g wholeChain scope
  | scope, .mk target init => by
    simp only [Declarator.pruned, Declarator.outline, Outline.core_andThen, Outline.pruned_andThen,
      Expr.outline_pruned scope target, Expr.outline_pruned scope init]

theorem declaratorsOutline_pruned : ∀ (scope : Nat) (ds : List Declarator),
    (declaratorsOutline (declaratorsPruned g wholeChain scope ds)).core =
      (declaratorsOutline ds).pruned g wholeChain scope
  | scope, [] => by simp [declaratorsPruned, declaratorsOutline, Outline.core, Outline.pruned]
  | scope, d :: ds => by
    simp only [declaratorsPruned, declaratorsOutline, Outline.core_andThen, Outline.pruned_andThen,
      Declarator.outline_pruned scope d, declaratorsOutline_pruned scope ds]

theorem Decl.outline_pruned : ∀ (scope : Nat) (d : Decl),
    (d.pruned g wholeChain scope).outline.core = d.outline.pruned g wholeChain scope
  | scope, .vars kind ds => by
    simp only [Decl.pruned, Decl.outline, Outline.core_andThen, Outline.pruned_andThen,
      Outline.core, Outline.pruned, Declaration.pruned, declaratorsOutline_pruned scope ds]
  | scope, .function name body => by
    simp only [Decl.pruned, Decl.outline, Outline.core_andThen, Outline.pruned_andThen,
      Outline.core, Outline.pruned, Declaration.pruned, Closure.outline_pruned scope body]
  | scope, .classDecl name members parent => by
    simp only [Decl.pruned, Decl.outline, Outline.core_andThen, Outline.pruned_andThen,
      Outline.core, Outline.pruned, Declaration.pruned, propertiesOutline_pruned scope members,
      Expr.outline_pruned scope parent]

theorem LoopHead.outline_pruned : ∀ (scope : Nat) (h : LoopHead),
    (h.pruned g wholeChain scope).outline.core = h.outline.pruned g wholeChain scope
  | scope, .decl kind ds => by
    simp only [LoopHead.pruned, LoopHead.outline, Outline.core_andThen, Outline.pruned_andThen,
      Outline.core, Outline.pruned, Declaration.pruned, declaratorsOutline_pruned scope ds]
  | scope, .expr e => by
    simp only [LoopHead.pruned, LoopHead.outline, Expr.outline_pruned scope e]

theorem Stmt.outline_pruned : ∀ (scope : Nat) (s : Stmt),
    (alternateOutline (s.pruned g wholeChain scope)).core = s.outline.pruned g wholeChain scope
  | scope, .empty | scope, .removed | scope, .exitTo _ | scope, .continueTo _
  | scope, .debugger => by
    simp [Stmt.pruned, alternateOutline, Stmt.outline, Outline.core, Outline.pruned]
  | scope, .expr e | scope, .ret e | scope, .throw e => by
    simp only [Stmt.pruned, alternateOutline, Stmt.outline, Expr.outline_pruned scope e]
  | scope, .block b => by
    simp only [Stmt.pruned, alternateOutline, Stmt.outline, Block.outline_pruned scope b]
  | scope, .decl d => by
    simp only [Stmt.pruned, alternateOutline, Stmt.outline, Decl.outline_pruned scope d]
  | scope, .ifElse span test consequent alternate => by
    have hc := Stmt.outline_pruned scope consequent
    have ha := alternateOutline_pruned scope alternate
    simp only [Stmt.pruned, Stmt.outline, Outline.pruned]
    cases g.verdict wholeChain scope span test with
    | none =>
      simp only [alternateOutline, Stmt.outline, Outline.core, outline_getD_removed,
        Expr.outline_pruned scope test, hc, ha]
    | some isTrue =>
      cases isTrue with
      | true => exact hc
      | false => exact ha
  | scope, .whileLoop test body | scope, .doWhile test body | scope, .withObject test body => by
    simp only [Stmt.pruned, alternateOutline, Stmt.outline, outline_getD_removed,
      Outline.core_andThen, Outline.pruned_andThen, Expr.outline_pruned scope test,
      Stmt.outline_pruned scope body]
  | scope, .forLoop span head test update body => by
    simp only [Stmt.pruned, alternateOutline, Stmt.outline, outline_getD_removed, Outline.core,
      Outline.pruned, Outline.core_andThen, Outline.pruned_andThen,
      LoopHead.outline_pruned scope head, Expr.outline_pruned scope test,
      Expr.outline_pruned scope update, Stmt.outline_pruned scope body]
  | scope, .forEach span iteration head subject body => by
    simp only [Stmt.pruned, alternateOutline, Stmt.outline, outline_getD_removed, Outline.core,
      Outline.pruned, Outline.core_andThen, Outline.pruned_andThen,
      LoopHead.outline_pruned scope head, Expr.outline_pruned scope subject,
      Stmt.outline_pruned scope body]
  | scope, .labeled _ body => by
    simp only [Stmt.pruned, alternateOutline, Stmt.outline, outline_getD_removed,
      Stmt.outline_pruned scope body]
  | scope, .switch span subject cases => by
    simp only [Stmt.pruned, alternateOutline, Stmt.outline, Outline.core, Outline.pruned,
      Outline.core_andThen, Outline.pruned_andThen, Expr.outline_pruned scope subject,
      casesOutline_pruned scope cases]
  | scope, .tryCatch body handler finalizer => by
    simp only [Stmt.pruned, alternateOutline, Stmt.outline, Outline.core_andThen,
      Outline.pruned_andThen, Block.outline_pruned scope body,
      handlerOutline_pruned scope handler, finalizerOutline_pruned scope finalizer]

theorem alternateOutline_pruned : ∀ (scope : Nat) (s : Option Stmt),
    (alternateOutline (alternatePruned g wholeChain scope s)).core =
      (alternateOutline s).pruned g wholeChain scope
  | scope, none => by simp [alternatePruned, alternateOutline, Outline.core, Outline.pruned]
  | scope, some s => by
    rw [alternatePruned, Stmt.outline_pruned scope s, alternateOutline]

theorem stmtsOutline_pruned : ∀ (scope : Nat) (ss : List Stmt),
    (stmtsOutline (stmtsPruned g wholeChain scope ss)).core =
      (stmtsOutline ss).pruned g wholeChain scope
  | scope, [] => by simp [stmtsPruned, stmtsOutline, Outline.core, Outline.pruned]
  | scope, s :: ss => by
    simp only [stmtsPruned, stmtsOutline_toList_append, stmtsOutline, Outline.core_andThen,
      Outline.pruned_andThen, Stmt.outline_pruned scope s, stmtsOutline_pruned scope ss]

theorem Case.outline_pruned : ∀ (scope : Nat) (c : Case),
    (c.pruned g wholeChain scope).outline.core = c.outline.pruned g wholeChain scope
  | scope, .mk none body => by
    simp only [Case.pruned, Case.outline, stmtsOutline_pruned scope body]
  | scope, .mk (some test) body => by
    simp only [Case.pruned, Case.outline, Outline.core_andThen, Outline.pruned_andThen,
      Expr.outline_pruned scope test, stmtsOutline_pruned scope body]

theorem casesOutline_pruned : ∀ (scope : Nat) (cs : List Case),
    (casesOutline (casesPruned g wholeChain scope cs)).core =
      (casesOutline cs).pruned g wholeChain scope
  | scope, [] => by simp [casesPruned, casesOutline, Outline.core, Outline.pruned]
  | scope, c :: cs => by
    simp only [casesPruned, casesOutline, Outline.core_andThen, Outline.pruned_andThen,
      Case.outline_pruned scope c, casesOutline_pruned scope cs]

theorem handlerOutline_pruned : ∀ (scope : Nat) (h : Option Handler),
    (handlerOutline (handlerPruned g wholeChain scope h)).core =
      (handlerOutline h).pruned g wholeChain scope
  | scope, none => by simp [handlerPruned, handlerOutline, Outline.core, Outline.pruned]
  | scope, some (.mk span param body) => by
    simp only [handlerPruned, handlerOutline, Outline.core, Outline.pruned, Declaration.pruned,
      Outline.core_andThen, Outline.pruned_andThen, Expr.outline_pruned scope param,
      Block.outline_pruned scope body]

theorem finalizerOutline_pruned : ∀ (scope : Nat) (b : Option Block),
    (finalizerOutline (finalizerPruned g wholeChain scope b)).core =
      (finalizerOutline b).pruned g wholeChain scope
  | scope, none => by simp [finalizerPruned, finalizerOutline, Outline.core, Outline.pruned]
  | scope, some b => by
    simp only [finalizerPruned, finalizerOutline, Block.outline_pruned scope b]

end

theorem Item.outline_pruned (scope : Nat) (i : Item) :
    (itemsOutline (i.pruned g wholeChain scope).toList).core =
      i.outline.pruned g wholeChain scope := by
  cases i with
  | stmt s =>
    have h := Stmt.outline_pruned g wholeChain scope s
    rw [Item.pruned, Item.outline, ← h]
    cases s.pruned g wholeChain scope <;>
      simp [itemsOutline, Item.outline, alternateOutline]
  | importNames names source =>
    simp [Item.pruned, itemsOutline, Item.outline, Outline.core, Outline.pruned, Declaration.pruned]
  | exportNames names source =>
    simp [Item.pruned, itemsOutline, Item.outline, Outline.core, Outline.pruned]
  | exportAll source =>
    simp [Item.pruned, itemsOutline, Item.outline, Outline.core, Outline.pruned]
  | exportDecl d =>
    simp [Item.pruned, itemsOutline, Item.outline, Decl.outline_pruned]
  | exportDefault isDecl e =>
    simp [Item.pruned, itemsOutline, Item.outline, Expr.outline_pruned]

theorem itemsOutline_pruned (scope : Nat) : ∀ is : List Item,
    (itemsOutline (itemsPruned g wholeChain scope is)).core =
      (itemsOutline is).pruned g wholeChain scope
  | [] => by simp [itemsPruned, itemsOutline, Outline.core, Outline.pruned]
  | i :: is => by
    have h := Item.outline_pruned g wholeChain scope i
    simp only [itemsPruned, itemsOutline, Outline.pruned_andThen, ← h,
      ← itemsOutline_pruned scope is, ← Outline.core_andThen]
    cases i.pruned g wholeChain scope <;> simp [itemsOutline]

end Outlines

/-- **The outline of a pruned program** is what is left of the outline of the
program. -/
theorem Program.outline_pruned (wholeChain : Bool) (p : Program) :
    (p.pruned wholeChain).outline.core = p.outline.pruned (.ofProgram p) wholeChain 0 :=
  itemsOutline_pruned (.ofProgram p) wholeChain 0 p.items

end DeadBranch
