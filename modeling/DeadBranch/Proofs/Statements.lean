/-
# The statements of a tree

All statements of a tree in one list, each before those inside it, also those in
the bodies of functions and classes. Every statement in the list of a tree brings
all of its own statements with it (`Program.nested_statements`). A walk makes no
statement from nothing: whatever the visitor, each statement of the tree that a
walk leaves is what it has made of some statement of the tree it went through
(`walkProgram_images`). So what holds of every statement that a walk makes holds
all over the tree.

Key definitions: `Stmt.statements`, `Program.statements`, `Nested`, `Visitor.Images`.
Key theorems: `Program.nested_statements`, `walkStmt_inner_images`, `walkProgram_images`.
-/
import DeadBranch.Proofs.Outline

namespace DeadBranch

/-! ### Statements -/

mutual

/-- The statements in an expression or pattern. -/
@[simp] def Expr.statements : Expr → List Stmt
  | .absent | .literal _ | .ident _ => []
  | .paren inner => inner.statements
  | .unary _ operand => operand.statements
  | .binary _ left right => left.statements ++ right.statements
  | .cond test consequent alternate =>
    test.statements ++ (consequent.statements ++ alternate.statements)
  | .assign _ target value => target.statements ++ value.statements
  | .member object _ => object.statements
  | .index object key => object.statements ++ key.statements
  | .array elements => exprsStatements elements
  | .object properties => propertiesStatements properties
  | .spread operand => operand.statements
  | .arrayPattern elements => exprsStatements elements
  | .objectPattern properties => propertiesStatements properties
  | .withDefault target fallback => target.statements ++ fallback.statements
  | .closure body => body.statements
  | .classExpr _ members parent => propertiesStatements members ++ parent.statements
  | .other _ parts => exprsStatements parts

/-- The statements in expressions. -/
@[simp] def exprsStatements : List Expr → List Stmt
  | [] => []
  | e :: rest => e.statements ++ exprsStatements rest

/-- The statements in a key. -/
@[simp] def Key.statements : Key → List Stmt
  | .computed key => key.statements
  | _ => []

/-- The statements in a property or class member. -/
@[simp] def Property.statements : Property → List Stmt
  | .pair key value => key.statements ++ value.statements
  | .shorthand _ fallback => fallback.statements
  | .spread operand => operand.statements
  | .method _ _ key body => key.statements ++ body.statements
  | .field _ key value => key.statements ++ value.statements
  | .staticBlock body => body.statements
  | .empty => []

/-- The statements in properties. -/
@[simp] def propertiesStatements : List Property → List Stmt
  | [] => []
  | p :: rest => p.statements ++ propertiesStatements rest

/-- The statements in a function. -/
@[simp] def Closure.statements : Closure → List Stmt
  | .block _ _ params body => exprsStatements params ++ body.statements
  | .concise _ _ params result => exprsStatements params ++ result.statements

/-- The statements in a block. -/
@[simp] def Block.statements : Block → List Stmt
  | .mk _ stmts => stmtsStatements stmts

/-- The statements in a declared variable. -/
@[simp] def Declarator.statements : Declarator → List Stmt
  | .mk target init => target.statements ++ init.statements

/-- The statements in declared variables. -/
@[simp] def declaratorsStatements : List Declarator → List Stmt
  | [] => []
  | d :: rest => d.statements ++ declaratorsStatements rest

/-- The statements in a declaration. -/
@[simp] def Decl.statements : Decl → List Stmt
  | .vars _ declarators => declaratorsStatements declarators
  | .function _ body => body.statements
  | .classDecl _ members parent => propertiesStatements members ++ parent.statements

/-- The statements in what a loop starts with. -/
@[simp] def LoopHead.statements : LoopHead → List Stmt
  | .decl _ declarators => declaratorsStatements declarators
  | .expr e => e.statements

/-- The statements inside a statement. -/
@[simp] def Stmt.inner : Stmt → List Stmt
  | .empty | .removed | .exitTo _ | .continueTo _ | .debugger => []
  | .expr e => e.statements
  | .block body => body.statements
  | .decl d => d.statements
  | .ifElse _ test consequent alternate =>
    test.statements ++ (consequent :: consequent.inner ++ alternateStatements alternate)
  | .whileLoop test body => test.statements ++ body :: body.inner
  | .doWhile test body => test.statements ++ body :: body.inner
  | .forLoop _ head test update body =>
    head.statements ++ (test.statements ++ (update.statements ++ body :: body.inner))
  | .forEach _ _ head subject body =>
    head.statements ++ (subject.statements ++ body :: body.inner)
  | .labeled _ body => body :: body.inner
  | .withObject object body => object.statements ++ body :: body.inner
  | .switch _ subject cases => subject.statements ++ casesStatements cases
  | .tryCatch body handler finalizer =>
    body.statements ++ (handlerStatements handler ++ finalizerStatements finalizer)
  | .ret value => value.statements
  | .throw value => value.statements

/-- The statements after `else`. -/
@[simp] def alternateStatements : Option Stmt → List Stmt
  | none => []
  | some s => s :: s.inner

/-- The statements in a list of statements. -/
@[simp] def stmtsStatements : List Stmt → List Stmt
  | [] => []
  | s :: rest => s :: s.inner ++ stmtsStatements rest

/-- The statements in a case. -/
@[simp] def Case.statements : Case → List Stmt
  | .mk none body => stmtsStatements body
  | .mk (some test) body => test.statements ++ stmtsStatements body

/-- The statements in cases. -/
@[simp] def casesStatements : List Case → List Stmt
  | [] => []
  | c :: rest => c.statements ++ casesStatements rest

/-- The statements in a catch clause. -/
@[simp] def handlerStatements : Option Handler → List Stmt
  | none => []
  | some (.mk _ param body) => param.statements ++ body.statements

/-- The statements in a final block. -/
@[simp] def finalizerStatements : Option Block → List Stmt
  | none => []
  | some body => body.statements

end

/-- A statement and those inside it. -/
abbrev Stmt.statements (s : Stmt) : List Stmt := s :: s.inner

/-- The statements in an item of a program. -/
@[simp] def Item.statements : Item → List Stmt
  | .stmt s => s.statements
  | .importNames _ _ | .exportNames _ _ | .exportAll _ => []
  | .exportDecl d => d.statements
  | .exportDefault _ e => e.statements

/-- The statements in the items of a program. -/
@[simp] def itemsStatements : List Item → List Stmt
  | [] => []
  | i :: rest => i.statements ++ itemsStatements rest

/-- All statements of a program. -/
def Program.statements (p : Program) : List Stmt := itemsStatements p.items

/-! ### Statements bring their own statements -/

/-- With each statement a list has those inside it. -/
def Nested (l : List Stmt) : Prop := ∀ s ∈ l, s.inner ⊆ l

namespace Nested

theorem nil : Nested [] := fun _ hs => nomatch hs

theorem append {l l' : List Stmt} (h : Nested l) (h' : Nested l') : Nested (l ++ l') := by
  intro s hs u hu
  rw [List.mem_append] at hs ⊢
  exact hs.imp (h s · hu) (h' s · hu)

theorem cons {s : Stmt} (h : Nested s.inner) : Nested s.statements := by
  intro t ht u hu
  rcases List.mem_cons.mp ht with rfl | ht
  · exact List.mem_cons_of_mem t hu
  · exact List.mem_cons_of_mem s (h t ht hu)

end Nested

mutual

theorem Expr.nested_statements : ∀ e : Expr, Nested e.statements
  | .absent | .literal _ | .ident _ => .nil
  | .paren e | .unary _ e | .member e _ | .spread e => e.nested_statements
  | .binary _ a b | .assign _ a b | .index a b | .withDefault a b =>
    .append a.nested_statements b.nested_statements
  | .cond a b c => .append a.nested_statements (.append b.nested_statements c.nested_statements)
  | .array es | .arrayPattern es | .other _ es => nested_exprsStatements es
  | .object ps | .objectPattern ps => nested_propertiesStatements ps
  | .closure c => c.nested_statements
  | .classExpr _ ps e => .append (nested_propertiesStatements ps) e.nested_statements

theorem nested_exprsStatements : ∀ es : List Expr, Nested (exprsStatements es)
  | [] => .nil
  | e :: rest => .append e.nested_statements (nested_exprsStatements rest)

theorem Key.nested_statements : ∀ k : Key, Nested k.statements
  | .computed e => e.nested_statements
  | .ident _ | .string _ _ | .number _ _ | .bigint _ _ | .privateName _ => .nil

theorem Property.nested_statements : ∀ p : Property, Nested p.statements
  | .pair k e | .field _ k e => .append k.nested_statements e.nested_statements
  | .shorthand _ e | .spread e => e.nested_statements
  | .method _ _ k c => .append k.nested_statements c.nested_statements
  | .staticBlock b => b.nested_statements
  | .empty => .nil

theorem nested_propertiesStatements : ∀ ps : List Property, Nested (propertiesStatements ps)
  | [] => .nil
  | p :: rest => .append p.nested_statements (nested_propertiesStatements rest)

theorem Closure.nested_statements : ∀ c : Closure, Nested c.statements
  | .block _ _ params b => .append (nested_exprsStatements params) b.nested_statements
  | .concise _ _ params e => .append (nested_exprsStatements params) e.nested_statements

theorem Block.nested_statements : ∀ b : Block, Nested b.statements
  | .mk _ ss => nested_stmtsStatements ss

theorem Declarator.nested_statements : ∀ d : Declarator, Nested d.statements
  | .mk target init => .append target.nested_statements init.nested_statements

theorem nested_declaratorsStatements : ∀ ds : List Declarator, Nested (declaratorsStatements ds)
  | [] => .nil
  | d :: rest => .append d.nested_statements (nested_declaratorsStatements rest)

theorem Decl.nested_statements : ∀ d : Decl, Nested d.statements
  | .vars _ ds => nested_declaratorsStatements ds
  | .function _ c => c.nested_statements
  | .classDecl _ ps e => .append (nested_propertiesStatements ps) e.nested_statements

theorem LoopHead.nested_statements : ∀ h : LoopHead, Nested h.statements
  | .decl _ ds => nested_declaratorsStatements ds
  | .expr e => e.nested_statements

theorem Stmt.nested_inner : ∀ s : Stmt, Nested s.inner
  | .empty | .removed | .exitTo _ | .continueTo _ | .debugger => .nil
  | .expr e | .ret e | .throw e => e.nested_statements
  | .block b => b.nested_statements
  | .decl d => d.nested_statements
  | .ifElse _ e s a =>
    .append e.nested_statements (.append (.cons s.nested_inner) (nested_alternateStatements a))
  | .whileLoop e s | .doWhile e s | .withObject e s =>
    .append e.nested_statements (.cons s.nested_inner)
  | .forLoop _ h test update s =>
    .append h.nested_statements
      (.append test.nested_statements (.append update.nested_statements (.cons s.nested_inner)))
  | .forEach _ _ h e s =>
    .append h.nested_statements (.append e.nested_statements (.cons s.nested_inner))
  | .labeled _ s => .cons s.nested_inner
  | .switch _ e cs => .append e.nested_statements (nested_casesStatements cs)
  | .tryCatch b h f =>
    .append b.nested_statements
      (.append (nested_handlerStatements h) (nested_finalizerStatements f))

theorem nested_alternateStatements : ∀ a : Option Stmt, Nested (alternateStatements a)
  | none => .nil
  | some s => .cons s.nested_inner

theorem nested_stmtsStatements : ∀ ss : List Stmt, Nested (stmtsStatements ss)
  | [] => .nil
  | s :: rest => .append (.cons s.nested_inner) (nested_stmtsStatements rest)

theorem Case.nested_statements : ∀ c : Case, Nested c.statements
  | .mk none ss => nested_stmtsStatements ss
  | .mk (some e) ss => .append e.nested_statements (nested_stmtsStatements ss)

theorem nested_casesStatements : ∀ cs : List Case, Nested (casesStatements cs)
  | [] => .nil
  | c :: rest => .append c.nested_statements (nested_casesStatements rest)

theorem nested_handlerStatements : ∀ h : Option Handler, Nested (handlerStatements h)
  | none => .nil
  | some (.mk _ e b) => .append e.nested_statements b.nested_statements

theorem nested_finalizerStatements : ∀ b : Option Block, Nested (finalizerStatements b)
  | none => .nil
  | some b => b.nested_statements

end

theorem Item.nested_statements : ∀ i : Item, Nested i.statements
  | .stmt s => .cons s.nested_inner
  | .importNames _ _ | .exportNames _ _ | .exportAll _ => .nil
  | .exportDecl d => d.nested_statements
  | .exportDefault _ e => e.nested_statements

theorem nested_itemsStatements : ∀ is : List Item, Nested (itemsStatements is)
  | [] => .nil
  | i :: rest => .append i.nested_statements (nested_itemsStatements rest)

theorem Program.nested_statements (p : Program) : Nested p.statements :=
  nested_itemsStatements p.items

/-! ### A walk makes statements from statements -/

section Images

variable {σ : Type} (v : Visitor σ)

/-- Each statement of the first list is what a walk makes, in some state, of a
statement of the second. -/
def Visitor.Images (made given : List Stmt) : Prop :=
  ∀ t ∈ made, ∃ s ∈ given, ∃ state, t = (walkStmt v s state).1

variable {v}

namespace Visitor.Images

theorem nil {given : List Stmt} : v.Images [] given := fun _ ht => nomatch ht

theorem append {made made' given given' : List Stmt} (h : v.Images made given)
    (h' : v.Images made' given') : v.Images (made ++ made') (given ++ given') := by
  intro t ht
  rcases List.mem_append.mp ht with ht | ht
  · obtain ⟨s, hs, state, rfl⟩ := h t ht
    exact ⟨s, List.mem_append_left given' hs, state, rfl⟩
  · obtain ⟨s, hs, state, rfl⟩ := h' t ht
    exact ⟨s, List.mem_append_right given hs, state, rfl⟩

theorem of_subset {made given given' : List Stmt} (h : v.Images made given)
    (hsub : given ⊆ given') : v.Images made given' := by
  intro t ht
  obtain ⟨s, hs, hstate⟩ := h t ht
  exact ⟨s, hsub hs, hstate⟩

/-- What a walk makes of a statement, with what it makes inside. -/
theorem cons {s : Stmt} {state : σ} (h : v.Images (walkStmt v s state).1.inner s.inner) :
    v.Images (walkStmt v s state).1.statements s.statements := by
  intro t ht
  rcases List.mem_cons.mp ht with rfl | ht
  · exact ⟨s, List.mem_cons_self, state, rfl⟩
  · exact h.of_subset (List.subset_cons_self s s.inner) t ht

end Visitor.Images

open Visitor (Images)

mutual

theorem walkExpr_images (s : σ) : ∀ e : Expr, v.Images (walkExpr v e s).1.statements e.statements
  | .absent | .literal _ | .ident _ => .nil
  | .paren e | .unary _ e | .member e _ | .spread e => walkExpr_images _ e
  | .binary _ a b | .assign _ a b | .index a b | .withDefault a b =>
    .append (walkExpr_images _ a) (walkExpr_images _ b)
  | .cond a b c =>
    .append (walkExpr_images _ a) (.append (walkExpr_images _ b) (walkExpr_images _ c))
  | .array es | .arrayPattern es | .other _ es => walkExprs_images _ es
  | .object ps | .objectPattern ps => walkProperties_images _ ps
  | .closure c => walkClosure_images _ c
  | .classExpr _ ps e => .append (walkProperties_images _ ps) (walkExpr_images _ e)

theorem walkExprs_images (s : σ) :
    ∀ es : List Expr, v.Images (exprsStatements (walkExprs v es s).1) (exprsStatements es)
  | [] => .nil
  | e :: rest => .append (walkExpr_images _ e) (walkExprs_images _ rest)

theorem walkKey_images (s : σ) : ∀ k : Key, v.Images (walkKey v k s).1.statements k.statements
  | .computed e => walkExpr_images _ e
  | .ident _ | .string _ _ | .number _ _ | .bigint _ _ | .privateName _ => .nil

theorem walkProperty_images (s : σ) :
    ∀ p : Property, v.Images (walkProperty v p s).1.statements p.statements
  | .pair k e | .field _ k e => .append (walkKey_images _ k) (walkExpr_images _ e)
  | .shorthand _ e | .spread e => walkExpr_images _ e
  | .method _ _ k (.block head span params b) => by
    -- the key is walked through inside the function or before it
    by_cases h : head.holdsKey
    · simp only [walkProperty, h, ↓reduceIte]
      exact .append (walkKey_images _ k)
        (.append (walkExprs_images _ params) (walkBlock_images _ b))
    · simp only [walkProperty, h]
      exact .append (walkKey_images _ k)
        (.append (walkExprs_images _ params) (walkBlock_images _ b))
  | .method _ _ k (.concise _ _ params e) =>
    .append (walkKey_images _ k) (.append (walkExprs_images _ params) (walkExpr_images _ e))
  | .staticBlock b => walkBlock_images _ b
  | .empty => .nil

theorem walkProperties_images (s : σ) : ∀ ps : List Property,
    v.Images (propertiesStatements (walkProperties v ps s).1) (propertiesStatements ps)
  | [] => .nil
  | p :: rest => .append (walkProperty_images _ p) (walkProperties_images _ rest)

theorem walkClosure_images (s : σ) :
    ∀ c : Closure, v.Images (walkClosure v c s).1.statements c.statements
  | .block _ _ params b => .append (walkExprs_images _ params) (walkBlock_images _ b)
  | .concise _ _ params e => .append (walkExprs_images _ params) (walkExpr_images _ e)

theorem walkBlock_images (s : σ) :
    ∀ b : Block, v.Images (walkBlock v b s).1.statements b.statements
  | .mk _ ss => walkStmts_images _ ss

theorem walkDeclarator_images (s : σ) :
    ∀ d : Declarator, v.Images (walkDeclarator v d s).1.statements d.statements
  | .mk target init => .append (walkExpr_images _ target) (walkExpr_images _ init)

theorem walkDeclarators_images (s : σ) : ∀ ds : List Declarator,
    v.Images (declaratorsStatements (walkDeclarators v ds s).1) (declaratorsStatements ds)
  | [] => .nil
  | d :: rest => .append (walkDeclarator_images _ d) (walkDeclarators_images _ rest)

theorem walkDecl_images (s : σ) : ∀ d : Decl, v.Images (walkDecl v d s).1.statements d.statements
  | .vars _ ds => walkDeclarators_images _ ds
  | .function _ c => walkClosure_images _ c
  | .classDecl _ ps e => .append (walkProperties_images _ ps) (walkExpr_images _ e)

theorem walkLoopHead_images (s : σ) :
    ∀ h : LoopHead, v.Images (walkLoopHead v h s).1.statements h.statements
  | .decl _ ds => walkDeclarators_images _ ds
  | .expr e => walkExpr_images _ e

/-- What a walk makes inside a statement. Where a part takes the place of an `if`
statement, it is what the walk makes of the part. -/
theorem walkStmt_inner_images (s : σ) :
    ∀ t : Stmt, v.Images (walkStmt v t s).1.inner t.inner
  | .empty | .removed | .exitTo _ | .continueTo _ | .debugger => .nil
  | .expr e | .ret e | .throw e => walkExpr_images _ e
  | .block b => walkBlock_images _ b
  | .decl d => walkDecl_images _ d
  | .ifElse span e t none => by
    simp only [walkStmt, bind_apply]
    cases (v.decide span e (none : Option Stmt).isSome s).1 with
    | keep =>
      exact .append (walkExpr_images _ e)
        (.append (.cons (walkStmt_inner_images _ t)) .nil)
    | consequent => exact (walkStmt_inner_images _ t).of_subset fun u hu => by simp [hu]
    | alternate => exact .nil
  | .ifElse span e t (some a) => by
    simp only [walkStmt, bind_apply]
    cases (v.decide span e (some a).isSome s).1 with
    | keep =>
      exact .append (walkExpr_images _ e)
        (.append (.cons (walkStmt_inner_images _ t)) (walkAlternate_images _ (some a)))
    | consequent => exact (walkStmt_inner_images _ t).of_subset fun u hu => by simp [hu]
    | alternate => exact (walkStmt_inner_images _ a).of_subset fun u hu => by simp [hu]
  | .whileLoop e t | .doWhile e t | .withObject e t =>
    .append (walkExpr_images _ e) (.cons (walkStmt_inner_images _ t))
  | .forLoop _ h test update t =>
    .append (walkLoopHead_images _ h) (.append (walkExpr_images _ test)
      (.append (walkExpr_images _ update) (.cons (walkStmt_inner_images _ t))))
  | .forEach _ _ h e t =>
    .append (walkLoopHead_images _ h) (.append (walkExpr_images _ e)
      (.cons (walkStmt_inner_images _ t)))
  | .labeled _ t => .cons (walkStmt_inner_images _ t)
  | .switch _ e cs => .append (walkExpr_images _ e) (walkCases_images _ cs)
  | .tryCatch b h f =>
    .append (walkBlock_images _ b) (.append (walkHandler_images _ h) (walkFinalizer_images _ f))

theorem walkAlternate_images (s : σ) : ∀ a : Option Stmt,
    v.Images (alternateStatements (walkAlternate v a s).1) (alternateStatements a)
  | none => .nil
  | some t => by
    have ht : v.Images (walkStmt v t s).1.statements t.statements :=
      .cons (walkStmt_inner_images s t)
    simp only [walkAlternate, bind_apply, pure_apply, Stmt.alternateOf]
    split
    · exact .nil
    · exact ht

theorem walkStmts_images (s : σ) : ∀ ss : List Stmt,
    v.Images (stmtsStatements (walkStmts v ss s).1) (stmtsStatements ss)
  | [] => .nil
  | t :: rest => by
    have ht : v.Images (walkStmt v t s).1.statements t.statements :=
      .cons (walkStmt_inner_images s t)
    simp only [walkStmts, bind_apply, pure_apply]
    split
    · exact (walkStmts_images _ rest).of_subset (List.subset_append_right t.statements _)
    · exact .append ht (walkStmts_images _ rest)

theorem walkCase_images (s : σ) : ∀ c : Case, v.Images (walkCase v c s).1.statements c.statements
  | .mk none ss => walkStmts_images _ ss
  | .mk (some e) ss => .append (walkExpr_images _ e) (walkStmts_images _ ss)

theorem walkCases_images (s : σ) : ∀ cs : List Case,
    v.Images (casesStatements (walkCases v cs s).1) (casesStatements cs)
  | [] => .nil
  | c :: rest => .append (walkCase_images _ c) (walkCases_images _ rest)

theorem walkHandler_images (s : σ) : ∀ h : Option Handler,
    v.Images (handlerStatements (walkHandler v h s).1) (handlerStatements h)
  | none => .nil
  | some (.mk _ e b) => .append (walkExpr_images _ e) (walkBlock_images _ b)

theorem walkFinalizer_images (s : σ) : ∀ b : Option Block,
    v.Images (finalizerStatements (walkFinalizer v b s).1) (finalizerStatements b)
  | none => .nil
  | some b => walkBlock_images _ b

end

theorem walkItem_images (s : σ) : ∀ i : Item, v.Images (walkItem v i s).1.statements i.statements
  | .stmt t => .cons (walkStmt_inner_images s t)
  | .importNames _ _ | .exportNames _ _ | .exportAll _ => .nil
  | .exportDecl d => walkDecl_images _ d
  | .exportDefault _ e => walkExpr_images _ e

theorem walkItems_images (s : σ) : ∀ is : List Item,
    v.Images (itemsStatements (walkItems v is s).1) (itemsStatements is)
  | [] => .nil
  | i :: rest => by
    simp only [walkItems, bind_apply, pure_apply]
    split
    · exact (walkItems_images _ rest).of_subset (List.subset_append_right i.statements _)
    · exact .append (walkItem_images _ i) (walkItems_images _ rest)

/-- **A walk makes no statement from nothing.** -/
theorem walkProgram_images (s : σ) (p : Program) :
    v.Images (walkProgram v p s).1.statements p.statements :=
  walkItems_images s p.items

end Images

end DeadBranch
