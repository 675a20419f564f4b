/-
# Which `if` an `else` belongs to

An `else` belongs to the nearest `if` before it that can take one. A statement is
open if an `else` right behind it would belong to an `if` at its end; an `if`
statement with an alternate must not have an open consequent. A walk can move a
part of an `if` statement to the place of the statement, and drop an alternate,
but what it leaves of a closed statement is closed (`walkStmt_closed`). So a tree
in which each `else` is where it belongs is left as such a tree, and reads back
as it is.

Statements are printed without braces of their own. What is printed of a statement
is, layout apart, a sequence of marks (`printStmt_marks`): the heads of its loops
and `if` statements, the `else`s, and the parts that no `else` can reach into.
`Reads` reads marks by the rule above.

Key definitions: `Stmt.isOpen`, `Attached`, `Stmt.marks`, `Reads`.
Key theorems: `walkStmt_closed`, `walkProgram_attached`, `Reads.unique`, `reads_marks`.
-/
import DeadBranch.Printer.Tree
import DeadBranch.Proofs.Statements

namespace DeadBranch

/-! ### Open statements -/

mutual

/-- Would an `else` right behind the statement belong to an `if` in it? -/
@[simp] def Stmt.isOpen : Stmt → Bool
  | .ifElse _ _ _ alternate => alternateIsOpen alternate
  | .whileLoop _ body => body.isOpen
  | .forLoop _ _ _ _ body => body.isOpen
  | .forEach _ _ _ _ body => body.isOpen
  | .labeled _ body => body.isOpen
  | .withObject _ body => body.isOpen
  | _ => false

/-- Would an `else` right behind an `if` statement with this alternate belong to
it, or to an `if` in the alternate? -/
@[simp] def alternateIsOpen : Option Stmt → Bool
  | none => true
  | some s => s.isOpen

end

/-- If it is an `if` statement with an alternate, is the consequent closed? -/
@[simp] def Stmt.isAttached : Stmt → Bool
  | .ifElse _ _ consequent (some _) => !consequent.isOpen
  | _ => true

/-- No `if` statement of the list with an alternate has an open consequent. -/
def Attached (l : List Stmt) : Prop := ∀ s ∈ l, s.isAttached

instance (l : List Stmt) : Decidable (Attached l) := inferInstanceAs (Decidable (∀ s ∈ l, _))

/-- No statement of the list is a placeholder for a removed one. -/
def Unremoved (l : List Stmt) : Prop := ∀ s ∈ l, s.isRemoved = false

instance (l : List Stmt) : Decidable (Unremoved l) := inferInstanceAs (Decidable (∀ s ∈ l, _))

theorem Attached.closed {l : List Stmt} (hl : Attached l) {span : Span} {e : Expr} {c a : Stmt}
    (h : .ifElse span e c (some a) ∈ l) : c.isOpen = false := by
  simpa using hl _ h

theorem Stmt.isAttached_of_closed (span : Span) (e : Expr) {c : Stmt} (h : c.isOpen = false)
    (a : Option Stmt) : (Stmt.ifElse span e c a).isAttached := by
  cases a <;> simp [h]

section Walk

variable {σ : Type} {v : Visitor σ} {l : List Stmt}

/-- **What is left of a closed statement is closed**, and something is left of it. -/
theorem walkStmt_closed (hn : Nested l) (hl : Attached l) (hr : Unremoved l) :
    ∀ (t : Stmt) (s : σ), t ∈ l → t.isOpen = false →
      (walkStmt v t s).1.isOpen = false ∧ (walkStmt v t s).1.isRemoved = false
  | .removed, _, ht, _ => nomatch hr _ ht
  | .empty, _, _, _ | .exitTo _, _, _, _ | .continueTo _, _, _, _ | .debugger, _, _, _
  | .expr _, _, _, _ | .ret _, _, _, _ | .throw _, _, _, _ | .block _, _, _, _ | .decl _, _, _, _
  | .doWhile _ _, _, _, _ | .switch _ _ _, _, _, _ | .tryCatch _ _ _, _, _, _ => ⟨rfl, rfl⟩
  | .ifElse _ _ _ none, _, _, hclosed => nomatch hclosed
  | .ifElse span e c (some a), s, ht, hclosed => by
    have hc (s) := walkStmt_closed hn hl hr c s (hn _ ht (by simp)) (hl.closed ht)
    have ha (s) := walkStmt_closed hn hl hr a s (hn _ ht (by simp)) hclosed
    simp only [walkStmt, bind_apply]
    cases (v.decide span e (some a).isSome s).1 with
    | keep =>
      -- the alternate is not dropped, since something is left of it
      have hkept (s) : (walkStmt v a s).1.alternateOf = some (walkStmt v a s).1 := by
        rw [Stmt.alternateOf, (ha s).2]
        rfl
      refine ⟨?_, rfl⟩
      simp [walkAlternate, hkept, (ha _).1]
    | consequent => exact hc _
    | alternate => exact ha _
  | .whileLoop e t, _, ht, hclosed | .withObject e t, _, ht, hclosed =>
    ⟨(walkStmt_closed hn hl hr t _ (hn _ ht (by simp)) hclosed).1, rfl⟩
  | .forLoop _ _ _ _ t, _, ht, hclosed | .forEach _ _ _ _ t, _, ht, hclosed
  | .labeled _ t, _, ht, hclosed =>
    ⟨(walkStmt_closed hn hl hr t _ (hn _ ht (by simp)) hclosed).1, rfl⟩

/-- Where a walk leaves an `if` statement with an alternate, its consequent is
closed. -/
theorem walkStmt_attached (hn : Nested l) (hl : Attached l) (hr : Unremoved l) :
    ∀ (t : Stmt) (s : σ), t ∈ l → (walkStmt v t s).1.isAttached
  | .ifElse span e c none, s, ht => by
    have hc (s) := walkStmt_attached hn hl hr c s (hn _ ht (by simp))
    simp only [walkStmt, bind_apply]
    cases (v.decide span e (none : Option Stmt).isSome s).1 with
    | keep => rfl
    | consequent => exact hc _
    | alternate => rfl
  | .ifElse span e c (some a), s, ht => by
    have hc (s) := walkStmt_attached hn hl hr c s (hn _ ht (by simp))
    have ha (s) := walkStmt_attached hn hl hr a s (hn _ ht (by simp))
    simp only [walkStmt, bind_apply]
    cases (v.decide span e (some a).isSome s).1 with
    | keep =>
      -- with or without an alternate: the consequent was closed and still is
      have hclosed (s) : (walkStmt v c s).1.isOpen = false :=
        (walkStmt_closed hn hl hr c s (hn _ ht (by simp)) (hl.closed ht)).1
      exact Stmt.isAttached_of_closed _ _ (hclosed _) _
    | consequent => exact hc _
    | alternate => exact ha _
  | .empty, _, _ | .removed, _, _ | .exitTo _, _, _ | .continueTo _, _, _ | .debugger, _, _
  | .expr _, _, _ | .ret _, _, _ | .throw _, _, _ | .block _, _, _ | .decl _, _, _
  | .whileLoop _ _, _, _ | .doWhile _ _, _, _ | .forLoop _ _ _ _ _, _, _
  | .forEach _ _ _ _ _, _, _ | .labeled _ _, _, _ | .withObject _ _, _, _ | .switch _ _ _, _, _
  | .tryCatch _ _ _, _, _ => rfl

/-- **A walk leaves every `else` where it belongs.** -/
theorem walkProgram_attached (p : Program) (s : σ) (hl : Attached p.statements)
    (hr : Unremoved p.statements) : Attached (walkProgram v p s).1.statements := by
  intro t ht
  obtain ⟨u, hu, state, rfl⟩ := walkProgram_images s p t ht
  exact walkStmt_attached p.nested_statements hl hr u state hu

end Walk

/-! ### Printed and read back -/

/-- What stands before the body of a loop or the like. -/
inductive Head where
  | whileLoop (test : Expr)
  | forLoop (span : Span) (head : LoopHead) (test update : Expr)
  | forEach (span : Span) (iteration : Iteration) (head : LoopHead) (subject : Expr)
  | labeled (label : String)
  | withObject (object : Expr)

/-- The statement with this head and body. -/
def Head.over : Head → Stmt → Stmt
  | .whileLoop test, body => .whileLoop test body
  | .forLoop span head test update, body => .forLoop span head test update body
  | .forEach span iteration head subject, body => .forEach span iteration head subject body
  | .labeled label, body => .labeled label body
  | .withObject object, body => .withObject object body

/-- A mark of a printed statement. -/
inductive Mark where
  /-- `if` and a test. -/
  | test (span : Span) (e : Expr)
  /-- `else`. -/
  | otherwise
  | head (h : Head)
  /-- A statement that neither ends in a statement nor has an `else`. -/
  | whole (s : Stmt)

mutual

/-- The marks of a statement. -/
def Stmt.marks : Stmt → List Mark
  | .ifElse span test consequent alternate =>
    .test span test :: (consequent.marks ++ alternateMarks alternate)
  | .whileLoop test body => .head (.whileLoop test) :: body.marks
  | .forLoop span head test update body => .head (.forLoop span head test update) :: body.marks
  | .forEach span iteration head subject body =>
    .head (.forEach span iteration head subject) :: body.marks
  | .labeled label body => .head (.labeled label) :: body.marks
  | .withObject object body => .head (.withObject object) :: body.marks
  | s => [.whole s]

/-- The marks of what follows a consequent. -/
def alternateMarks : Option Stmt → List Mark
  | none => []
  | some s => .otherwise :: s.marks

end

/-- Reading a statement from marks, with what is left of them. An `else` belongs to
the nearest `if` before it: an `if` goes without one only if none is next. -/
inductive Reads : List Mark → Stmt → List Mark → Prop
  | whole {s : Stmt} {rest : List Mark} (h : s.marks = [.whole s]) : Reads (.whole s :: rest) s rest
  | head {h : Head} {ms rest : List Mark} {body : Stmt} (hbody : Reads ms body rest) :
    Reads (.head h :: ms) (h.over body) rest
  | single {span : Span} {e : Expr} {ms rest : List Mark} {c : Stmt} (hc : Reads ms c rest)
    (hnext : rest.head? ≠ some .otherwise) :
    Reads (.test span e :: ms) (.ifElse span e c none) rest
  | double {span : Span} {e : Expr} {ms ms' rest : List Mark} {c a : Stmt}
    (hc : Reads ms c (.otherwise :: ms')) (ha : Reads ms' a rest) :
    Reads (.test span e :: ms) (.ifElse span e c (some a)) rest

/-- Marks are read in one way only. -/
theorem Reads.unique {ms rest rest' : List Mark} {t t' : Stmt} (h : Reads ms t rest)
    (h' : Reads ms t' rest') : t' = t ∧ rest' = rest := by
  induction h generalizing t' rest' with
  | whole => cases h' with
    | whole => exact ⟨rfl, rfl⟩
  | head _ ih => cases h' with
    | head hbody =>
      obtain ⟨rfl, rfl⟩ := ih hbody
      exact ⟨rfl, rfl⟩
  | single _ hnext ih => cases h' with
    | single hc =>
      obtain ⟨rfl, rfl⟩ := ih hc
      exact ⟨rfl, rfl⟩
    | double hc =>
      obtain ⟨-, rfl⟩ := ih hc
      exact absurd rfl hnext
  | double _ _ ihc iha => cases h' with
    | single hc hnext =>
      obtain ⟨-, rfl⟩ := ihc hc
      exact absurd rfl hnext
    | double hc ha =>
      obtain ⟨rfl, h⟩ := ihc hc
      obtain rfl := List.tail_eq_of_cons_eq h
      obtain ⟨rfl, rfl⟩ := iha ha
      exact ⟨rfl, rfl⟩

/-- **A statement is read back as it is** where every `else` in it is where it
belongs, and behind an open statement there is none. -/
theorem reads_marks {l : List Stmt} (hn : Nested l) (hl : Attached l) :
    ∀ (t : Stmt) (rest : List Mark), t ∈ l → (t.isOpen → rest.head? ≠ some .otherwise) →
      Reads (t.marks ++ rest) t rest
  | .ifElse span e c none, rest, ht, hrest => by
    have hnext : rest.head? ≠ some .otherwise := hrest rfl
    have hc := reads_marks hn hl c rest (hn _ ht (by simp)) fun _ => hnext
    simpa [Stmt.marks, alternateMarks] using Reads.single hc hnext
  | .ifElse span e c (some a), rest, ht, hrest => by
    -- the `else` comes right behind the consequent, which is closed
    have hclosed : c.isOpen = false := hl.closed ht
    have hc := reads_marks hn hl c (.otherwise :: (a.marks ++ rest)) (hn _ ht (by simp))
      (by simp [hclosed])
    have ha := reads_marks hn hl a rest (hn _ ht (by simp)) hrest
    simpa [Stmt.marks, alternateMarks] using Reads.double hc ha
  | .whileLoop e t, rest, ht, hrest =>
    .head (h := .whileLoop e) (reads_marks hn hl t rest (hn _ ht (by simp)) hrest)
  | .withObject e t, rest, ht, hrest =>
    .head (h := .withObject e) (reads_marks hn hl t rest (hn _ ht (by simp)) hrest)
  | .forLoop span h test update t, rest, ht, hrest =>
    .head (h := .forLoop span h test update) (reads_marks hn hl t rest (hn _ ht (by simp)) hrest)
  | .forEach span i h e t, rest, ht, hrest =>
    .head (h := .forEach span i h e) (reads_marks hn hl t rest (hn _ ht (by simp)) hrest)
  | .labeled label t, rest, ht, hrest =>
    .head (h := .labeled label) (reads_marks hn hl t rest (hn _ ht (by simp)) hrest)
  | .empty, _, _, _ | .removed, _, _, _ | .exitTo _, _, _, _ | .continueTo _, _, _, _
  | .debugger, _, _, _ | .expr _, _, _, _ | .ret _, _, _, _ | .throw _, _, _, _ | .block _, _, _, _
  | .decl _, _, _, _ | .doWhile _ _, _, _, _ | .switch _ _ _, _, _, _ | .tryCatch _ _ _, _, _, _ =>
    .whole rfl

/-- Is a piece there for the layout only? -/
def Piece.isBlank : Piece → Bool
  | .text s => s == " "
  | .line | .indent | .dedent => true

/-- Pieces without those for the layout. -/
def solid (pieces : Pieces) : Pieces := pieces.filter (!·.isBlank)

section Printed

variable (st : Style)

/-- What is printed for a mark. -/
def Mark.print : Mark → Pieces
  | .test _ e => say "if" ++ say "(" ++ printExpr st e ++ say ")"
  | .otherwise => say "else"
  | .head (.whileLoop e) => say "while(" ++ printExpr st e ++ say ")"
  | .head (.forLoop _ first e update) =>
    say "for(" ++ printLoopHead st first ++ say ";" ++
      (if e.isAbsent then [] else printExpr st e) ++ say ";" ++
      (if update.isAbsent then [] else printExpr st update) ++ say ")"
  | .head (.forEach _ iteration first subject) =>
    (match iteration with
      | .keys => say "for("
      | .values => say "for" ++ say "("
      | .awaited => say "for" ++ say "await" ++ say "(") ++
      printLoopHead st first ++ say (if iteration = .keys then "in" else "of") ++
      printExpr st subject ++ say ")"
  | .head (.labeled label) => say (printName st label) ++ say ":"
  | .head (.withObject object) => say "with" ++ say "(" ++ printExpr st object ++ say ")"
  | .whole s => printStmt st s

@[simp] theorem solid_append (a b : Pieces) : solid (a ++ b) = solid a ++ solid b :=
  List.filter_append ..

@[simp] theorem solid_nil : solid [] = [] := rfl

@[simp] theorem solid_space : solid space = [] := by decide

@[simp] theorem solid_gap : solid st.gap = [] := by
  rw [Style.gap]
  split <;> decide

@[simp] theorem solid_gapIf (needed : Bool) : solid (st.gapIf needed) = [] := by
  cases needed <;> simp [Style.gapIf]

@[simp] theorem solid_line : solid st.line = [] := by
  rw [Style.line]
  split <;> decide

mutual

/-- **A statement is printed mark by mark**: nothing but layout is added, in
particular no braces. -/
theorem printStmt_marks : ∀ t : Stmt,
    solid (printStmt st t) = solid (t.marks.flatMap (Mark.print st))
  | .ifElse span e c a => by
    have hc := printStmt_marks c
    have ha := printAlternate_marks c.isBlock a
    simp [printStmt, Stmt.marks, Mark.print, hc, ha]
  | .whileLoop e t | .withObject e t | .labeled _ t => by
    have ht := printStmt_marks t
    simp [printStmt, Stmt.marks, Mark.print, ht]
  | .forLoop span h test update t => by
    have ht := printStmt_marks t
    simp only [printStmt, Stmt.marks, Mark.print, List.flatMap_cons, solid_append, ht]
    split <;> split <;> simp
  | .forEach span i h e t => by
    have ht := printStmt_marks t
    cases i <;> simp [printStmt, Stmt.marks, Mark.print, ht]
  | .empty | .removed | .exitTo _ | .continueTo _ | .debugger | .expr _ | .ret _ | .throw _
  | .block _ | .decl _ | .doWhile _ _ | .switch _ _ _ | .tryCatch _ _ _ => by
    simp [Stmt.marks, Mark.print]

theorem printAlternate_marks (afterBlock : Bool) : ∀ a : Option Stmt,
    solid (printAlternate st afterBlock a) = solid ((alternateMarks a).flatMap (Mark.print st))
  | none => rfl
  | some t => by
    have ht := printStmt_marks t
    cases afterBlock <;> simp [printAlternate, alternateMarks, Mark.print, ht]

end

end Printed

end DeadBranch
