/-
# Removing dead branches a second time

Pruning leaves a tree whose scopes are new: what was declared in a dropped part
is gone. If none of the `if` statements that are left has a verdict under the
new scopes, a second run leaves the tree as it is and records nothing. Both
halves are needed: a run records nothing exactly if there is no verdict
(`records_eq_nil_iff`), and a tree without verdicts is left as it is if a placeholder
stands in it only where a statement must stand (`Program.pruned_of_settled`). A pruned
tree is of that kind (`Program.single_of_removed`).

Key definitions: `Outline.Undecided`, `Seat.Settled`.
Key theorems: `records_eq_nil_iff`, `Program.undecided_iff_seats`,
`Program.pruned_of_settled`, `Program.pruned_pruned`.
-/
import DeadBranch.Proofs.Seats

namespace DeadBranch

/-- No `if` statement of an outline has a verdict. -/
def Outline.Undecided (g : ScopeGraph) (wholeChain : Bool) (scope : Nat) : Outline → Prop
  | .blank => True
  | .both first second =>
    first.Undecided g wholeChain scope ∧ second.Undecided g wholeChain scope
  | .scope key _ inside => inside.Undecided g wholeChain (g.inside scope key)
  | .block _ inside => inside.Undecided g wholeChain scope
  | .declare _ => True
  | .choice span test _ inTest consequent alternate =>
    g.verdict wholeChain scope span test = none ∧ inTest.Undecided g wholeChain scope ∧
      consequent.Undecided g wholeChain scope ∧ alternate.Undecided g wholeChain scope

section Records

variable {g : ScopeGraph} {wholeChain : Bool}

/-- Nothing is recorded exactly if nothing is decided. -/
theorem records_eq_nil_iff (locate : Nat → Location) (o : Outline) :
    ∀ {scope : Nat} {around : List (Conditional × Part)}, anyDropped g wholeChain around = false →
      ((o.sites g scope around).filterMap (Site.record? g wholeChain locate) = [] ↔
        o.Undecided g wholeChain scope) := by
  induction o with
  | blank => intro _ _ _; simp [Outline.sites, Outline.Undecided]
  | both first second ih1 ih2 =>
    intro _ _ h
    simp only [Outline.sites, Outline.Undecided, List.filterMap_append, List.append_eq_nil_iff,
      ih1 h, ih2 h]
  | scope key params inside ih => intro _ _ h; exact ih h
  | block span inside ih => intro _ _ h; exact ih h
  | declare d => intro _ _ _; simp [Outline.sites, Outline.Undecided]
  | choice span test hasAlternate inTest consequent alternate iht ihc iha =>
    intro scope around h
    simp only [Outline.sites, Outline.Undecided, List.filterMap_cons, List.filterMap_append,
      Site.record?, h, Conditional.verdict]
    cases hv : g.verdict wholeChain scope span test with
    | none =>
      have hpart : ∀ part, anyDropped g wholeChain
          ((⟨scope, span, test, hasAlternate⟩, part) :: around) = false := by
        simp [Conditional.verdict, hv, h, Part.isDropped]
      simp [foldRecord?, iht (hpart .test), ihc (hpart .consequent), iha (hpart .alternate)]
    | some isTrue => cases isTrue <;> cases hasAlternate <;> simp [foldRecord?]

/-- Nothing is decided exactly if no site has a verdict. -/
theorem Outline.undecided_iff_sites (o : Outline) :
    ∀ {scope : Nat} {around : List (Conditional × Part)}, o.Undecided g wholeChain scope ↔
      ∀ v ∈ (o.sites g scope around).map (fun s => s.conditional.verdict g wholeChain),
        v = none := by
  induction o with
  | blank => intro _ _; simp [Outline.Undecided, Outline.sites]
  | both first second ih1 ih2 =>
    intro scope around
    simp only [Outline.Undecided, Outline.sites, List.map_append, List.forall_mem_append]
    exact and_congr ih1 ih2
  | scope key params inside ih => intro _ _; exact ih
  | block span inside ih => intro _ _; exact ih
  | declare d => intro _ _; simp [Outline.Undecided, Outline.sites]
  | choice span test hasAlternate inTest consequent alternate iht ihc iha =>
    intro scope around
    simp only [Outline.Undecided, Outline.sites, List.map_cons, List.map_append,
      List.forall_mem_cons, List.forall_mem_append, Conditional.verdict, and_assoc]
    exact and_congr Iff.rfl (and_congr iht (and_congr ihc iha))

end Records

theorem Seat.verdict_eq (g : ScopeGraph) (wholeChain : Bool) (seat : Seat) :
    seat.stmt.verdict g wholeChain seat.scope =
      seat.site?.bind (·.conditional.verdict g wholeChain) := by
  obtain ⟨slot, scope, s, around⟩ := seat
  cases s <;> rfl

/-- Nothing is decided exactly if there is no verdict at any seat. -/
theorem Program.undecided_iff_seats (wholeChain : Bool) (p : Program) :
    p.outline.Undecided (.ofProgram p) wholeChain 0 ↔
      ∀ seat ∈ p.seats, seat.stmt.verdict (.ofProgram p) wholeChain seat.scope = none := by
  have hsites : p.outline.sites (.ofProgram p) 0 [] = p.seats.filterMap Seat.site? :=
    p.seats_sites.symm
  rw [Outline.undecided_iff_sites p.outline, hsites]
  simp only [List.forall_mem_map, List.mem_filterMap, Seat.verdict_eq, Option.bind_eq_none_iff]
  grind

/-! ### Pruning what is settled -/

section Settled

variable (g : ScopeGraph) (wholeChain : Bool)

/-- There is nothing to prune at the seat: no verdict, and a placeholder only where a
statement must stand. -/
structure Seat.Settled (seat : Seat) : Prop where
  single : seat.stmt.isRemoved → seat.slot.position.isSingle
  undecided : seat.stmt.verdict g wholeChain seat.scope = none

variable {g wholeChain}

theorem Stmt.seat_mem_seats (s : Stmt) (scope : Nat) (around : List (Conditional × Part))
    (slot : Slot) : ⟨slot, scope, s, around⟩ ∈ s.seats g scope around slot := by
  cases s <;> simp

/-- A statement, unless it is a placeholder. -/
def Stmt.present? (s : Stmt) : Option Stmt := if s.isRemoved then none else some s

theorem Stmt.getD_present? (s : Stmt) : s.present?.getD .removed = s := by
  cases s <;> rfl

theorem Stmt.present?_eq_some {s : Stmt} (h : s.isRemoved = false) : s.present? = some s := by
  rw [Stmt.present?, h]
  rfl

/-- Where no placeholder may stand, a settled statement is none. -/
theorem Stmt.isRemoved_of_settled {s : Stmt} {scope : Nat} {around : List (Conditional × Part)}
    {slot : Slot} (hslot : slot.position.isSingle = false)
    (h : ∀ seat ∈ s.seats g scope around slot, seat.Settled g wholeChain) :
    s.isRemoved = false := by
  have hsingle := (h _ (s.seat_mem_seats scope around slot)).single
  cases hr : s.isRemoved with
  | false => rfl
  | true => exact absurd (hsingle hr) (by simp [hslot])

mutual

theorem Expr.pruned_of_settled : ∀ (e : Expr) {scope : Nat} {around : List (Conditional × Part)},
    (∀ seat ∈ e.seats g scope around, seat.Settled g wholeChain) →
    e.pruned g wholeChain scope = e
  | .absent, _, _, _ | .literal _, _, _, _ | .ident _, _, _, _ => by simp only [Expr.pruned]
  | .paren e, _, _, h | .unary _ e, _, _, h | .member e _, _, _, h | .spread e, _, _, h => by
    simp only [Expr.seats] at h
    rw [Expr.pruned, e.pruned_of_settled h]
  | .binary _ e f, _, _, h | .assign _ e f, _, _, h | .index e f, _, _, h
  | .withDefault e f, _, _, h => by
    simp only [Expr.seats, List.forall_mem_append] at h
    rw [Expr.pruned, e.pruned_of_settled h.1, f.pruned_of_settled h.2]
  | .cond c e f, _, _, h => by
    simp only [Expr.seats, List.forall_mem_append] at h
    rw [Expr.pruned, c.pruned_of_settled h.1, e.pruned_of_settled h.2.1,
      f.pruned_of_settled h.2.2]
  | .array es, _, _, h | .arrayPattern es, _, _, h | .other _ es, _, _, h => by
    simp only [Expr.seats] at h
    rw [Expr.pruned, exprsPruned_of_settled es h]
  | .object ps, _, _, h | .objectPattern ps, _, _, h => by
    simp only [Expr.seats] at h
    rw [Expr.pruned, propertiesPruned_of_settled ps h]
  | .closure c, _, _, h => by
    simp only [Expr.seats] at h
    rw [Expr.pruned, c.pruned_of_settled h]
  | .classExpr _ ps e, _, _, h => by
    simp only [Expr.seats, List.forall_mem_append] at h
    rw [Expr.pruned, propertiesPruned_of_settled ps h.1, e.pruned_of_settled h.2]

theorem exprsPruned_of_settled : ∀ (es : List Expr) {scope : Nat}
    {around : List (Conditional × Part)},
    (∀ seat ∈ exprsSeats g scope around es, seat.Settled g wholeChain) →
    exprsPruned g wholeChain scope es = es
  | [], _, _, _ => by simp only [exprsPruned]
  | e :: rest, _, _, h => by
    simp only [exprsSeats, List.forall_mem_append] at h
    rw [exprsPruned, e.pruned_of_settled h.1, exprsPruned_of_settled rest h.2]

theorem Key.pruned_of_settled : ∀ (k : Key) {scope : Nat} {around : List (Conditional × Part)},
    (∀ seat ∈ k.seats g scope around, seat.Settled g wholeChain) →
    k.pruned g wholeChain scope = k
  | .computed e, _, _, h => by
    simp only [Key.seats] at h
    rw [Key.pruned, e.pruned_of_settled h]
  | .ident _, _, _, _ | .string _ _, _, _, _ | .number _ _, _, _, _ | .bigint _ _, _, _, _
  | .privateName _, _, _, _ => by simp only [Key.pruned]

theorem Property.pruned_of_settled : ∀ (p : Property) {scope : Nat}
    {around : List (Conditional × Part)},
    (∀ seat ∈ p.seats g scope around, seat.Settled g wholeChain) →
    p.pruned g wholeChain scope = p
  | .pair k e, _, _, h | .field _ k e, _, _, h => by
    simp only [Property.seats, List.forall_mem_append] at h
    rw [Property.pruned, k.pruned_of_settled h.1, e.pruned_of_settled h.2]
  | .shorthand _ e, _, _, h | .spread e, _, _, h => by
    simp only [Property.seats] at h
    rw [Property.pruned, e.pruned_of_settled h]
  | .method _ _ k (.block head span params b), _, _, h => by
    simp only [Property.seats, List.forall_mem_append] at h
    rw [Property.pruned, k.pruned_of_settled h.1, exprsPruned_of_settled params h.2.1,
      b.pruned_of_settled h.2.2]
  | .method _ _ k (.concise head span params e), _, _, h => by
    simp only [Property.seats, Closure.seats, List.forall_mem_append] at h
    simp only [Property.pruned, Closure.pruned, k.pruned_of_settled h.1,
      exprsPruned_of_settled params h.2.1, e.pruned_of_settled h.2.2]
  | .staticBlock b, _, _, h => by
    simp only [Property.seats] at h
    rw [Property.pruned, b.pruned_of_settled h]
  | .empty, _, _, _ => by simp only [Property.pruned]

theorem propertiesPruned_of_settled : ∀ (ps : List Property) {scope : Nat}
    {around : List (Conditional × Part)},
    (∀ seat ∈ propertiesSeats g scope around ps, seat.Settled g wholeChain) →
    propertiesPruned g wholeChain scope ps = ps
  | [], _, _, _ => by simp only [propertiesPruned]
  | p :: rest, _, _, h => by
    simp only [propertiesSeats, List.forall_mem_append] at h
    rw [propertiesPruned, p.pruned_of_settled h.1, propertiesPruned_of_settled rest h.2]

theorem Closure.pruned_of_settled : ∀ (c : Closure) {scope : Nat}
    {around : List (Conditional × Part)},
    (∀ seat ∈ c.seats g scope around, seat.Settled g wholeChain) →
    c.pruned g wholeChain scope = c
  | .block _ _ params b, _, _, h => by
    simp only [Closure.seats, List.forall_mem_append] at h
    rw [Closure.pruned, exprsPruned_of_settled params h.1, b.pruned_of_settled h.2]
  | .concise _ _ params e, _, _, h => by
    simp only [Closure.seats, List.forall_mem_append] at h
    rw [Closure.pruned, exprsPruned_of_settled params h.1, e.pruned_of_settled h.2]

theorem Block.pruned_of_settled : ∀ (b : Block) {scope : Nat} {around : List (Conditional × Part)},
    (∀ seat ∈ b.seats g scope around, seat.Settled g wholeChain) →
    b.pruned g wholeChain scope = b
  | .mk _ ss, _, _, h => by
    simp only [Block.seats] at h
    rw [Block.pruned, stmtsPruned_of_settled ss h]

theorem Declarator.pruned_of_settled : ∀ (d : Declarator) {scope : Nat}
    {around : List (Conditional × Part)},
    (∀ seat ∈ d.seats g scope around, seat.Settled g wholeChain) →
    d.pruned g wholeChain scope = d
  | .mk target init, _, _, h => by
    simp only [Declarator.seats, List.forall_mem_append] at h
    rw [Declarator.pruned, target.pruned_of_settled h.1, init.pruned_of_settled h.2]

theorem declaratorsPruned_of_settled : ∀ (ds : List Declarator) {scope : Nat}
    {around : List (Conditional × Part)},
    (∀ seat ∈ declaratorsSeats g scope around ds, seat.Settled g wholeChain) →
    declaratorsPruned g wholeChain scope ds = ds
  | [], _, _, _ => by simp only [declaratorsPruned]
  | d :: rest, _, _, h => by
    simp only [declaratorsSeats, List.forall_mem_append] at h
    rw [declaratorsPruned, d.pruned_of_settled h.1, declaratorsPruned_of_settled rest h.2]

theorem Decl.pruned_of_settled : ∀ (d : Decl) {scope : Nat} {around : List (Conditional × Part)},
    (∀ seat ∈ d.seats g scope around, seat.Settled g wholeChain) →
    d.pruned g wholeChain scope = d
  | .vars _ ds, _, _, h => by
    simp only [Decl.seats] at h
    rw [Decl.pruned, declaratorsPruned_of_settled ds h]
  | .function _ c, _, _, h => by
    simp only [Decl.seats] at h
    rw [Decl.pruned, c.pruned_of_settled h]
  | .classDecl _ ps e, _, _, h => by
    simp only [Decl.seats, List.forall_mem_append] at h
    rw [Decl.pruned, propertiesPruned_of_settled ps h.1, e.pruned_of_settled h.2]

theorem LoopHead.pruned_of_settled : ∀ (head : LoopHead) {scope : Nat}
    {around : List (Conditional × Part)},
    (∀ seat ∈ head.seats g scope around, seat.Settled g wholeChain) →
    head.pruned g wholeChain scope = head
  | .decl _ ds, _, _, h => by
    simp only [LoopHead.seats] at h
    rw [LoopHead.pruned, declaratorsPruned_of_settled ds h]
  | .expr e, _, _, h => by
    simp only [LoopHead.seats] at h
    rw [LoopHead.pruned, e.pruned_of_settled h]

/-- A settled statement stays as it is; a placeholder is still one. -/
theorem Stmt.pruned_of_settled : ∀ (s : Stmt) {scope : Nat} {around : List (Conditional × Part)}
    {slot : Slot}, (∀ seat ∈ s.seats g scope around slot, seat.Settled g wholeChain) →
    s.pruned g wholeChain scope = s.present?
  | .empty, _, _, _, _ | .removed, _, _, _, _ | .exitTo _, _, _, _, _ | .continueTo _, _, _, _, _
  | .debugger, _, _, _, _ => by rw [Stmt.pruned]; rfl
  | .expr e, _, _, _, h | .ret e, _, _, _, h | .throw e, _, _, _, h => by
    simp only [Stmt.seats, List.forall_mem_cons] at h
    rw [Stmt.pruned, e.pruned_of_settled h.2]
    rfl
  | .block b, _, _, _, h => by
    simp only [Stmt.seats, List.forall_mem_cons] at h
    rw [Stmt.pruned, b.pruned_of_settled h.2]
    rfl
  | .decl d, _, _, _, h => by
    simp only [Stmt.seats, List.forall_mem_cons] at h
    rw [Stmt.pruned, d.pruned_of_settled h.2]
    rfl
  | .ifElse span e s a, scope, _, _, h => by
    simp only [Stmt.seats, List.forall_mem_cons, List.forall_mem_append] at h
    obtain ⟨hself, he, hs, ha⟩ := h
    have hv : g.verdict wholeChain scope span e = none := hself.undecided
    rw [Stmt.pruned, hv, e.pruned_of_settled he, s.pruned_of_settled hs, s.getD_present?,
      alternatePruned_of_settled a rfl ha]
    rfl
  | .whileLoop e s, _, _, _, h | .doWhile e s, _, _, _, h | .withObject e s, _, _, _, h => by
    simp only [Stmt.seats, List.forall_mem_cons, List.forall_mem_append] at h
    rw [Stmt.pruned, e.pruned_of_settled h.2.1, s.pruned_of_settled h.2.2, s.getD_present?]
    rfl
  | .forLoop _ head e u s, _, _, _, h => by
    simp only [Stmt.seats, List.forall_mem_cons, List.forall_mem_append] at h
    obtain ⟨-, hhead, he, hu, hs⟩ := h
    rw [Stmt.pruned, head.pruned_of_settled hhead, e.pruned_of_settled he,
      u.pruned_of_settled hu, s.pruned_of_settled hs, s.getD_present?]
    rfl
  | .forEach _ _ head e s, _, _, _, h => by
    simp only [Stmt.seats, List.forall_mem_cons, List.forall_mem_append] at h
    obtain ⟨-, hhead, he, hs⟩ := h
    rw [Stmt.pruned, head.pruned_of_settled hhead, e.pruned_of_settled he,
      s.pruned_of_settled hs, s.getD_present?]
    rfl
  | .labeled _ s, _, _, _, h => by
    simp only [Stmt.seats, List.forall_mem_cons] at h
    rw [Stmt.pruned, s.pruned_of_settled h.2, s.getD_present?]
    rfl
  | .switch _ e cs, _, _, _, h => by
    simp only [Stmt.seats, List.forall_mem_cons, List.forall_mem_append] at h
    rw [Stmt.pruned, e.pruned_of_settled h.2.1, casesPruned_of_settled cs h.2.2]
    rfl
  | .tryCatch b handler f, _, _, _, h => by
    simp only [Stmt.seats, List.forall_mem_cons, List.forall_mem_append] at h
    obtain ⟨-, hb, hhandler, hf⟩ := h
    rw [Stmt.pruned, b.pruned_of_settled hb, handlerPruned_of_settled handler hhandler,
      finalizerPruned_of_settled f hf]
    rfl

theorem alternatePruned_of_settled : ∀ (a : Option Stmt) {scope : Nat}
    {around : List (Conditional × Part)} {slot : Slot}, slot.position.isSingle = false →
    (∀ seat ∈ alternateSeats g scope around slot a, seat.Settled g wholeChain) →
    alternatePruned g wholeChain scope a = a
  | none, _, _, _, _, _ => by simp only [alternatePruned]
  | some s, _, _, _, hslot, h => by
    simp only [alternateSeats] at h
    rw [alternatePruned, s.pruned_of_settled h,
      Stmt.present?_eq_some (Stmt.isRemoved_of_settled hslot h)]

theorem stmtsPruned_of_settled : ∀ (ss : List Stmt) {scope : Nat}
    {around : List (Conditional × Part)},
    (∀ seat ∈ stmtsSeats g scope around ss, seat.Settled g wholeChain) →
    stmtsPruned g wholeChain scope ss = ss
  | [], _, _, _ => by simp only [stmtsPruned]
  | s :: rest, _, _, h => by
    simp only [stmtsSeats, List.forall_mem_append] at h
    rw [stmtsPruned, s.pruned_of_settled h.1,
      Stmt.present?_eq_some (Stmt.isRemoved_of_settled rfl h.1), stmtsPruned_of_settled rest h.2]
    rfl

theorem Case.pruned_of_settled : ∀ (c : Case) {scope : Nat} {around : List (Conditional × Part)},
    (∀ seat ∈ c.seats g scope around, seat.Settled g wholeChain) →
    c.pruned g wholeChain scope = c
  | .mk none ss, _, _, h => by
    simp only [Case.seats] at h
    rw [Case.pruned, stmtsPruned_of_settled ss h]
  | .mk (some e) ss, _, _, h => by
    simp only [Case.seats, List.forall_mem_append] at h
    rw [Case.pruned, e.pruned_of_settled h.1, stmtsPruned_of_settled ss h.2]

theorem casesPruned_of_settled : ∀ (cs : List Case) {scope : Nat}
    {around : List (Conditional × Part)},
    (∀ seat ∈ casesSeats g scope around cs, seat.Settled g wholeChain) →
    casesPruned g wholeChain scope cs = cs
  | [], _, _, _ => by simp only [casesPruned]
  | c :: rest, _, _, h => by
    simp only [casesSeats, List.forall_mem_append] at h
    rw [casesPruned, c.pruned_of_settled h.1, casesPruned_of_settled rest h.2]

theorem handlerPruned_of_settled : ∀ (handler : Option Handler) {scope : Nat}
    {around : List (Conditional × Part)},
    (∀ seat ∈ handlerSeats g scope around handler, seat.Settled g wholeChain) →
    handlerPruned g wholeChain scope handler = handler
  | none, _, _, _ => by simp only [handlerPruned]
  | some (.mk _ e b), _, _, h => by
    simp only [handlerSeats, List.forall_mem_append] at h
    rw [handlerPruned, e.pruned_of_settled h.1, b.pruned_of_settled h.2]

theorem finalizerPruned_of_settled : ∀ (b : Option Block) {scope : Nat}
    {around : List (Conditional × Part)},
    (∀ seat ∈ finalizerSeats g scope around b, seat.Settled g wholeChain) →
    finalizerPruned g wholeChain scope b = b
  | none, _, _, _ => by simp only [finalizerPruned]
  | some b, _, _, h => by
    simp only [finalizerSeats] at h
    rw [finalizerPruned, b.pruned_of_settled h]

end

theorem itemsPruned_of_settled {scope : Nat} {around : List (Conditional × Part)} :
    ∀ is : List Item, (∀ seat ∈ itemsSeats g scope around is, seat.Settled g wholeChain) →
      itemsPruned g wholeChain scope is = is
  | [], _ => by simp only [itemsPruned]
  | i :: rest, h => by
    simp only [itemsSeats, List.forall_mem_append] at h
    have hi : i.pruned g wholeChain scope = some i := by
      cases i with
      | stmt s =>
        have hs := h.1
        rw [Item.pruned, s.pruned_of_settled hs,
          Stmt.present?_eq_some (Stmt.isRemoved_of_settled rfl hs)]
        rfl
      | importNames _ _ => rfl
      | exportNames _ _ => rfl
      | exportAll _ => rfl
      | exportDecl d => rw [Item.pruned, d.pruned_of_settled h.1]
      | exportDefault _ e => rw [Item.pruned, e.pruned_of_settled h.1]
    rw [itemsPruned, hi, itemsPruned_of_settled rest h.2]
    rfl

end Settled

/-- If there is nothing to prune at any seat, pruning changes nothing. -/
theorem Program.pruned_of_settled {wholeChain : Bool} {p : Program}
    (h : ∀ seat ∈ p.seats, seat.Settled (.ofProgram p) wholeChain) : p.pruned wholeChain = p :=
  congrArg (fun items => { p with items := items }) (itemsPruned_of_settled p.items h)

/-- In a pruned program a placeholder stands only where a statement must stand. -/
theorem Program.single_of_removed {wholeChain : Bool} {p : Program} {seat : Seat}
    (h : seat ∈ (p.pruned wholeChain).seats) (hr : seat.stmt.isRemoved) :
    seat.slot.position.isSingle := by
  have hshown : seat.shown ∈ leftOf (.ofProgram p) wholeChain p.seats := by
    rw [← p.left_seats]
    exact List.mem_map_of_mem h
  obtain ⟨before, hbefore, heq⟩ := List.mem_map.mp hshown
  have hposition : before.slot.settled (.ofProgram p) wholeChain = seat.slot.position :=
    congrArg Prod.fst heq
  have hstmt : (before.left (.ofProgram p) wholeChain).2 = seat.stmt := congrArg Prod.snd heq
  obtain ⟨-, hsingle, -⟩ | ⟨-, -, hkept, -⟩ :=
    before.left_cases _ wholeChain (List.mem_filter.mp hbefore).2
  · rw [← hposition]
    exact hsingle
  · rw [hstmt, hr] at hkept
    cases hkept

/-- If nothing is decided in a pruned program, pruning it again changes
nothing. -/
theorem Program.pruned_pruned (wholeChain : Bool) (p : Program)
    (h : (p.pruned wholeChain).outline.Undecided (.ofProgram (p.pruned wholeChain)) wholeChain 0) :
    (p.pruned wholeChain).pruned wholeChain = p.pruned wholeChain := by
  have hverdict := ((p.pruned wholeChain).undecided_iff_seats wholeChain).mp h
  exact Program.pruned_of_settled fun seat hseat =>
    ⟨Program.single_of_removed hseat, hverdict seat hseat⟩

end DeadBranch
