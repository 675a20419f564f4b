/-
# What removal leaves behind

A run removes an `if` statement by putting a placeholder for it, which the lists and
the `else`s around it then drop. Where a statement must stand the placeholder stays.
It stands nowhere else, and only where such a statement stood; an empty statement of
the program is not taken for one (`shrink_residue`).

Whatever the run drops comes from a fold. A program in which it folds nothing is left
as it is, and each fold costs the tree an `if` statement
(`shrink_eq_self_iff`). The count is exact: an `if` statement stays, is folded, or
lies in a dropped part (`Program.conditionals_pruned`).

Key theorems: `shrink_residue`, `Program.conditionals_pruned`, `shrink_eq_self_iff`.
-/
import DeadBranch.Proofs.Again
import Mathlib.Data.List.Forall2

namespace DeadBranch

variable {p : Program}

theorem Program.not_isRemoved_of_mem_seats (h : Unremoved p.statements) {seat : Seat}
    (hseat : seat ∈ p.seats) : seat.stmt.isRemoved = false :=
  h _ (p.seats_stmt ▸ List.mem_map_of_mem hseat)

/-! ### Placeholders and empty statements -/

theorem Stmt.isRemoved_iff (s : Stmt) : s.isRemoved ↔ s = .removed := by
  cases s <;> simp [Stmt.isRemoved]

theorem Stmt.ne_empty_of_isCleared {g : ScopeGraph} {wholeChain : Bool} {scope : Nat} {s : Stmt}
    (h : s.isCleared g wholeChain scope) : s ≠ .empty := by
  rintro rfl
  cases h

/-- The seats at which something is left, each with the seat of what is left. -/
theorem Program.forall₂_left_seats (wholeChain : Bool) (p : Program) :
    List.Forall₂ (fun before after =>
        before ∈ p.seats.filter (·.isLeft (.ofProgram p) wholeChain) ∧
          before.left (.ofProgram p) wholeChain = after.shown)
      (p.seats.filter (·.isLeft (.ofProgram p) wholeChain)) (p.pruned wholeChain).seats := by
  have hshown : leftOf (.ofProgram p) wholeChain p.seats =
      (p.pruned wholeChain).seats.map Seat.shown := (p.left_seats wholeChain).symm
  rw [leftOf, ← List.forall₂_eq_eq_eq, List.forall₂_map_left_iff,
    List.forall₂_map_right_iff] at hshown
  exact (List.forall₂_and_left _ _).mpr ⟨fun _ hbefore => hbefore, hshown⟩

/-- **Removal leaves no residue.** In what a run leaves, a placeholder stands only where
a statement must stand. The statements that are left come, in order, from the seats at
which something is left: each in the position in which its seat comes to stand, a
placeholder exactly for an `if` statement that is removed, and an empty statement
exactly for an empty statement. No empty statement outside the dropped parts is lost. -/
theorem shrink_residue (wholeChain : Bool) (locate : Nat → Location)
    (h : Unremoved p.statements) :
    let g := ScopeGraph.ofProgram p
    let left := (shrink wholeChain locate p).program
    (∀ seat ∈ left.seats, seat.stmt = .removed → seat.slot.position.isSingle) ∧
      List.Forall₂
        (fun before after => after.slot.position = before.slot.settled g wholeChain ∧
          (after.stmt = .removed ↔ before.stmt.isCleared g wholeChain before.scope) ∧
          (after.stmt = .empty ↔ before.stmt = .empty))
        (p.seats.filter (·.isLeft g wholeChain)) left.seats ∧
      ∀ seat ∈ p.seats, seat.stmt = .empty → seat.isDropped g wholeChain = false →
        seat.isLeft g wholeChain := by
  intro g left
  have hleft : left = p.pruned wholeChain := shrink_program wholeChain locate p
  refine ⟨?_, ?_, ?_⟩
  · intro seat hseat hremoved
    rw [hleft] at hseat
    exact Program.single_of_removed hseat ((Stmt.isRemoved_iff _).mpr hremoved)
  · rw [hleft]
    refine (p.forall₂_left_seats wholeChain).imp fun before after hpair => ?_
    obtain ⟨hbefore, heq⟩ := hpair
    obtain ⟨hmem, hisLeft⟩ := List.mem_filter.mp hbefore
    have hposition : before.slot.settled g wholeChain = after.slot.position :=
      congrArg Prod.fst heq
    have hstmt : (before.left g wholeChain).2 = after.stmt := congrArg Prod.snd heq
    have hremoved := Program.not_isRemoved_of_mem_seats h hmem
    refine ⟨hposition.symm, ?_⟩
    rw [← hstmt]
    obtain ⟨hcleared, -, hplaced⟩ | ⟨-, hverdict, hkept, -, hempty⟩ :=
      before.left_cases g wholeChain hisLeft
    · rw [hremoved, Bool.false_or] at hcleared
      simp [hplaced, hcleared, Stmt.ne_empty_of_isCleared hcleared]
    · rw [← Stmt.isRemoved_iff, hkept, Stmt.isCleared_of_verdict g wholeChain hverdict]
      exact ⟨Iff.rfl, hempty⟩
  · intro seat hseat hempty hdropped
    simp [Seat.isLeft, hdropped, hempty, Stmt.isRemoved, Stmt.isCleared, Stmt.verdict]

/-- The tree of `for (;;) if (false) f(); ; if (x) g(); else if (false) h();`. -/
def emptiedLoop : Program :=
  let call (name : String) : Stmt := .expr (.other .call [.ident name])
  let dead (span : Span) (name : String) : Stmt :=
    .ifElse span (.literal (.bool false)) (call name) none
  ⟨.script, none, [.stmt (.forLoop ⟨0, 26⟩ (.expr .absent) .absent .absent (dead ⟨9, 26⟩ "f")),
    .stmt .empty,
    .stmt (.ifElse ⟨29, 64⟩ (.ident "x") (call "g") (some (dead ⟨46, 64⟩ "h")))]⟩

/-- Of the two statements that are removed, the one after `else` leaves nothing. -/
theorem emptiedLoop_residue :
    let left := (shrink false (fun n => ⟨"g.js", 1, n⟩) emptiedLoop).program
    Unremoved emptiedLoop.statements ∧
      (left.seats.filter (·.stmt.isRemoved)).map (·.slot.position) = [.loopBody] ∧
      ∀ seat ∈ left.seats, seat.stmt = .removed → seat.slot.position.isSingle :=
  ⟨by decide, by decide +kernel, (shrink_residue false _ (by decide)).1⟩

/-! ### Counting `if` statements -/

section Count

variable (g : ScopeGraph) (wholeChain : Bool) (locate : Nat → Location)

/-- What is recorded at a seat. -/
def Seat.record? (seat : Seat) : Option FoldRecord :=
  seat.site?.bind (Site.record? g wholeChain locate)

theorem Seat.isSome_record? (seat : Seat) : (seat.record? g wholeChain locate).isSome =
    (!seat.isDropped g wholeChain && (seat.stmt.verdict g wholeChain seat.scope).isSome) := by
  obtain ⟨slot, scope, s, around⟩ := seat
  cases s with
  | ifElse span test consequent alternate =>
    simp only [Seat.record?, Seat.site?, Site.record?, Seat.isDropped, Stmt.verdict,
      Conditional.verdict, Option.bind_some]
    cases anyDropped g wholeChain around with
    | true => rfl
    | false =>
      rcases g.verdict wholeChain scope span test with _ | _ | _ <;> cases alternate <;> rfl
  | _ => simp [Seat.record?, Seat.site?, Stmt.verdict]

theorem Stmt.isConditional_of_verdict {s : Stmt} {scope : Nat}
    (h : (s.verdict g wholeChain scope).isSome) : s.isConditional := by
  cases s with
  | ifElse span test consequent alternate => rfl
  | _ => cases h

theorem Stmt.isConditional_of_cleared {s : Stmt} {scope : Nat}
    (h : s.isRemoved || s.isCleared g wholeChain scope) :
    s.isConditional = (s.verdict g wholeChain scope).isSome := by
  cases s with
  | removed => rfl
  | ifElse span test consequent alternate =>
    cases alternate with
    | none =>
      have hv : g.verdict wholeChain scope span test = some false := by
        simpa [Stmt.isRemoved, Stmt.isCleared] using h
      simp [Stmt.isConditional, Stmt.verdict, hv]
    | some t => cases h
  | _ => cases h

/-- An `if` statement stays, is folded, or lies in a dropped part. -/
theorem Seat.isConditional_cases (seat : Seat) :
    (if seat.stmt.isConditional then 1 else 0) =
      (if (seat.left g wholeChain).2.isConditional && seat.isLeft g wholeChain then 1 else 0) +
        (if (seat.record? g wholeChain locate).isSome then 1 else 0) +
        (if seat.isDropped g wholeChain && seat.stmt.isConditional then 1 else 0) := by
  rw [Seat.isSome_record?]
  cases hdropped : seat.isDropped g wholeChain with
  | true => simp [Seat.isLeft, hdropped]
  | false =>
    by_cases hc : seat.stmt.isRemoved || seat.stmt.isCleared g wholeChain seat.scope
    · have hleft : (seat.left g wholeChain).2.isConditional = false := by
        rw [Seat.left, Stmt.pruned_of_cleared g wholeChain hc]
        rfl
      simp [hleft, Stmt.isConditional_of_cleared g wholeChain hc]
    · have hisLeft : seat.isLeft g wholeChain =
          (seat.stmt.verdict g wholeChain seat.scope).isNone := by
        rw [Seat.isLeft, hdropped, if_neg hc]
        rfl
      cases hv : seat.stmt.verdict g wholeChain seat.scope with
      | none =>
        rw [hv] at hisLeft
        obtain ⟨hcleared, -⟩ | ⟨-, -, -, hkind, -⟩ := seat.left_cases g wholeChain hisLeft
        · exact absurd hcleared hc
        · simp [hisLeft, hkind]
      | some isTrue =>
        have hconditional : seat.stmt.isConditional :=
          Stmt.isConditional_of_verdict g wholeChain (by rw [hv]; rfl)
        simp [hisLeft, hv, hconditional]

theorem countP_left (seats : List Seat) :
    seats.countP (·.stmt.isConditional) =
      (leftOf g wholeChain seats).countP (·.2.isConditional) +
        (seats.filterMap (Seat.record? g wholeChain locate)).length +
        seats.countP (fun seat => seat.isDropped g wholeChain && seat.stmt.isConditional) := by
  rw [leftOf, List.countP_map, List.countP_filter, List.length_filterMap_eq_countP]
  induction seats with
  | nil => rfl
  | cons seat rest ih =>
    have hseat := seat.isConditional_cases g wholeChain locate
    simp only [List.countP_cons, Function.comp_apply] at ih ⊢
    omega

end Count

/-- The `if` statements of a program are those that are left, those that are folded and
those in dropped parts. -/
theorem Program.conditionals_pruned (wholeChain : Bool) (locate : Nat → Location) (p : Program) :
    p.statements.countP Stmt.isConditional =
      (p.pruned wholeChain).statements.countP Stmt.isConditional +
        (p.sites.filterMap (Site.record? (.ofProgram p) wholeChain locate)).length +
        p.seats.countP fun seat =>
          seat.isDropped (.ofProgram p) wholeChain && seat.stmt.isConditional := by
  have hleft : (p.pruned wholeChain).statements.countP Stmt.isConditional =
      (leftOf (.ofProgram p) wholeChain p.seats).countP (·.2.isConditional) := by
    rw [← p.left_seats, ← Program.seats_stmt, List.countP_map, List.countP_map]
    rfl
  rw [hleft, ← p.seats_sites, List.filterMap_filterMap, ← p.seats_stmt, List.countP_map]
  exact countP_left _ wholeChain locate p.seats

/-- **No fold means no change, and each fold shrinks the tree.** A run that folds
nothing leaves a program as it is, and only such a run does; what is left of a program
has fewer `if` statements than the program, by at least one for each fold. -/
theorem shrink_eq_self_iff (wholeChain : Bool) (locate : Nat → Location)
    (h : Unremoved p.statements) :
    let report := shrink wholeChain locate p
    (report.folds = [] ↔ report.program = p) ∧
      report.program.statements.countP Stmt.isConditional + report.folds.length ≤
        p.statements.countP Stmt.isConditional := by
  simp only [shrink_program, shrink_folds]
  have hcount := p.conditionals_pruned wholeChain locate
  refine ⟨⟨fun hfolds => ?_, fun hsame => ?_⟩, by omega⟩
  · have hundecided : p.outline.Undecided (.ofProgram p) wholeChain 0 :=
      (records_eq_nil_iff locate p.outline rfl).mp hfolds
    have hverdict := (p.undecided_iff_seats wholeChain).mp hundecided
    refine Program.pruned_of_settled fun seat hseat => ⟨fun hr => ?_, hverdict seat hseat⟩
    rw [Program.not_isRemoved_of_mem_seats h hseat] at hr
    cases hr
  · rw [hsame] at hcount
    exact List.eq_nil_of_length_eq_zero (by omega)

/-- Of three `if` statements two are folded and one is left. -/
theorem emptiedLoop_folds :
    let report := shrink false (fun n => ⟨"g.js", 1, n⟩) emptiedLoop
    Unremoved emptiedLoop.statements ∧ report.folds.length = 2 ∧
      emptiedLoop.statements.countP Stmt.isConditional = 3 ∧
      (report.folds = [] ↔ report.program = emptiedLoop) ∧
      report.program.statements.countP Stmt.isConditional + report.folds.length ≤
        emptiedLoop.statements.countP Stmt.isConditional :=
  ⟨by decide, by decide +kernel, by decide +kernel, shrink_eq_self_iff false _ (by decide)⟩

end DeadBranch
