/-
# Removing dead branches keeps the meaning

A simple program is built from blocks, `const` and `let` declarations of plain names,
assignments to names, calls of functions by their name, `while` loops and `if`
statements, and its expressions are primitive; `undefined`, `NaN` and `Infinity` are not
declared. If a simple program runs to its end without an error, and its `if` statements
convert no misread text, so does what `shrink` leaves of it, with the same calls in the
same order and the same variables at the end (`shrink_finishes`). Simple programs are
orderly ones that have no members to change.

The condition on texts is needed: a test that compares one which is read as another
number than it converts to may be decided the wrong way (`exists_misread_test`).

Key definitions: `Fragment.simple`.
Key theorems: `Fragment.simple_below_orderly`, `shrink_finishes`, `exists_misread_test`.
-/
import DeadBranch.Proofs.Simulation

namespace DeadBranch

/-! ### Simple programs -/

/-- Is it a primitive expression, if anything? -/
def Expr.isInitial : Expr → Bool
  | .absent => true
  | e => e.isPrimitive

/-- Does an expression assign to a name or call a function by its name? -/
def Expr.isAction : Expr → Bool
  | .assign _ (.ident _) value => value.isPrimitive
  | .other .call (.ident _ :: args) => args.all Expr.isPrimitive
  | _ => false

section Inclusion

variable (allowed : Segment → Bool)

theorem Expr.isValue_of_isPrimitive : ∀ {e : Expr}, e.isPrimitive → e.isValue allowed
  | .paren inner, hp => by
    simp only [Expr.isPrimitive] at hp
    simp only [Expr.isValue]
    exact Expr.isValue_of_isPrimitive hp
  | .literal _, hp | .ident _, hp | .unary _ _, hp | .binary _ _ _, hp | .cond _ _ _, hp => by
    simp only [Expr.isValue]
    exact Expr.isReading_of_isPrimitive allowed hp

theorem Expr.isValue_of_isInitial {e : Expr} (hi : e.isInitial) : e.isValue allowed := by
  unfold Expr.isInitial at hi
  split at hi
  · simp [Expr.isValue]
  · exact Expr.isValue_of_isPrimitive allowed hi

theorem Expr.isDeed_of_isAction {e : Expr} (ha : e.isAction) : e.isDeed := by
  unfold Expr.isAction at ha
  split at ha
  · rename_i op name value
    cases op with
    | none => exact Expr.isValue_of_isPrimitive anyKey ha
    | some op => exact Expr.isReading_of_isPrimitive anyKey ha
  · simp only [Expr.isDeed, List.all_eq_true] at ha ⊢
    exact fun arg harg => Expr.isReading_of_isPrimitive anyKey (ha arg harg)
  · cases ha

end Inclusion

/-- Simple programs as a fragment. -/
def Fragment.simple : Fragment where
  test := Expr.isPrimitive
  guard := Expr.isPrimitive
  action := Expr.isAction
  init := fun _ => Expr.isInitial
  blank_test := fun h => Expr.blank_of_isReading (Expr.isReading_of_isPrimitive anyKey h)
  blank_guard := fun h => Expr.blank_of_isReading (Expr.isReading_of_isPrimitive anyKey h)
  blank_action := fun h => Expr.blank_of_isDeed (Expr.isDeed_of_isAction h)
  blank_init := fun h => Expr.blank_of_isValue (Expr.isValue_of_isInitial anyKey h)

/-- Simple programs are orderly, whichever keys are watched. -/
theorem Fragment.simple_below_orderly (watched : Segment → Bool) :
    Fragment.simple.Below (.orderly watched) where
  test := Expr.isReading_of_isPrimitive watched
  guard := Expr.isReading_of_isPrimitive anyKey
  action := Expr.isDeed_of_isAction
  init := Expr.isValue_of_isInitial _

/-! ### Whole programs -/

/-- **Removing dead branches keeps the meaning.** If a simple program, whose `if`
statements convert no misread text, runs to its end, so does what is left of it,
with the same variables at the end and the same calls, and it has no other
outcome. -/
theorem shrink_finishes (wholeChain : Bool) (locate : Nat → Location) {p : Program}
    (hsimple : Fragment.simple.admitsProgram p) (hnested : p.outline.isNested)
    (hclear : p.isClear wholeChain) {h : Host} {globals : Layer} {done : List Action}
    (hrun : Finishes h p globals done) :
    Finishes h (shrink wholeChain locate p).program globals done ∧
      ∀ globals' done', Finishes h (shrink wholeChain locate p).program globals' done' →
        globals' = globals ∧ done' = done := by
  have horderly := (Fragment.simple_below_orderly anyKey).admitsProgram hsimple
  have hfinishes : Finishes h (shrink wholeChain locate p).program globals done := by
    rw [shrink_program]
    exact Completes.pruned horderly hnested hclear hrun (by simp)
  refine ⟨hfinishes, fun globals' done' hother => ?_⟩
  obtain ⟨hglobals, -, -, hdone⟩ := Completes.unique hfinishes hother
  exact ⟨hglobals, hdone⟩

/-- The body of the loop in `stoppedLoop`. -/
def stoppedLoopBody : List Stmt :=
  [.decl (.vars .constKind [.mk (.ident "off") (.unary .not (.ident "on"))]),
    .ifElse ⟨66, 128⟩ (.ident "off")
      (.block (.mk ⟨75, 98⟩ [.expr (.other .call [.ident "f", .ident "off"])]))
      (some (.block (.mk ⟨104, 128⟩ [.expr (.assign none (.ident "n") (.ident "off"))])))]

/-- The program `const on = true; let n = on; while (n) { … } f(n);` where the body
of the loop makes a constant `off` of `!on` and then, if `off` is true, calls
`f(off)`, and otherwise assigns `off` to `n`. -/
def stoppedLoop : Program := ⟨.script, none,
  [.stmt (.decl (.vars .constKind [.mk (.ident "on") (.literal (.bool true))])),
    .stmt (.decl (.vars .letKind [.mk (.ident "n") (.ident "on")])),
    .stmt (.whileLoop (.ident "n") (.block (.mk ⟨39, 130⟩ stoppedLoopBody))),
    .stmt (.expr (.other .call [.ident "f", .ident "n"]))]⟩

/-- Without its `if` statement that program still stops the loop and makes the one
call `f(false)`. -/
theorem stoppedLoop_finishes :
    let h := Host.bare [("f", .undefined)]
    let globals : Layer := [⟨"on", true, some (.plain (.bool true))⟩,
      ⟨"n", false, some (.plain (.bool false))⟩]
    let calls : List Action := [⟨.call, [.plain .undefined, .plain (.bool false)]⟩]
    Fragment.simple.admitsProgram stoppedLoop = true ∧ stoppedLoop.outline.isNested = true ∧
      stoppedLoop.isClear true = true ∧ Finishes h stoppedLoop globals calls ∧
      (shrink true (fun _ => ⟨none, 1, 1⟩) stoppedLoop).folds.length = 1 ∧
      Finishes h (shrink true (fun _ => ⟨none, 1, 1⟩) stoppedLoop).program globals calls := by
  intro h globals calls
  have hsimple : Fragment.simple.admitsProgram stoppedLoop = true := by decide +kernel
  have hnested : stoppedLoop.outline.isNested = true := by decide +kernel
  have hclear : stoppedLoop.isClear true = true := by decide +kernel
  -- the variables while the loop runs, by the values of `off` and `n`
  let inside (off : Option Datum) (n : Bool) : Store := [[⟨"off", true, off⟩],
    [⟨"on", true, some (.plain (.bool true))⟩, ⟨"n", false, some (.plain (.bool n))⟩]]
  let w : World := ⟨fun _ => h, fun _ _ => []⟩
  have hassign : Proceeds w [.expr (.assign none (.ident "n") (.ident "off"))]
      ⟨[] :: inside (some (.plain (.bool false))) true, [], [], []⟩
      ⟨[] :: inside (some (.plain (.bool false))) false, [], [], []⟩ :=
    .assign (d := .plain (.bool false)) rfl rfl rfl rfl .finish
  have hbody : Proceeds w stoppedLoopBody ⟨inside none true, [], [], []⟩
      ⟨inside (some (.plain (.bool false))) false, [], [], []⟩ := by
    refine .declare (d := .plain (.bool false)) rfl rfl (.declared ?_)
    refine .alternate (d := .plain (.bool false)) rfl rfl ?_
    exact .block (by decide +kernel) hassign rfl .finish
  have hrun : Finishes h stoppedLoop globals calls := by
    refine ⟨by decide +kernel, ?_⟩
    refine .declare (d := .plain (.bool true)) rfl rfl (.declared ?_)
    refine .declare (d := .plain (.bool true)) rfl rfl (.declared ?_)
    refine .loop (d := .plain (.bool true)) rfl rfl ?_
    refine .block (by decide +kernel) hbody rfl ?_
    refine .exit (d := .plain (.bool false)) rfl rfl ?_
    exact .call (d := .plain .undefined) rfl rfl .finish
  exact ⟨hsimple, hnested, hclear, hrun, by decide +kernel,
    (shrink_finishes true _ hsimple hnested hclear hrun).1⟩

/-- The program `if ("12\u0085" == 12) { a(); } else { b(); }`. -/
def misreadBranch : Program := ⟨.script, none,
  [.stmt (.ifElse ⟨0, 44⟩ misreadTest
    (.block (.mk ⟨22, 30⟩ [.expr (.other .call [.ident "a"])]))
    (some (.block (.mk ⟨36, 44⟩ [.expr (.other .call [.ident "b"])]))))]⟩

theorem misreadTest_exec (h : Host) (done : List Action) :
    misreadTest.exec h done = (some (.plain (.bool false)), done) := by
  have hvalue : BinaryOp.looseEq.value (.string "12\u0085") (.number (.ofNat 12)) =
      some (.bool false) := by decide +kernel
  change ((BinaryOp.looseEq.value (.string "12\u0085") (.number (.ofNat 12))).map Datum.plain,
    done) = _
  rw [hvalue]
  rfl

/-- What is left of a simple program may make other calls: its test is decided by a
text that is read as another number than it converts to. -/
theorem exists_misread_test :
    ¬ ∀ (wholeChain : Bool) (locate : Nat → Location) (p : Program) (h : Host) (globals : Layer)
      (done : List Action), Fragment.simple.admitsProgram p → p.outline.isNested →
      Finishes h p globals done →
      ∃ globals', Finishes h (shrink wholeChain locate p).program globals' done := by
  intro hall
  let h := Host.bare [("a", .string "a"), ("b", .string "b")]
  let w : World := ⟨fun _ => h, fun _ _ => []⟩
  let locate : Nat → Location := fun _ => ⟨none, 1, 1⟩
  let call (name : String) : Action := ⟨.call, [.plain (.string name)]⟩
  have hblock : ∀ span, ∀ name ∈ ["a", "b"],
      Proceeds w [.block (.mk span [.expr (.other .call [.ident name])])] ⟨[[]], [], [], []⟩
        ⟨[[]], [], [], [call name]⟩ := by
    intro span name hname
    simp only [List.mem_cons, List.not_mem_nil, or_false] at hname
    rcases hname with rfl | rfl
    · exact .block (by decide +kernel) (.call (d := .plain .undefined) rfl rfl .finish) rfl .finish
    · exact .block (by decide +kernel) (.call (d := .plain .undefined) rfl rfl .finish) rfl .finish
  -- the program calls `b`, what is left of it calls `a`
  have hrun : Finishes h misreadBranch [] [call "b"] :=
    ⟨by decide +kernel, .alternate (misreadTest_exec _ _) rfl (hblock ⟨36, 44⟩ "b" (by simp))⟩
  have hstmts : (misreadBranch.pruned false).stmts =
      [.block (.mk ⟨22, 30⟩ [.expr (.other .call [.ident "a"])])] := by
    have hverdict : (ScopeGraph.ofProgram misreadBranch).verdict false 0 ⟨0, 44⟩ misreadTest =
        some true := by decide +kernel
    unfold Program.pruned
    generalize ScopeGraph.ofProgram misreadBranch = g at hverdict ⊢
    simp [hverdict, Program.stmts, misreadBranch, itemsPruned, Item.pruned, Stmt.pruned,
      Expr.pruned, Block.pruned, stmtsPruned, exprsPruned]
  obtain ⟨globals, hother⟩ := hall false locate misreadBranch h [] [call "b"] (by decide +kernel)
    (by decide +kernel) hrun
  rw [shrink_program, Finishes, Completes, hstmts] at hother
  have hsame : [call "a"] = [call "b"] :=
    congrArg Process.done ((hblock ⟨22, 30⟩ "a" (by simp)).unique hother.2)
  simp [call] at hsame

end DeadBranch
