/-
# Removing dead branches and assignments to members

An `if` statement may be decided by what a literal says of a member. That is right as
long as the member still holds it: if no member that a literal listed is given another
value under a key by which a test or the initial value of a constant reads, what `shrink`
leaves of an orderly program runs as the program does, with the same calls in the same
order and the same variables and objects at the end (`shrink_completes`). Other listed
members may be assigned to, and members may be added, by the program or by the functions
that it calls.

Without the condition it is wrong, since assignments to members are not looked at
(`exists_stale_member`).

Key theorems: `shrink_completes`, `exists_stale_member`.
-/
import DeadBranch.Proofs.Simulation

namespace DeadBranch

/-- **Removing dead branches keeps the meaning while listed members keep theirs.**
If an orderly program, whose `if` statements convert no misread text, runs to its
end and no listed member under a watched key is given another value, what is left
of it runs to its end too, with the same variables and objects at the end and the
same calls, and it has no other outcome. -/
theorem shrink_completes (wholeChain : Bool) (locate : Nat → Location)
    {watched : Segment → Bool} {p : Program}
    (horderly : (Fragment.orderly watched).admitsProgram p) (hnested : p.outline.isNested)
    (hclear : p.isClear wholeChain) {w : World} {globals : Layer} {heap : Heap}
    {changes : List Change} {done : List Action}
    (hrun : Completes w p globals heap changes done)
    (hharmless : ∀ c ∈ changes, c.IsHarmless watched) :
    Completes w (shrink wholeChain locate p).program globals heap changes done ∧
      ∀ globals' heap' changes' done',
        Completes w (shrink wholeChain locate p).program globals' heap' changes' done' →
          globals' = globals ∧ heap' = heap ∧ changes' = changes ∧ done' = done := by
  have hcompletes : Completes w (shrink wholeChain locate p).program globals heap changes done := by
    rw [shrink_program]
    exact hrun.pruned horderly hnested hclear hharmless
  exact ⟨hcompletes, fun _ _ _ _ => hcompletes.unique⟩

/-- The program `const a = { part: { off: false }, seen: false };`
`const p = a.part; a.seen = true; p.extra = a.seen; if (p.off) { f(p); } f(a.seen);`. -/
def sharedPart : Program := ⟨.script, none,
  [.stmt (.decl (.vars .constKind [.mk (.ident "a") (.object
      [.pair (.ident "part") (.object [.pair (.ident "off") (.literal (.bool false))]),
        .pair (.ident "seen") (.literal (.bool false))])])),
    .stmt (.decl (.vars .constKind [.mk (.ident "p") (.member (.ident "a") "part")])),
    .stmt (.expr (.assign none (.member (.ident "a") "seen") (.literal (.bool true)))),
    .stmt (.expr (.assign none (.member (.ident "p") "extra") (.member (.ident "a") "seen"))),
    .stmt (.ifElse ⟨101, 125⟩ (.member (.ident "p") "off")
      (.block (.mk ⟨112, 125⟩ [.expr (.other .call [.ident "f", .ident "p"])])) none),
    .stmt (.expr (.other .call [.ident "f", .member (.ident "a") "seen"]))]⟩

/-- In that program the member `off` is known through the alias `p`. Its `if`
statement goes, although `seen` is changed, first by the program and then by `f`,
and a member is added to the very object that is tested. -/
theorem sharedPart_completes :
    let w : World := ⟨fun _ => Host.bare [("f", .undefined)],
      fun _ _ => [⟨1, .name "seen", .plain (.bool false)⟩]⟩
    let watched : Segment → Bool := fun s => s == .name "part" || s == .name "off"
    let changes : List Change :=
      [⟨.name "seen", .plain (.bool false), .plain (.bool true)⟩,
        ⟨.name "seen", .plain (.bool true), .plain (.bool false)⟩]
    let calls : List Action := [⟨.call, [.plain .undefined, .plain (.bool true)]⟩]
    (Fragment.orderly watched).admitsProgram sharedPart = true ∧
      sharedPart.outline.isNested = true ∧ sharedPart.isClear true = true ∧
      (∀ c ∈ changes, c.IsHarmless watched) ∧
      (shrink true (fun _ => ⟨none, 1, 1⟩) sharedPart).folds.length = 1 ∧
      ∃ globals heap, Completes w sharedPart globals heap changes calls ∧
        Completes w (shrink true (fun _ => ⟨none, 1, 1⟩) sharedPart).program globals heap changes
          calls := by
  intro w watched changes calls
  have horderly : (Fragment.orderly watched).admitsProgram sharedPart = true := by decide +kernel
  have hnested : sharedPart.outline.isNested = true := by decide +kernel
  have hclear : sharedPart.isClear true = true := by decide +kernel
  have hharmless : ∀ c ∈ changes, c.IsHarmless watched := by
    simp [changes, watched, Change.IsHarmless]
  -- the objects at the end of each of the first four statements, and after the call
  let whole (changed : List (Segment × Datum)) : Nat × Obj :=
    (1, ⟨changed ++ [(.name "seen", .plain (.bool false)), (.name "part", .object 0)], []⟩)
  let part (added : List (Segment × Datum)) : Nat × Obj :=
    (0, ⟨[(.name "off", .plain (.bool false))], added⟩)
  let made : Heap := [whole [], part []]
  let seen : Heap := whole [(.name "seen", .plain (.bool true))] :: made
  let extended : Heap := part [(.name "extra", .plain (.bool true))] :: seen
  let heap : Heap := whole [(.name "seen", .plain (.bool false)),
    (.name "seen", .plain (.bool true))] :: extended
  let layer (p : Option Datum) : Layer := [⟨"a", true, some (.object 1)⟩, ⟨"p", true, p⟩]
  let globals : Layer := layer (some (.object 0))
  have hcall : Proceeds w (sharedPart.stmts.drop 4) ⟨[globals], extended, changes.take 1, []⟩
      ⟨[globals], heap, changes, calls⟩ :=
    .alternate (d := .plain (.bool false)) rfl rfl (.call (d := .plain .undefined) rfl rfl .finish)
  have hassign : Proceeds w (sharedPart.stmts.drop 2) ⟨[globals], made, [], []⟩
      ⟨[globals], heap, changes, calls⟩ := by
    have hseen : Process.assignMember w ⟨[globals], made, [], []⟩ (.object 1) (.name "seen")
        (.plain (.bool true)) = some ⟨[globals], seen, changes.take 1, []⟩ := rfl
    have hextra : Process.assignMember w ⟨[globals], seen, changes.take 1, []⟩ (.object 0)
        (.name "extra") (.plain (.bool true)) =
          some ⟨[globals], extended, changes.take 1, []⟩ := rfl
    exact .assignMember rfl rfl rfl hseen (.assignMember rfl rfl rfl hextra hcall)
  have hrun : Completes w sharedPart globals heap changes calls := by
    refine ⟨by decide +kernel, ?_⟩
    have hwhole : Expr.build w (.object
        [.pair (.ident "part") (.object [.pair (.ident "off") (.literal (.bool false))]),
          .pair (.ident "seen") (.literal (.bool false))])
        ⟨[hoisted sharedPart.stmts], [], [], []⟩ =
          some (.object 1, ⟨[hoisted sharedPart.stmts], made, [], []⟩) := rfl
    have hpart : Expr.build w (.member (.ident "a") "part") ⟨[layer none], made, [], []⟩ =
        some (.object 0, ⟨[layer none], made, [], []⟩) := rfl
    exact .declare hwhole rfl (.declared (.declare hpart rfl (.declared hassign)))
  exact ⟨horderly, hnested, hclear, hharmless, by decide +kernel, globals, heap, hrun,
    (shrink_completes true _ horderly hnested hclear hrun hharmless).1⟩

/-- The program `const a = { b: true }; a.b = false; if (a.b) { f(); }`. -/
def staleMember : Program := ⟨.script, none,
  [.stmt (.decl (.vars .constKind
      [.mk (.ident "a") (.object [.pair (.ident "b") (.literal (.bool true))])])),
    .stmt (.expr (.assign none (.member (.ident "a") "b") (.literal (.bool false)))),
    .stmt (.ifElse ⟨37, 58⟩ (.member (.ident "a") "b")
      (.block (.mk ⟨46, 58⟩ [.expr (.other .call [.ident "f"])])) none)]⟩

/-- What is left of an orderly program may make other calls: that a member was
assigned to is not noticed. -/
theorem exists_stale_member :
    ¬ ∀ (wholeChain : Bool) (locate : Nat → Location) (p : Program) (w : World) (globals : Layer)
      (heap : Heap) (changes : List Change) (done : List Action),
      (Fragment.orderly anyKey).admitsProgram p → p.outline.isNested → p.isClear wholeChain →
      Completes w p globals heap changes done →
      ∃ globals' heap' changes',
        Completes w (shrink wholeChain locate p).program globals' heap' changes' done := by
  intro h
  let w : World := ⟨fun _ => Host.bare [("f", .undefined)], fun _ _ => []⟩
  let locate : Nat → Location := fun _ => ⟨none, 1, 1⟩
  let call : Action := ⟨.call, [.plain .undefined]⟩
  let start : Process := ⟨[[⟨"a", true, none⟩]], [], [], []⟩
  let globals : Layer := [⟨"a", true, some (.object 0)⟩]
  let made : Heap := [(0, ⟨[(.name "b", .plain (.bool true))], []⟩)]
  let changed : Heap :=
    (0, ⟨[(.name "b", .plain (.bool false)), (.name "b", .plain (.bool true))], []⟩) :: made
  let changes : List Change := [⟨.name "b", .plain (.bool true), .plain (.bool false)⟩]
  have hbegin : ∀ {rest : List Stmt} {m' : Process},
      Proceeds w rest ⟨[globals], changed, changes, []⟩ m' →
      Proceeds w (staleMember.stmts.take 2 ++ rest) start m' := by
    intro rest m' hrest
    have hmade : Expr.build w (.object [.pair (.ident "b") (.literal (.bool true))]) start =
        some (.object 0, ⟨start.store, made, [], []⟩) := rfl
    have hchanged : Process.assignMember w ⟨[globals], made, [], []⟩ (.object 0) (.name "b")
        (.plain (.bool false)) = some ⟨[globals], changed, changes, []⟩ := rfl
    exact .declare hmade rfl (.declared (.assignMember rfl rfl rfl hchanged hrest))
  -- the program does not come to the call, what is left of it does
  have hrun : Completes w staleMember globals changed changes [] :=
    ⟨by decide +kernel, hbegin (.alternate (d := .plain (.bool false)) rfl rfl .finish)⟩
  have hstmts : (staleMember.pruned false).stmts =
      staleMember.stmts.take 2 ++ [.block (.mk ⟨46, 58⟩ [.expr (.other .call [.ident "f"])])] := by
    have hverdict : (ScopeGraph.ofProgram staleMember).verdict false 0 ⟨37, 58⟩
        (.member (.ident "a") "b") = some true := by decide +kernel
    unfold Program.pruned
    generalize ScopeGraph.ofProgram staleMember = g at hverdict ⊢
    simp [hverdict, Program.stmts, staleMember, itemsPruned, Item.pruned, Stmt.pruned,
      Decl.pruned, declaratorsPruned, Declarator.pruned, Expr.pruned, propertiesPruned,
      Property.pruned, Key.pruned, Block.pruned, stmtsPruned, exprsPruned]
  have hleft : Proceeds w (staleMember.pruned false).stmts start
      ⟨[globals], changed, changes, [call]⟩ := by
    have hinside : Proceeds w [.expr (.other .call [.ident "f"])]
        ⟨[[], globals], changed, changes, []⟩ ⟨[[], globals], changed, changes, [call]⟩ :=
      .call (d := .plain .undefined) rfl rfl .finish
    rw [hstmts]
    exact hbegin (.block (by decide +kernel) hinside rfl .finish)
  obtain ⟨globals', heap', changes', hother⟩ :=
    h false locate staleMember w globals changed changes [] (by decide +kernel) (by decide +kernel)
      (by decide +kernel) hrun
  rw [shrink_program, Completes, hstmts] at hother
  rw [hstmts] at hleft
  have hsame : [call] = [] := congrArg Process.done (hleft.unique hother.2)
  exact List.cons_ne_nil _ _ hsame

end DeadBranch
