/-
# Running what is left

Orderly programs are built from blocks, `const` and `let` declarations, assignments to
variables and members, calls of functions by their names, `while` loops and `if`
statements. They make objects by literals with distinct keys that are written out, and
read members by such keys. In tests and in the initial values of constants, members may
only be read under watched keys.

As long as no member that a literal listed is given another value under a watched key
and no misread text is converted at an `if` statement, what is left of an orderly program
runs as the program does (`Completes.pruned`). The proof follows the run. At each point
the text of the program says which bindings are visible at the `if` statements that are
still to be run, and that they are those of the open blocks in the store
(`Fragment.Placed`); so what is known there is true (`Sound.known`), and a test that is
dropped would have gone the same way.

That the ranges of the statements are nested as in a text is needed: visibility is a
matter of ranges.

Key definitions: `Expr.isDeed`, `Fragment.orderly`.
Key theorems: `Proceeds.pruned`, `Completes.pruned`.
-/
import DeadBranch.Proofs.Fragments
import DeadBranch.Proofs.Shown

namespace DeadBranch

/-! ### Orderly programs -/

/-- Any key. -/
def anyKey (_ : Segment) : Bool := true

/-- Does an expression assign to a name or to a member, or call a function by its
name? -/
def Expr.isDeed : Expr → Bool
  | .assign none (.ident _) value => value.isValue anyKey
  | .assign (some _) (.ident _) value => value.isReading anyKey
  | .assign none target value =>
    target.isChain anyKey && target.place?.any (·.2 != .name "__proto__") && value.isValue anyKey
  | .other .call (.ident _ :: args) => args.all (Expr.isReading anyKey)
  | _ => false

section Blank

variable {allowed : Segment → Bool}

theorem Expr.blank_of_isChain {e : Expr} (hchain : e.isChain allowed) : e.IsBlank := by
  induction e, hchain using Expr.isChain_induction with
  | ident => exact ⟨by simp [Expr.outline], by simp [Expr.pruned]⟩
  | member _ _ _ _ ih | index _ _ _ _ ih | paren _ _ ih =>
    exact ⟨by simp [Expr.outline, ih.outline], by simp [Expr.pruned, ih.pruned]⟩

/-- A walk meets nothing in an expression that reads and leaves it as it is. -/
theorem Expr.blank_of_isReading : ∀ {e : Expr}, e.isReading allowed → e.IsBlank
  | .literal _, _ => ⟨by simp [Expr.outline], by simp [Expr.pruned]⟩
  | .ident _, hr | .member _ _, hr | .index _ _, hr => by
    simp only [Expr.isReading] at hr
    exact Expr.blank_of_isChain hr
  | .paren inner, hr => by
    simp only [Expr.isReading] at hr
    obtain ⟨h1, h2⟩ := Expr.blank_of_isReading hr
    exact ⟨by simp [Expr.outline, h1], by simp [Expr.pruned, h2]⟩
  | .unary op operand, hr => by
    simp only [Expr.isReading] at hr
    have hblank : operand.IsBlank := by
      split at hr
      · exact Expr.blank_of_isReading (Expr.isReading_of_isPrimitive allowed hr)
      · exact Expr.blank_of_isReading hr
    exact ⟨by simp [Expr.outline, hblank.outline], by simp [Expr.pruned, hblank.pruned]⟩
  | .binary op left right, hr => by
    simp only [Expr.isReading, Bool.and_eq_true] at hr
    obtain ⟨h1, h2⟩ := Expr.blank_of_isReading hr.1
    obtain ⟨h3, h4⟩ := Expr.blank_of_isReading hr.2
    exact ⟨by simp [Expr.outline, h1, h3], by simp [Expr.pruned, h2, h4]⟩
  | .cond test consequent alternate, hr => by
    simp only [Expr.isReading, Bool.and_eq_true] at hr
    obtain ⟨h1, h2⟩ := Expr.blank_of_isReading hr.1.1
    obtain ⟨h3, h4⟩ := Expr.blank_of_isReading hr.1.2
    obtain ⟨h5, h6⟩ := Expr.blank_of_isReading hr.2
    exact ⟨by simp [Expr.outline, h1, h3, h5], by simp [Expr.pruned, h2, h4, h6]⟩
  | .absent, hr | .assign _ _ _, hr | .array _, hr | .object _, hr | .spread _, hr
  | .arrayPattern _, hr | .objectPattern _, hr | .withDefault _ _, hr | .closure _, hr
  | .classExpr _ _ _, hr | .other _ _, hr => by simp [Expr.isReading, Expr.isChain] at hr

theorem Key.blank_of_static? {key : Key} (h : key.static?.isSome) : key.outline = .blank ∧
    ∀ g wholeChain scope, key.pruned g wholeChain scope = key := by
  cases key <;> simp_all [Key.static?, Key.outline, Key.pruned]

mutual

theorem Expr.blank_of_isValue : ∀ {e : Expr}, e.isValue allowed → e.IsBlank
  | .absent, _ => ⟨by simp [Expr.outline], by simp [Expr.pruned]⟩
  | .object ps, hv => by
    simp only [Expr.isValue, Bool.and_eq_true] at hv
    obtain ⟨h1, h2⟩ := properties_blank_of_isValue hv.1
    exact ⟨by simp [Expr.outline, h1], by simp [Expr.pruned, h2]⟩
  | .paren inner, hv => by
    simp only [Expr.isValue] at hv
    obtain ⟨h1, h2⟩ := Expr.blank_of_isValue hv
    exact ⟨by simp [Expr.outline, h1], by simp [Expr.pruned, h2]⟩
  | .literal _, hv | .ident _, hv | .unary _ _, hv | .binary _ _ _, hv | .cond _ _ _, hv
  | .member _ _, hv | .index _ _, hv => by
    simp only [Expr.isValue] at hv
    exact Expr.blank_of_isReading hv
  | .assign _ _ _, hv | .array _, hv | .spread _, hv | .arrayPattern _, hv | .objectPattern _, hv
  | .withDefault _ _, hv | .closure _, hv | .classExpr _ _ _, hv | .other _ _, hv => by
    simp [Expr.isValue, Expr.isReading, Expr.isChain] at hv

theorem properties_blank_of_isValue : ∀ {ps : List Property}, propertiesValue allowed ps →
    propertiesOutline ps = .blank ∧
      ∀ g wholeChain scope, propertiesPruned g wholeChain scope ps = ps
  | [], _ => by simp [propertiesOutline, propertiesPruned]
  | .pair key value :: rest, hv => by
    simp only [propertiesValue, Bool.and_eq_true] at hv
    obtain ⟨h1, h2⟩ := Key.blank_of_static? hv.1.1
    obtain ⟨h3, h4⟩ := Expr.blank_of_isValue hv.1.2
    obtain ⟨h5, h6⟩ := properties_blank_of_isValue hv.2
    simp [propertiesOutline, propertiesPruned, Property.outline, Property.pruned, h1, h2, h3, h4,
      h5, h6]
  | .shorthand name e :: rest, hv => by
    cases e with
    | absent =>
      simp only [propertiesValue] at hv
      obtain ⟨h1, h2⟩ := properties_blank_of_isValue hv
      simp [propertiesOutline, propertiesPruned, Property.outline, Property.pruned, Expr.outline,
        Expr.pruned, h1, h2]
    | _ => simp [propertiesValue] at hv
  | .spread _ :: _, hv | .method _ _ _ _ :: _, hv | .field _ _ _ :: _, hv
  | .staticBlock _ :: _, hv | .empty :: _, hv => by simp [propertiesValue] at hv

end

theorem exprs_blank_of_isReading : ∀ {es : List Expr}, es.all (Expr.isReading allowed) →
    exprsOutline es = .blank ∧ ∀ g wholeChain scope, exprsPruned g wholeChain scope es = es
  | [], _ => by simp [exprsOutline, exprsPruned]
  | e :: rest, hr => by
    simp only [List.all_cons, Bool.and_eq_true] at hr
    obtain ⟨h1, h2⟩ := Expr.blank_of_isReading hr.1
    obtain ⟨h3, h4⟩ := exprs_blank_of_isReading hr.2
    simp [exprsOutline, exprsPruned, h1, h2, h3, h4]

theorem Expr.blank_of_isDeed {e : Expr} (hd : e.isDeed) : e.IsBlank := by
  have hassign : ∀ {op target value}, Expr.IsBlank target → Expr.IsBlank value →
      (Expr.assign op target value).IsBlank := by
    intro op target value htarget hvalue
    exact ⟨by simp [Expr.outline, htarget.outline, hvalue.outline],
      by simp [Expr.pruned, htarget.pruned, hvalue.pruned]⟩
  have hname : ∀ {name}, (Expr.ident name).IsBlank :=
    ⟨by simp [Expr.outline], by simp [Expr.pruned]⟩
  unfold Expr.isDeed at hd
  split at hd
  · exact hassign hname (Expr.blank_of_isValue hd)
  · exact hassign hname (Expr.blank_of_isReading hd)
  · simp only [Bool.and_eq_true] at hd
    exact hassign (Expr.blank_of_isChain hd.1.1) (Expr.blank_of_isValue hd.2)
  · obtain ⟨h1, h2⟩ := exprs_blank_of_isReading hd
    exact ⟨by simp [Expr.outline, exprsOutline, h1], by simp [Expr.pruned, exprsPruned, h2]⟩
  · cases hd

end Blank

/-- Orderly programs whose tests and constants read under watched keys. -/
def Fragment.orderly (watched : Segment → Bool) : Fragment where
  test := Expr.isReading watched
  guard := Expr.isReading anyKey
  action := Expr.isDeed
  init := fun kind => Expr.isValue (if kind = .constKind then watched else anyKey)
  blank_test := Expr.blank_of_isReading
  blank_guard := Expr.blank_of_isReading
  blank_action := Expr.blank_of_isDeed
  blank_init := Expr.blank_of_isValue

/-! ### Runs of what is left -/

theorem Proceeds.getD_removed {w : World} {s : Option Stmt} {rest : List Stmt} {m m' : Process}
    (hrun : Proceeds w (s.toList ++ rest) m m') : Proceeds w (s.getD .removed :: rest) m m' := by
  cases s with
  | none => exact .removed hrun
  | some s => exact hrun

theorem Fragment.Binds.isConstant {F : Fragment} {b : Binding} (hb : F.Binds b) :
    b.IsConstant := by
  intro d hd
  obtain ⟨hkind, init, heq, -⟩ := hb.constant d hd
  exact ⟨hkind, init, heq⟩

section Simulation

variable {w : World} {watched : Segment → Bool} {g : ScopeGraph} {wholeChain : Bool}
  {total : List Binding}
  (hknown : ∀ position, g.known wholeChain 0 position =
    knownAmong wholeChain [total.filter (·.visibleAt position)])

/-- The world assigns to members, harmlessly. -/
theorem Sound.react {blocks : List OpenBlock} {m : Process}
    (hsound : Sound watched blocks m.store m.heap)
    (hharmless : ∀ c ∈ (Process.react w m).changes, c.IsHarmless watched) :
    Sound watched blocks (Process.react w m).store (Process.react w m).heap := by
  have hstore : (Process.react w m).store = m.store := (Process.foldl_write _ m).1
  rw [hstore]
  exact hsound.keeps (Process.foldl_write_keeps m.store.data _ _ hharmless)

include hknown

/-- A test with a verdict does nothing and goes the way of the verdict. -/
theorem Sound.verdict {m : Process} {block : Option Span} {outer : List OpenBlock}
    {bound pending : List Binding} {span : Span} {test : Expr} {consequent : Stmt}
    {alternate : Option Stmt} {rest : List Stmt}
    (hplaced : (Fragment.orderly watched).Placed wholeChain total block outer bound pending
      (.ifElse span test consequent alternate :: rest))
    (hsound : Sound watched (⟨bound, pending⟩ :: outer) m.store m.heap) {d : Datum}
    {done : List Action} (he : m.Evaluates w test d done) {verdict : Bool}
    (hverdict : g.verdict wholeChain 0 span test = some verdict) :
    done = m.done ∧ d.truthy (w.over m.store m.heap) = verdict := by
  obtain ⟨hreading, hclear, htest, v, hv, rfl⟩ := hplaced.evaluate_of_verdict hknown hverdict
  have hwithin := isClear_within _ hreading hv htest
  rw [← evaluate_within _ hreading] at hv
  obtain ⟨hdone, hmatches⟩ := exec_evaluate
    ((hsound.known hclear).agrees hsound.isOrdinary w m.done) test hv
    (Expr.isInert_of_isReading _ false hreading) hwithin
  unfold Process.Evaluates at he
  rw [he] at hdone hmatches
  exact ⟨hdone, (hmatches d rfl).truthy _⟩

/-- **What is left of the statements runs as they do**, as long as the changes are
harmless, and at their end all bindings of the block have run. -/
theorem Proceeds.pruned {ss : List Stmt} {m m' : Process} (hrun : Proceeds w ss m m') :
    ∀ {block : Option Span} {outer : List OpenBlock} {done pending : List Binding},
      (Fragment.orderly watched).Placed wholeChain total block outer done pending ss →
      Sound watched (⟨done, pending⟩ :: outer) m.store m.heap →
      (∀ c ∈ m'.changes, c.IsHarmless watched) →
      Proceeds w (stmtsPruned g wholeChain 0 ss) m m' ∧
        Sound watched (⟨done ++ pending, []⟩ :: outer) m'.store m'.heap := by
  induction hrun with
  | finish =>
    intro block outer done pending hplaced hsound hharmless
    cases hplaced
    simp only [stmtsPruned, List.append_nil]
    exact ⟨.finish, hsound⟩
  | empty hrest ih =>
    intro block outer done pending hplaced hsound hharmless
    obtain ⟨hleft, hend⟩ := ih (hplaced.next rfl).2 hsound hharmless
    exact ⟨.empty hleft, hend⟩
  | removed hrest ih =>
    intro block outer done pending hplaced hsound hharmless
    exact ih (hplaced.next rfl).2 hsound hharmless
  | @call f args rest m m' d after hexternal he hrest ih =>
    intro block outer done pending hplaced hsound hharmless
    obtain ⟨hs, hplaced⟩ := hplaced.next rfl
    have hlater := hrest.changes_subset
    have hreact : Sound watched (⟨done, pending⟩ :: outer)
        (Process.react w { m with done := after }).store
        (Process.react w { m with done := after }).heap :=
      Sound.react hsound fun c hc => hharmless c (hlater hc)
    obtain ⟨hleft, hend⟩ := ih hplaced hreact hharmless
    rw [Fragment.stmtsPruned_expr hs]
    exact ⟨.call hexternal he hleft, hend⟩
  | @assign op name value rest m m₁ m' c d hcell hlet hready hvalue hrest ih =>
    intro block outer done pending hplaced hsound hharmless
    obtain ⟨hs, hplaced⟩ := hplaced.next rfl
    have hextends : m.Extends watched m₁ := Expr.build_extends hvalue
    have hassigned := (hsound.keeps hextends.heap).assign d hcell hlet hready
    obtain ⟨hleft, hend⟩ := ih hplaced (hextends.store ▸ hassigned) hharmless
    rw [Fragment.stmtsPruned_expr hs]
    exact ⟨.assign hcell hlet hready hvalue hleft, hend⟩
  | @assignMember target value object s rest m m₁ m₂ m' d d' after htarget hobject hvalue hassign
      hrest ih =>
    intro block outer done pending hplaced hsound hharmless
    obtain ⟨hs, hplaced⟩ := hplaced.next rfl
    have hextends : Process.Extends watched { m with done := after } m₁ :=
      Expr.build_extends hvalue
    have hlater := hrest.changes_subset
    have hkeeps := Process.assignMember_keeps m₁.store.data hassign
      fun c hc => hharmless c (hlater hc)
    have hbuilt : Sound watched (⟨done, pending⟩ :: outer) m₁.store m₁.heap :=
      hextends.store ▸ hsound.keeps hextends.heap
    have hstore := (Process.assignMember_frame hassign).1
    obtain ⟨hleft, hend⟩ := ih hplaced (hstore ▸ hbuilt.keeps hkeeps) hharmless
    rw [Fragment.stmtsPruned_expr hs]
    exact ⟨.assignMember htarget hobject hvalue hassign hleft, hend⟩
  | declared hrest ih =>
    intro block outer done pending hplaced hsound hharmless
    cases hplaced with
    | stmt hs => simp [Fragment.admits] at hs
    | decl hkind hds hplaced =>
      simp only [List.flatMap_nil, List.append_nil, List.nil_append] at hplaced hsound ⊢
      obtain ⟨hleft, hend⟩ := ih hplaced hsound hharmless
      exact ⟨.declared hleft, hend⟩
  | @declare kind name init ds rest layer store m m₁ m' d hvalue hstore hrest ih =>
    intro block outer done pending hplaced hsound hharmless
    cases hplaced with
    | stmt hs => simp [Fragment.admits] at hs
    | @decl _ pending _ _ _ hkind hds hplaced =>
      have hpruned := (Fragment.blank_declarators hds).2 g wholeChain 0
      simp only [List.all_cons, Bool.and_eq_true] at hds
      obtain ⟨name', init', b, heq, hinit, hb, rfl, hbinds, -, hdeclarator⟩ :=
        Fragment.bindings_of_admits block hkind hds.1
      obtain ⟨htarget, rfl⟩ := Declarator.mk.inj heq
      obtain rfl := Expr.ident.inj htarget
      simp only [List.flatMap_cons, hb, List.cons_append, List.nil_append] at hplaced hsound ⊢
      have hextends : m.Extends watched m₁ := Expr.build_extends hvalue
      have hbuilt := hsound.keeps hextends.heap
      rw [← hextends.store, hstore] at hbuilt
      -- the initial value was executed while the constant had no value
      have hstated : ∀ target init', b.declarator = some (.mk target init') →
          Stated watched m₁.heap (layer :: store) b.name init' d := by
        intro target init' hinit'
        obtain ⟨rfl, rfl⟩ := hdeclarator target init' hinit'
        have hawaits := hsound.awaits (hbinds.constant _ hinit').1
        rw [← hstore, hextends.store]
        exact stated_of_build hinit hvalue hsound.isOrdinary hawaits
      rw [List.append_cons] at hplaced
      obtain ⟨hleft, hend⟩ := ih (.decl hkind hds.2 hplaced) (hbuilt.declare hstated) hharmless
      simp only [stmtsPruned, Stmt.pruned, Decl.pruned, hpruned,
        (Fragment.blank_declarators hds.2).2] at hleft ⊢
      exact ⟨.declare hvalue hstore hleft, by simpa using hend⟩
  | @block span stmts rest m m₁ m' layer store hnames hinside hstore hrest ihinside ih =>
    intro block outer done pending hplaced hsound hharmless
    obtain ⟨hs, hbegin⟩ := hplaced.inside
    obtain ⟨hhoisted, hbinds⟩ := Fragment.hoisted_of_admits (some span) hs
    have hdistinct : (((stmtsOutline stmts).direct (some span)).map (·.name)).Nodup := by
      simpa [hhoisted, Binding.cell, Function.comp_def] using hnames
    have henter := hsound.enter (fun b hb => (hbinds b hb).ordinary)
      (fun b hb => (hbinds b hb).isConstant) hdistinct
    rw [← hhoisted] at henter
    have hlater := hrest.changes_subset
    obtain ⟨hleft, hend⟩ := ihinside hbegin henter fun c hc => hharmless c (hlater hc)
    rw [hstore] at hend
    obtain ⟨hbehind, hend'⟩ := ih (hplaced.next rfl).2 hend.leave hharmless
    have hsame : hoisted (stmtsPruned g wholeChain 0 stmts) = hoisted stmts :=
      Fragment.hoisted_pruned_of_admits hs
    rw [← hsame] at hnames hleft
    exact ⟨.block hnames hleft hstore hbehind, hend'⟩
  | @consequent span test consequent alternate rest m m' d after he htrue hrest ih =>
    intro block outer done pending hplaced hsound hharmless
    obtain ⟨hleft, hend⟩ := ih hplaced.consequent hsound hharmless
    refine ⟨?_, hend⟩
    simp only [stmtsPruned, Stmt.pruned] at hleft ⊢
    cases hverdict : g.verdict wholeChain 0 span test with
    | none =>
      simp only [(Fragment.blank_test _ hplaced.at_choice.1).pruned]
      exact .consequent he htrue hleft.getD_removed
    | some verdict =>
      obtain ⟨rfl, hsame⟩ := Sound.verdict hknown hplaced hsound he hverdict
      obtain rfl : verdict = true := hsame.symm.trans htrue
      exact hleft
  | @alternate span test consequent alternate rest m m' d after he hfalse hrest ih =>
    intro block outer done pending hplaced hsound hharmless
    obtain ⟨hleft, hend⟩ := ih hplaced.alternate hsound hharmless
    refine ⟨?_, hend⟩
    rw [stmtsPruned_alternate] at hleft
    simp only [stmtsPruned, Stmt.pruned]
    cases hverdict : g.verdict wholeChain 0 span test with
    | none =>
      simp only [(Fragment.blank_test _ hplaced.at_choice.1).pruned]
      exact .alternate he hfalse hleft
    | some verdict =>
      obtain ⟨rfl, hsame⟩ := Sound.verdict hknown hplaced hsound he hverdict
      obtain rfl : verdict = false := hsame.symm.trans hfalse
      exact hleft
  | loop he htrue hrest ih =>
    intro block outer done pending hplaced hsound hharmless
    obtain ⟨hleft, hend⟩ := ih hplaced.loop hsound hharmless
    have hs := (hplaced.next rfl).1
    simp only [Fragment.admits, Bool.and_eq_true] at hs
    simp only [stmtsPruned, Stmt.pruned, (Fragment.blank_guard _ hs.1).pruned] at hleft ⊢
    exact ⟨.loop he htrue hleft.getD_removed, hend⟩
  | exit he hfalse hrest ih =>
    intro block outer done pending hplaced hsound hharmless
    obtain ⟨hs, hplaced⟩ := hplaced.next rfl
    obtain ⟨hleft, hend⟩ := ih hplaced hsound hharmless
    simp only [Fragment.admits, Bool.and_eq_true] at hs
    simp only [stmtsPruned, Stmt.pruned, (Fragment.blank_guard _ hs.1).pruned]
    exact ⟨.exit he hfalse hleft, hend⟩

end Simulation

/-! ### Whole programs -/

/-- **What is left of an orderly program runs to its end as the program does**, with the
same variables, objects, changes and actions. -/
theorem Completes.pruned {wholeChain : Bool} {watched : Segment → Bool} {p : Program}
    (horderly : (Fragment.orderly watched).admitsProgram p) (hnested : p.outline.isNested)
    (hclear : p.isClear wholeChain) {w : World} {globals : Layer} {heap : Heap}
    {changes : List Change} {done : List Action}
    (hrun : Completes w p globals heap changes done)
    (hharmless : ∀ c ∈ changes, c.IsHarmless watched) :
    Completes w (p.pruned wholeChain) globals heap changes done := by
  obtain ⟨hnames, hrun⟩ := hrun
  simp only [Fragment.admitsProgram, Bool.and_eq_true] at horderly
  obtain ⟨hstmts, horderly⟩ := horderly
  obtain ⟨houtline, hpruned⟩ := items_of_isStmt hstmts
  change p.outline = stmtsOutline p.stmts at houtline
  have hleft : (p.pruned wholeChain).stmts = stmtsPruned (.ofProgram p) wholeChain 0 p.stmts :=
    hpruned _ _
  have hknown : ∀ position, (ScopeGraph.ofProgram p).known wholeChain 0 position =
      knownAmong wholeChain [(p.outline.own none).filter (·.visibleAt position)] :=
    known_eq_knownAmong p.sees_outermost.1 wholeChain
  -- the program is a block of its own, with no range
  have hfixed : Fixed (p.outline.own none) none [⟨[], []⟩] (stmtsOutline p.stmts) := by
    intro position _
    simp [doneOf, pendingOf, houtline]
  obtain ⟨hhoisted, hbinds⟩ := Fragment.hoisted_of_admits none horderly
  have hsound : Sound watched [⟨[], (stmtsOutline p.stmts).direct none⟩] [hoisted p.stmts] [] := by
    have hempty : Sound watched [] [] [] := ⟨trivial, by simp [doneOf, pendingOf], trivial⟩
    rw [hhoisted]
    refine hempty.enter (fun b hb => (hbinds b hb).ordinary)
      (fun b hb => (hbinds b hb).isConstant) ?_
    simpa [hhoisted, Binding.cell, Function.comp_def] using hnames
  have hplaces : ∀ place ∈ (stmtsOutline p.stmts).places [p.outline.own none],
      place.isClear wholeChain := by
    rw [← houtline]
    exact List.all_eq_true.mp hclear
  have hplaced := Fragment.placed_of_admits horderly (houtline ▸ hnested) hfixed hplaces
  have hsame := (hrun.pruned hknown hplaced hsound hharmless).1
  rw [Completes, hleft, Fragment.hoisted_pruned_of_admits horderly]
  exact ⟨hnames, hsame⟩

end DeadBranch
