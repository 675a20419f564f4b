/-
# Both walks agree on scopes

The scopes of a program are collected on one walk and used on a second one,
which finds them again by kind and range and changes the tree as it goes. Here
the calls that a walk makes are written down, each with the state of the visitor
it is made in (`Program.calls`), and the two walks are compared call by call. If
no two functions have the same kind and range, then on the second walk every
function is found, as a child of the scope it stands in; the scopes entered are
always the innermost one with its ancestors, and only the program at the end;
and each `if` statement that is visited is visited in the scope in which it was
met when the scopes were collected. The second walk visits the `if` statements
that do not lie in a dropped part, in the same order.

Key definitions: `Call`, `Visitor.traced`, `Program.calls`.
Key theorems: `walkProgram_traced`, `ancestors_eq_cons`, `calls_collector`,
`calls_shrinker`, `calls_stand`, `shrink_missing`, `traversals_agree`.
-/
import DeadBranch.Proofs.Lexical

namespace DeadBranch

/-! ### Writing down the calls of a walk -/

/-- What a visitor is told on a walk. -/
inductive Call where
  | enter (key : FunctionKey)
  | leave
  | openBlock (span : Span)
  | closeBlock
  | declare (d : Declaration)
  | decide (span : Span) (test : Expr) (hasAlternate : Bool)

section Traced

variable {σ : Type}

/-- Calls, each with the state in which it was made. -/
abbrev Calls (σ : Type) : Type := List (Call × σ)

/-- Writes down a call and makes it. -/
def noting {α : Type} (call : Call) (m : StateM σ α) : StateM (σ × Calls σ) α := fun (s, calls) =>
  ((m s).1, (m s).2, calls ++ [(call, s)])

@[simp] theorem noting_apply {α : Type} (call : Call) (m : StateM σ α) (s : σ) (calls : Calls σ) :
    noting call m (s, calls) = ((m s).1, (m s).2, calls ++ [(call, s)]) := rfl

variable (v : Visitor σ)

/-- A visitor that also writes down what it is told. -/
def Visitor.traced : Visitor (σ × Calls σ) where
  enter boundary span params := noting (.enter ⟨boundary, span⟩) (v.enter boundary span params)
  leave := noting .leave v.leave
  openBlock span := noting (.openBlock span) (v.openBlock span)
  closeBlock := noting .closeBlock v.closeBlock
  declareVars kind ds := noting (.declare (.vars kind ds)) (v.declareVars kind ds)
  declareFunction name := noting (.declare (.function name)) (v.declareFunction name)
  declareClass name := noting (.declare (.classDecl name)) (v.declareClass name)
  declareCaught pattern := noting (.declare (.caught pattern)) (v.declareCaught pattern)
  declareImports names := noting (.declare (.imports names)) (v.declareImports names)
  decide span test hasAlternate :=
    noting (.decide span test hasAlternate) (v.decide span test hasAlternate)

/-- The calls that a walk through a program makes. -/
def Program.calls (p : Program) (s : σ) : Calls σ := (walkProgram v.traced p (s, [])).2.2

/-- The calls for an outline. -/
def Outline.calls : Outline → σ → Calls σ
  | .blank, _ => []
  | .both first second, s => first.calls s ++ second.calls (first.visit v s)
  | .scope key params inside, s =>
    let entered := (v.enter key.boundary key.span params s).2
    (.enter key, s) :: (inside.calls entered ++ [(.leave, inside.visit v entered)])
  | .block span inside, s =>
    let opened := (v.openBlock span s).2
    (.openBlock span, s) :: (inside.calls opened ++ [(.closeBlock, inside.visit v opened)])
  | .declare d, s => [(.declare d, s)]
  | .choice span test hasAlternate inTest consequent alternate, s =>
    let decided := v.decide span test hasAlternate s
    (.decide span test hasAlternate, s) :: match decided.1 with
      | .keep => inTest.calls decided.2 ++ consequent.calls (inTest.visit v decided.2) ++
          alternate.calls (consequent.visit v (inTest.visit v decided.2))
      | .consequent => consequent.calls decided.2
      | .alternate => alternate.calls decided.2

@[simp] theorem Visitor.traced_enter (key : FunctionKey) (params : List Expr) :
    v.traced.enter key.boundary key.span params =
      noting (.enter key) (v.enter key.boundary key.span params) := rfl

@[simp] theorem Visitor.traced_leave : v.traced.leave = noting .leave v.leave := rfl

@[simp] theorem Visitor.traced_openBlock (span : Span) :
    v.traced.openBlock span = noting (.openBlock span) (v.openBlock span) := rfl

@[simp] theorem Visitor.traced_closeBlock :
    v.traced.closeBlock = noting .closeBlock v.closeBlock := rfl

@[simp] theorem Visitor.traced_decide (span : Span) (test : Expr) (hasAlternate : Bool) :
    v.traced.decide span test hasAlternate =
      noting (.decide span test hasAlternate) (v.decide span test hasAlternate) := rfl

@[simp] theorem Visitor.traced_declare (d : Declaration) :
    v.traced.declare d = noting (.declare d) (v.declare d) := by
  cases d <;> rfl

/-- Writing down the calls changes nothing else. -/
theorem visit_traced (o : Outline) : ∀ (s : σ) (calls : Calls σ),
    o.visit v.traced (s, calls) = (o.visit v s, calls ++ o.calls v s) := by
  induction o with
  | blank => intro s calls; simp [Outline.calls]
  | both first second ih1 ih2 => intro s calls; simp [Outline.calls, ih1, ih2]
  | scope key params inside ih => intro s calls; simp [Outline.calls, ih]
  | block span inside ih => intro s calls; simp [Outline.calls, ih]
  | declare d => intro s calls; simp [Outline.calls]
  | choice span test hasAlternate inTest consequent alternate iht ihc iha =>
    intro s calls
    simp only [Outline.visit, Outline.calls, Visitor.traced_decide, noting_apply]
    cases (v.decide span test hasAlternate s).1 with
    | keep => simp [iht, ihc, iha]
    | consequent => simp [ihc]
    | alternate => simp [iha]

/-- The calls of a walk are those for the outline, and the state of the visitor
is what it would be without writing them down. -/
theorem walkProgram_traced (p : Program) (s : σ) :
    (walkProgram v.traced p (s, [])).2 = ((walkProgram v p s).2, p.outline.calls v s) := by
  rw [walkProgram_state, walkProgram_state, visit_traced, List.nil_append]

theorem Program.calls_eq (p : Program) (s : σ) : p.calls v s = p.outline.calls v s :=
  congrArg Prod.snd (walkProgram_traced v p s)

end Traced

/-- The `if` statement that a call is about, for a visitor that stands in a
scope. -/
def Call.conditional? (scope : Nat) : Call → Option Conditional
  | .decide span test hasAlternate => some ⟨scope, span, test, hasAlternate⟩
  | _ => none

/-- The `if` statements that were met, each with the scope in which it was met. -/
def Calls.conditionals {σ : Type} (scope : σ → Nat) (calls : Calls σ) : List Conditional :=
  calls.filterMap fun (call, s) => call.conditional? (scope s)

section Conditionals

variable {σ : Type} (scope : σ → Nat)

@[simp] theorem Calls.conditionals_nil : Calls.conditionals scope [] = [] := rfl

@[simp] theorem Calls.conditionals_append (first second : Calls σ) :
    Calls.conditionals scope (first ++ second) =
      Calls.conditionals scope first ++ Calls.conditionals scope second := by
  simp [Calls.conditionals]

@[simp] theorem Calls.conditionals_cons (call : Call) (s : σ) (calls : Calls σ) :
    Calls.conditionals scope ((call, s) :: calls) =
      (call.conditional? (scope s)).toList ++ Calls.conditionals scope calls := by
  cases h : call.conditional? (scope s) <;> simp [Calls.conditionals, h]

end Conditionals

/-! ### Numbers of scopes -/

/-- Parents have smaller numbers. -/
def ScopeGraph.Ascends (g : ScopeGraph) : Prop :=
  ∀ id parent, g.parent? id = some parent → parent < id

theorem Outline.made_ascends (o : Outline) : ∀ {next parent : Nat}, parent < next →
    ∀ entry ∈ (o.made next parent).zipIdx next, ∀ q ∈ entry.1.parent, q < entry.2 := by
  induction o with
  | blank => simp [made]
  | both first second ih1 ih2 =>
    intro next parent h
    simp only [made, List.zipIdx_append, length_made, List.forall_mem_append]
    exact ⟨ih1 h, ih2 (by omega)⟩
  | scope key params inside ih =>
    intro next parent h
    simp only [made, List.zipIdx_cons, List.forall_mem_cons]
    refine ⟨?_, ih (Nat.lt_succ_self next)⟩
    intro q hq
    obtain rfl : parent = q := Option.some.inj hq
    exact h
  | block span inside ih => exact ih
  | declare d => simp [made]
  | choice span test hasAlternate inTest consequent alternate iht ihc iha =>
    intro next parent h
    simp only [made, List.zipIdx_append, List.length_append, length_made, List.forall_mem_append]
    exact ⟨⟨iht h, ihc (by omega)⟩, by rw [← Nat.add_assoc]; exact iha (by omega)⟩

theorem ofProgram_ascends (p : Program) : (ScopeGraph.ofProgram p).Ascends := by
  intro id parent h
  obtain ⟨s, hs, hparent⟩ := Option.bind_eq_some_iff.mp h
  have hall : ∀ entry ∈ (ScopeGraph.ofProgram p).scopes.zipIdx 0,
      ∀ q ∈ entry.1.parent, q < entry.2 := by
    rw [ofProgram_scopes, List.zipIdx_cons, List.forall_mem_cons]
    exact ⟨by simp, p.outline.made_ascends Nat.one_pos⟩
  exact hall (s, id) (List.mk_mem_zipIdx_iff_getElem?.mpr hs) parent hparent

section Ancestors

variable {g : ScopeGraph}

/-- The number of a scope bounds how many ancestors it has. -/
theorem ScopeGraph.ancestorsUpTo_eq (h : g.Ascends) (id : Nat) :
    ∀ {fuel : Nat}, id < fuel → g.ancestorsUpTo fuel id = g.ancestors id := by
  induction id using Nat.strongRecOn with
  | _ id ih =>
    intro fuel hfuel
    obtain ⟨fuel, rfl⟩ : ∃ n, fuel = n + 1 := ⟨fuel - 1, by omega⟩
    rw [ancestors, ancestorsUpTo, ancestorsUpTo]
    cases hparent : g.parent? id with
    | none => rfl
    | some parent =>
      have hlt := h id parent hparent
      simp only [ih parent hlt (show parent < fuel by omega), ih parent hlt hlt]

theorem ScopeGraph.ancestors_eq_cons (h : g.Ascends) {id parent : Nat}
    (hparent : g.parent? id = some parent) : g.ancestors id = id :: g.ancestors parent := by
  rw [ancestors, ancestorsUpTo, hparent]
  exact congrArg _ (ancestorsUpTo_eq h parent (h id parent hparent))

theorem ScopeGraph.ancestors_head (g : ScopeGraph) (id : Nat) :
    ∃ outer, g.ancestors id = id :: outer := ⟨_, rfl⟩

theorem ScopeGraph.ancestors_of_none {id : Nat} (hparent : g.parent? id = none) :
    g.ancestors id = [id] := by
  simp [ancestors, ancestorsUpTo, hparent]

theorem ScopeGraph.le_of_mem_ancestors (h : g.Ascends) (id : Nat) :
    ∀ i ∈ g.ancestors id, i ≤ id := by
  induction id using Nat.strongRecOn with
  | _ id ih =>
    cases hparent : g.parent? id with
    | none => simp [ancestors_of_none hparent]
    | some parent =>
      have hlt := h id parent hparent
      rw [ancestors_eq_cons h hparent]
      refine List.forall_mem_cons.mpr ⟨Nat.le_refl id, fun i hi => ?_⟩
      exact Nat.le_of_lt (Nat.lt_of_le_of_lt (ih parent hlt i hi) hlt)

/-- On the way outwards the numbers become smaller. -/
theorem ScopeGraph.ancestors_pairwise (h : g.Ascends) (id : Nat) :
    (g.ancestors id).Pairwise (· > ·) := by
  induction id using Nat.strongRecOn with
  | _ id ih =>
    cases hparent : g.parent? id with
    | none => simp [ancestors_of_none hparent]
    | some parent =>
      have hlt := h id parent hparent
      rw [ancestors_eq_cons h hparent]
      refine List.pairwise_cons.mpr ⟨fun i hi => ?_, ih parent hlt⟩
      exact Nat.lt_of_le_of_lt (le_of_mem_ancestors h parent i hi) hlt

/-- What is around a scope is also around the scopes in it. -/
theorem ScopeGraph.ancestors_suffix (h : g.Ascends) (id : Nat) :
    ∀ i ∈ g.ancestors id, g.ancestors i <:+ g.ancestors id := by
  induction id using Nat.strongRecOn with
  | _ id ih =>
    cases hparent : g.parent? id with
    | none => simp [ancestors_of_none hparent]
    | some parent =>
      intro i hi
      rw [ancestors_eq_cons h hparent] at hi
      rcases List.mem_cons.mp hi with rfl | hi
      · exact List.suffix_refl _
      · rw [ancestors_eq_cons h hparent]
        exact (ih parent (h id parent hparent) i hi).trans (List.suffix_cons _ _)

end Ancestors

/-! ### Finding the functions of a program -/

section Functions

variable {g : ScopeGraph}

/-- No two functions have the same kind and range. The program comes first, so it
is in nobody's way. -/
def ScopeGraph.Distinct (g : ScopeGraph) : Prop := (g.scopes.tail.map (·.key)).Nodup

theorem ofProgram_distinct {p : Program} (h : p.outline.keys.Nodup) :
    (ScopeGraph.ofProgram p).Distinct := by
  rwa [ScopeGraph.Distinct, ofProgram_scopes, List.tail_cons, Outline.made_keys]

/-- A function that stands in the graph is found there, in the scope around it. -/
theorem ScopeGraph.Holds.found {next scope : Nat} {key : FunctionKey} {params : List Expr}
    {inside : Outline} (hkeys : g.Distinct) (hnext : 0 < next)
    (h : g.Holds next scope (.scope key params inside)) :
    g.find? key = some next ∧ g.parent? next = some scope ∧ g.Holds (next + 1) next inside := by
  obtain ⟨hget, hinside⟩ := h.numbered
  let here : Scope := ⟨key, some scope, inside.kids (next + 1),
    paramBindings params ++ inside.own none⟩
  have h : [here] ++ inside.made (next + 1) next <+: g.scopes.drop next := h
  obtain ⟨rest, hrest⟩ := h
  have hdrop : g.scopes.drop next = here :: (inside.made (next + 1) next ++ rest) := hrest.symm
  have hlength : (g.scopes.take next).length = next := by
    have hlt : next < g.scopes.length := by
      by_contra hle
      simp [List.drop_eq_nil_of_le (Nat.le_of_not_lt hle)] at hdrop
    simp [Nat.le_of_lt hlt]
  have hsplit : g.scopes = g.scopes.take next ++ here :: (inside.made (next + 1) next ++ rest) := by
    rw [← hdrop, List.take_append_drop]
  refine ⟨?_, ?_, hinside⟩
  · have hne : g.scopes.take next ≠ [] := List.ne_nil_of_length_pos (by omega)
    have hnodup : (g.scopes.tail.map (·.key)).Nodup := hkeys
    rw [hsplit, List.tail_append_of_ne_nil hne, List.map_append, List.map_cons] at hnodup
    have hafter := (List.nodup_cons.mp (List.nodup_append.mp hnodup).2.1).1
    rw [← hlength]
    exact find?_of_split hsplit hafter
  · simp [parent?, hget]

end Functions

/-! ### The walk that collects -/

section Collecting

variable {g : ScopeGraph}

/-- Collecting meets each `if` statement in the scope that the graph has for it. -/
theorem calls_collector (hkeys : g.Distinct) (o : Outline) :
    ∀ (around : List (Conditional × Part)) {c : Collector}, c.Open →
      g.Holds c.scopes.length c.current o →
      (o.calls Collector.visitor c).conditionals Collector.current =
        (o.sites g c.current around).map (·.conditional) := by
  induction o with
  | blank => intros; rfl
  | both first second ih1 ih2 =>
    intro around c hc hholds
    obtain ⟨h1, h2⟩ := hholds.both
    have hgrown := Collector.visit_collector first hc
    have hlength := hgrown.length
    rw [Outline.length_made] at hlength
    rw [← hlength, ← hgrown.current] at h2
    have hsecond := ih2 around (hgrown.open hc) h2
    rw [hgrown.current] at hsecond
    simp [Outline.calls, Outline.sites, ih1 around hc h1, hsecond]
  | scope key params inside ih =>
    intro around c hc hholds
    obtain ⟨hfind, -, hinside⟩ := hholds.found hkeys (Nat.zero_lt_of_lt hc)
    obtain ⟨hscopes, hstack, -, -⟩ := Collector.enter_spec c key params
    set entered := (Collector.visitor.enter key.boundary key.span params c).2 with hentered
    have hlength : entered.scopes.length = c.scopes.length + 1 := by simp [hscopes]
    have hcurrent : entered.current = c.scopes.length := by simp [Collector.current, hstack]
    have hopen : entered.Open := by simp [Collector.Open, hcurrent, hlength]
    rw [← hlength, ← hcurrent] at hinside
    have h := ih around hopen hinside
    rw [hcurrent] at h
    simp [Outline.calls, Outline.sites, ← hentered, Call.conditional?, ScopeGraph.inside, hfind, h]
  | block span inside ih =>
    intro around c hc hholds
    have h := ih around (c := { c with blocks := span :: c.blocks }) hc hholds
    simp only [Outline.calls, Outline.sites, Calls.conditionals_cons, Calls.conditionals_append,
      Calls.conditionals_nil, Call.conditional?, Option.toList_none, List.nil_append,
      List.append_nil]
    exact h
  | declare d => intros; rfl
  | choice span test hasAlternate inTest consequent alternate iht ihc iha =>
    intro around c hc hholds
    obtain ⟨h1, h2, h3⟩ := hholds.choice
    -- the parts are gone through one after the other, each from where the last one ended
    have hgrown := Collector.visit_collector inTest hc
    have hgrown' := Collector.visit_collector consequent (hgrown.open hc)
    have hlength := hgrown.length
    have hlength' := hgrown'.length
    have hcurrent' := hgrown'.current.trans hgrown.current
    rw [Outline.length_made] at hlength hlength'
    rw [← hlength, ← hgrown.current] at h2
    rw [← hlength, ← hlength', ← hcurrent'] at h3
    let here : Conditional := ⟨c.current, span, test, hasAlternate⟩
    have htest := iht ((here, .test) :: around) hc h1
    have hconsequent := ihc ((here, .consequent) :: around) (hgrown.open hc) h2
    have halternate := iha ((here, .alternate) :: around) (hgrown'.open (hgrown.open hc)) h3
    rw [hgrown.current] at hconsequent
    rw [hcurrent'] at halternate
    have hkeep : Collector.visitor.decide span test hasAlternate c = (.keep, c) := rfl
    simp [Outline.calls, Outline.sites, hkeep, Call.conditional?, htest, hconsequent,
      halternate, here]

end Collecting

/-! ### The walk that folds -/

section Folding

variable {g : ScopeGraph} (wholeChain : Bool) (locate : Nat → Location)

/-- The sites that do not lie in a dropped part. -/
def standingSites (g : ScopeGraph) (wholeChain : Bool) (sites : List Site) : List Site :=
  sites.filter fun site => !anyDropped g wholeChain site.around

theorem standingSites_of_dropped (o : Outline) {scope : Nat} {around : List (Conditional × Part)}
    (h : anyDropped g wholeChain around = true) :
    standingSites g wholeChain (o.sites g scope around) = [] := by
  refine List.filter_eq_nil_iff.mpr fun site hsite => ?_
  simp [anyDropped_of_mem_sites wholeChain o h site hsite]

@[simp] theorem standingSites_append (first second : List Site) :
    standingSites g wholeChain (first ++ second) =
      standingSites g wholeChain first ++ standingSites g wholeChain second :=
  List.filter_append ..

theorem Shrinker.At.current {scope : Nat} {s : Shrinker} (h : s.At g scope) :
    s.tracker.current = scope := by
  obtain ⟨-, rest, hstack⟩ := h
  simp [Tracker.current, hstack]

/-- Folding visits the `if` statements that do not lie in a dropped part, each in
the scope that the graph has for it. -/
theorem calls_shrinker (o : Outline) :
    ∀ (around : List (Conditional × Part)) {scope : Nat} {s : Shrinker}, s.At g scope →
      anyDropped g wholeChain around = false →
      (o.calls (Shrinker.visitor wholeChain locate) s).conditionals (·.tracker.current) =
        (standingSites g wholeChain (o.sites g scope around)).map (·.conditional) := by
  induction o with
  | blank => intros; rfl
  | both first second ih1 ih2 =>
    intro around scope s h hk
    have hsecond := ih2 around (h.visit wholeChain locate first) hk
    simp [Outline.calls, Outline.sites, ih1 around h hk, hsecond]
  | scope key params inside ih =>
    intro around scope s h hk
    have hinside := ih around (h.enter wholeChain locate key params) hk
    simp [Outline.calls, Outline.sites, Call.conditional?, hinside]
  | block span inside ih =>
    intro around scope s h hk
    simp [Outline.calls, Outline.sites, Call.conditional?, ih around h hk]
  | declare d => intros; rfl
  | choice span test hasAlternate inTest consequent alternate iht ihc iha =>
    intro around scope s h hk
    obtain ⟨hd, ht, -⟩ := h.decide wholeChain locate span test hasAlternate
    have h1 := h.of_tracker ht
    have h2 := h1.visit wholeChain locate inTest
    have h3 := h2.visit wholeChain locate consequent
    let here : Conditional := ⟨scope, span, test, hasAlternate⟩
    have hpart : ∀ part, anyDropped g wholeChain ((here, part) :: around) =
        part.isDropped (g.verdict wholeChain scope span test) :=
      anyDropped_inside wholeChain hk here
    have hhere : standingSites g wholeChain ((Outline.choice span test hasAlternate inTest
        consequent alternate).sites g scope around) = ⟨here, around⟩ ::
          (standingSites g wholeChain (inTest.sites g scope ((here, .test) :: around)) ++
            standingSites g wholeChain (consequent.sites g scope ((here, .consequent) :: around)) ++
            standingSites g wholeChain
              (alternate.sites g scope ((here, .alternate) :: around))) := by
      simp [Outline.sites, standingSites, hk, here]
    -- the statement itself, then the parts that its verdict keeps
    rw [hhere]
    simp only [Outline.calls, hd, Calls.conditionals_cons, Call.conditional?, h.current,
      Option.toList_some, List.map_cons, List.map_append, List.singleton_append]
    refine congrArg (here :: ·) ?_
    cases hv : g.verdict wholeChain scope span test with
    | none =>
      rw [hv] at hpart
      simp [decisionOn, iht _ h1 (hpart .test), ihc _ h2 (hpart .consequent),
        iha _ h3 (hpart .alternate)]
    | some isTrue =>
      rw [hv] at hpart
      cases isTrue with
      | true =>
        rw [standingSites_of_dropped wholeChain inTest (hpart .test),
          standingSites_of_dropped wholeChain alternate (hpart .alternate)]
        simp [decisionOn, ihc _ h1 (hpart .consequent)]
      | false =>
        rw [standingSites_of_dropped wholeChain inTest (hpart .test),
          standingSites_of_dropped wholeChain consequent (hpart .consequent)]
        simp [decisionOn, iha _ h1 (hpart .alternate)]

/-- The walk stands as it should when it makes a call: the scopes entered are the
innermost one and its ancestors, and a function that begins is found as a child
of the innermost scope. -/
structure Shrinker.Stands (g : ScopeGraph) (call : Call) (s : Shrinker) : Prop where
  graph : s.tracker.graph = g
  stack : s.tracker.stack = g.ancestors s.tracker.current
  found : ∀ key, call = .enter key →
    ∃ id, g.find? key = some id ∧ g.parent? id = some s.tracker.current

theorem Shrinker.at_of_tracker {scope : Nat} {s : Shrinker}
    (h : s.tracker = ⟨g, g.ancestors scope⟩) : s.At g scope := by
  obtain ⟨outer, houter⟩ := g.ancestors_head scope
  exact ⟨by rw [h], outer, by rw [h, houter]⟩

theorem Shrinker.stands_of_tracker {scope : Nat} {s : Shrinker} {call : Call}
    (h : s.tracker = ⟨g, g.ancestors scope⟩)
    (hfound : ∀ key, call = .enter key → ∃ id, g.find? key = some id ∧ g.parent? id = some scope) :
    s.Stands g call := by
  have hcurrent : s.tracker.current = scope := (at_of_tracker h).current
  refine ⟨by rw [h], by rw [hcurrent, h], ?_⟩
  rwa [hcurrent]

/-- Where the graph holds the functions of an outline and no two of them have the
same kind and range, folding stands as it should at every call. -/
theorem calls_stand (hg : g.Ascends) (hkeys : g.Distinct) (o : Outline) :
    ∀ {next scope : Nat} {s : Shrinker}, 0 < next → g.Holds next scope o →
      s.tracker = ⟨g, g.ancestors scope⟩ →
      ∀ entry ∈ o.calls (Shrinker.visitor wholeChain locate) s, entry.2.Stands g entry.1 := by
  induction o with
  | blank => simp [Outline.calls]
  | both first second ih1 ih2 =>
    intro next scope s hnext hholds hs
    obtain ⟨h1, h2⟩ := hholds.both
    have hback := visit_tracker wholeChain locate first (Shrinker.at_of_tracker hs)
    exact List.forall_mem_append.mpr
      ⟨ih1 hnext h1 hs, ih2 (Nat.add_pos_left hnext _) h2 (hback.trans hs)⟩
  | scope key params inside ih =>
    intro next scope s hnext hholds hs
    obtain ⟨hfind, hparent, hinside⟩ := hholds.found hkeys hnext
    set entered := ((Shrinker.visitor wholeChain locate).enter key.boundary key.span params s).2
      with hentered
    have htracker : entered.tracker = ⟨g, g.ancestors next⟩ := by
      rw [hentered, Shrinker.visitor_enter_tracker, hs, ScopeGraph.ancestors_eq_cons hg hparent]
      simp [Tracker.enter, hfind]
    have hback := visit_tracker wholeChain locate inside (Shrinker.at_of_tracker htracker)
    simp only [Outline.calls, ← hentered, List.forall_mem_cons, List.forall_mem_append]
    refine ⟨Shrinker.stands_of_tracker hs ?_, ih (Nat.succ_pos _) hinside htracker,
      Shrinker.stands_of_tracker (hback.trans htracker) (by simp), by simp⟩
    intro key' hkey
    obtain rfl : key = key' := Call.enter.inj hkey
    exact ⟨next, hfind, hparent⟩
  | block span inside ih =>
    intro next scope s hnext hholds hs
    have hback := visit_tracker wholeChain locate inside (Shrinker.at_of_tracker hs)
    simp only [Outline.calls, List.forall_mem_cons, List.forall_mem_append]
    exact ⟨Shrinker.stands_of_tracker hs (by simp), ih hnext hholds hs,
      Shrinker.stands_of_tracker (hback.trans hs) (by simp), by simp⟩
  | declare d =>
    intro next scope s hnext hholds hs
    simp only [Outline.calls, List.forall_mem_singleton]
    exact Shrinker.stands_of_tracker hs (by simp)
  | choice span test hasAlternate inTest consequent alternate iht ihc iha =>
    intro next scope s hnext hholds hs
    obtain ⟨h1, h2, h3⟩ := hholds.choice
    have hat := Shrinker.at_of_tracker hs
    obtain ⟨-, ht, -⟩ := hat.decide wholeChain locate span test hasAlternate
    have hs1 := ht.trans hs
    have hs2 := (visit_tracker wholeChain locate inTest (hat.of_tracker ht)).trans hs1
    have hs3 := (visit_tracker wholeChain locate consequent
      (Shrinker.at_of_tracker hs2)).trans hs2
    simp only [Outline.calls, List.forall_mem_cons]
    refine ⟨Shrinker.stands_of_tracker hs (by simp), ?_⟩
    split
    · simp only [List.forall_mem_append]
      exact ⟨⟨iht hnext h1 hs1, ihc (by omega) h2 hs2⟩, iha (by omega) h3 hs3⟩
    · exact ihc (by omega) h2 hs1
    · exact iha (by omega) h3 hs1

/-! ### No function is missed -/

theorem Shrinker.decide_missing (span : Span) (test : Expr) (hasAlternate : Bool) (s : Shrinker) :
    ((Shrinker.visitor wholeChain locate).decide span test hasAlternate s).2.missing =
      s.missing := by
  simp only [Shrinker.visitor, Shrinker.decide, bind_apply, get_apply]
  cases foldKind? (s.tracker.outlook span.start wholeChain).associations test hasAlternate <;> rfl

/-- Going through an outline whose functions are all in the graph misses none. -/
theorem visit_missing (o : Outline) : ∀ {scope : Nat} {s : Shrinker}, s.At g scope →
    (∀ key ∈ o.keys, (g.find? key).isSome) → s.missing = none →
    (o.visit (Shrinker.visitor wholeChain locate) s).missing = none := by
  induction o with
  | blank => intro _ _ _ _ hs; exact hs
  | both first second ih1 ih2 =>
    intro scope s h hkeys hs
    obtain ⟨hkeys1, hkeys2⟩ := List.forall_mem_append.mp hkeys
    exact ih2 (h.visit wholeChain locate first) hkeys2 (ih1 h hkeys1 hs)
  | scope key params inside ih =>
    intro scope s h hkeys hs
    obtain ⟨hkey, hinside⟩ := List.forall_mem_cons.mp hkeys
    refine ih (h.enter wholeChain locate key params) hinside ?_
    simp [Shrinker.visitor, hs, Tracker.knows, h.graph, hkey]
  | block span inside ih => intro _ _ h hkeys hs; exact ih h hkeys hs
  | declare d => intro _ _ _ _ hs; cases d <;> exact hs
  | choice span test hasAlternate inTest consequent alternate iht ihc iha =>
    intro scope s h hkeys hs
    simp only [Outline.keys, List.forall_mem_append] at hkeys
    obtain ⟨⟨hkeys1, hkeys2⟩, hkeys3⟩ := hkeys
    obtain ⟨-, ht, -⟩ := h.decide wholeChain locate span test hasAlternate
    have h1 := h.of_tracker ht
    have hs1 := (Shrinker.decide_missing wholeChain locate span test hasAlternate s).trans hs
    simp only [Outline.visit]
    split
    · have h2 := h1.visit wholeChain locate inTest
      exact iha (h2.visit wholeChain locate consequent) hkeys3 (ihc h2 hkeys2 (iht h1 hkeys1 hs1))
    · exact ihc h1 hkeys2 hs1
    · exact iha h1 hkeys3 hs1

theorem ofProgram_find?_isSome (p : Program) :
    ∀ key ∈ p.outline.keys, ((ScopeGraph.ofProgram p).find? key).isSome := by
  intro key hkey
  have hmem : key ∈ (ScopeGraph.ofProgram p).scopes.map (·.key) := by
    rw [ofProgram_scopes, List.map_cons, Outline.made_keys]
    exact List.mem_cons_of_mem _ hkey
  obtain ⟨s, hs, rfl⟩ := List.mem_map.mp hmem
  obtain ⟨id, hid⟩ := List.mem_iff_getElem?.mp hs
  rw [ScopeGraph.find?, Option.isSome_map, List.find?_isSome]
  exact ⟨(s, id), by simpa [List.mk_mem_zipIdx_iff_getElem?] using hid, by simp⟩

/-- Folding finds a scope for every function of a program. -/
theorem shrink_missing (p : Program) : (shrink wholeChain locate p).missing = none := by
  change (walkProgram (Shrinker.visitor wholeChain locate) p _).2.missing = none
  rw [walkProgram_state]
  exact visit_missing wholeChain locate p.outline (Shrinker.at_start p)
    (ofProgram_find?_isSome p) rfl

/-- **Both walks agree on scopes**, if no two functions have the same kind and
range. Folding finds every function, stands as it should at every call and ends
in the program alone. The `if` statements were met, when the scopes were
collected, at the sites of the program in order; folding visits those of them
that do not lie in a dropped part, each in the scope in which it was met. -/
theorem traversals_agree (p : Program) (hkeys : p.outline.keys.Nodup) :
    let g := ScopeGraph.ofProgram p
    let folding := Shrinker.visitor wholeChain locate
    (shrink wholeChain locate p).missing = none ∧
      (∀ entry ∈ p.calls folding (.start g), entry.2.Stands g entry.1) ∧
      (walkProgram folding p (.start g)).2.tracker.stack = [0] ∧
      (p.calls Collector.visitor .start).conditionals Collector.current =
        p.sites.map (·.conditional) ∧
      (p.calls folding (.start g)).conditionals (·.tracker.current) =
        (standingSites g wholeChain p.sites).map (·.conditional) := by
  intro g folding
  have hdistinct := ofProgram_distinct hkeys
  have hholds := p.sees_outermost.2
  have hat := Shrinker.at_start p
  refine ⟨shrink_missing wholeChain locate p, ?_, ?_, ?_, ?_⟩
  · have houtermost : g.ancestors 0 = [0] := by
      simp [g, ScopeGraph.ancestors, ScopeGraph.ancestorsUpTo, ScopeGraph.parent?,
        ScopeGraph.get?, ofProgram_scopes]
    rw [Program.calls_eq]
    refine calls_stand wholeChain locate (ofProgram_ascends p) hdistinct p.outline Nat.one_pos
      hholds ?_
    rw [houtermost]
    rfl
  · rw [walkProgram_state, visit_tracker wholeChain locate p.outline hat]
    rfl
  · rw [Program.calls_eq]
    exact calls_collector hdistinct p.outline [] Nat.one_pos hholds
  · rw [Program.calls_eq]
    exact calls_shrinker wholeChain locate p.outline [] hat rfl

end Folding

/-- The tree of
`function g() { if (false) h(() => { if (x) f(); }); else h(() => { if (y) f(); }); }`. -/
def twoArrows : Program :=
  let arrow (span : Span) (body : Span) (inner : Span) (tested : String) : Stmt :=
    .expr (.other .call [.ident "h", .closure (.block ⟨.arrow, none, false, false⟩ span []
      (.mk body [.ifElse inner (.ident tested) (.expr (.other .call [.ident "f"])) none]))])
  ⟨.script, none, [.stmt (.decl (.function "g" (.block ⟨.function, some "g", false, false⟩
    ⟨0, 84⟩ [] (.mk ⟨13, 84⟩ [.ifElse ⟨15, 82⟩ (.literal (.bool false))
      (arrow ⟨28, 49⟩ ⟨34, 49⟩ ⟨36, 47⟩ "x") (some (arrow ⟨59, 80⟩ ⟨65, 80⟩ ⟨67, 78⟩ "y"))]))))]⟩

/-- Of the three `if` statements the one in the first arrow function is dropped;
the one in the second is visited in the third scope, where it was met. -/
theorem twoArrows_agree :
    let locate : Nat → Location := fun n => ⟨"g.js", 1, n⟩
    let folding := Shrinker.visitor false locate
    let start := Shrinker.start (.ofProgram twoArrows)
    twoArrows.outline.keys.Nodup ∧ (shrink false locate twoArrows).missing = none ∧
      (walkProgram folding twoArrows start).2.tracker.stack = [0] ∧
      ((twoArrows.calls Collector.visitor .start).conditionals Collector.current).map
        (fun c => (c.scope, c.span)) = [(1, ⟨15, 82⟩), (2, ⟨36, 47⟩), (3, ⟨67, 78⟩)] ∧
      ((twoArrows.calls folding start).conditionals (·.tracker.current)).map
        (fun c => (c.scope, c.span)) = [(1, ⟨15, 82⟩), (3, ⟨67, 78⟩)] := by
  intro locate folding start
  have hkeys : twoArrows.outline.keys.Nodup := by decide +kernel
  obtain ⟨hmissing, -, hstack, hmet, hvisited⟩ := traversals_agree false locate twoArrows hkeys
  refine ⟨hkeys, hmissing, hstack, ?_, ?_⟩
  · rw [hmet]
    decide +kernel
  · rw [hvisited]
    decide +kernel

end DeadBranch
