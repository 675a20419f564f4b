/-
# The scopes of a program, said on its outline

`ScopeGraph.ofProgram` walks through a program with a stack of open scopes and
blocks. Here its result is said without a walk: the bindings that belong to the
scope directly around an outline (`Outline.own`), the scopes of the functions in
it in the order in which they begin (`Outline.made`), and the numbers of those
that are directly in it (`Outline.kids`). Collecting from an outline adds these
to what was there and leaves the open scopes and blocks as they were
(`visit_collector`), so the scopes of a program are the program itself followed
by those of its functions (`ofProgram_scopes`).

Key definitions: `Declaration.bindings`, `Outline.own`, `Outline.made`.
Key theorems: `visit_collector`, `ofProgram_scopes`, `find?_of_nodup`.
-/
import DeadBranch.Proofs.Outline
import Mathlib.Data.List.Basic
import Mathlib.Tactic.Set

namespace DeadBranch

/-! ### Bindings and scopes of an outline -/

/-- A binding that no declaration is kept for. -/
def Binding.plain (kind : BindingKind) (block : Option Span) (name : String) : Binding :=
  ⟨name, kind, none, if kind.isLexical then block else none⟩

/-- The bindings of one variable that is declared in a block. -/
def Declarator.bindings (kind : VarKind) (block : Option Span) : Declarator → List Binding
  | .mk target init =>
    match kind, target with
    | .constKind, .ident name => [⟨name, .constKind, some (.mk (.ident name) init), block⟩]
    | kind, target => target.boundNames.map (.plain (.ofVarKind kind) block)

/-- The name of a constant that is declared by a plain name. -/
def Declarator.name? : Declarator → Option String
  | .mk (.ident name) _ => some name
  | _ => none

/-- All but constants with a plain name are bound without their declaration. -/
theorem Declarator.bindings_of_ne {kind : VarKind} {target : Expr} (init : Expr)
    (block : Option Span) (h : ∀ name, kind = .constKind → target ≠ .ident name) :
    (Declarator.mk target init).bindings kind block =
      target.boundNames.map (.plain (.ofVarKind kind) block) := by
  simp only [Declarator.bindings]

/-- The bindings of a declaration in a block. -/
def Declaration.bindings (block : Option Span) : Declaration → List Binding
  | .vars kind declarators => declarators.flatMap (·.bindings kind block)
  | .function name => [.plain .function block name]
  | .classDecl name => [.plain .classKind block name]
  | .caught pattern => pattern.boundNames.map (.plain .letKind block)
  | .imports names => names.map (.plain .imported block)

/-- The bindings of parameters. -/
def paramBindings (params : List Expr) : List Binding :=
  params.flatMap fun p => p.boundNames.map (.plain .param none)

namespace Outline

/-- The bindings of an outline that belong to the scope around it, given the
innermost open block. -/
def own (block : Option Span) : Outline → List Binding
  | .blank => []
  | .both first second => first.own block ++ second.own block
  | .scope _ _ _ => []
  | .block span inside => inside.own (some span)
  | .declare d => d.bindings block
  | .choice _ _ _ inTest consequent alternate =>
    inTest.own block ++ consequent.own block ++ alternate.own block

/-- How many functions an outline has. -/
def count : Outline → Nat
  | .blank => 0
  | .both first second => first.count + second.count
  | .scope _ _ inside => 1 + inside.count
  | .block _ inside => inside.count
  | .declare _ => 0
  | .choice _ _ _ inTest consequent alternate =>
    inTest.count + consequent.count + alternate.count

/-- The numbers of the functions directly in an outline, if the first function
of the outline gets the number `next`. -/
def kids (next : Nat) : Outline → List Nat
  | .blank => []
  | .both first second => first.kids next ++ second.kids (next + first.count)
  | .scope _ _ _ => [next]
  | .block _ inside => inside.kids next
  | .declare _ => []
  | .choice _ _ _ inTest consequent alternate =>
    inTest.kids next ++ consequent.kids (next + inTest.count) ++
      alternate.kids (next + inTest.count + consequent.count)

/-- All scopes of an outline that stands in the scope `parent`. -/
def made (next parent : Nat) : Outline → List Scope
  | .blank => []
  | .both first second => first.made next parent ++ second.made (next + first.count) parent
  | .scope key params inside =>
    ⟨key, some parent, inside.kids (next + 1), paramBindings params ++ inside.own none⟩ ::
      inside.made (next + 1) next
  | .block _ inside => inside.made next parent
  | .declare _ => []
  | .choice _ _ _ inTest consequent alternate =>
    inTest.made next parent ++ consequent.made (next + inTest.count) parent ++
      alternate.made (next + inTest.count + consequent.count) parent

/-- The kinds and ranges of the functions of an outline. -/
def keys : Outline → List ScopeKey
  | .blank => []
  | .both first second => first.keys ++ second.keys
  | .scope key _ inside => key :: inside.keys
  | .block _ inside => inside.keys
  | .declare _ => []
  | .choice _ _ _ inTest consequent alternate =>
    inTest.keys ++ consequent.keys ++ alternate.keys

theorem own_andThen (block : Option Span) (first second : Outline) :
    (first.andThen second).own block = first.own block ++ second.own block := by
  cases first <;> cases second <;> simp [andThen, own]

theorem made_andThen (next parent : Nat) (first second : Outline) :
    (first.andThen second).made next parent =
      first.made next parent ++ second.made (next + first.count) parent := by
  cases first <;> cases second <;> simp [andThen, made, count]

@[simp] theorem length_made (o : Outline) :
    ∀ next parent, (o.made next parent).length = o.count := by
  induction o with
  | blank => intro _ _; rfl
  | both first second ih1 ih2 => intro _ _; simp [made, count, ih1, ih2]
  | scope key params inside ih => intro _ _; simp [made, count, ih, Nat.add_comm]
  | block span inside ih => intro _ _; exact ih _ _
  | declare d => intro _ _; rfl
  | choice span test hasAlternate inTest consequent alternate iht ihc iha =>
    intro _ _
    simp [made, count, iht, ihc, iha, Nat.add_assoc]

theorem made_keys (o : Outline) : ∀ next parent, (o.made next parent).map (·.key) = o.keys := by
  induction o <;> simp_all [made, keys]

end Outline

/-! ### What collecting does -/

section Modify

variable {α : Type} (f : α → α)

theorem modify_append_of_lt : ∀ {l : List α} (r : List α) {i : Nat}, i < l.length →
    (l ++ r).modify i f = l.modify i f ++ r
  | [], _, _, h => by simp at h
  | _ :: _, _, 0, _ => rfl
  | a :: l, r, i + 1, h => by
    simp [modify_append_of_lt r (Nat.lt_of_succ_lt_succ h)]

theorem modify_append_length : ∀ (l : List α) (a : α) (r : List α),
    (l ++ a :: r).modify l.length f = l ++ f a :: r
  | [], _, _ => rfl
  | b :: l, a, r => by simp [modify_append_length l a r]

end Modify

/-- A scope with more bindings and children. -/
def Scope.extend (bindings : List Binding) (children : List Nat) (s : Scope) : Scope :=
  { s with bindings := s.bindings ++ bindings, children := s.children ++ children }

theorem Scope.extend_nil : Scope.extend [] [] = id := by
  funext s
  simp [Scope.extend]

theorem Scope.extend_comp (b b' : List Binding) (k k' : List Nat) :
    Scope.extend b' k' ∘ Scope.extend b k = Scope.extend (b ++ b') (k ++ k') := by
  funext s
  simp [Scope.extend]

/-- `c'` is `c` after bindings and children were added to the innermost open
scope and new scopes after all others. -/
structure Collector.Grown (c : Collector) (bindings : List Binding) (children : List Nat)
    (more : List Scope) (c' : Collector) : Prop where
  scopes : c'.scopes = c.scopes.modify c.current (Scope.extend bindings children) ++ more
  stack : c'.stack = c.stack
  blocks : c'.blocks = c.blocks
  saved : c'.saved = c.saved

namespace Collector

variable {c c' c'' : Collector} {b b' : List Binding} {k k' : List Nat} {m m' : List Scope}

theorem Grown.refl (c : Collector) : c.Grown [] [] [] c :=
  ⟨by simp [Scope.extend_nil], rfl, rfl, rfl⟩

theorem Grown.current (h : c.Grown b k m c') : c'.current = c.current := by
  simp [Collector.current, h.stack]

theorem Grown.length (h : c.Grown b k m c') : c'.scopes.length = c.scopes.length + m.length := by
  simp [h.scopes]

theorem Grown.trans (hc : c.current < c.scopes.length) (h : c.Grown b k m c')
    (h' : c'.Grown b' k' m' c'') : c.Grown (b ++ b') (k ++ k') (m ++ m') c'' := by
  refine ⟨?_, h'.stack.trans h.stack, h'.blocks.trans h.blocks, h'.saved.trans h.saved⟩
  rw [h'.scopes, h.current, h.scopes, modify_append_of_lt _ _ (by simpa using hc),
    List.modify_modify_eq, Scope.extend_comp, List.append_assoc]

/-- The innermost open scope exists. -/
def Open (c : Collector) : Prop := c.current < c.scopes.length

theorem Grown.open (h : c.Grown b k m c') (hc : c.Open) : c'.Open := by
  unfold Open
  rw [h.current, h.length]
  exact Nat.lt_add_right _ hc

/-- One declared name. -/
theorem grown_declare (c : Collector) (kind : BindingKind) (name : String) (d : Option Declarator) :
    c.Grown [⟨name, kind, d, if kind.isLexical then c.blocks.head? else none⟩] [] []
      (c.declare kind name d) := by
  refine ⟨?_, rfl, rfl, rfl⟩
  rw [List.append_nil]
  refine congrArg (c.scopes.modify c.current) ?_
  funext s
  simp [Scope.extend]

/-- Several declarations, one after the other. -/
theorem grown_foldl {α : Type} {step : Collector → α → Collector}
    (bindings : Option Span → α → List Binding)
    (hstep : ∀ (c : Collector) x, c.Open → c.Grown (bindings c.blocks.head? x) [] [] (step c x)) :
    ∀ (xs : List α) (c : Collector), c.Open →
      c.Grown (xs.flatMap (bindings c.blocks.head?)) [] [] (xs.foldl step c)
  | [], c, _ => .refl c
  | x :: xs, c, hc => by
    have h := hstep c x hc
    have hrest := grown_foldl bindings hstep xs (step c x) (h.open hc)
    rw [h.blocks] at hrest
    exact h.trans hc hrest

theorem grown_declareNames (kind : BindingKind) (c : Collector) (names : List String)
    (hc : c.Open) :
    c.Grown (names.map (.plain kind c.blocks.head?)) [] []
      (names.foldl (fun c name => c.declare kind name none) c) := by
  rw [List.map_eq_flatMap]
  exact grown_foldl (fun block name => [.plain kind block name])
    (fun c name _ => grown_declare c kind name none) names c hc

theorem grown_declareVar (kind : VarKind) (c : Collector) (d : Declarator) (hc : c.Open) :
    c.Grown (d.bindings kind c.blocks.head?) [] [] (c.declareVar kind d) := by
  obtain ⟨target, init⟩ := d
  by_cases hplain : ∀ name, kind = .constKind → target ≠ .ident name
  · have hdeclare : c.declareVar kind (.mk target init) =
        c.declarePattern (.ofVarKind kind) target := by
      simp only [declareVar]
    rw [Declarator.bindings_of_ne _ _ hplain, hdeclare]
    exact grown_declareNames _ c target.boundNames hc
  · obtain ⟨name, rfl, rfl⟩ : ∃ name, kind = .constKind ∧ target = .ident name := by
      simpa using hplain
    exact grown_declare c .constKind _ _

theorem grown_visit_declare (c : Collector) (d : Declaration) (hc : c.Open) :
    c.Grown (d.bindings c.blocks.head?) [] [] (visitor.declare d c).2 := by
  cases d with
  | vars kind declarators =>
    exact grown_foldl (fun block d => d.bindings kind block) (grown_declareVar kind) declarators c
      hc
  | function name => exact grown_declare c .function name none
  | classDecl name => exact grown_declare c .classKind name none
  | caught pattern => exact grown_declareNames .letKind c pattern.boundNames hc
  | imports names => exact grown_declareNames .imported c names hc

/-- Entering a function opens a new scope with the bindings of its parameters. -/
theorem enter_spec (c : Collector) (key : FunctionKey) (params : List Expr) :
    let c' := (visitor.enter key.boundary key.span params c).2
    c'.scopes = c.scopes.modify c.current (Scope.extend [] [c.scopes.length]) ++
        [⟨key, some c.current, [], paramBindings params⟩] ∧
      c'.stack = c.scopes.length :: c.stack ∧ c'.blocks = [] ∧ c'.saved = c.blocks :: c.saved := by
  -- the scope as it is before the parameters are declared
  let opened : Collector := { c with
    scopes := c.scopes.modify c.current (Scope.extend [] [c.scopes.length]) ++
      [⟨key, some c.current, [], []⟩]
    stack := c.scopes.length :: c.stack, blocks := [], saved := c.blocks :: c.saved }
  have hopen : opened.Open := by simp [Open, Collector.current, opened]
  have hchild : (fun s : Scope => { s with children := s.children ++ [c.scopes.length] }) =
      Scope.extend [] [c.scopes.length] := by
    funext s
    simp [Scope.extend]
  have henter : (visitor.enter key.boundary key.span params c).2 =
      params.foldl (fun c p => c.declarePattern .param p) opened := by
    change enter key.boundary key.span params c = _
    simp only [enter, hchild, opened]
  have h := grown_foldl (fun block p => p.boundNames.map (.plain .param block))
    (fun c p hc => grown_declareNames .param c p.boundNames hc) params opened hopen
  have hlast := modify_append_length (Scope.extend (paramBindings params) [])
    (c.scopes.modify c.current (Scope.extend [] [c.scopes.length])) ⟨key, some c.current, [], []⟩ []
  rw [List.length_modify] at hlast
  intro c'
  have hc' : c' = params.foldl (fun c p => c.declarePattern .param p) opened := henter
  refine ⟨?_, ?_, ?_, ?_⟩
  · rw [hc']
    refine (h.scopes.trans (List.append_nil _)).trans (hlast.trans ?_)
    simp [Scope.extend]
  · rw [hc']; exact h.stack
  · rw [hc']; exact h.blocks
  · rw [hc']; exact h.saved

/-- **Collecting from an outline** adds its own bindings to the innermost open
scope and its scopes after the ones there are. -/
theorem visit_collector (o : Outline) : ∀ {c : Collector}, c.Open →
    c.Grown (o.own c.blocks.head?) (o.kids c.scopes.length) (o.made c.scopes.length c.current)
      (o.visit visitor c) := by
  induction o with
  | blank => intro c _; exact .refl c
  | both first second ih1 ih2 =>
    intro c hc
    have h1 := ih1 hc
    have h2 := ih2 (h1.open hc)
    rw [h1.blocks, h1.length, h1.current, Outline.length_made] at h2
    exact h1.trans hc h2
  | scope key params inside ih =>
    intro c hc
    obtain ⟨hscopes, hstack, hblocks, hsaved⟩ := enter_spec c key params
    set entered := (visitor.enter key.boundary key.span params c).2 with hentered
    have hlength : entered.scopes.length = c.scopes.length + 1 := by simp [hscopes]
    have hcurrent : entered.current = c.scopes.length := by simp [Collector.current, hstack]
    have h := ih (c := entered) (by simp [Open, hcurrent, hlength])
    rw [hlength, hcurrent, hblocks] at h
    have hlast := modify_append_length
      (Scope.extend (inside.own none) (inside.kids (c.scopes.length + 1)))
      (c.scopes.modify c.current (Scope.extend [] [c.scopes.length]))
      ⟨key, some c.current, [], paramBindings params⟩ []
    rw [List.length_modify, ← hscopes] at hlast
    refine ⟨?_, ?_, ?_, ?_⟩
    · refine h.scopes.trans ?_
      rw [hcurrent]
      refine (congrArg (· ++ _) hlast).trans ?_
      simp [Scope.extend, Outline.own, Outline.kids, Outline.made]
    · exact (congrArg List.tail h.stack).trans (by simp [hstack])
    · exact (congrArg (List.headD · []) h.saved).trans (by simp [hsaved])
    · exact (congrArg List.tail h.saved).trans (by simp [hsaved])
  | block span inside ih =>
    intro c hc
    have h : Grown { c with blocks := span :: c.blocks } _ _ _ _ := ih hc
    exact ⟨h.scopes, h.stack, congrArg List.tail h.blocks, h.saved⟩
  | declare d => intro c hc; exact grown_visit_declare c d hc
  | choice span test hasAlternate inTest consequent alternate iht ihc iha =>
    intro c hc
    have h1 := iht hc
    have h2 := ihc (h1.open hc)
    have h3 := iha (h2.open (h1.open hc))
    rw [h2.blocks, h2.length, h2.current, h1.blocks, h1.length, h1.current, Outline.length_made,
      Outline.length_made] at h3
    rw [h1.blocks, h1.length, h1.current, Outline.length_made] at h2
    exact (h1.trans hc h2).trans hc h3

end Collector

/-- **The scopes of a program** are the program itself and those of its
functions, in the order in which they begin. -/
theorem ofProgram_scopes (p : Program) : (ScopeGraph.ofProgram p).scopes =
    ⟨.program, none, p.outline.kids 1, p.outline.own none⟩ :: p.outline.made 1 0 := by
  have hopen : Collector.start.Open := by simp [Collector.Open, Collector.current, Collector.start]
  have h := Collector.visit_collector p.outline hopen
  rw [← walkProgram_state] at h
  refine h.scopes.trans ?_
  simp [Collector.start, Collector.current, Scope.extend]

/-! ### Finding scopes -/

/-- A scope is found by its key if no scope after it has the same one. -/
theorem ScopeGraph.find?_of_split {g : ScopeGraph} {before after : List Scope} {s : Scope}
    (hsplit : g.scopes = before ++ s :: after) (hafter : s.key ∉ after.map (·.key)) :
    g.find? s.key = some before.length := by
  have hnone : (after.zipIdx (before.length + 1)).reverse.find? (·.1.key = s.key) = none := by
    refine List.find?_eq_none.mpr fun entry hentry hkey => hafter ?_
    have hmem := List.fst_mem_of_mem_zipIdx (List.mem_reverse.mp hentry)
    exact List.mem_map.mpr ⟨entry.1, hmem, by simpa using hkey⟩
  simp [find?, hsplit, List.zipIdx_append, List.find?_append, hnone]

/-- If no two scopes have the same key, a scope is found by its key. -/
theorem ScopeGraph.find?_of_nodup {g : ScopeGraph} (hkeys : (g.scopes.map (·.key)).Nodup)
    {id : Nat} {s : Scope} (hs : g.get? id = some s) : g.find? s.key = some id := by
  obtain ⟨hlt, rfl⟩ := List.getElem?_eq_some_iff.mp hs
  have hsplit : g.scopes = g.scopes.take id ++ g.scopes[id] :: g.scopes.drop (id + 1) := by
    rw [List.getElem_cons_drop, List.take_append_drop]
  rw [hsplit, List.map_append, List.map_cons] at hkeys
  have hafter := (List.nodup_cons.mp (List.nodup_append.mp hkeys).2.1).1
  rw [find?_of_split hsplit hafter, List.length_take, Nat.min_eq_left (Nat.le_of_lt hlt)]

end DeadBranch
