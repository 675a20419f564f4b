/-
# Scopes form a tree

The scopes of a program are linked both ways: a scope has the number of its parent, and the
parent has the numbers of its children. Collecting adds one scope at a time, the parent of
which is open and so older, and it adds the number of the new scope behind the children of
that parent. So at every moment the children of a scope are the numbers whose parent it is,
in increasing order (`ScopeGraph.Linked`), whatever is declared in between. From this the
scopes form a tree below the program, and the way from a scope outwards ends there.

Collecting keeps the open scopes, the open blocks and the blocks of the functions around on
three stacks. Each node of the syntax leaves them as it found them (`visit_opened`).

Key definitions: `ScopeGraph.Linked`, `ScopeGraph.IsTree`, `Node`.
Key theorems: `Linked.enter`, `visit_linked`, `Linked.isTree`, `visit_opened`,
`scopes_form_tree`.
-/
import DeadBranch.Proofs.Traversal
import Mathlib.Data.List.Nodup

namespace DeadBranch

/-! ### Links between scopes -/

namespace ScopeGraph

/-- The first scope is the only one without a parent, parents have smaller numbers, and the
children of a scope are the numbers whose parent it is, in order. -/
structure Linked (g : ScopeGraph) : Prop where
  root_iff : ∀ {id s}, g.get? id = some s → (s.parent = none ↔ id = 0)
  ascends : g.Ascends
  children : ∀ {id s}, g.get? id = some s →
    s.children = (List.range g.scopes.length).filter fun i => g.parent? i = some id

/-- The scopes of a tree: each but the first has a parent with a smaller number, and its
number stands in the children of that parent and nowhere else. -/
structure IsTree (g : ScopeGraph) : Prop where
  nonempty : 0 < g.scopes.length
  root_iff : ∀ id s, g.get? id = some s → (s.parent = none ↔ id = 0)
  parent_lt : ∀ id parent, g.parent? id = some parent → parent < id
  mem_children_iff : ∀ id s, g.get? id = some s → ∀ i, i ∈ s.children ↔ g.parent? i = some id
  count_children : ∀ id, 0 < id → id < g.scopes.length →
    (g.scopes.flatMap (·.children)).count id = 1
  children_increasing : ∀ s ∈ g.scopes, s.children.Pairwise (· < ·)

variable {g g' : ScopeGraph}

theorem lt_of_parent? {id parent : Nat} (h : g.parent? id = some parent) :
    id < g.scopes.length := by
  obtain ⟨s, hs, -⟩ := Option.bind_eq_some_iff.mp h
  exact (List.getElem?_eq_some_iff.mp hs).1

theorem Linked.mem_children_iff (h : g.Linked) {id : Nat} {s : Scope} (hs : g.get? id = some s)
    {i : Nat} : i ∈ s.children ↔ g.parent? i = some id := by
  rw [h.children hs, List.mem_filter, List.mem_range, decide_eq_true_eq]
  exact and_iff_right_of_imp lt_of_parent?

theorem Linked.children_increasing (h : g.Linked) {s : Scope} (hs : s ∈ g.scopes) :
    s.children.Pairwise (· < ·) := by
  obtain ⟨id, hid⟩ := List.mem_iff_getElem?.mp hs
  rw [h.children hid]
  exact List.pairwise_lt_range.filter _

/-- No number stands in the children of two scopes: it has one parent. -/
theorem Linked.nodup_children (h : g.Linked) : (g.scopes.flatMap (·.children)).Nodup := by
  rw [List.nodup_flatMap]
  refine ⟨fun s hs => (h.children_increasing hs).imp Nat.ne_of_lt, ?_⟩
  rw [List.pairwise_iff_getElem]
  intro i j hi hj hlt kid hkid hkid'
  have hi := (h.mem_children_iff (List.getElem?_eq_getElem hi)).mp hkid
  have hj := (h.mem_children_iff (List.getElem?_eq_getElem hj)).mp hkid'
  rw [hi, Option.some.injEq] at hj
  omega

theorem Linked.isTree (h : g.Linked) (hne : 0 < g.scopes.length) : g.IsTree where
  nonempty := hne
  root_iff _ _ := h.root_iff
  parent_lt := h.ascends
  mem_children_iff _ _ hs _ := h.mem_children_iff hs
  children_increasing _ := h.children_increasing
  count_children id hpos hlt := by
    refine List.count_eq_one_of_mem h.nodup_children ?_
    have hs : g.get? id = some g.scopes[id] := List.getElem?_eq_getElem hlt
    obtain ⟨parent, hparent⟩ : ∃ parent, g.parent? id = some parent := by
      rw [parent?, hs]
      exact Option.ne_none_iff_exists'.mp fun hnone =>
        Nat.ne_of_gt hpos ((h.root_iff hs).mp hnone)
    have hparent' : parent < g.scopes.length := Nat.lt_trans (h.ascends id parent hparent) hlt
    have hmem := (h.mem_children_iff (List.getElem?_eq_getElem hparent')).mpr hparent
    exact List.mem_flatMap.mpr ⟨_, List.getElem_mem hparent', hmem⟩

/-- Where bindings and children are added the parent stays. -/
theorem parent?_of_extend {current id : Nat} {bindings : List Binding} {children : List Nat}
    (hget : g'.get? id =
      (g.get? id).map fun s => if current = id then s.extend bindings children else s) :
    g'.parent? id = g.parent? id := by
  rw [parent?, parent?, hget, Option.bind_map]
  refine congrArg _ (funext fun s => ?_)
  dsimp only [Function.comp_apply]
  split <;> rfl

/-- More bindings change no link. -/
theorem Linked.declare (h : g.Linked) {current : Nat} {bindings : List Binding}
    (hscopes : g'.scopes = g.scopes.modify current (Scope.extend bindings [])) : g'.Linked := by
  have hget (id : Nat) : g'.get? id =
      (g.get? id).map fun s => if current = id then s.extend bindings [] else s := by
    rw [get?, hscopes, List.getElem?_modify]
    rfl
  have hparent (id : Nat) : g'.parent? id = g.parent? id := parent?_of_extend (hget id)
  have hlength : g'.scopes.length = g.scopes.length := by rw [hscopes, List.length_modify]
  have hsame {id s'} (hs' : g'.get? id = some s') :
      ∃ s, g.get? id = some s ∧ s'.parent = s.parent ∧ s'.children = s.children := by
    rw [hget, Option.map_eq_some_iff] at hs'
    obtain ⟨s, hs, rfl⟩ := hs'
    refine ⟨s, hs, ?_⟩
    split <;> simp [Scope.extend]
  refine ⟨fun hs' => ?_, fun id parent hid => h.ascends id parent (hparent id ▸ hid), fun hs' => ?_⟩
  · obtain ⟨s, hs, hp, -⟩ := hsame hs'
    rw [hp, h.root_iff hs]
  · obtain ⟨s, hs, -, hc⟩ := hsame hs'
    simp only [hc, h.children hs, hlength, hparent]

section Enter

variable {current : Nat} {key : ScopeKey} {bindings : List Binding}
  (hscopes : g'.scopes = g.scopes.modify current (Scope.extend [] [g.scopes.length]) ++
    [⟨key, some current, [], bindings⟩])

include hscopes

theorem get?_enter_of_lt {id : Nat} (hid : id < g.scopes.length) : g'.get? id =
    (g.get? id).map fun s => if current = id then s.extend [] [g.scopes.length] else s := by
  rw [get?, hscopes, List.getElem?_append_left (by simpa using hid), List.getElem?_modify]
  rfl

theorem get?_enter_length :
    g'.get? g.scopes.length = some ⟨key, some current, [], bindings⟩ := by
  simp [get?, hscopes]

theorem parent?_enter_length : g'.parent? g.scopes.length = some current := by
  rw [parent?, get?_enter_length hscopes]
  rfl

/-- A number is an old one or the new one. -/
theorem lt_or_eq_of_get?_enter {id : Nat} {s : Scope} (hs : g'.get? id = some s) :
    id < g.scopes.length ∨ id = g.scopes.length := by
  have hlt := (List.getElem?_eq_some_iff.mp hs).1
  simp only [hscopes, List.length_append, List.length_modify, List.length_singleton] at hlt
  omega

/-- The new number joins those whose parent is the innermost open scope. -/
theorem filter_parent?_enter (id : Nat) :
    (List.range g'.scopes.length).filter (fun i => g'.parent? i = some id) =
      (List.range g.scopes.length).filter (fun i => g.parent? i = some id) ++
        if current = id then [g.scopes.length] else [] := by
  have hlength : g'.scopes.length = g.scopes.length + 1 := by simp [hscopes]
  rw [hlength, List.range_succ, List.filter_append]
  refine congr (congrArg _ (List.filter_congr fun i hi => ?_)) ?_
  · rw [parent?_of_extend (get?_enter_of_lt hscopes (List.mem_range.mp hi))]
  · simp [List.filter_singleton, parent?_enter_length hscopes]

/-- A new scope below an older one, as its last child. -/
theorem Linked.enter (h : g.Linked) (hcurrent : current < g.scopes.length) : g'.Linked := by
  refine ⟨fun {id s'} hs' => ?_, fun id parent hid => ?_, fun {id s'} hs' => ?_⟩
  · rcases lt_or_eq_of_get?_enter hscopes hs' with hid | rfl
    · rw [get?_enter_of_lt hscopes hid, Option.map_eq_some_iff] at hs'
      obtain ⟨s, hs, rfl⟩ := hs'
      rw [← h.root_iff hs]
      split <;> rfl
    · rw [get?_enter_length hscopes, Option.some.injEq] at hs'
      subst hs'
      exact iff_of_false (Option.some_ne_none current) (by omega)
  · obtain ⟨s, hs, -⟩ := Option.bind_eq_some_iff.mp hid
    rcases lt_or_eq_of_get?_enter hscopes hs with hlt | rfl
    · rw [parent?_of_extend (get?_enter_of_lt hscopes hlt)] at hid
      exact h.ascends id parent hid
    · rw [parent?_enter_length hscopes, Option.some.injEq] at hid
      omega
  · rw [filter_parent?_enter hscopes]
    rcases lt_or_eq_of_get?_enter hscopes hs' with hid | rfl
    · rw [get?_enter_of_lt hscopes hid, Option.map_eq_some_iff] at hs'
      obtain ⟨s, hs, rfl⟩ := hs'
      rw [← h.children hs]
      split <;> simp [Scope.extend]
    · rw [get?_enter_length hscopes, Option.some.injEq] at hs'
      subst hs'
      -- nobody has a parent that is not there
      rw [if_neg (by omega), List.append_nil]
      refine (List.filter_eq_nil_iff.mpr fun i hi hp => ?_).symm
      have hlt := h.ascends i _ (of_decide_eq_true hp)
      have hi := List.mem_range.mp hi
      omega

end Enter

end ScopeGraph

/-! ### Collecting keeps the links -/

namespace Collector

/-- The scopes that were collected so far. -/
def graph (c : Collector) : ScopeGraph := ⟨c.scopes, c.completed⟩

/-- Collecting from an outline keeps the scopes linked. -/
theorem visit_linked (o : Outline) : ∀ {c : Collector}, c.Open → c.graph.Linked →
    (o.visit visitor c).graph.Linked := by
  induction o with
  | blank => intro c _ h; exact h
  | both first second ih1 ih2 =>
    intro c hc h
    exact ih2 ((visit_collector first hc).open hc) (ih1 hc h)
  | scope key params inside ih =>
    intro c hc h
    obtain ⟨hscopes, hstack, -, -⟩ := enter_spec c key params
    -- leaving the function changes the stacks alone
    have hinside := ih (c := (visitor.enter key.boundary key.span params c).2)
      (by simp [Open, Collector.current, hscopes, hstack]) (.enter (g := c.graph) hscopes h hc)
    exact ⟨hinside.root_iff, hinside.ascends, hinside.children⟩
  | block span inside ih =>
    intro c hc h
    have hinside := ih (c := { c with blocks := span :: c.blocks }) hc
      ⟨h.root_iff, h.ascends, h.children⟩
    exact ⟨hinside.root_iff, hinside.ascends, hinside.children⟩
  | declare d =>
    intro c hc h
    exact h.declare ((grown_visit_declare c d hc).scopes.trans (List.append_nil _))
  | choice span test hasAlternate inTest consequent alternate iht ihc iha =>
    intro c hc h
    have hc1 := (visit_collector inTest hc).open hc
    have hc2 := (visit_collector consequent hc1).open hc1
    exact iha hc2 (ihc hc1 (iht hc h))

/-! ### Collecting is balanced -/

@[simp] theorem leave_apply (c : Collector) : (visitor.leave c).2 = c.leave := rfl

@[simp] theorem openBlock_apply (span : Span) (c : Collector) :
    (visitor.openBlock span c).2 = { c with blocks := span :: c.blocks } := rfl

@[simp] theorem closeBlock_apply (c : Collector) :
    (visitor.closeBlock c).2 = { c with blocks := c.blocks.tail } := rfl

/-- The open scopes, the open blocks, and those of the functions around. -/
def opened (c : Collector) : List Nat × List Span × List (List Span) :=
  (c.stack, c.blocks, c.saved)

theorem opened_declare (kind : BindingKind) (name : String) (d : Option Declarator)
    (c : Collector) : (c.declare kind name d).opened = c.opened := rfl

theorem opened_foldl {α : Type} {step : Collector → α → Collector}
    (hstep : ∀ c x, (step c x).opened = c.opened) (xs : List α) :
    ∀ c : Collector, (xs.foldl step c).opened = c.opened := by
  induction xs with
  | nil => intro c; rfl
  | cons x xs ih => intro c; exact (ih (step c x)).trans (hstep c x)

theorem opened_declareNames (kind : BindingKind) (names : List String) (c : Collector) :
    (names.foldl (fun c name => c.declare kind name none) c).opened = c.opened :=
  opened_foldl (fun c name => opened_declare kind name none c) names c

theorem opened_declareVar (kind : VarKind) (c : Collector) (d : Declarator) :
    (c.declareVar kind d).opened = c.opened := by
  obtain ⟨target, init⟩ := d
  unfold declareVar
  dsimp only
  split
  · exact opened_declare _ _ _ c
  · exact opened_declareNames _ _ c

theorem opened_visit_declare (d : Declaration) (c : Collector) :
    (visitor.declare d c).2.opened = c.opened := by
  cases d with
  | vars kind declarators => exact opened_foldl (opened_declareVar kind) declarators c
  | function name => rfl
  | classDecl name => rfl
  | caught pattern => exact opened_declareNames .letKind pattern.boundNames c
  | imports names => exact opened_declareNames .imported names c

/-- Collecting from an outline leaves the stacks as they were. -/
theorem visit_opened (o : Outline) : ∀ c : Collector, (o.visit visitor c).opened = c.opened := by
  induction o with
  | blank => intro c; rfl
  | both first second ih1 ih2 => intro c; exact (ih2 _).trans (ih1 c)
  | scope key params inside ih =>
    intro c
    obtain ⟨-, hstack, hblocks, hsaved⟩ := enter_spec c key params
    have hinside := ih (visitor.enter key.boundary key.span params c).2
    simp only [opened, hstack, hblocks, hsaved, Prod.mk.injEq] at hinside
    obtain ⟨hstack', -, hsaved'⟩ := hinside
    -- what was pushed on entering is popped on leaving
    simp only [opened, Outline.visit, leave_apply, leave, hstack', hsaved', List.tail_cons,
      List.headD_cons]
  | block span inside ih =>
    intro c
    have hinside := ih (visitor.openBlock span c).2
    simp only [opened, openBlock_apply, Prod.mk.injEq] at hinside
    obtain ⟨hstack, hblocks, hsaved⟩ := hinside
    simp only [opened, Outline.visit, openBlock_apply, closeBlock_apply, hstack, hblocks, hsaved,
      List.tail_cons]
  | declare d => intro c; exact opened_visit_declare d c
  | choice span test hasAlternate inTest consequent alternate iht ihc iha =>
    intro c
    exact ((iha _).trans (ihc _)).trans (iht c)

end Collector

/-! ### Nodes of the syntax -/

/-- A node of the syntax, of any sort. -/
inductive Node where
  | expr (e : Expr)
  | key (k : Key)
  | property (p : Property)
  | closure (c : Closure)
  | block (b : Block)
  | declarator (d : Declarator)
  | decl (d : Decl)
  | loopHead (h : LoopHead)
  | stmt (t : Stmt)
  | case (c : Case)
  | handler (h : Handler)
  | item (i : Item)
  | program (p : Program)

namespace Node

variable {σ : Type} (v : Visitor σ)

/-- The state of a visitor after a walk through a node. -/
def walk (s : σ) : Node → σ
  | expr e => (walkExpr v e s).2
  | key k => (walkKey v k s).2
  | property p => (walkProperty v p s).2
  | closure c => (walkClosure v c s).2
  | block b => (walkBlock v b s).2
  | declarator d => (walkDeclarator v d s).2
  | decl d => (walkDecl v d s).2
  | loopHead h => (walkLoopHead v h s).2
  | stmt t => (walkStmt v t s).2
  | case c => (walkCase v c s).2
  | handler h => (walkHandler v (some h) s).2
  | item i => (walkItem v i s).2
  | program p => (walkProgram v p s).2

/-- Whatever the sort of a node, an outline tells what a walk through it does. -/
theorem exists_outline (n : Node) : ∃ o : Outline, ∀ s, n.walk v s = o.visit v s := by
  cases n with
  | expr e => exact ⟨_, fun s => walkExpr_state v s e⟩
  | key k => exact ⟨_, fun s => walkKey_state v s k⟩
  | property p => exact ⟨_, fun s => walkProperty_state v s p⟩
  | closure c => exact ⟨_, fun s => walkClosure_state v s c⟩
  | block b => exact ⟨_, fun s => walkBlock_state v s b⟩
  | declarator d => exact ⟨_, fun s => walkDeclarator_state v s d⟩
  | decl d => exact ⟨_, fun s => walkDecl_state v s d⟩
  | loopHead h => exact ⟨_, fun s => walkLoopHead_state v s h⟩
  | stmt t => exact ⟨_, fun s => walkStmt_state v s t⟩
  | case c => exact ⟨_, fun s => walkCase_state v s c⟩
  | handler h => exact ⟨_, fun s => walkHandler_state v s (some h)⟩
  | item i => exact ⟨_, fun s => walkItem_state v s i⟩
  | program p => exact ⟨_, fun s => walkProgram_state v s p⟩

theorem opened_walk (n : Node) (c : Collector) :
    (n.walk Collector.visitor c).opened = c.opened := by
  obtain ⟨o, ho⟩ := n.exists_outline Collector.visitor
  rw [ho, Collector.visit_opened]

end Node

/-! ### The tree of a program -/

theorem ofProgram_linked (p : Program) : (ScopeGraph.ofProgram p).Linked := by
  have hstart : Collector.start.graph.Linked := by
    have hroot {id s} (hs : Collector.start.graph.get? id = some s) :
        id = 0 ∧ s = ⟨.program, none, [], []⟩ := by
      obtain ⟨hlt, rfl⟩ := List.getElem?_eq_some_iff.mp hs
      obtain rfl : id = 0 := Nat.lt_one_iff.mp hlt
      exact ⟨rfl, rfl⟩
    refine ⟨fun hs => ?_, fun id parent hid => ?_, fun hs => ?_⟩
    · obtain ⟨rfl, rfl⟩ := hroot hs
      exact iff_of_true rfl rfl
    · obtain ⟨s, hs, hparent⟩ := Option.bind_eq_some_iff.mp hid
      obtain ⟨-, rfl⟩ := hroot hs
      cases hparent
    · obtain ⟨rfl, rfl⟩ := hroot hs
      rfl
  have hopen : Collector.start.Open := Nat.one_pos
  have h := Collector.visit_linked p.outline hopen hstart
  rw [← walkProgram_state] at h
  exact h

namespace ScopeGraph

variable {g : ScopeGraph}

/-- The way outwards goes from scope to parent and ends in the program. -/
theorem Linked.ancestors (h : g.Linked) (id : Nat) : id < g.scopes.length →
    (g.ancestors id).head? = some id ∧
      (g.ancestors id).IsChain (fun i parent => g.parent? i = some parent) ∧
      (g.ancestors id).getLast? = some 0 := by
  induction id using Nat.strongRecOn with
  | _ id ih =>
    intro hid
    have hs : g.get? id = some g.scopes[id] := List.getElem?_eq_getElem hid
    cases hparent : g.parent? id with
    | none =>
      rw [parent?, hs] at hparent
      obtain rfl := (h.root_iff hs).mp hparent
      rw [ancestors_of_none (by rw [parent?, hs]; exact hparent)]
      exact ⟨rfl, .singleton 0, rfl⟩
    | some parent =>
      have hlt := h.ascends id parent hparent
      obtain ⟨hhead, hchain, hlast⟩ := ih parent hlt (Nat.lt_trans hlt hid)
      obtain ⟨outer, houter⟩ := g.ancestors_head parent
      rw [ancestors_eq_cons h.ascends hparent]
      rw [houter] at hchain hlast ⊢
      exact ⟨rfl, .cons_cons hparent hchain, by rw [List.getLast?_cons_cons, hlast]⟩

end ScopeGraph

theorem ofProgram_keys (p : Program) :
    (ScopeGraph.ofProgram p).scopes.map (·.key) = .program :: p.outline.keys := by
  rw [ofProgram_scopes, List.map_cons, Outline.made_keys]

@[simp] theorem ScopeKey.program_ne_function (key : FunctionKey) : program ≠ function key := by
  intro h
  have hkind : ScopeKind.program = key.boundary.kind := congrArg ScopeKey.boundary h
  cases hkey : key.boundary <;> simp [hkey, Boundary.kind] at hkind

theorem Outline.program_notMem_keys (o : Outline) : .program ∉ o.keys := by
  induction o with
  | blank | declare _ => simp [keys]
  | both first second ih1 ih2 => simp [keys, ih1, ih2]
  | scope key params inside ih | block span inside ih => simp [keys, ih]
  | choice span test hasAlternate inTest consequent alternate iht ihc iha =>
    simp [keys, iht, ihc, iha]

/-- A function is found by its kind and range if no other function has them, and the program
is always found. -/
theorem ofProgram_find? {p : Program} (hkeys : p.outline.keys.Nodup) {id : Nat} {s : Scope}
    (hs : (ScopeGraph.ofProgram p).get? id = some s) :
    (ScopeGraph.ofProgram p).find? s.key = some id := by
  have hkey : (ScopeKey.program :: p.outline.keys)[id]? = some s.key := by
    rw [← ofProgram_keys, List.getElem?_map]
    exact congrArg (Option.map (·.key)) hs
  have hafter : s.key ∉ ((ScopeGraph.ofProgram p).scopes.drop (id + 1)).map (·.key) := by
    rw [List.map_drop, ofProgram_keys, List.drop_succ_cons]
    cases id with
    | zero =>
      have hprogram : ScopeKey.program = s.key := Option.some.inj hkey
      exact hprogram ▸ p.outline.program_notMem_keys
    | succ id =>
      obtain ⟨hid, hkey⟩ := List.getElem?_eq_some_iff.mp (List.getElem?_cons_succ ▸ hkey)
      rw [← List.take_append_drop id p.outline.keys, ← List.getElem_cons_drop hid, hkey] at hkeys
      exact (List.nodup_cons.mp (List.nodup_append.mp hkeys).2.1).1
  obtain ⟨hlt, rfl⟩ := List.getElem?_eq_some_iff.mp hs
  have hsplit := List.take_append_drop id (ScopeGraph.ofProgram p).scopes
  rw [← List.getElem_cons_drop hlt] at hsplit
  rw [ScopeGraph.find?_of_split hsplit.symm hafter, List.length_take,
    Nat.min_eq_left (Nat.le_of_lt hlt)]

/-- **Scopes form a tree, and collecting them is balanced.** Every scope of a program but
the program itself has a parent with a smaller number, and stands once among the children of
all scopes, there in order. The way from a scope outwards goes from parent to parent down to
the program. A walk through any node leaves the open scopes, the open blocks and the blocks
of the functions around as they were. And if no two functions have the same kind and range,
each scope is found by its key. -/
theorem scopes_form_tree (p : Program) :
    let g := ScopeGraph.ofProgram p
    g.IsTree ∧
      (∀ id < g.scopes.length, (g.ancestors id).head? = some id ∧
        (g.ancestors id).IsChain (fun i parent => g.parent? i = some parent) ∧
        (g.ancestors id).Pairwise (· > ·) ∧ (g.ancestors id).getLast? = some 0) ∧
      (∀ (n : Node) (c : Collector),
        let c' := n.walk Collector.visitor c
        c'.stack = c.stack ∧ c'.blocks = c.blocks ∧ c'.saved = c.saved) ∧
      (p.outline.keys.Nodup → ∀ id s, g.get? id = some s → g.find? s.key = some id) := by
  intro g
  have hlinked : g.Linked := ofProgram_linked p
  refine ⟨hlinked.isTree ?_, fun id hid => ?_, fun n c => ?_, fun hkeys id s hs => ?_⟩
  · rw [← List.length_map (·.key), ofProgram_keys]
    exact Nat.succ_pos _
  · obtain ⟨hhead, hchain, hlast⟩ := hlinked.ancestors id hid
    exact ⟨hhead, hchain, g.ancestors_pairwise hlinked.ascends id, hlast⟩
  · simpa only [Collector.opened, Prod.mk.injEq] using n.opened_walk c
  · exact ofProgram_find? hkeys hs

/-- The tree of `function f(p) { const g = () => { const e = true; }; }`. -/
def nestedArrow : Program :=
  ⟨.script, none, [.stmt (.decl (.function "f" (.block ⟨.function, some "f", false, false⟩ ⟨0, 54⟩
    [.ident "p"] (.mk ⟨14, 54⟩ [.decl (.vars .constKind [.mk (.ident "g")
      (.closure (.block ⟨.arrow, none, false, false⟩ ⟨26, 51⟩ []
        (.mk ⟨32, 51⟩ [.decl (.vars .constKind [.mk (.ident "e")
          (.literal (.bool true))])])))])]))))]⟩

/-- The arrow function is the third scope, found by its kind and range, and two steps below
the program. -/
theorem nestedArrow_tree :
    let g := ScopeGraph.ofProgram nestedArrow
    nestedArrow.outline.keys.Nodup ∧ g.IsTree ∧ g.ancestors 2 = [2, 1, 0] ∧
      (g.ancestors 2).getLast? = some 0 ∧ g.find? (.function ⟨.arrow, ⟨26, 51⟩⟩) = some 2 ∧
      g.find? .program = some 0 := by
  intro g
  have hkeys : nestedArrow.outline.keys.Nodup := by decide +kernel
  obtain ⟨htree, hancestors, -, hfound⟩ := scopes_form_tree nestedArrow
  have hkey {id : Nat} {key : ScopeKey} (h : (g.get? id).map (·.key) = some key) :
      g.find? key = some id := by
    obtain ⟨s, hs, rfl⟩ := Option.map_eq_some_iff.mp h
    exact hfound hkeys id s hs
  refine ⟨hkeys, htree, by decide +kernel, (hancestors 2 ?_).2.2.2, hkey ?_, hkey ?_⟩
  · decide +kernel
  · decide +kernel
  · decide +kernel

end DeadBranch
