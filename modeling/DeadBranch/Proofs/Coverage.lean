/-
# Which names the scopes of a program have

The scopes of a program are meant to have every name that an `if` statement can
refer to: if a name resolves to a declaration of the program, some scope around
the statement has a visible binding of it. This holds of variables, parameters,
functions, classes, imports and parameters of catch clauses
(`names_of_conditionals`), wherever an `if` statement starts in the blocks that it
is written in. It does not hold of the own name of a function or class expression
and of the name of a default export, for which no binding is made: such a name is
read as that of a further binding outside, or as one with a fixed value
(`exists_uncollected_name`).

The converse does not hold and is not needed: more is visible by range than the
environments have, such as the names of a `switch` in its subject.

Key definitions: `Construct.isCollected`, `Setting.Covered`, `Outline.met`.
Key theorems: `Region.exists_own_of_direct`, `Region.inherited_covered`,
`Outline.conditionals_eq_met`.
-/
import DeadBranch.Proofs.Environments
import DeadBranch.Proofs.Standing
import DeadBranch.Proofs.Traversal

namespace DeadBranch

/-- Is a binding made for a name that is known in this way? -/
def Construct.isCollected : Construct → Bool
  | .ownName | .defaultExport => false
  | _ => true

/-! ### Bindings for declared names -/

/-- A binding for a name in a block: it is confined to the block, or spans its
scope and is not that of a constant. -/
structure Binding.Serves (b : Binding) (name : String) (block : Option Span) : Prop where
  name : b.name = name
  extent : b.block = block ∨ b.block = none ∧ b.kind ≠ .constKind

theorem Binding.serves_plain (kind : BindingKind) (name : String) {block : Option Span}
    (h : kind.isLexical = false → kind ≠ .constKind) :
    (Binding.plain kind block name).Serves name block := by
  refine ⟨rfl, ?_⟩
  cases hkind : kind.isLexical with
  | true => exact .inl (by simp [plain, hkind])
  | false => exact .inr ⟨by simp [plain, hkind], h hkind⟩

/-- Every name of a pattern is bound. -/
theorem Declarator.exists_binding (kind : VarKind) (block : Option Span) {target init : Expr}
    {name : String} (h : name ∈ target.boundNames) :
    ∃ b ∈ (Declarator.mk target init).bindings kind block, b.name = name ∧
      b.kind = .ofVarKind kind ∧
      b.block = if (BindingKind.ofVarKind kind).isLexical then block else none := by
  by_cases hplain : ∀ name, kind = .constKind → target ≠ .ident name
  · rw [Declarator.bindings_of_ne _ _ hplain]
    exact ⟨_, List.mem_map_of_mem h, rfl, rfl, rfl⟩
  · obtain ⟨name', rfl, rfl⟩ : ∃ name, kind = .constKind ∧ target = .ident name := by
      simpa using hplain
    obtain rfl : name = name' := by simpa [Expr.boundNames] using h
    exact ⟨_, List.mem_singleton_self _, rfl, rfl, rfl⟩

theorem Declaration.exists_binding_of_lexical (block : Option Span) {d : Declaration}
    {m : Declared} (h : m ∈ d.lexical) : ∃ b ∈ d.bindings block, b.Serves m.name block := by
  cases d with
  | vars kind declarators =>
    have hvar : kind ≠ .varKind := by
      rintro rfl
      simp [lexical] at h
    have hlexical : (BindingKind.ofVarKind kind).isLexical = true := by
      cases kind <;> simp_all [BindingKind.ofVarKind, BindingKind.isLexical]
    rw [lexical] at h
    · obtain ⟨name, hname, rfl⟩ := List.mem_map.mp h
      obtain ⟨⟨target, init⟩, hd, hname⟩ := List.mem_flatMap.mp hname
      obtain ⟨b, hb, hbname, -, hblock⟩ := Declarator.exists_binding kind block hname
      refine ⟨b, List.mem_flatMap.mpr ⟨_, hd, hb⟩, hbname, .inl ?_⟩
      rw [hblock, if_pos hlexical]
    · exact hvar
  | function name =>
    obtain rfl := List.mem_singleton.mp h
    exact ⟨_, List.mem_singleton_self _, Binding.serves_plain _ _ (by simp)⟩
  | classDecl name =>
    obtain rfl := List.mem_singleton.mp h
    exact ⟨_, List.mem_singleton_self _, Binding.serves_plain _ _ (by simp)⟩
  | caught pattern =>
    obtain ⟨name, hname, rfl⟩ := List.mem_map.mp h
    exact ⟨_, List.mem_map_of_mem hname, Binding.serves_plain _ _ (by simp)⟩
  | imports names =>
    obtain ⟨name, hname, rfl⟩ := List.mem_map.mp h
    exact ⟨_, List.mem_map_of_mem hname, Binding.serves_plain _ _ (by simp)⟩

theorem Declaration.exists_binding_of_hoisted (block : Option Span) {d : Declaration}
    {m : Declared} (h : m ∈ d.hoisted) :
    ∃ b ∈ d.bindings block, b.name = m.name ∧ b.block = none ∧ b.kind ≠ .constKind := by
  cases d with
  | vars kind declarators =>
    cases kind with
    | varKind =>
      obtain ⟨name, hname, rfl⟩ := List.mem_map.mp h
      obtain ⟨⟨target, init⟩, hd, hname⟩ := List.mem_flatMap.mp hname
      obtain ⟨b, hb, hbname, hkind, hblock⟩ := Declarator.exists_binding .varKind block hname
      refine ⟨b, List.mem_flatMap.mpr ⟨_, hd, hb⟩, hbname, hblock, ?_⟩
      rw [hkind]
      simp [BindingKind.ofVarKind]
    | constKind | letKind => simp [hoisted] at h
  | function name =>
    obtain rfl := List.mem_singleton.mp h
    exact ⟨_, List.mem_singleton_self _, rfl, rfl, by simp [Binding.plain]⟩
  | classDecl _ | caught _ | imports _ => simp [hoisted] at h

theorem exists_mem_append {α β : Type} {rel : α → β → Prop} {xs xs' : List α} {ys ys' : List β}
    (h : ∀ x ∈ xs, ∃ y ∈ ys, rel x y) (h' : ∀ x ∈ xs', ∃ y ∈ ys', rel x y) :
    ∀ x ∈ xs ++ xs', ∃ y ∈ ys ++ ys', rel x y := by
  intro x hx
  rcases List.mem_append.mp hx with hx | hx
  · obtain ⟨y, hy, hrel⟩ := h x hx
    exact ⟨y, List.mem_append_left _ hy, hrel⟩
  · obtain ⟨y, hy, hrel⟩ := h' x hx
    exact ⟨y, List.mem_append_right _ hy, hrel⟩

namespace Region

/-- **Every name that a region gives to the block around it** has a binding in
the scope. -/
theorem exists_own_of_direct (r : Region) : ∀ (block : Option Span), ∀ m ∈ r.direct,
    ∃ b ∈ r.outline.own block, b.Serves m.name block := by
  induction r with
  | both first second ih1 ih2 =>
    intro block
    rw [outline, Outline.own_andThen]
    exact exists_mem_append (ih1 block) (ih2 block)
  | declare d => intro block m h; exact d.exists_binding_of_lexical block h
  | choice span test hasAlternate inTest consequent alternate iht ihc iha =>
    intro block
    exact exists_mem_append (exists_mem_append (iht block) (ihc block)) (iha block)
  | blank | named _ _ _ | function _ _ _ _ _ _ _ _ | block _ _ _ _ _ | staticBlock _ _ _ =>
    simp [direct]

/-- Every name that a region gives to the function around it has a binding in
the scope that spans it. -/
theorem exists_own_of_hoisted (r : Region) : ∀ (block : Option Span), ∀ m ∈ r.hoisted,
    ∃ b ∈ r.outline.own block, b.name = m.name ∧ b.block = none ∧ b.kind ≠ .constKind := by
  induction r with
  | both first second ih1 ih2 =>
    intro block
    rw [outline, Outline.own_andThen]
    exact exists_mem_append (ih1 block) (ih2 block)
  | block span subject inside ihs ihi =>
    intro block
    rw [outline, Outline.own, Outline.own_andThen]
    exact exists_mem_append (ihs (some span)) (ihi (some span))
  | declare d => intro block m h; exact d.exists_binding_of_hoisted block h
  | choice span test hasAlternate inTest consequent alternate iht ihc iha =>
    intro block
    exact exists_mem_append (exists_mem_append (iht block) (ihc block)) (iha block)
  | blank | named _ _ _ | function _ _ _ _ _ _ _ _ | staticBlock _ _ _ => simp [hoisted]

end Region

theorem exists_paramBinding {params : List Expr} {m : Declared} (h : m ∈ paramNames params)
    (block : Option Span) : ∃ b ∈ paramBindings params, b.Serves m.name block := by
  obtain ⟨name, hname, rfl⟩ := List.mem_map.mp h
  obtain ⟨p, hp, hname⟩ := List.mem_flatMap.mp hname
  refine ⟨_, List.mem_flatMap.mpr ⟨p, hp, List.mem_map_of_mem hname⟩, rfl, .inr ⟨rfl, ?_⟩⟩
  simp [Binding.plain]

/-! ### Regions in the graph -/

section Graph

variable {g : ScopeGraph}

/-- A scope of the graph has a binding. -/
def ScopeGraph.Binds (g : ScopeGraph) (id : Nat) (b : Binding) : Prop :=
  ∃ s, g.get? id = some s ∧ b ∈ s.bindings

/-- The scopes of a region stand in the graph, and so do the bindings that it
gives to the scope around it. -/
structure Region.Stands (g : ScopeGraph) (r : Region) (next : Nat) (here : Setting) : Prop where
  holds : g.Holds next here.scope r.outline
  binds : ∀ b ∈ r.outline.own here.block, g.Binds here.scope b

/-- What a function that stands in the graph looks like there. -/
theorem Region.Stands.function {key : FunctionKey} {params : List Expr}
    {inKey inParams body : Region} {next : Nat} {here : Setting}
    (h : (Region.function key params inKey inParams body).Stands g next here) :
    g.parent? next = some here.scope ∧ (∀ b ∈ paramBindings params, g.Binds next b) ∧
      ∀ chain, inKey.Stands g (next + 1) ⟨next, none, chain⟩ ∧
        inParams.Stands g (next + 1 + inKey.count) ⟨next, none, chain⟩ ∧
        body.Stands g (next + 1 + inKey.count + inParams.count) ⟨next, none, chain⟩ := by
  obtain ⟨hget, hinside⟩ := h.holds.numbered
  obtain ⟨hkey, hrest⟩ := hinside.andThen
  obtain ⟨hparams, hbody⟩ := hrest.andThen
  have hbinds : ∀ b ∈ paramBindings params ++ (inKey.outline.own none ++
      (inParams.outline.own none ++ body.outline.own none)), g.Binds next b := by
    intro b hb
    refine ⟨_, hget, ?_⟩
    rwa [Outline.functionBindings, Outline.own_andThen, Outline.own_andThen]
  simp only [List.forall_mem_append] at hbinds
  refine ⟨by simp [ScopeGraph.parent?, hget], hbinds.1, fun chain => ?_⟩
  exact ⟨⟨hkey, hbinds.2.1⟩, ⟨hparams, hbinds.2.2.1⟩, ⟨hbody, hbinds.2.2.2⟩⟩

/-- Standing in the graph passes on to all parts. -/
theorem Region.inherited_stands (g : ScopeGraph) :
    Inherited fun r next here => r.Stands g next here where
  both := by
    intro first second next here h
    obtain ⟨h1, h2⟩ := h.holds.andThen
    have hown := h.binds
    rw [outline, Outline.own_andThen, List.forall_mem_append] at hown
    exact ⟨⟨h1, hown.1⟩, ⟨h2, hown.2⟩⟩
  named := fun h => ⟨h.holds, h.binds⟩
  function := by
    intro key params inKey inParams body next here h
    have hparts := h.function.2.2
    exact ⟨(hparts _).1, (hparts _).2.1, (hparts _).2.2⟩
  block := by
    intro span subject inside next here h
    obtain ⟨h1, h2⟩ := ScopeGraph.Holds.andThen h.holds
    have hown := h.binds
    rw [outline, Outline.own, Outline.own_andThen, List.forall_mem_append] at hown
    exact ⟨⟨h1, hown.1⟩, ⟨h2, hown.2⟩⟩
  staticBlock := fun h => ⟨h.holds, h.binds⟩
  choice := by
    intro span test hasAlternate inTest consequent alternate next here h
    obtain ⟨h1, h2, h3⟩ := h.holds.choice
    have hown := h.binds
    simp only [outline, Outline.own, List.forall_mem_append] at hown
    exact ⟨⟨h1, hown.1.1⟩, ⟨h2, hown.1.2⟩, ⟨h3, hown.2⟩⟩

/-- The environments around have a binding in the graph for each of their names
that is collected. -/
structure Environment.Covered (g : ScopeGraph) (scope : Nat) (e : Environment) : Prop where
  around : e.function ∈ g.ancestors scope
  served : ∀ m ∈ e.names, m.construct.isCollected = true →
    ∃ b, g.Binds e.function b ∧ b.Serves m.name e.range

/-- The environments around something are covered. -/
def Setting.Covered (g : ScopeGraph) (here : Setting) : Prop :=
  ∀ e ∈ here.chain, e.Covered g here.scope

theorem ScopeGraph.mem_ancestors_self (g : ScopeGraph) (id : Nat) : id ∈ g.ancestors id := by
  obtain ⟨outer, houter⟩ := g.ancestors_head id
  simp [houter]

/-- In a block whose names have bindings. -/
theorem Setting.Covered.inBlock {here : Setting} (h : here.Covered g) (span : Span)
    {names : List Declared}
    (hnames : ∀ m ∈ names, ∃ b, g.Binds here.scope b ∧ b.Serves m.name (some span)) :
    (here.inBlock span names).Covered g :=
  List.forall_mem_cons.mpr ⟨⟨g.mem_ancestors_self _, fun m hm _ => hnames m hm⟩, h⟩

/-- In a function. -/
theorem Setting.Covered.inKey {here : Setting} (hg : g.Ascends) (h : here.Covered g) {id : Nat}
    (hparent : g.parent? id = some here.scope) : (here.inKey id).Covered g := by
  intro e he
  obtain ⟨haround, hserved⟩ := h e he
  refine ⟨?_, hserved⟩
  rw [Setting.inKey, ScopeGraph.ancestors_eq_cons hg hparent]
  exact List.mem_cons_of_mem _ haround

/-- **The names around something have bindings**, in all parts of a region. -/
theorem Region.inherited_covered (hg : g.Ascends) :
    Inherited fun r next here => r.Stands g next here ∧ here.Covered g where
  both := by
    rintro first second next here ⟨h, hcovered⟩
    obtain ⟨h1, h2⟩ := (inherited_stands g).both h
    exact ⟨⟨h1, hcovered⟩, ⟨h2, hcovered⟩⟩
  named := by
    rintro name inside next here ⟨h, hcovered⟩
    refine ⟨(inherited_stands g).named h, List.forall_mem_cons.mpr ⟨⟨?_, ?_⟩, hcovered⟩⟩
    · exact g.mem_ancestors_self _
    · -- no binding is made for the own name of an expression
      simp [Construct.isCollected]
  function := by
    rintro key params inKey inParams body next here ⟨h, hcovered⟩
    obtain ⟨hparent, hbinds, -⟩ := h.function
    obtain ⟨hkey, hparams, hbody⟩ := (inherited_stands g).function h
    have houter := hcovered.inKey hg hparent
    have hown : Environment.Covered g next ⟨next, none, paramNames params⟩ := by
      refine ⟨g.mem_ancestors_self _, fun m hm _ => ?_⟩
      obtain ⟨b, hb, hserves⟩ := exists_paramBinding hm none
      exact ⟨b, hbinds b hb, hserves⟩
    have hvars : Environment.Covered g next ⟨next, none, body.hoisted⟩ := by
      refine ⟨g.mem_ancestors_self _, fun m hm _ => ?_⟩
      obtain ⟨b, hb, hname, hblock, -⟩ := body.exists_own_of_hoisted none m hm
      exact ⟨b, hbody.binds b hb, hname, .inl hblock⟩
    exact ⟨⟨hkey, houter⟩, ⟨hparams, List.forall_mem_cons.mpr ⟨hown, houter⟩⟩,
      ⟨hbody, List.forall_mem_cons.mpr ⟨hvars, List.forall_mem_cons.mpr ⟨hown, houter⟩⟩⟩⟩
  block := by
    rintro span subject inside next here ⟨h, hcovered⟩
    obtain ⟨hsubject, hinside⟩ := (inherited_stands g).block h
    refine ⟨⟨hsubject, hcovered.inBlock span (by simp)⟩, hinside, hcovered.inBlock span ?_⟩
    intro m hm
    obtain ⟨b, hb, hserves⟩ := inside.exists_own_of_direct (some span) m hm
    exact ⟨b, hinside.binds b hb, hserves⟩
  staticBlock := by
    rintro span inside next here ⟨h, hcovered⟩
    have hinside := (inherited_stands g).staticBlock h
    refine ⟨hinside, hcovered.inBlock span fun m hm => ?_⟩
    rcases List.mem_append.mp hm with hm | hm
    · obtain ⟨b, hb, hserves⟩ := inside.exists_own_of_direct (some span) m hm
      exact ⟨b, hinside.binds b hb, hserves⟩
    · obtain ⟨b, hb, hname, hspans⟩ := inside.exists_own_of_hoisted (some span) m hm
      exact ⟨b, hinside.binds b hb, hname, .inr hspans⟩
  choice := by
    rintro span test hasAlternate inTest consequent alternate next here ⟨h, hcovered⟩
    obtain ⟨h1, h2, h3⟩ := (inherited_stands g).choice h
    exact ⟨⟨h1, hcovered⟩, ⟨h2, hcovered⟩, ⟨h3, hcovered⟩⟩

end Graph

/-- The program itself, as it stands in its graph. -/
theorem Program.region_covered (p : Program) :
    p.region.Stands (.ofProgram p) 1 p.setting ∧ p.setting.Covered (.ofProgram p) := by
  obtain ⟨-, hholds⟩ := p.sees_outermost
  rw [← p.region_fits.outline] at hholds
  have hbinds : ∀ b ∈ p.region.outline.own none, (ScopeGraph.ofProgram p).Binds 0 b := by
    intro b hb
    rw [p.region_fits.outline] at hb
    exact ⟨⟨.program, none, p.outline.kids 1, p.outline.own none⟩,
      by simp [ScopeGraph.get?, ofProgram_scopes], hb⟩
  refine ⟨⟨hholds, hbinds⟩, List.forall_mem_singleton.mpr ⟨?_, ?_⟩⟩
  · exact ScopeGraph.mem_ancestors_self _ 0
  · simp only [Program.environment, List.forall_mem_append]
    refine ⟨⟨fun m hm _ => ?_, fun m hm _ => ?_⟩, fun m hm hcollected => ?_⟩
    · obtain ⟨b, hb, hserves⟩ := p.region.exists_own_of_direct none m hm
      exact ⟨b, hbinds b hb, hserves⟩
    · obtain ⟨b, hb, hname, hspans⟩ := p.region.exists_own_of_hoisted none m hm
      exact ⟨b, hbinds b hb, hname, .inr hspans⟩
    · obtain ⟨name, -, rfl⟩ := List.mem_map.mp hm
      simp [Construct.isCollected] at hcollected

/-! ### The `if` statements of a program -/

/-- The `if` statements of an outline with the scopes that they are met in. -/
def Outline.met (next scope : Nat) : Outline → List Conditional
  | .blank => []
  | .both first second => first.met next scope ++ second.met (next + first.count) scope
  | .scope _ _ inside => inside.met (next + 1) next
  | .block _ inside => inside.met next scope
  | .declare _ => []
  | .choice span test hasAlternate inTest consequent alternate =>
    ⟨scope, span, test, hasAlternate⟩ ::
      (inTest.met next scope ++ consequent.met (next + inTest.count) scope ++
        alternate.met (next + inTest.count + consequent.count) scope)

theorem Outline.met_andThen (next scope : Nat) (first second : Outline) :
    (first.andThen second).met next scope =
      first.met next scope ++ second.met (next + first.count) scope := by
  cases first <;> cases second <;> simp [andThen, met, count]

/-- Collecting meets the `if` statements of an outline in the scopes of the
functions that they are written in. -/
theorem Outline.conditionals_eq_met (o : Outline) : ∀ {c : Collector}, c.Open →
    (o.calls Collector.visitor c).conditionals Collector.current =
      o.met c.scopes.length c.current := by
  induction o with
  | blank => intros; rfl
  | both first second ih1 ih2 =>
    intro c hc
    have hgrown := Collector.visit_collector first hc
    have hlength := hgrown.length
    rw [Outline.length_made] at hlength
    have hsecond := ih2 (hgrown.open hc)
    rw [hlength, hgrown.current] at hsecond
    simp [calls, met, ih1 hc, hsecond]
  | scope key params inside ih =>
    intro c hc
    obtain ⟨hscopes, hstack, -, -⟩ := Collector.enter_spec c key params
    set entered := (Collector.visitor.enter key.boundary key.span params c).2 with hentered
    have hlength : entered.scopes.length = c.scopes.length + 1 := by simp [hscopes]
    have hcurrent : entered.current = c.scopes.length := by simp [Collector.current, hstack]
    have hinside := @ih entered (by simp [Collector.Open, hcurrent, hlength])
    rw [hlength, hcurrent] at hinside
    simp [calls, met, ← hentered, Call.conditional?, hinside]
  | block span inside ih =>
    intro c hc
    simp only [calls, met, Calls.conditionals_cons, Calls.conditionals_append,
      Calls.conditionals_nil, Call.conditional?, Option.toList_none, List.nil_append,
      List.append_nil]
    exact @ih { c with blocks := span :: c.blocks } hc
  | declare d => intros; rfl
  | choice span test hasAlternate inTest consequent alternate iht ihc iha =>
    intro c hc
    have hgrown := Collector.visit_collector inTest hc
    have hgrown' := Collector.visit_collector consequent (hgrown.open hc)
    have hlength := hgrown.length
    have hlength' := hgrown'.length
    rw [Outline.length_made] at hlength hlength'
    have hconsequent := ihc (hgrown.open hc)
    have halternate := iha (hgrown'.open (hgrown.open hc))
    rw [hlength, hgrown.current] at hconsequent
    rw [hlength', hlength, hgrown'.current, hgrown.current] at halternate
    have hkeep : Collector.visitor.decide span test hasAlternate c = (.keep, c) := rfl
    simp [calls, met, hkeep, Call.conditional?, iht hc, hconsequent, halternate]

/-- The `if` statement at a spot, with the function that it is written in. -/
def Spot.conditional? (s : Spot) : Option Conditional :=
  match s.what with
  | .tests span test hasAlternate => some ⟨s.setting.scope, span, test, hasAlternate⟩
  | .declares _ => none

theorem Region.conditionals_spots (r : Region) : ∀ (next : Nat) (here : Setting),
    (r.spots next here).filterMap Spot.conditional? = r.outline.met next here.scope := by
  induction r with
  | blank => intros; rfl
  | both first second ih1 ih2 =>
    intro next here
    simp [spots, outline, Outline.met_andThen, ih1, ih2, count]
  | named name inside ih => intro next here; exact ih next _
  | function key params inKey inParams body ihk ihp ihb =>
    intro next here
    simp [spots, outline, Outline.met, Outline.met_andThen, ihk, ihp, ihb, count, Setting.inKey,
      Setting.inParams, Setting.inBody]
  | block span subject inside ihs ihi =>
    intro next here
    simp [spots, outline, Outline.met, Outline.met_andThen, ihs, ihi, count, Setting.inBlock]
  | staticBlock span inside ih => intro next here; exact ih next _
  | declare d => intros; rfl
  | choice span test hasAlternate inTest consequent alternate iht ihc iha =>
    intro next here
    simp [spots, outline, Outline.met, Spot.conditional?, iht, ihc, iha, count]

/-- Does every `if` statement start in the blocks that it is written in? -/
def Outline.startsInside (around : List Span) : Outline → Bool
  | .blank | .declare _ => true
  | .both first second => first.startsInside around && second.startsInside around
  | .scope _ _ inside => inside.startsInside around
  | .block span inside => inside.startsInside (span :: around)
  | .choice span _ _ inTest consequent alternate =>
    around.all (·.contains span.start) && inTest.startsInside around &&
      consequent.startsInside around && alternate.startsInside around

theorem Outline.startsInside_andThen (around : List Span) (first second : Outline) :
    (first.andThen second).startsInside around =
      (first.startsInside around && second.startsInside around) := by
  cases first <;> cases second <;> simp [andThen, startsInside]

/-- The `if` statements of a region start in the ranges of the environments
around. -/
def Region.StartsInside (r : Region) (here : Setting) : Prop :=
  ∃ around, r.outline.startsInside around = true ∧
    ∀ e ∈ here.chain, ∀ span ∈ e.range, span ∈ around

theorem Region.inherited_startsInside :
    Inherited fun r _ here => r.StartsInside here where
  both := by
    rintro first second next here ⟨around, hstarts, hranges⟩
    rw [outline, Outline.startsInside_andThen, Bool.and_eq_true] at hstarts
    exact ⟨⟨around, hstarts.1, hranges⟩, ⟨around, hstarts.2, hranges⟩⟩
  named := by
    rintro name inside next here ⟨around, hstarts, hranges⟩
    exact ⟨around, hstarts, List.forall_mem_cons.mpr ⟨by simp, hranges⟩⟩
  function := by
    rintro key params inKey inParams body next here ⟨around, hstarts, hranges⟩
    simp only [outline, Outline.startsInside, Outline.startsInside_andThen,
      Bool.and_eq_true] at hstarts
    obtain ⟨hkey, hparams, hbody⟩ := hstarts
    refine ⟨⟨around, hkey, hranges⟩, ⟨around, hparams, ?_⟩, ⟨around, hbody, ?_⟩⟩
    · exact List.forall_mem_cons.mpr ⟨by simp, hranges⟩
    · exact List.forall_mem_cons.mpr ⟨by simp, List.forall_mem_cons.mpr ⟨by simp, hranges⟩⟩
  block := by
    rintro span subject inside next here ⟨around, hstarts, hranges⟩
    simp only [outline, Outline.startsInside, Outline.startsInside_andThen,
      Bool.and_eq_true] at hstarts
    have hin : ∀ names, ∀ e ∈ (here.inBlock span names).chain, ∀ r ∈ e.range,
        r ∈ span :: around := fun names => List.forall_mem_cons.mpr
      ⟨by simp, fun e he r hr => List.mem_cons_of_mem _ (hranges e he r hr)⟩
    exact ⟨⟨_, hstarts.1, hin _⟩, ⟨_, hstarts.2, hin _⟩⟩
  staticBlock := by
    rintro span inside next here ⟨around, hstarts, hranges⟩
    exact ⟨_, hstarts, List.forall_mem_cons.mpr
      ⟨by simp, fun e he r hr => List.mem_cons_of_mem _ (hranges e he r hr)⟩⟩
  choice := by
    rintro span test hasAlternate inTest consequent alternate next here ⟨around, hstarts, hranges⟩
    simp only [outline, Outline.startsInside, Bool.and_eq_true] at hstarts
    obtain ⟨⟨⟨-, htest⟩, hconsequent⟩, halternate⟩ := hstarts
    exact ⟨⟨around, htest, hranges⟩, ⟨around, hconsequent, hranges⟩, ⟨around, halternate, hranges⟩⟩

/-! ### Names at `if` statements -/

/-- What a name refers to is a name of an environment around. -/
theorem mem_of_resolve {chain : List Environment} {name : String} {m : Declared}
    (h : resolve chain name = some m) : ∃ e ∈ chain, m ∈ e.names ∧ m.name = name := by
  obtain ⟨e, he, hm⟩ := Option.bind_eq_some_iff.mp h
  have hmem : e ∈ chain :=
    (List.dropWhile_suffix _).subset (List.mem_of_head? he)
  exact ⟨e, hmem, List.mem_of_find?_eq_some hm, by simpa using List.find?_some hm⟩

theorem ScopeGraph.mem_namedAt {g : ScopeGraph} {id position : Nat} {b : Binding}
    {name : String} :
    b ∈ g.namedAt position name id ↔ g.Binds id b ∧ b.visibleAt position ∧ b.name = name := by
  cases hs : g.get? id with
  | none => simp [namedAt_of_none hs, Binds, hs]
  | some s => simp [namedAt_of_some hs, Binds, hs, Scope.visibleAt, and_comm]

/-- A binding that serves a name in a range is visible in the range. -/
theorem ScopeGraph.Binds.namedAt {g : ScopeGraph} {id position : Nat} {b : Binding} {name : String}
    {range : Option Span} (h : g.Binds id b) (hserves : b.Serves name range)
    (hposition : ∀ span ∈ range, span.contains position) : b ∈ g.namedAt position name id := by
  refine ScopeGraph.mem_namedAt.mpr ⟨h, ?_, hserves.name⟩
  rw [Binding.visibleAt]
  rcases hserves.extent with hblock | ⟨hblock, -⟩
  · cases hrange : range with
    | none => simp [hblock, hrange]
    | some span => simpa [hblock, hrange] using hposition span hrange
  · simp [hblock]

/-- An `if` statement starts in the ranges of the environments around it. -/
theorem Program.starts_in_ranges (p : Program) (hstarts : p.outline.startsInside []) {s : Spot}
    (hs : s ∈ p.spots) {c : Conditional} (hc : c ∈ s.conditional?) :
    s.setting.scope = c.scope ∧
      ∀ e ∈ s.setting.chain, ∀ span ∈ e.range, span.contains c.span.start := by
  have hprogram : p.region.StartsInside p.setting :=
    ⟨[], by rwa [p.region_fits.outline], by simp [Program.setting, Program.environment]⟩
  obtain ⟨r, -, ⟨around, hinside, hranges⟩, hwhat⟩ :=
    Region.inherited_startsInside.spots p.region hprogram s hs
  cases hs : s.what with
  | declares d => simp [Spot.conditional?, hs] at hc
  | tests span test hasAlternate =>
    obtain rfl : c = ⟨s.setting.scope, span, test, hasAlternate⟩ := by
      simpa [Spot.conditional?, hs, eq_comm] using hc
    rw [hs] at hwhat
    refine ⟨rfl, fun e he span' hspan' => ?_⟩
    cases r with
    | choice span₀ test₀ hasAlternate₀ inTest consequent alternate =>
      obtain ⟨rfl, rfl, rfl⟩ : span₀ = span ∧ test₀ = test ∧ hasAlternate₀ = hasAlternate := by
        simpa [Region.what?] using hwhat
      simp only [Region.outline, Outline.startsInside, Bool.and_eq_true,
        List.all_eq_true] at hinside
      exact hinside.1.1.1 span' (hranges e he span' hspan')
    | _ => simp [Region.what?] at hwhat

/-- **The names that `if` statements refer to are collected.** Collecting meets
the `if` statements of a program in the functions that they are written in. If
they start in the blocks that they are written in, then each name that resolves
to a variable, a parameter, a function, a class, an import or the parameter of a
catch clause has a binding that is visible at the start of the statement, in a
scope around it. -/
theorem names_of_conditionals (p : Program) (hstarts : p.outline.startsInside []) :
    let g := ScopeGraph.ofProgram p
    (p.calls Collector.visitor .start).conditionals Collector.current =
        p.spots.filterMap Spot.conditional? ∧
      ∀ s ∈ p.spots, ∀ c ∈ s.conditional?, ∀ name m, resolve s.setting.chain name = some m →
        m.construct.isCollected →
          ∃ id ∈ g.ancestors c.scope, g.namedAt c.span.start name id ≠ [] := by
  intro g
  refine ⟨?_, ?_⟩
  · rw [Program.calls_eq, Program.spots, Region.conditionals_spots, p.region_fits.outline]
    exact p.outline.conditionals_eq_met Nat.one_pos
  · intro s hs c hc name m hm hcollected
    obtain ⟨hscope, hposition⟩ := p.starts_in_ranges hstarts hs hc
    obtain ⟨-, -, ⟨-, hcovered⟩, -⟩ := (Region.inherited_covered (ofProgram_ascends p)).spots
      p.region p.region_covered s hs
    obtain ⟨e, he, hme, rfl⟩ := mem_of_resolve hm
    obtain ⟨b, hb, hserves⟩ := (hcovered e he).served m hme hcollected
    have hmem := hb.namedAt hserves (hposition e he)
    exact ⟨e.function, hscope ▸ (hcovered e he).around, List.ne_nil_of_mem hmem⟩

/-- The tree of `function g(p) { try { p(); } catch (e) { if (e) { f(); } } }`. -/
def handledError : Program :=
  let call (name : String) : Stmt := .expr (.other .call [.ident name])
  ⟨.script, none, [.stmt (.decl (.function "g" (.block ⟨.function, some "g", false, false⟩ ⟨0, 60⟩
    [.ident "p"] (.mk ⟨14, 60⟩ [.tryCatch (.mk ⟨20, 28⟩ [call "p"])
      (some (.mk ⟨29, 58⟩ (.ident "e") (.mk ⟨39, 58⟩
        [.ifElse ⟨41, 56⟩ (.ident "e") (.block (.mk ⟨48, 56⟩ [call "f"])) none]))) none]))))]⟩

/-- The parameter of the catch clause, that of the function and the function
itself have bindings. -/
theorem handledError_names :
    let g := ScopeGraph.ofProgram handledError
    handledError.outline.startsInside [] = true ∧
      ∃ s ∈ handledError.spots, ∃ c ∈ s.conditional?, c.span = ⟨41, 56⟩ ∧
        ∀ m ∈ [Declared.mk "e" .caught, ⟨"p", .parameter⟩, ⟨"g", .function⟩],
          resolve s.setting.chain m.name = some m ∧
            ∃ id ∈ g.ancestors c.scope, g.namedAt c.span.start m.name id ≠ [] := by
  have hstarts : handledError.outline.startsInside [] = true := by decide +kernel
  let chain : List Environment := [⟨1, some ⟨39, 58⟩, []⟩, ⟨1, some ⟨29, 58⟩, [⟨"e", .caught⟩]⟩,
    ⟨1, some ⟨14, 60⟩, []⟩, ⟨1, none, []⟩, ⟨1, none, [⟨"p", .parameter⟩]⟩,
    ⟨0, none, [⟨"g", .function⟩, ⟨"g", .function⟩]⟩]
  let s : Spot := ⟨.tests ⟨41, 56⟩ (.ident "e") false, ⟨1, some ⟨39, 58⟩, chain⟩⟩
  have hs : s ∈ handledError.spots := List.mem_of_getLast? (by rfl)
  refine ⟨hstarts, s, hs, ⟨1, ⟨41, 56⟩, .ident "e", false⟩, rfl, rfl, ?_⟩
  intro m hm
  have hcollected : ∀ m ∈ [Declared.mk "e" .caught, ⟨"p", .parameter⟩, ⟨"g", .function⟩],
      resolve chain m.name = some m ∧ m.construct.isCollected = true := by decide +kernel
  obtain ⟨hresolve, hconstruct⟩ := hcollected m hm
  exact ⟨hresolve,
    (names_of_conditionals handledError hstarts).2 s hs _ rfl m.name m hresolve hconstruct⟩

/-- The tree of `const g = function NaN() { if (NaN) { f(); } };`. -/
def ownNameTested : Program :=
  ⟨.script, none, [.stmt (.decl (.vars .constKind [.mk (.ident "g")
    (.closure (.block ⟨.function, some "NaN", false, false⟩ ⟨10, 62⟩ [] (.mk ⟨25, 62⟩
      [.ifElse ⟨31, 60⟩ (.ident "NaN")
        (.block (.mk ⟨40, 60⟩ [.expr (.other .call [.ident "f"])])) none])))]))]⟩

/-- **An own name is not collected.** In a function expression that is called
`NaN` this name is the function, but no scope has a binding of it. So it is taken
for the fixed value, and the `if` statement that tests it is dropped. -/
theorem exists_uncollected_name :
    let g := ScopeGraph.ofProgram ownNameTested
    ownNameTested.outline.startsInside [] = true ∧
      (∃ s ∈ ownNameTested.spots, ∃ c ∈ s.conditional?,
        resolve s.setting.chain "NaN" = some ⟨"NaN", .ownName⟩ ∧
          ∀ id ∈ g.ancestors c.scope, g.namedAt c.span.start "NaN" id = []) ∧
      (shrink false (fun n => ⟨none, 1, n⟩) ownNameTested).folds =
        [⟨⟨none, 1, 31⟩, .removed⟩] := by
  let chain : List Environment := [⟨1, some ⟨25, 62⟩, []⟩, ⟨1, none, []⟩, ⟨1, none, []⟩,
    ⟨0, none, [⟨"NaN", .ownName⟩]⟩, ⟨0, none, [⟨"g", .variable .constKind⟩]⟩]
  let s : Spot := ⟨.tests ⟨31, 60⟩ (.ident "NaN") false, ⟨1, some ⟨25, 62⟩, chain⟩⟩
  have hs : s ∈ ownNameTested.spots := List.mem_of_getLast? (by rfl)
  refine ⟨by decide +kernel, ⟨s, hs, ⟨1, ⟨31, 60⟩, .ident "NaN", false⟩, rfl, ?_, ?_⟩, ?_⟩
  · decide +kernel
  · decide +kernel
  · decide +kernel

end DeadBranch
