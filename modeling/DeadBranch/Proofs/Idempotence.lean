/-
# When a second run finds more to remove

A run judges every `if` statement by all bindings that are visible there, also
by those whose declarations it drops. A second run no longer sees these. A name
that was declared in a dropped part, such as a `var`, may have hidden a constant
from a test, and then the second run decides what the first one could not
(`exists_second_fold`). This is the only way in which the runs differ: the second one
judges each `if` statement that is left by the bindings that were declared
outside all dropped parts (`Kept.again`). So a second run changes nothing
exactly if none of these verdicts says anything, and surely if no binding of a
dropped part was visible at an `if` statement that is left.

Key definitions: `Outline.live`, `Kept`, `Program.kept`, `Binding.Like`.
Key theorems: `knownAmong_like`, `places_pruned`, `shrink_shrink_eq_iff`.
-/
import DeadBranch.Proofs.Again
import DeadBranch.Proofs.Invariance
import DeadBranch.Proofs.Lexical
import Mathlib.Data.List.Forall2

namespace DeadBranch

/-! ### Bindings that say the same -/

/-- Two declarations state the same facts, whatever is known. -/
def SameFacts (d d' : Declarator) : Prop := ∀ known, d.facts known = d'.facts known

/-- Two bindings differ at most in the declaration of a constant, and not in what
it states. -/
structure Binding.Like (b b' : Binding) : Prop where
  name : b.name = b'.name
  kind : b.kind = b'.kind
  block : b.block = b'.block
  declarator : Option.Rel SameFacts b.declarator b'.declarator

open List (Forall₂)

section Like

variable {visible visible' : List Binding} {consulted : Bool} {declared : List String}

theorem Binding.Like.refl (b : Binding) : b.Like b := by
  refine ⟨rfl, rfl, rfl, ?_⟩
  cases b.declarator with
  | none => exact .none
  | some d => exact .some fun _ => rfl

theorem names_like (h : Forall₂ Binding.Like visible visible') :
    visible.map (·.name) = visible'.map (·.name) := by
  induction h with
  | nil => rfl
  | cons hb _ ih => simp [hb.name, ih]

theorem isSome_like {d d' : Option Declarator} (h : Option.Rel SameFacts d d') :
    d.isSome = d'.isSome := by
  cases h <;> rfl

theorem isUsable_like {b b' : Binding} (hb : b.Like b')
    (h : Forall₂ Binding.Like visible visible') :
    b.isUsable visible consulted = b'.isUsable visible' consulted := by
  have hcount : (visible.filter (·.name == b.name)).length =
      (visible'.filter (·.name == b'.name)).length := by
    refine (List.rel_filter ?_ h).length_eq
    intro c c' hc
    simp [hc.name, hb.name]
  simp [Binding.isUsable, hb.kind, isSome_like hb.declarator, hcount]

theorem freshIn_like (h : Forall₂ Binding.Like visible visible') :
    Forall₂ Binding.Like (freshIn declared visible) (freshIn declared visible') := by
  refine List.rel_filter ?_ h
  intro b b' hb
  simp [hb.name]

theorem usableIn_like (h : Forall₂ Binding.Like visible visible') :
    Forall₂ SameFacts (usableIn consulted declared visible)
      (usableIn consulted declared visible') := by
  refine List.rel_filterMap ?_ (freshIn_like h)
  intro b b' hb
  beta_reduce
  rw [isUsable_like hb h]
  split
  · exact hb.declarator
  · exact .none

theorem hiddenIn_like (h : Forall₂ Binding.Like visible visible') :
    hiddenIn consulted declared visible = hiddenIn consulted declared visible' := by
  refine names_like (List.rel_filter ?_ (freshIn_like h))
  intro b b' hb
  beta_reduce
  rw [isUsable_like hb h]

theorem chain_like (wholeChain : Bool) {scopes scopes' : List (List Binding)}
    (h : Forall₂ (Forall₂ Binding.Like) scopes scopes') :
    ∀ (consulted : Bool) (declared : List String),
      Forall₂ SameFacts (chainConstants wholeChain consulted declared scopes)
          (chainConstants wholeChain consulted declared scopes') ∧
        chainHidden wholeChain consulted declared scopes =
          chainHidden wholeChain consulted declared scopes' := by
  induction h with
  | nil => intro _ _; exact ⟨.nil, rfl⟩
  | @cons visible visible' _ _ hvisible _ ih =>
    intro consulted declared
    obtain ⟨hconstants, hhidden⟩ := ih wholeChain (declared ++ visible.map (·.name))
    simp only [chainConstants, chainHidden, ← names_like hvisible, hhidden,
      hiddenIn_like hvisible, and_true]
    exact List.rel_append hconstants (usableIn_like hvisible)

theorem bindAll_like {ds ds' : List Declarator} (h : Forall₂ SameFacts ds ds') :
    ∀ known, bindAll known ds = bindAll known ds' := by
  induction h with
  | nil => intro _; rfl
  | @cons d d' _ _ hd _ ih =>
    intro known
    have hbind : bind known d = bind known d' := congrArg known.learn (hd known)
    simp only [bindAll, List.foldl_cons, hbind]
    exact ih _

/-- Bindings that say the same make the same things known. -/
theorem knownAmong_like (wholeChain : Bool) {scopes scopes' : List (List Binding)}
    (h : Forall₂ (Forall₂ Binding.Like) scopes scopes') (position : Nat) :
    knownAmong wholeChain (visibleAmong position scopes) =
      knownAmong wholeChain (visibleAmong position scopes') := by
  have hvisible : Forall₂ (Forall₂ Binding.Like) (visibleAmong position scopes)
      (visibleAmong position scopes') := by
    refine List.rel_map ?_ h
    intro bs bs' hbs
    refine List.rel_filter ?_ hbs
    intro b b' hb
    simp [Binding.visibleAt, hb.block]
  obtain ⟨hconstants, hhidden⟩ := chain_like wholeChain hvisible true []
  simp only [knownAmong, hhidden]
  exact bindAll_like hconstants _

end Like

/-! ### What is left for a second run -/

section Live

variable (g : ScopeGraph) (wholeChain : Bool)

/-- The bindings of an outline that belong to the scope around it and are
declared outside the dropped parts. -/
def Outline.live (scope : Nat) (block : Option Span) : Outline → List Binding
  | .blank => []
  | .both first second => first.live scope block ++ second.live scope block
  | .scope _ _ _ => []
  | .block span inside => inside.live scope (some span)
  | .declare d => d.bindings block
  | .choice span test _ inTest consequent alternate =>
    match g.verdict wholeChain scope span test with
    | some true => consequent.live scope block
    | some false => alternate.live scope block
    | none => inTest.live scope block ++ consequent.live scope block ++ alternate.live scope block

/-- An `if` statement that is left, with the bindings around it that are left. -/
structure Kept where
  place : Viewpoint
  live : List (List Binding)

/-- The same `if` statement as a second run sees it. -/
def Kept.again (k : Kept) : Viewpoint := { k.place with scopes := k.live }

/-- The `if` statements of an outline that are left, in the order of the walk. -/
def Outline.kept (scope : Nat) (scopes live : List (List Binding)) : Outline → List Kept
  | .blank => []
  | .both first second => first.kept scope scopes live ++ second.kept scope scopes live
  | .scope key params inside =>
    let inner := g.inside scope key
    inside.kept inner (inside.functionBindings params :: scopes)
      ((paramBindings params ++ inside.live g wholeChain inner none) :: live)
  | .block _ inside => inside.kept scope scopes live
  | .declare _ => []
  | .choice span test _ inTest consequent alternate =>
    match g.verdict wholeChain scope span test with
    | some true => consequent.kept scope scopes live
    | some false => alternate.kept scope scopes live
    | none => ⟨⟨span, test, scopes⟩, live⟩ :: (inTest.kept scope scopes live ++
        consequent.kept scope scopes live ++ alternate.kept scope scopes live)

end Live

/-- The `if` statements that a run leaves in a program. -/
def Program.kept (wholeChain : Bool) (p : Program) : List Kept :=
  let g := ScopeGraph.ofProgram p
  p.outline.kept g wholeChain 0 [p.outline.own none] [p.outline.live g wholeChain 0 none]

section Pruned

variable (g : ScopeGraph) (wholeChain : Bool)

theorem paramBindings_pruned (scope : Nat) (params : List Expr) :
    paramBindings (exprsPruned g wholeChain scope params) = paramBindings params := by
  induction params with
  | nil => simp only [exprsPruned]
  | cons e es ih =>
    simp only [paramBindings] at ih
    simp only [exprsPruned, paramBindings, List.flatMap_cons, boundNames_pruned, ih]

theorem pruned_eq_ident (scope : Nat) (e : Expr) (name : String) :
    e.pruned g wholeChain scope = .ident name ↔ e = .ident name := by
  cases e <;> simp [Expr.pruned]

theorem Declarator.bindings_pruned (scope : Nat) (kind : VarKind) (block : Option Span)
    (d : Declarator) :
    Forall₂ Binding.Like ((d.pruned g wholeChain scope).bindings kind block)
      (d.bindings kind block) := by
  obtain ⟨target, init⟩ := d
  by_cases h : ∀ name, kind = .constKind → target ≠ .ident name
  · have h' : ∀ name, kind = .constKind → target.pruned g wholeChain scope ≠ .ident name :=
      fun name hkind => mt (pruned_eq_ident g wholeChain scope target name).mp (h name hkind)
    rw [Declarator.pruned, Declarator.bindings_of_ne _ _ h, Declarator.bindings_of_ne _ _ h',
      boundNames_pruned]
    exact List.forall₂_same.mpr fun b _ => .refl b
  · obtain ⟨name, rfl, rfl⟩ : ∃ name, kind = .constKind ∧ target = .ident name := by
      simpa using h
    simp only [Declarator.pruned, Expr.pruned, Declarator.bindings]
    refine .cons ⟨rfl, rfl, rfl, .some fun known => ?_⟩ .nil
    exact facts_pruned g wholeChain scope known (.mk (.ident name) init)

theorem Declaration.bindings_pruned (scope : Nat) (block : Option Span) (d : Declaration) :
    Forall₂ Binding.Like ((d.pruned g wholeChain scope).bindings block) (d.bindings block) := by
  cases d with
  | vars kind ds =>
    simp only [Declaration.pruned, Declaration.bindings]
    induction ds with
    | nil => simp [declaratorsPruned]
    | cons d ds ih =>
      simp only [declaratorsPruned, List.flatMap_cons]
      exact List.rel_append (d.bindings_pruned g wholeChain scope kind block) ih
  | caught pattern =>
    simp only [Declaration.pruned, Declaration.bindings, boundNames_pruned]
    exact List.forall₂_same.mpr fun b _ => .refl b
  | function name => exact List.forall₂_same.mpr fun b _ => .refl b
  | classDecl name => exact List.forall₂_same.mpr fun b _ => .refl b
  | imports names => exact List.forall₂_same.mpr fun b _ => .refl b

/-- What is left of an outline declares what is declared outside the dropped
parts. -/
theorem Outline.own_pruned (o : Outline) : ∀ (scope : Nat) (block : Option Span),
    Forall₂ Binding.Like ((o.pruned g wholeChain scope).own block)
      (o.live g wholeChain scope block) := by
  induction o with
  | blank => intro _ _; exact .nil
  | both first second ih1 ih2 =>
    intro scope block
    simp only [Outline.pruned, Outline.live, Outline.own_andThen]
    exact List.rel_append (ih1 scope block) (ih2 scope block)
  | scope key params inside ih => intro _ _; exact .nil
  | block span inside ih => intro scope _; exact ih scope (some span)
  | declare d => intro scope block; exact d.bindings_pruned g wholeChain scope block
  | choice span test hasAlternate inTest consequent alternate iht ihc iha =>
    intro scope block
    simp only [Outline.pruned, Outline.live]
    cases g.verdict wholeChain scope span test with
    | none =>
      exact List.rel_append (List.rel_append (iht scope block) (ihc scope block)) (iha scope block)
    | some isTrue =>
      cases isTrue with
      | true => exact ihc scope block
      | false => exact iha scope block

/-- The `if` statements of what is left are those that are left, judged by the
bindings that are left. -/
theorem Outline.places_pruned (wholeChain' : Bool) (o : Outline) :
    ∀ {scope : Nat} {scopes live live' : List (List Binding)},
      Forall₂ (Forall₂ Binding.Like) live' live →
      ((o.pruned g wholeChain scope).places live').map (·.verdict wholeChain') =
        (o.kept g wholeChain scope scopes live).map (·.again.verdict wholeChain') := by
  induction o with
  | blank => intros; rfl
  | both first second ih1 ih2 =>
    intro scope scopes live live' hlive
    simp only [Outline.pruned, Outline.kept, Outline.places_andThen, List.map_append]
    rw [ih1 hlive, ih2 hlive]
  | scope key params inside ih =>
    intro scope scopes live live' hlive
    have hparams := paramBindings_pruned g wholeChain (g.inside scope key) params
    have hparamsLike : Forall₂ Binding.Like (paramBindings params) (paramBindings params) :=
      List.forall₂_same.mpr fun b _ => .refl b
    have hinside := inside.own_pruned g wholeChain (g.inside scope key) none
    simp only [Outline.pruned, Outline.kept, Outline.places, Outline.functionBindings, hparams]
    exact ih (.cons (List.rel_append hparamsLike hinside) hlive)
  | block span inside ih => intro _ _ _ _ hlive; exact ih hlive
  | declare d => intros; rfl
  | choice span test hasAlternate inTest consequent alternate iht ihc iha =>
    intro scope scopes live live' hlive
    simp only [Outline.pruned, Outline.kept]
    cases g.verdict wholeChain scope span test with
    | none =>
      simp only [Outline.places, List.map_cons, List.map_append]
      rw [iht hlive, ihc hlive, iha hlive]
      congr 1
      simp only [Viewpoint.verdict, Viewpoint.known, Kept.again, knownAmong_like wholeChain' hlive,
        evaluate_pruned]
    | some isTrue =>
      cases isTrue with
      | true => exact ihc hlive
      | false => exact iha hlive

end Pruned

/-! ### The scopes of what is left -/

namespace Outline

theorem own_core (o : Outline) : ∀ block, o.core.own block = o.own block := by
  induction o <;> simp_all [core, own]

theorem places_core (o : Outline) : ∀ scopes, o.core.places scopes = o.places scopes := by
  induction o <;> simp_all [core, places, functionBindings, own_core]

theorem keys_core (o : Outline) : o.core.keys = o.keys := by
  induction o <;> simp_all [core, keys]

theorem keys_andThen (first second : Outline) :
    (first.andThen second).keys = first.keys ++ second.keys := by
  cases first <;> cases second <;> simp [andThen, keys]

/-- Pruning makes no new function. -/
theorem keys_pruned (g : ScopeGraph) (wholeChain : Bool) (o : Outline) :
    ∀ scope, (o.pruned g wholeChain scope).keys.Sublist o.keys := by
  induction o with
  | blank => intro _; exact .refl _
  | both first second ih1 ih2 =>
    intro scope
    simp only [pruned, keys, keys_andThen]
    exact (ih1 scope).append (ih2 scope)
  | scope key params inside ih => intro scope; exact (ih _).cons_cons _
  | block span inside ih => intro scope; exact ih scope
  | declare d => intro _; exact .refl _
  | choice span test hasAlternate inTest consequent alternate iht ihc iha =>
    intro scope
    simp only [pruned, keys]
    cases g.verdict wholeChain scope span test with
    | none => exact ((iht scope).append (ihc scope)).append (iha scope)
    | some isTrue =>
      cases isTrue with
      | true =>
        exact ((ihc scope).trans (List.sublist_append_right _ _)).trans
          (List.sublist_append_left _ _)
      | false => exact (iha scope).trans (List.sublist_append_right _ _)

end Outline

theorem Program.distinctScopes_iff (p : Program) :
    p.DistinctScopes ↔ (ScopeKey.program :: p.outline.keys).Nodup := by
  simp [Program.DistinctScopes, ofProgram_scopes, Outline.made_keys]

theorem Program.DistinctScopes.pruned {p : Program} (h : p.DistinctScopes) (wholeChain : Bool) :
    (p.pruned wholeChain).DistinctScopes := by
  rw [Program.distinctScopes_iff] at h ⊢
  rw [← Outline.keys_core, Program.outline_pruned]
  exact h.sublist ((Outline.keys_pruned _ wholeChain p.outline 0).cons_cons _)

/-- The `if` statements of a pruned program get the verdicts of those that are
left, judged by what is left. -/
theorem Program.places_pruned (wholeChain : Bool) (p : Program) :
    (p.pruned wholeChain).places.map (·.verdict wholeChain) =
      (p.kept wholeChain).map (·.again.verdict wholeChain) := by
  have hcore := p.outline_pruned wholeChain
  rw [Program.places, ← Outline.places_core, ← Outline.own_core, hcore]
  exact Outline.places_pruned _ wholeChain wholeChain p.outline
    (.cons (Outline.own_pruned _ wholeChain p.outline 0 none) .nil)

/-- Nothing is decided in a pruned program exactly if the bindings that are left
decide nothing that is left. -/
theorem Program.undecided_pruned_iff {p : Program} (hkeys : p.DistinctScopes) (wholeChain : Bool) :
    (p.pruned wholeChain).outline.Undecided (.ofProgram (p.pruned wholeChain)) wholeChain 0 ↔
      ∀ k ∈ p.kept wholeChain, k.again.verdict wholeChain = none := by
  have hsites := Program.sites_verdicts (hkeys.pruned wholeChain) wholeChain
  rw [Program.places_pruned] at hsites
  have hall : _ ↔ ∀ v ∈ (p.pruned wholeChain).sites.map
      (fun s => s.conditional.verdict (.ofProgram (p.pruned wholeChain)) wholeChain), v = none :=
    Outline.undecided_iff_sites (p.pruned wholeChain).outline
  rw [hall, hsites]
  simp

/-- The first run leaves only what all bindings around it do not decide. -/
theorem Outline.kept_undecided {g : ScopeGraph} (hkeys : (g.scopes.map (·.key)).Nodup)
    (wholeChain : Bool) (o : Outline) :
    ∀ {next scope : Nat} {scopes live : List (List Binding)}, Sees g scope scopes → scope < next →
      g.Holds next scope o →
      ∀ k ∈ o.kept g wholeChain scope scopes live, k.place.verdict wholeChain = none := by
  induction o with
  | blank => intros; simp_all [Outline.kept]
  | both first second ih1 ih2 =>
    intro next scope scopes live hsees hlt hholds
    obtain ⟨h1, h2⟩ := hholds.both
    simp only [Outline.kept, List.forall_mem_append]
    exact ⟨ih1 hsees hlt h1, ih2 hsees (Nat.lt_add_right _ hlt) h2⟩
  | scope key params inside ih =>
    intro next scope scopes live hsees hlt hholds
    obtain ⟨hnext, hsees', hholds'⟩ := hholds.function hkeys hsees hlt
    simp only [Outline.kept, hnext]
    exact ih hsees' (Nat.lt_succ_self next) hholds'
  | block span inside ih => intro _ _ _ _ hsees hlt hholds; exact ih hsees hlt hholds
  | declare d => intros; simp_all [Outline.kept]
  | choice span test hasAlternate inTest consequent alternate iht ihc iha =>
    intro next scope scopes live hsees hlt hholds
    obtain ⟨h1, h2, h3⟩ := hholds.choice
    have hhere : g.verdict wholeChain scope span test =
        Viewpoint.verdict wholeChain ⟨span, test, scopes⟩ := by
      simp only [ScopeGraph.verdict, Viewpoint.verdict, Viewpoint.known, known_eq_knownAmong hsees]
    simp only [Outline.kept]
    cases hv : g.verdict wholeChain scope span test with
    | none =>
      simp only [List.forall_mem_cons, List.forall_mem_append]
      exact ⟨hhere ▸ hv, ⟨iht hsees hlt h1, ihc hsees (by omega) h2⟩, iha hsees (by omega) h3⟩
    | some isTrue =>
      cases isTrue with
      | true => exact ihc hsees (by omega) h2
      | false => exact iha hsees (by omega) h3

/-- A second run changes nothing exactly if nothing is decided in the pruned
program. -/
theorem shrink_shrink_iff_undecided (wholeChain : Bool) (locate locate' : Nat → Location)
    (p : Program) :
    let once := (shrink wholeChain locate p).program
    let again := shrink wholeChain locate' once
    (again.folds = [] ∧ again.program = once) ↔
      (p.pruned wholeChain).outline.Undecided (.ofProgram (p.pruned wholeChain)) wholeChain 0 := by
  simp only [shrink_program, shrink_folds]
  constructor
  · intro h
    exact (records_eq_nil_iff locate' _ rfl).mp h.1
  · intro h
    exact ⟨(records_eq_nil_iff locate' _ rfl).mpr h, p.pruned_pruned wholeChain h⟩

/-- **When a second run changes nothing.** A second run records no fold and leaves
the tree as it is exactly if the scopes of the pruned program decide none of its
`if` statements. If no two functions have the same kind and range, that is so
exactly if no `if` statement that is left is decided by the bindings that are
left, and in particular if every binding that is visible at such a statement is
left. -/
theorem shrink_shrink_eq_iff (wholeChain : Bool) (locate locate' : Nat → Location) (p : Program) :
    let once := (shrink wholeChain locate p).program
    let again := shrink wholeChain locate' once
    let unchanged := again.folds = [] ∧ again.program = once
    (unchanged ↔ (p.pruned wholeChain).outline.Undecided (.ofProgram (p.pruned wholeChain))
        wholeChain 0) ∧
      (p.DistinctScopes →
        (unchanged ↔ ∀ k ∈ p.kept wholeChain, k.again.verdict wholeChain = none) ∧
        ((∀ k ∈ p.kept wholeChain, visibleAmong k.place.span.start k.live =
            visibleAmong k.place.span.start k.place.scopes) → unchanged)) := by
  have hundecided := shrink_shrink_iff_undecided wholeChain locate locate' p
  refine ⟨hundecided, fun hkeys => ?_⟩
  have hiff := hundecided.trans (Program.undecided_pruned_iff hkeys wholeChain)
  refine ⟨hiff, fun hvisible => hiff.mpr fun k hk => ?_⟩
  have hfirst := p.outline.kept_undecided hkeys wholeChain p.sees_outermost.1 Nat.one_pos
    p.sees_outermost.2 k hk
  rw [← hfirst]
  simp only [Viewpoint.verdict, Viewpoint.known, Kept.again, hvisible k hk]

/-- The tree of
`function g() { { const x = true; if (tested) f(); } if (false) { var x; } }`. -/
def hiddenConstant (tested : String) : Program :=
  let inner : Stmt := .block (.mk ⟨19, 70⟩
    [.decl (.vars .constKind [.mk (.ident "x") (.literal (.bool true))]),
      .ifElse ⟨53, 64⟩ (.ident tested) (.expr (.other .call [.ident "f"])) none])
  let dropped : Stmt := .ifElse ⟨75, 108⟩ (.literal (.bool false))
    (.block (.mk ⟨86, 108⟩ [.decl (.vars .varKind [.mk (.ident "x") .absent])])) none
  ⟨.script, none, [.stmt (.decl (.function "g" (.block ⟨.function, some "g", false, false⟩
    ⟨0, 110⟩ [] (.mk ⟨13, 110⟩ [inner, dropped]))))]⟩

/-- Where `y` is tested a second run changes nothing, although it sees one
binding less. -/
theorem hiddenConstant_y_unchanged :
    let locate : Nat → Location := fun n => ⟨"g.js", 1, n⟩
    let once := (shrink false locate (hiddenConstant "y")).program
    let again := shrink false locate once
    (hiddenConstant "y").DistinctScopes ∧ again.folds = [] ∧ again.program = once := by
  have hkeys : (hiddenConstant "y").DistinctScopes := by
    unfold Program.DistinctScopes
    decide +kernel
  exact ⟨hkeys, ((shrink_shrink_eq_iff false _ _ _).2 hkeys).1.mpr (by decide +kernel)⟩

/-- **A second run may fold more.** Where `x` is tested, the first run drops the
`var` that hid the constant `x` from the test, and the second run finds it. -/
theorem exists_second_fold : ¬ ∀ (p : Program) (wholeChain : Bool) (locate : Nat → Location),
    let once := (shrink wholeChain locate p).program
    let again := shrink wholeChain locate once
    again.folds = [] ∧ again.program = once := by
  intro h
  have hfolds := (h (hiddenConstant "x") false fun n => ⟨"g.js", 1, n⟩).1
  have hagain : (shrink false (fun n => ⟨"g.js", 1, n⟩)
      (shrink false (fun n => ⟨"g.js", 1, n⟩) (hiddenConstant "x")).program).folds =
      [⟨⟨"g.js", 1, 53⟩, .keptConsequent⟩] := by
    decide +kernel
  simp [hagain] at hfolds

end DeadBranch
