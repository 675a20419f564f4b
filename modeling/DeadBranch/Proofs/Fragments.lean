/-
# Fragments with blocks, declarations, loops and choices

Programs are looked at that are built from blocks, `const` and `let` declarations
of plain names, expression statements, `while` loops and `if` statements. Which
expressions may stand where is left open (`Fragment`), as long as a walk meets
nothing in them.

In such a program the text says at each point of a run which bindings are visible
at the `if` statements that are still to be run: they are those of the open
blocks, first the ones whose declaration has run and then the others
(`Fragment.Placed`). This needs ranges that are nested as in a text. That those `if`
statements convert no misread text is kept beside it.

Key definitions: `Fragment`, `Fragment.admits`, `Fixed`, `Fragment.Placed`.
Key theorems: `hoisted_of_admits`, `placed_of_admits`, `hoisted_pruned_of_admits`.
-/
import DeadBranch.Proofs.Clarity
import DeadBranch.Proofs.OpenBlocks
import DeadBranch.Proofs.Ranges

namespace DeadBranch

/-- A walk meets nothing in an expression and leaves it as it is. -/
structure Expr.IsBlank (e : Expr) : Prop where
  outline : e.outline = .blank
  pruned : ∀ g wholeChain scope, e.pruned g wholeChain scope = e

/-- Which expressions may stand in a program, by where they stand. -/
structure Fragment where
  /-- The test of an `if` statement. -/
  test : Expr → Bool
  /-- The test of a loop. -/
  guard : Expr → Bool
  /-- An expression statement. -/
  action : Expr → Bool
  /-- An initial value. -/
  init : VarKind → Expr → Bool
  blank_test : ∀ {e}, test e → e.IsBlank
  blank_guard : ∀ {e}, guard e → e.IsBlank
  blank_action : ∀ {e}, action e → e.IsBlank
  blank_init : ∀ {kind e}, init kind e → e.IsBlank

namespace Fragment

variable (F : Fragment)

/-- Is a plain name declared that is not the name of a global value? -/
def admitsDeclarator (kind : VarKind) : Declarator → Bool
  | .mk (.ident name) init => (globalValue? name).isNone && F.init kind init
  | _ => false

/-- Is it a declaration of constants or variables of a block? -/
def admitsDecl : Stmt → Bool
  | .decl (.vars kind declarators) =>
    kind != .varKind && declarators.all (F.admitsDeclarator kind)
  | _ => false

mutual

/-- Is it a statement of the fragment other than a declaration? -/
def admits : Stmt → Bool
  | .empty | .removed => true
  | .expr e => F.action e
  | .block body => admitsBlock body
  | .ifElse _ test consequent alternate =>
    F.test test && admits consequent && admitsAlternate alternate
  | .whileLoop test body => F.guard test && admits body
  | _ => false

/-- The same of what stands after `else`, if anything. -/
def admitsAlternate : Option Stmt → Bool
  | none => true
  | some s => admits s

/-- Has a block only statements and declarations of the fragment? -/
def admitsBlock : Block → Bool
  | .mk _ stmts => admitsAll stmts

/-- Are there only statements and declarations of the fragment? -/
def admitsAll : List Stmt → Bool
  | [] => true
  | s :: rest => (F.admitsDecl s || admits s) && admitsAll rest

end

/-- A binding of a `const` or `let` declaration of the fragment. -/
structure Binds (b : Binding) : Prop where
  ordinary : globalValue? b.name = none
  constant : ∀ d, b.declarator = some d →
    b.kind.isImmutable ∧ ∃ init, d = .mk (.ident b.name) init ∧ F.init .constKind init

variable {F}

/-! ### What statements of a fragment declare -/

theorem blank_declarators {kind : VarKind} : ∀ {ds : List Declarator},
    ds.all (F.admitsDeclarator kind) → declaratorsOutline ds = .blank ∧
      ∀ g wholeChain scope, declaratorsPruned g wholeChain scope ds = ds
  | [], _ => by simp [declaratorsOutline, declaratorsPruned]
  | .mk target init :: rest, hs => by
    simp only [List.all_cons, Bool.and_eq_true] at hs
    obtain ⟨hd, hrest⟩ := hs
    obtain ⟨h1, h2⟩ := blank_declarators hrest
    cases target with
    | ident name =>
      simp only [admitsDeclarator, Bool.and_eq_true] at hd
      obtain ⟨h3, h4⟩ := F.blank_init hd.2
      simp [declaratorsOutline, declaratorsPruned, Declarator.outline, Declarator.pruned,
        Expr.outline, Expr.pruned, h1, h2, h3, h4]
    | _ => simp [admitsDeclarator] at hd

theorem outline_of_admitsDecl {s : Stmt} (hs : F.admitsDecl s) :
    ∃ kind ds, s = .decl (.vars kind ds) ∧ kind ≠ .varKind ∧ ds.all (F.admitsDeclarator kind) ∧
      s.outline = .declare (.vars kind ds) := by
  unfold admitsDecl at hs
  split at hs
  · rename_i kind ds
    simp only [Bool.and_eq_true, bne_iff_ne] at hs
    exact ⟨kind, ds, rfl, hs.1, hs.2,
      by simp [Stmt.outline, Decl.outline, (blank_declarators hs.2).1]⟩
  · cases hs

mutual

/-- Statements of a fragment declare nothing for a whole function. -/
theorem isPlain_of_admits : ∀ {s : Stmt}, F.admits s → s.outline.isPlain
  | .empty, _ | .removed, _ => by simp [Stmt.outline, Outline.isPlain]
  | .expr e, hs => by
    simp only [admits] at hs
    simp [Stmt.outline, (F.blank_action hs).outline, Outline.isPlain]
  | .block (.mk span stmts), hs => by
    simp only [admits, admitsBlock] at hs
    simp only [Stmt.outline, Block.outline, Outline.isPlain]
    exact isPlain_of_admitsAll hs
  | .ifElse span test consequent alternate, hs => by
    simp only [admits, Bool.and_eq_true] at hs
    simp [Stmt.outline, (F.blank_test hs.1.1).outline, Outline.isPlain,
      isPlain_of_admits hs.1.2, isPlain_of_admitsAlternate hs.2]
  | .whileLoop test body, hs => by
    simp only [admits, Bool.and_eq_true] at hs
    simp [Stmt.outline, (F.blank_guard hs.1).outline, isPlain_of_admits hs.2]
  | .decl _, hs | .doWhile _ _, hs | .forLoop _ _ _ _ _, hs | .forEach _ _ _ _ _, hs
  | .labeled _ _, hs | .withObject _ _, hs | .switch _ _ _, hs | .tryCatch _ _ _, hs | .ret _, hs
  | .throw _, hs | .exitTo _, hs | .continueTo _, hs | .debugger, hs => by simp [admits] at hs

theorem isPlain_of_admitsAlternate : ∀ {s : Option Stmt}, F.admitsAlternate s →
    (alternateOutline s).isPlain
  | none, _ => by simp [alternateOutline, Outline.isPlain]
  | some s, hs => by
    simp only [admitsAlternate] at hs
    simp only [alternateOutline]
    exact isPlain_of_admits hs

theorem isPlain_of_admitsAll : ∀ {ss : List Stmt}, F.admitsAll ss → (stmtsOutline ss).isPlain
  | [], _ => rfl
  | s :: rest, hs => by
    simp only [admitsAll, Bool.and_eq_true, Bool.or_eq_true] at hs
    simp only [stmtsOutline, Outline.isPlain_andThen, Bool.and_eq_true]
    refine ⟨?_, isPlain_of_admitsAll hs.2⟩
    rcases hs.1 with hdecl | hs
    · obtain ⟨kind, ds, -, hkind, -, houtline⟩ := outline_of_admitsDecl hdecl
      simp [houtline, Outline.isPlain, Declaration.isConfined, hkind]
    · exact isPlain_of_admits hs

end

section Direct

variable (block : Option Span)

mutual

/-- A statement that is no declaration declares nothing for the block around
it. -/
theorem direct_of_admits : ∀ {s : Stmt}, F.admits s → s.outline.direct block = []
  | .empty, _ | .removed, _ => by simp [Stmt.outline, Outline.direct]
  | .expr e, hs => by
    simp only [admits] at hs
    simp [Stmt.outline, (F.blank_action hs).outline, Outline.direct]
  | .block (.mk span stmts), _ => by simp [Stmt.outline, Block.outline, Outline.direct]
  | .ifElse span test consequent alternate, hs => by
    simp only [admits, Bool.and_eq_true] at hs
    simp [Stmt.outline, (F.blank_test hs.1.1).outline, Outline.direct,
      direct_of_admits hs.1.2, direct_of_admitsAlternate hs.2]
  | .whileLoop test body, hs => by
    simp only [admits, Bool.and_eq_true] at hs
    simp [Stmt.outline, (F.blank_guard hs.1).outline, direct_of_admits hs.2]
  | .decl _, hs | .doWhile _ _, hs | .forLoop _ _ _ _ _, hs | .forEach _ _ _ _ _, hs
  | .labeled _ _, hs | .withObject _ _, hs | .switch _ _ _, hs | .tryCatch _ _ _, hs | .ret _, hs
  | .throw _, hs | .exitTo _, hs | .continueTo _, hs | .debugger, hs => by simp [admits] at hs

theorem direct_of_admitsAlternate : ∀ {s : Option Stmt}, F.admitsAlternate s →
    (alternateOutline s).direct block = []
  | none, _ => by simp [alternateOutline, Outline.direct]
  | some s, hs => by
    simp only [admitsAlternate] at hs
    simp only [alternateOutline]
    exact direct_of_admits hs

end

/-- A declarator of a fragment has one binding. -/
theorem bindings_of_admits {kind : VarKind} (hkind : kind ≠ .varKind) {d : Declarator}
    (hd : F.admitsDeclarator kind d) : ∃ name init b, d = .mk (.ident name) init ∧
      F.init kind init ∧ d.bindings kind block = [b] ∧ b.name = name ∧ F.Binds b ∧
      d.cells kind = [b.cell] ∧ ∀ target init', b.declarator = some (.mk target init') →
        kind = .constKind ∧ init' = init := by
  unfold admitsDeclarator at hd
  split at hd
  · rename_i name init
    simp only [Bool.and_eq_true, Option.isNone_iff_eq_none] at hd
    obtain ⟨hname, hinit⟩ := hd
    cases kind with
    | constKind =>
      refine ⟨name, init, ⟨name, .constKind, some (.mk (.ident name) init), block⟩, rfl, hinit, rfl,
        rfl, ⟨hname, ?_⟩, rfl, ?_⟩
      · rintro d ⟨⟩
        exact ⟨rfl, init, rfl, hinit⟩
      · rintro target init' ⟨⟩
        exact ⟨rfl, rfl⟩
    | letKind =>
      exact ⟨name, init, .plain .letKind block name, rfl, hinit, rfl, rfl,
        ⟨hname, by simp [Binding.plain]⟩, rfl, by simp [Binding.plain]⟩
    | varKind => exact absurd rfl hkind
  · cases hd

/-- The variables of declarators are those that they bind. -/
theorem cells_of_declarators {kind : VarKind} (hkind : kind ≠ .varKind) : ∀ {ds : List Declarator},
    ds.all (F.admitsDeclarator kind) →
    ds.flatMap (·.cells kind) = (ds.flatMap (·.bindings kind block)).map Binding.cell ∧
      ∀ b ∈ ds.flatMap (·.bindings kind block), F.Binds b
  | [], _ => by simp
  | d :: rest, hs => by
    simp only [List.all_cons, Bool.and_eq_true] at hs
    obtain ⟨name, init, b, -, -, hb, -, hbinds, hcell, -⟩ := bindings_of_admits block hkind hs.1
    obtain ⟨hcells, hrest⟩ := cells_of_declarators hkind hs.2
    simp only [List.flatMap_cons, hb, hcell, hcells, List.map_append, List.forall_mem_append]
    exact ⟨rfl, by simpa using hbinds, hrest⟩

theorem cells_of_admits {s : Stmt} (hs : F.admits s) : s.cells = [] := by
  cases s <;> simp_all [Stmt.cells, admits]

/-- The variables of a block before it runs are those of its bindings. -/
theorem hoisted_of_admits : ∀ {ss : List Stmt}, F.admitsAll ss →
    hoisted ss = ((stmtsOutline ss).direct block).map Binding.cell ∧
      ∀ b ∈ (stmtsOutline ss).direct block, F.Binds b
  | [], _ => by simp [hoisted, stmtsOutline, Outline.direct]
  | s :: rest, hs => by
    simp only [admitsAll, Bool.and_eq_true, Bool.or_eq_true] at hs
    obtain ⟨hcells, hrest⟩ := hoisted_of_admits hs.2
    simp only [hoisted] at hcells
    simp only [hoisted, List.flatMap_cons, stmtsOutline, Outline.direct_andThen, List.map_append,
      List.forall_mem_append, hcells]
    rcases hs.1 with hdecl | hs
    · obtain ⟨kind, ds, rfl, hkind, hds, houtline⟩ := outline_of_admitsDecl hdecl
      obtain ⟨hcells', hbinds⟩ := cells_of_declarators block hkind hds
      rw [houtline]
      exact ⟨congrArg (· ++ _) hcells', hbinds, hrest⟩
    · rw [direct_of_admits block hs, cells_of_admits hs]
      exact ⟨rfl, by simp, hrest⟩

end Direct

/-! ### What is left of the statements -/

section Pruned

variable {g : ScopeGraph} {wholeChain : Bool}

mutual

/-- What is left of a statement that is no declaration is none either. -/
theorem cells_pruned_of_admits : ∀ {s : Stmt}, F.admits s →
    ∀ s' ∈ s.pruned g wholeChain 0, s'.cells = []
  | .empty, _ | .removed, _ => by simp [Stmt.pruned, Stmt.cells]
  | .expr _, _ | .block _, _ | .whileLoop _ _, _ => by simp [Stmt.pruned, Stmt.cells]
  | .ifElse span test consequent alternate, hs => by
    simp only [admits, Bool.and_eq_true] at hs
    simp only [Stmt.pruned]
    split
    · exact cells_pruned_of_admits hs.1.2
    · exact cells_pruned_of_admitsAlternate hs.2
    · simp [Stmt.cells]
  | .decl _, hs | .doWhile _ _, hs | .forLoop _ _ _ _ _, hs | .forEach _ _ _ _ _, hs
  | .labeled _ _, hs | .withObject _ _, hs | .switch _ _ _, hs | .tryCatch _ _ _, hs | .ret _, hs
  | .throw _, hs | .exitTo _, hs | .continueTo _, hs | .debugger, hs => by simp [admits] at hs

theorem cells_pruned_of_admitsAlternate : ∀ {s : Option Stmt}, F.admitsAlternate s →
    ∀ s' ∈ alternatePruned g wholeChain 0 s, s'.cells = []
  | none, _ => by simp [alternatePruned]
  | some s, hs => by
    simp only [admitsAlternate] at hs
    simp only [alternatePruned]
    exact cells_pruned_of_admits hs

end

/-- A block has the same variables as what is left of it. -/
theorem hoisted_pruned_of_admits : ∀ {ss : List Stmt}, F.admitsAll ss →
    hoisted (stmtsPruned g wholeChain 0 ss) = hoisted ss
  | [], _ => by simp [stmtsPruned]
  | s :: rest, hs => by
    simp only [admitsAll, Bool.and_eq_true, Bool.or_eq_true] at hs
    have ih : (stmtsPruned g wholeChain 0 rest).flatMap Stmt.cells = rest.flatMap Stmt.cells :=
      hoisted_pruned_of_admits hs.2
    simp only [stmtsPruned, hoisted, List.flatMap_append, List.flatMap_cons, ih]
    congr 1
    rcases hs.1 with hdecl | hs
    · obtain ⟨kind, ds, rfl, -, hds, -⟩ := outline_of_admitsDecl hdecl
      simp [Stmt.pruned, Decl.pruned, (blank_declarators hds).2]
    · rw [cells_of_admits hs]
      have hcells : ∀ s' ∈ s.pruned g wholeChain 0, s'.cells = [] := cells_pruned_of_admits hs
      cases hpruned : s.pruned g wholeChain 0 with
      | none => rfl
      | some s' => simp [hcells s' hpruned]

/-- An expression statement is left as it is. -/
theorem stmtsPruned_expr {e : Expr} (hs : F.admits (.expr e)) (rest : List Stmt) :
    stmtsPruned g wholeChain 0 (.expr e :: rest) = .expr e :: stmtsPruned g wholeChain 0 rest := by
  simp only [admits] at hs
  simp only [stmtsPruned, Stmt.pruned, (F.blank_action hs).pruned]
  rfl

end Pruned
end Fragment

theorem stmtsPruned_alternate {g : ScopeGraph} {wholeChain : Bool} (alternate : Option Stmt)
    (rest : List Stmt) : stmtsPruned g wholeChain 0 (alternate.toList ++ rest) =
      (alternatePruned g wholeChain 0 alternate).toList ++ stmtsPruned g wholeChain 0 rest := by
  cases alternate <;> simp [stmtsPruned, alternatePruned]

/-! ### What is visible from the `if` statements of an outline -/

section Fixed

variable (total : List Binding) (block : Option Span)

/-- Seen from the `if` statements of an outline, the bindings that are visible are
those of the open blocks that have run, then those of the outline itself and
then those to come. -/
def Fixed (blocks : List OpenBlock) (o : Outline) : Prop :=
  ∀ position ∈ o.starts, block.all (·.contains position) ∧
    total.filter (·.visibleAt position) =
      doneOf blocks ++ (o.own block).filter (·.visibleAt position) ++ pendingOf blocks

variable {total block} {blocks : List OpenBlock}

section Choice

variable {span : Span} {test : Expr} {hasAlternate : Bool} {inTest consequent alternate : Outline}
  (hnested : (Outline.choice span test hasAlternate inTest consequent alternate).isNested)
  (hplain : (Outline.choice span test hasAlternate inTest consequent alternate).isPlain)
  (hdirect : (Outline.choice span test hasAlternate inTest consequent alternate).direct block = [])
  (hfixed : Fixed total block blocks
    (.choice span test hasAlternate inTest consequent alternate))

include hnested hplain hdirect hfixed

/-- Where an `if` statement starts, none of the bindings in it is visible. -/
theorem Fixed.at_choice :
    total.filter (·.visibleAt span.start) = doneOf blocks ++ pendingOf blocks := by
  obtain ⟨hblock, htotal⟩ := hfixed span.start List.mem_cons_self
  obtain ⟨-, htn, hcn, han, -, -, -, hparts⟩ := Outline.isNested_choice hnested
  -- the parts of the statement begin after it
  have hout : ∀ r ∈ inTest.ranges ++ consequent.ranges ++ alternate.ranges,
      r.contains span.start = false := by
    intro r hr
    rw [Bool.eq_false_iff, Ne, Span.contains_iff]
    have := (hparts r hr).1
    omega
  simp only [List.forall_mem_append] at hout
  simp only [Outline.isPlain, Bool.and_eq_true] at hplain
  have hown : ((Outline.choice span test hasAlternate inTest consequent alternate).own block).filter
      (·.visibleAt span.start) = [] := by
    rw [Outline.own, List.filter_append, List.filter_append,
      Outline.own_filter_of_apart hblock htn hplain.1.1 hout.1.1,
      Outline.own_filter_of_apart hblock hcn hplain.1.2 hout.1.2,
      Outline.own_filter_of_apart hblock han hplain.2 hout.2]
    exact hdirect
  rw [htotal, hown, List.append_nil]

/-- From one part of an `if` statement nothing of the others is visible. -/
theorem Fixed.of_choice :
    Fixed total block blocks consequent ∧ Fixed total block blocks alternate := by
  obtain ⟨-, htn, hcn, han, htc, hta, hca, -⟩ := Outline.isNested_choice hnested
  simp only [Outline.isPlain, Bool.and_eq_true] at hplain
  simp only [Outline.direct, List.append_eq_nil_iff] at hdirect
  obtain ⟨⟨hdt, hdc⟩, hda⟩ := hdirect
  constructor
  · intro position hp
    obtain ⟨hblock, htotal⟩ := hfixed position (by simp [Outline.starts, hp])
    have htest := Outline.own_filter_of_apart hblock htn hplain.1.1
      (Outline.not_contains_of_isApart hcn (Outline.isApart_comm htc) hp)
    have hother := Outline.own_filter_of_apart hblock han hplain.2
      (Outline.not_contains_of_isApart hcn hca hp)
    refine ⟨hblock, htotal.trans ?_⟩
    simp [Outline.own, htest, hother, hdt, hda]
  · intro position hp
    obtain ⟨hblock, htotal⟩ := hfixed position (by simp [Outline.starts, hp])
    have htest := Outline.own_filter_of_apart hblock htn hplain.1.1
      (Outline.not_contains_of_isApart han (Outline.isApart_comm hta) hp)
    have hother := Outline.own_filter_of_apart hblock hcn hplain.1.2
      (Outline.not_contains_of_isApart han (Outline.isApart_comm hca) hp)
    refine ⟨hblock, htotal.trans ?_⟩
    simp [Outline.own, htest, hother, hdt, hdc]

end Choice

/-- Entering a block. -/
theorem Fixed.inside {span : Span} {inside : Outline}
    (hnested : (Outline.block span inside).isNested)
    (hfixed : Fixed total block blocks (.block span inside)) :
    Fixed total (some span) (⟨[], []⟩ :: blocks) inside := by
  simp only [Outline.isNested, Bool.and_eq_true, List.all_eq_true] at hnested
  intro position hp
  obtain ⟨r, hr, hcontains⟩ := Outline.contains_of_mem_starts hnested.1 hp
  obtain ⟨-, htotal⟩ := hfixed position hp
  refine ⟨by simpa using Span.contains_of_isWithin (hnested.2 r hr) hcontains, ?_⟩
  simpa [doneOf, pendingOf, Outline.own] using htotal

/-- Of two neighbours, the first sees what the second declares as to come, and the
second sees what the first declares as done. -/
theorem Fixed.of_andThen {outer : List OpenBlock} {done : List Binding} {first second : Outline}
    (hnested : (first.andThen second).isNested) (hplain : (first.andThen second).isPlain)
    (hfixed : Fixed total block (⟨done, []⟩ :: outer) (first.andThen second)) :
    Fixed total block (⟨done, second.direct block⟩ :: outer) first ∧
      Fixed total block (⟨done ++ first.direct block, []⟩ :: outer) second := by
  simp only [Outline.isNested_andThen, Outline.isPlain_andThen, Bool.and_eq_true] at hnested hplain
  obtain ⟨⟨hfirst, hsecond⟩, hapart⟩ := hnested
  simp only [Fixed, Outline.starts_andThen, List.mem_append, Outline.own_andThen] at hfixed
  constructor
  · intro position hp
    obtain ⟨hblock, htotal⟩ := hfixed position (.inl hp)
    have hother := Outline.own_filter_of_apart hblock hsecond hplain.2
      (Outline.not_contains_of_isApart hfirst hapart hp)
    refine ⟨hblock, htotal.trans ?_⟩
    simp [doneOf, pendingOf, hother]
  · intro position hp
    obtain ⟨hblock, htotal⟩ := hfixed position (.inr hp)
    have hother := Outline.own_filter_of_apart hblock hfirst hplain.1
      (Outline.not_contains_of_isApart hsecond (Outline.isApart_comm hapart) hp)
    refine ⟨hblock, htotal.trans ?_⟩
    simp [doneOf, pendingOf, hother]

end Fixed

/-! ### Where a run stands in the text -/

namespace Fragment

section Placed

variable (F : Fragment) (wholeChain : Bool) (total : List Binding) (block : Option Span)

/-- The statements are what is left to run of the innermost open block, where the
given bindings have run and the others are to come, and their `if` statements are
clear. -/
inductive Placed (outer : List OpenBlock) : List Binding → List Binding → List Stmt → Prop
  | nil {done : List Binding} : Placed outer done [] []
  | decl {done pending : List Binding} {kind : VarKind} {ds : List Declarator} {rest : List Stmt}
    (hkind : kind ≠ .varKind) (hds : ds.all (F.admitsDeclarator kind))
    (hrest : Placed outer (done ++ ds.flatMap (·.bindings kind block)) pending rest) :
    Placed outer done (ds.flatMap (·.bindings kind block) ++ pending)
      (.decl (.vars kind ds) :: rest)
  | stmt {done pending : List Binding} {s : Stmt} {rest : List Stmt} (hs : F.admits s)
    (hnested : s.outline.isNested)
    (hfixed : Fixed total block (⟨done, pending⟩ :: outer) s.outline)
    (hclear : ∀ place ∈ s.outline.places [total], place.isClear wholeChain)
    (hrest : Placed outer done pending rest) : Placed outer done pending (s :: rest)

variable {F wholeChain total block}

/-- **The statements of a block are placed where it begins.** -/
theorem placed_of_admits {outer : List OpenBlock} : ∀ {ss : List Stmt} {done : List Binding},
    F.admitsAll ss → (stmtsOutline ss).isNested →
    Fixed total block (⟨done, []⟩ :: outer) (stmtsOutline ss) →
    (∀ place ∈ (stmtsOutline ss).places [total], place.isClear wholeChain) →
    F.Placed wholeChain total block outer done ((stmtsOutline ss).direct block) ss
  | [], _, _, _, _, _ => .nil
  | s :: rest, done, hs, hnested, hfixed, hclear => by
    have hplain := isPlain_of_admitsAll hs
    simp only [admitsAll, Bool.and_eq_true, Bool.or_eq_true] at hs
    simp only [stmtsOutline] at hnested hplain hfixed
    obtain ⟨hhere, hbehind⟩ := hfixed.of_andThen hnested hplain
    simp only [Outline.isNested_andThen, Bool.and_eq_true] at hnested
    rw [stmtsOutline, Outline.places_andThen, List.forall_mem_append] at hclear
    rw [stmtsOutline, Outline.direct_andThen]
    rcases hs.1 with hdecl | hadmits
    · obtain ⟨kind, ds, rfl, hkind, hds, houtline⟩ := outline_of_admitsDecl hdecl
      rw [houtline] at hbehind ⊢
      exact .decl hkind hds (placed_of_admits hs.2 hnested.1.2 hbehind hclear.2)
    · rw [direct_of_admits block hadmits, List.append_nil] at hbehind
      rw [direct_of_admits block hadmits, List.nil_append]
      exact .stmt hadmits hnested.1.1 hhere hclear.1
        (placed_of_admits hs.2 hnested.1.2 hbehind hclear.2)

section Step

variable {outer : List OpenBlock} {done pending : List Binding} {rest : List Stmt}

/-- Where a run has come to an `if` statement, the visible bindings are those of
the open blocks. -/
theorem Placed.at_choice {span : Span} {test : Expr} {consequent : Stmt} {alternate : Option Stmt}
    (hplaced : F.Placed wholeChain total block outer done pending
      (.ifElse span test consequent alternate :: rest)) :
    F.test test ∧ Viewpoint.isClear wholeChain ⟨span, test, [total]⟩ ∧
      total.filter (·.visibleAt span.start) =
        doneOf (⟨done, pending⟩ :: outer) ++ pendingOf (⟨done, pending⟩ :: outer) := by
  obtain _ | _ | ⟨hs, hnested, hfixed, hclear, -⟩ := hplaced
  have hplain := isPlain_of_admits hs
  have hdirect := direct_of_admits block hs
  simp only [Stmt.outline] at hnested hfixed hplain hdirect
  simp only [admits, Bool.and_eq_true] at hs
  exact ⟨hs.1.1, hclear _ List.mem_cons_self, hfixed.at_choice hnested hplain hdirect⟩

/-- A verdict on its test is that of the open blocks, which are clear. -/
theorem Placed.evaluate_of_verdict {g : ScopeGraph} {span : Span} {test : Expr}
    {consequent : Stmt} {alternate : Option Stmt}
    (hknown : ∀ position, g.known wholeChain 0 position =
      knownAmong wholeChain [total.filter (·.visibleAt position)])
    (hplaced : F.Placed wholeChain total block outer done pending
      (.ifElse span test consequent alternate :: rest)) {verdict : Bool}
    (hverdict : g.verdict wholeChain 0 span test = some verdict) :
    let visible := doneOf (⟨done, pending⟩ :: outer) ++ pendingOf (⟨done, pending⟩ :: outer)
    F.test test ∧ clearAmong wholeChain [visible] ∧ test.isClear (knownAmong wholeChain [visible]) ∧
      ∃ v, evaluate (knownAmong wholeChain [visible]) test = some v ∧ v.truthy = verdict := by
  obtain ⟨htest, hclear, hvisible⟩ := hplaced.at_choice
  simp only [Viewpoint.isClear, Viewpoint.known, visibleAmong, List.map_cons, List.map_nil,
    hvisible, Bool.and_eq_true] at hclear
  simp only [ScopeGraph.verdict, hknown, hvisible, Option.map_eq_some_iff] at hverdict
  exact ⟨htest, hclear.1, hclear.2, hverdict⟩

/-- A run goes on with the consequent of an `if` statement. -/
theorem Placed.consequent {span : Span} {test : Expr} {consequent : Stmt} {alternate : Option Stmt}
    (hplaced : F.Placed wholeChain total block outer done pending
      (.ifElse span test consequent alternate :: rest)) :
    F.Placed wholeChain total block outer done pending (consequent :: rest) := by
  obtain _ | _ | ⟨hs, hnested, hfixed, hclear, hrest⟩ := hplaced
  have hplain := isPlain_of_admits hs
  have hdirect := direct_of_admits block hs
  simp only [Stmt.outline] at hnested hfixed hclear hplain hdirect
  simp only [admits, Bool.and_eq_true] at hs
  obtain ⟨-, -, hcn, -⟩ := Outline.isNested_choice hnested
  simp only [Outline.places, List.forall_mem_cons, List.forall_mem_append] at hclear
  exact .stmt hs.1.2 hcn (hfixed.of_choice hnested hplain hdirect).1 hclear.2.1.2 hrest

/-- A run goes on with the alternate of an `if` statement, or behind it. -/
theorem Placed.alternate {span : Span} {test : Expr} {consequent : Stmt} {alternate : Option Stmt}
    (hplaced : F.Placed wholeChain total block outer done pending
      (.ifElse span test consequent alternate :: rest)) :
    F.Placed wholeChain total block outer done pending (alternate.toList ++ rest) := by
  obtain _ | _ | ⟨hs, hnested, hfixed, hclear, hrest⟩ := hplaced
  have hplain := isPlain_of_admits hs
  have hdirect := direct_of_admits block hs
  simp only [Stmt.outline] at hnested hfixed hclear hplain hdirect
  simp only [admits, Bool.and_eq_true] at hs
  obtain ⟨-, -, -, han, -⟩ := Outline.isNested_choice hnested
  have hpart := (hfixed.of_choice hnested hplain hdirect).2
  simp only [Outline.places, List.forall_mem_cons, List.forall_mem_append] at hclear
  cases alternate with
  | none => exact hrest
  | some s => exact .stmt hs.2 han hpart hclear.2.2 hrest

/-- A run goes through the body of a loop once more. -/
theorem Placed.loop {test : Expr} {body : Stmt}
    (hplaced : F.Placed wholeChain total block outer done pending (.whileLoop test body :: rest)) :
    F.Placed wholeChain total block outer done pending (body :: .whileLoop test body :: rest) := by
  have hagain := hplaced
  obtain _ | _ | ⟨hs, hnested, hfixed, hclear, -⟩ := hplaced
  simp only [admits, Bool.and_eq_true] at hs
  have houtline : (Stmt.whileLoop test body).outline = body.outline := by
    simp [Stmt.outline, (F.blank_guard hs.1).outline]
  exact .stmt hs.2 (houtline ▸ hnested) (houtline ▸ hfixed) (houtline ▸ hclear) hagain

/-- A run enters a block. -/
theorem Placed.inside {span : Span} {stmts : List Stmt}
    (hplaced : F.Placed wholeChain total block outer done pending
      (.block (.mk span stmts) :: rest)) :
    F.admitsAll stmts ∧ F.Placed wholeChain total (some span) (⟨done, pending⟩ :: outer) []
      ((stmtsOutline stmts).direct (some span)) stmts := by
  obtain _ | _ | ⟨hs, hnested, hfixed, hclear, -⟩ := hplaced
  simp only [admits, admitsBlock] at hs
  simp only [Stmt.outline, Block.outline] at hnested hfixed hclear
  have hinside := hfixed.inside hnested
  simp only [Outline.isNested, Bool.and_eq_true] at hnested
  exact ⟨hs, placed_of_admits hs hnested.1 hinside hclear⟩

/-- A run has come to a statement that is no declaration, and goes on behind
it. -/
theorem Placed.next {s : Stmt} (hs : F.admitsDecl s = false)
    (hplaced : F.Placed wholeChain total block outer done pending (s :: rest)) :
    F.admits s ∧ F.Placed wholeChain total block outer done pending rest := by
  cases hplaced with
  | decl hkind hds _ => simp [admitsDecl, hds, hkind] at hs
  | stmt hs _ _ _ hrest => exact ⟨hs, hrest⟩

end Step

end Placed

end Fragment

/-! ### Whole programs -/

/-- Is an item of a program a statement? -/
def Item.isStmt : Item → Bool
  | .stmt _ => true
  | _ => false

/-- The statements among items. -/
def stmtsAmong (items : List Item) : List Stmt := Program.stmts ⟨.script, none, items⟩

theorem items_of_isStmt : ∀ {items : List Item}, items.all Item.isStmt →
    itemsOutline items = stmtsOutline (stmtsAmong items) ∧ ∀ g wholeChain,
      stmtsAmong (itemsPruned g wholeChain 0 items) = stmtsPruned g wholeChain 0 (stmtsAmong items)
  | [], _ => ⟨rfl, fun _ _ => by simp [stmtsAmong, Program.stmts, itemsPruned, stmtsPruned]⟩
  | .stmt s :: rest, hs => by
    simp only [List.all_cons, Bool.and_eq_true] at hs
    obtain ⟨houtline, hpruned⟩ := items_of_isStmt hs.2
    have hcons : stmtsAmong (.stmt s :: rest) = s :: stmtsAmong rest := rfl
    refine ⟨by rw [hcons, itemsOutline, stmtsOutline, houtline, Item.outline], ?_⟩
    intro g wholeChain
    rw [hcons, stmtsPruned, ← hpruned, itemsPruned, Item.pruned]
    cases s.pruned g wholeChain 0 <;> rfl
  | .importNames _ _ :: _, hs | .exportNames _ _ :: _, hs | .exportAll _ :: _, hs
  | .exportDecl _ :: _, hs | .exportDefault _ _ :: _, hs => by simp [Item.isStmt] at hs

/-- Has a program only statements and declarations of a fragment? -/
def Fragment.admitsProgram (F : Fragment) (p : Program) : Bool :=
  p.items.all Item.isStmt && F.admitsAll p.stmts

namespace Fragment

variable {F G : Fragment}

/-- What may stand in one fragment may stand in the other. -/
structure Below (F G : Fragment) : Prop where
  test : ∀ {e}, F.test e → G.test e
  guard : ∀ {e}, F.guard e → G.guard e
  action : ∀ {e}, F.action e → G.action e
  init : ∀ {kind e}, F.init kind e → G.init kind e

theorem Below.admitsDecl (h : F.Below G) {s : Stmt} (hs : F.admitsDecl s) : G.admitsDecl s := by
  obtain ⟨kind, ds, rfl, hkind, hds, -⟩ := outline_of_admitsDecl hs
  simp only [Fragment.admitsDecl, Bool.and_eq_true, bne_iff_ne, List.all_eq_true] at hds ⊢
  refine ⟨hkind, fun d hd => ?_⟩
  have hadmits := hds d hd
  unfold admitsDeclarator at hadmits ⊢
  split at hadmits
  · rw [Bool.and_eq_true] at hadmits ⊢
    exact ⟨hadmits.1, h.init hadmits.2⟩
  · cases hadmits

mutual

theorem Below.admits (h : F.Below G) : ∀ {s : Stmt}, F.admits s → G.admits s
  | .empty, _ | .removed, _ => by simp [Fragment.admits]
  | .expr e, hs => by
    simp only [Fragment.admits] at hs ⊢
    exact h.action hs
  | .block (.mk span stmts), hs => by
    simp only [Fragment.admits, admitsBlock] at hs ⊢
    exact h.admitsAll hs
  | .ifElse span test consequent alternate, hs => by
    simp only [Fragment.admits, Bool.and_eq_true] at hs ⊢
    exact ⟨⟨h.test hs.1.1, h.admits hs.1.2⟩, h.admitsAlternate hs.2⟩
  | .whileLoop test body, hs => by
    simp only [Fragment.admits, Bool.and_eq_true] at hs ⊢
    exact ⟨h.guard hs.1, h.admits hs.2⟩
  | .decl _, hs | .doWhile _ _, hs | .forLoop _ _ _ _ _, hs | .forEach _ _ _ _ _, hs
  | .labeled _ _, hs | .withObject _ _, hs | .switch _ _ _, hs | .tryCatch _ _ _, hs | .ret _, hs
  | .throw _, hs | .exitTo _, hs | .continueTo _, hs | .debugger, hs => by
    simp [Fragment.admits] at hs

theorem Below.admitsAlternate (h : F.Below G) : ∀ {s : Option Stmt}, F.admitsAlternate s →
    G.admitsAlternate s
  | none, _ => by simp [Fragment.admitsAlternate]
  | some s, hs => by
    simp only [Fragment.admitsAlternate] at hs ⊢
    exact h.admits hs

theorem Below.admitsAll (h : F.Below G) : ∀ {ss : List Stmt}, F.admitsAll ss → G.admitsAll ss
  | [], _ => by simp [Fragment.admitsAll]
  | s :: rest, hs => by
    simp only [Fragment.admitsAll, Bool.and_eq_true, Bool.or_eq_true] at hs ⊢
    exact ⟨hs.1.imp h.admitsDecl h.admits, h.admitsAll hs.2⟩

end

/-- A larger fragment has all the programs of a smaller one. -/
theorem Below.admitsProgram (h : F.Below G) {p : Program} (hp : F.admitsProgram p) :
    G.admitsProgram p := by
  simp only [Fragment.admitsProgram, Bool.and_eq_true] at hp ⊢
  exact ⟨hp.1, h.admitsAll hp.2⟩

end Fragment

end DeadBranch
