/-
# Bound or shadowed, never both

What is known at a place is found by going through the scopes around it from the
innermost outwards, with a growing list of names already declared, and then
binding the usable constants in the opposite direction. How a name stands in the
end can be said in one step: the innermost scope with a visible binding of the
name decides alone (`Tracker.standing`). If there is none, nothing is recorded
about the name. If it is consulted and the name has one visible binding there,
that of a constant by a plain name, then all that is recorded about the name
comes from binding this constant. Otherwise the name must not be read, and
nothing is recorded about it.

So what is known never holds a fact about a name that must not be read, at no
point of the binding; therefore a constant that takes over what is known of
another name, without asking whether the name may be read, takes over nothing
from such a name.

Key definitions: `ScopeGraph.namedAt`, `Standing`, `Tracker.standing`.
Key theorems: `frames_standing`, `associations_of_standing`.
-/
import DeadBranch.Proofs.Facts
import DeadBranch.Proofs.Lexical

namespace DeadBranch

/-! ### How a name stands -/

/-- How a name stands at a place. -/
inductive Standing where
  /-- It is not declared. -/
  | free
  /-- It is a usable constant. -/
  | constant (d : Declarator)
  /-- It must not be read. -/
  | hidden

/-- The usable constant. -/
def Standing.constants : Standing → List Declarator
  | .constant d => [d]
  | _ => []

/-- Must the name not be read? -/
def Standing.isHidden : Standing → Bool
  | .hidden => true
  | _ => false

/-- How a name stands by all its visible bindings in one scope. -/
def standingOf (consulted : Bool) : List Binding → Standing
  | [b] =>
    match b.declarator with
    | some d => if consulted && b.kind.isImmutable then .constant d else .hidden
    | none => .hidden
  | _ => .hidden

/-- The bindings of a name in a scope that are visible at a position. -/
def ScopeGraph.namedAt (g : ScopeGraph) (position : Nat) (name : String) (id : Nat) :
    List Binding :=
  match g.get? id with
  | some s => (s.visibleAt position).filter (·.name == name)
  | none => []

/-- How a name stands by the given scopes, the innermost of which comes first:
the first scope that has a visible binding of it decides. -/
def ScopeGraph.standing (g : ScopeGraph) (position : Nat) (consulted : Nat → Bool)
    (name : String) (ids : List Nat) : Standing :=
  match ids.find? fun id => !(g.namedAt position name id).isEmpty with
  | none => .free
  | some id => standingOf (consulted id) (g.namedAt position name id)

/-- How a name stands at a position in the innermost scope. -/
def Tracker.standing (t : Tracker) (position : Nat) (wholeChain : Bool) (name : String) :
    Standing :=
  t.graph.standing position (fun id => wholeChain || id == t.current) name
    (t.graph.ancestors t.current)

/-! ### Kept declarations -/

/-- The declaration that a binding keeps declares its name. -/
def Binding.IsNamed (b : Binding) : Prop := ∀ d ∈ b.declarator, d.name? = some b.name

theorem Binding.isNamed_plain (kind : BindingKind) (block : Option Span) (name : String) :
    (Binding.plain kind block name).IsNamed := by
  simp [IsNamed, plain]

theorem Declarator.isNamed_bindings (kind : VarKind) (block : Option Span) (d : Declarator) :
    ∀ b ∈ d.bindings kind block, b.IsNamed := by
  obtain ⟨target, init⟩ := d
  by_cases hplain : ∀ name, kind = .constKind → target ≠ .ident name
  · rw [Declarator.bindings_of_ne _ _ hplain]
    simp [Binding.isNamed_plain]
  · obtain ⟨name, rfl, rfl⟩ : ∃ name, kind = .constKind ∧ target = .ident name := by
      simpa using hplain
    simp [Declarator.bindings, Binding.IsNamed, Declarator.name?]

theorem Declaration.isNamed_bindings (block : Option Span) (d : Declaration) :
    ∀ b ∈ d.bindings block, b.IsNamed := by
  cases d with
  | vars kind declarators =>
    intro b hb
    obtain ⟨d, -, hd⟩ := List.mem_flatMap.mp hb
    exact d.isNamed_bindings kind block b hd
  | function name => simp [Declaration.bindings, Binding.isNamed_plain]
  | classDecl name => simp [Declaration.bindings, Binding.isNamed_plain]
  | caught pattern => simp [Declaration.bindings, Binding.isNamed_plain]
  | imports names => simp [Declaration.bindings, Binding.isNamed_plain]

theorem Outline.isNamed_own (o : Outline) :
    ∀ block : Option Span, ∀ b ∈ o.own block, b.IsNamed := by
  induction o with
  | blank => simp [own]
  | both first second ih1 ih2 =>
    intro block
    exact List.forall_mem_append.mpr ⟨ih1 block, ih2 block⟩
  | scope key params inside => simp [own]
  | block span inside ih => intro block; exact ih (some span)
  | declare d => intro block; exact d.isNamed_bindings block
  | choice span test hasAlternate inTest consequent alternate iht ihc iha =>
    intro block
    simp only [own, List.forall_mem_append]
    exact ⟨⟨iht block, ihc block⟩, iha block⟩

theorem Outline.isNamed_made (o : Outline) :
    ∀ next parent, ∀ s ∈ o.made next parent, ∀ b ∈ s.bindings, b.IsNamed := by
  induction o with
  | blank => simp [made]
  | both first second ih1 ih2 =>
    intro next parent
    exact List.forall_mem_append.mpr ⟨ih1 _ _, ih2 _ _⟩
  | scope key params inside ih =>
    intro next parent
    refine List.forall_mem_cons.mpr ⟨?_, ih _ _⟩
    refine List.forall_mem_append.mpr ⟨?_, inside.isNamed_own none⟩
    simp only [paramBindings, List.mem_flatMap, List.mem_map]
    rintro b ⟨p, -, name, -, rfl⟩
    exact Binding.isNamed_plain _ _ _
  | block span inside ih => exact ih
  | declare d => simp [made]
  | choice span test hasAlternate inTest consequent alternate iht ihc iha =>
    intro next parent
    simp only [made, List.forall_mem_append]
    exact ⟨⟨iht _ _, ihc _ _⟩, iha _ _⟩

theorem ofProgram_isNamed (p : Program) :
    ∀ s ∈ (ScopeGraph.ofProgram p).scopes, ∀ b ∈ s.bindings, b.IsNamed := by
  rw [ofProgram_scopes]
  exact List.forall_mem_cons.mpr ⟨p.outline.isNamed_own none, p.outline.isNamed_made 1 0⟩

/-! ### What one scope contributes to a name -/

section Contribution

variable {visible : List Binding} {declared : List String} {name : String}

/-- The visible bindings of a name that is not declared further in. -/
theorem freshIn_filter (h : name ∉ declared) :
    (freshIn declared visible).filter (·.name == name) = visible.filter (·.name == name) := by
  rw [freshIn, List.filter_filter]
  refine List.filter_congr fun b _ => ?_
  by_cases hb : b.name = name
  · simp [hb, h]
  · simp [hb]

theorem freshIn_filter_of_mem (h : name ∈ declared) :
    (freshIn declared visible).filter (·.name == name) = [] := by
  rw [freshIn, List.filter_filter, List.filter_eq_nil_iff]
  intro b _
  by_cases hb : b.name = name
  · simp [hb, h]
  · simp [hb]

/-- The constants of a name come from its bindings. -/
theorem usableIn_filter (hvisible : ∀ b ∈ visible, b.IsNamed) (consulted : Bool) :
    (usableIn consulted declared visible).filter (·.name? == some name) =
      ((freshIn declared visible).filter (·.name == name)).filterMap fun b =>
        if b.isUsable visible consulted then b.declarator else none := by
  rw [usableIn, List.filter_filterMap, List.filterMap_filter]
  refine List.filterMap_congr fun b hb => ?_
  have hnamed := hvisible b (List.mem_of_mem_filter hb)
  by_cases husable : b.isUsable visible consulted
  · cases hd : b.declarator with
    | none => simp [husable]
    | some d =>
      have hname : d.name? = some b.name := hnamed d hd
      by_cases hb : b.name = name
      · simp [husable, hname, hb]
      · simp [husable, hname, hb]
  · simp [husable]

theorem hiddenIn_mem (consulted : Bool) :
    name ∈ hiddenIn consulted declared visible ↔
      ∃ b ∈ (freshIn declared visible).filter (·.name == name), ¬ b.isUsable visible consulted := by
  simp only [hiddenIn, List.mem_map, List.mem_filter, Bool.not_eq_true', beq_iff_eq]
  constructor
  · rintro ⟨b, ⟨hb, hu⟩, rfl⟩
    exact ⟨b, ⟨hb, rfl⟩, by simp [hu]⟩
  · rintro ⟨b, ⟨hb, rfl⟩, hu⟩
    exact ⟨b, ⟨hb, by simpa using hu⟩, rfl⟩

/-- **One scope decides on a name** that it has a visible binding of, by these
bindings alone. -/
theorem standing_of_visible (hvisible : ∀ b ∈ visible, b.IsNamed) (hname : name ∉ declared)
    (consulted : Bool) (h : visible.filter (·.name == name) ≠ []) :
    let standing := standingOf consulted (visible.filter (·.name == name))
    (usableIn consulted declared visible).filter (·.name? == some name) = standing.constants ∧
      (name ∈ hiddenIn consulted declared visible ↔ standing.isHidden) := by
  rw [usableIn_filter hvisible, hiddenIn_mem, freshIn_filter hname]
  -- a binding of the name is usable only if there is no other
  have husable : ∀ b ∈ visible.filter (·.name == name), b.isUsable visible consulted =
      (consulted && b.kind.isImmutable && b.declarator.isSome &&
        (visible.filter (·.name == name)).length == 1) := by
    intro b hb
    have hb : b.name = name := by simpa using (List.mem_filter.mp hb).2
    rw [Binding.isUsable, hb]
  generalize visible.filter (·.name == name) = named at h husable
  match named with
  | [] => exact absurd rfl h
  | [b] =>
    have hone := husable b List.mem_cons_self
    cases hd : b.declarator with
    | none => simp [standingOf, hd, Standing.constants, Standing.isHidden, hone]
    | some d =>
      by_cases hconst : consulted && b.kind.isImmutable
      · simp [standingOf, hd, hconst, Standing.constants, Standing.isHidden, hone]
      · simp [standingOf, hd, hconst, Standing.constants, Standing.isHidden, hone]
  | b :: b' :: rest =>
    have hnone : ∀ x ∈ b :: b' :: rest, x.isUsable visible consulted = false := by
      intro x hx
      simp [husable x hx]
    refine ⟨?_, ?_⟩
    · have hnil : (b :: b' :: rest).filterMap (fun x =>
          if x.isUsable visible consulted then x.declarator else none) = [] := by
        refine List.filterMap_eq_nil_iff.mpr fun x hx => ?_
        simp [hnone x hx]
      simp [hnil, standingOf, Standing.constants]
    · simp [standingOf, Standing.isHidden, hnone b List.mem_cons_self]

/-- A scope without a visible binding of a name says nothing about it. -/
theorem no_contribution (hvisible : ∀ b ∈ visible, b.IsNamed) (consulted : Bool)
    (h : (freshIn declared visible).filter (·.name == name) = []) :
    (usableIn consulted declared visible).filter (·.name? == some name) = [] ∧
      name ∉ hiddenIn consulted declared visible := by
  rw [usableIn_filter hvisible, hiddenIn_mem, h]
  simp

end Contribution

/-! ### What the scopes around a place contribute to a name -/

section Chain

variable {g : ScopeGraph} {position : Nat} {consulted : Nat → Bool} {name : String}

theorem ScopeGraph.namedAt_of_none {id : Nat} (h : g.get? id = none) :
    g.namedAt position name id = [] := by
  simp [namedAt, h]

theorem ScopeGraph.namedAt_of_some {id : Nat} {s : Scope} (h : g.get? id = some s) :
    g.namedAt position name id = (s.visibleAt position).filter (·.name == name) := by
  simp [namedAt, h]

theorem ScopeGraph.standing_cons_of_nil {id : Nat} (rest : List Nat)
    (h : g.namedAt position name id = []) :
    g.standing position consulted name (id :: rest) = g.standing position consulted name rest := by
  simp [standing, h]

theorem ScopeGraph.standing_cons_of_ne {id : Nat} (rest : List Nat)
    (h : g.namedAt position name id ≠ []) :
    g.standing position consulted name (id :: rest) =
      standingOf (consulted id) (g.namedAt position name id) := by
  simp [standing, h]

/-- **The innermost scope that declares a name decides**: the constants and the
hidden names that the scopes contribute are, as far as one name goes, what its
standing says; a name that is declared further in is left alone. -/
theorem frames_standing (hg : ∀ s ∈ g.scopes, ∀ b ∈ s.bindings, b.IsNamed) (position : Nat)
    (consulted : Nat → Bool) (name : String) (ids : List Nat) : ∀ declared : List String,
      let o := Outlook.mk (g.frames position consulted declared ids)
      let standing := g.standing position consulted name ids
      (name ∈ declared → o.constants.filter (·.name? == some name) = [] ∧ name ∉ o.shadowed) ∧
        (name ∉ declared → o.constants.filter (·.name? == some name) = standing.constants ∧
          (name ∈ o.shadowed ↔ standing.isHidden)) := by
  induction ids with
  | nil =>
    intro declared
    simp [ScopeGraph.frames, Outlook.constants, Outlook.shadowed, ScopeGraph.standing,
      Standing.constants, Standing.isHidden]
  | cons id rest ih =>
    intro declared
    cases hs : g.get? id with
    | none =>
      rw [ScopeGraph.standing_cons_of_nil rest (ScopeGraph.namedAt_of_none hs), ScopeGraph.frames,
        hs]
      exact ih declared
    | some s =>
      let visible := s.visibleAt position
      have hnamed : ∀ b ∈ visible, b.IsNamed := fun b hb =>
        hg s (List.mem_of_getElem? hs) b (List.mem_of_mem_filter hb)
      have hat : g.namedAt position name id = visible.filter (·.name == name) :=
        ScopeGraph.namedAt_of_some hs
      have hframes : g.frames position consulted declared (id :: rest) =
          ⟨id, usableIn (consulted id) declared visible,
            hiddenIn (consulted id) declared visible⟩ ::
            g.frames position consulted (declared ++ visible.map (·.name)) rest := by
        rw [ScopeGraph.frames, hs]
        rfl
      obtain ⟨hdeclared, hfree⟩ := ih (declared ++ visible.map (·.name))
      simp only [hframes, Outlook.constants_cons, Outlook.shadowed_cons, List.filter_append,
        List.mem_append]
      refine ⟨fun hmem => ?_, fun hmem => ?_⟩
      · obtain ⟨hconstants, hshadowed⟩ := hdeclared (List.mem_append_left _ hmem)
        obtain ⟨hown, hhidden⟩ :=
          no_contribution hnamed (consulted id) (freshIn_filter_of_mem hmem)
        rw [hconstants, hown]
        exact ⟨rfl, not_or.mpr ⟨hhidden, hshadowed⟩⟩
      · by_cases hnil : visible.filter (·.name == name) = []
        · -- the scope has no binding of the name, so the scopes around it decide
          have hout : name ∉ declared ++ visible.map (·.name) := by
            have hnot : ∀ b ∈ visible, b.name ≠ name := by
              simpa [List.filter_eq_nil_iff] using hnil
            simpa [hmem] using hnot
          obtain ⟨hconstants, hshadowed⟩ := hfree hout
          obtain ⟨hown, hhidden⟩ :=
            no_contribution hnamed (consulted id) ((freshIn_filter hmem).trans hnil)
          rw [ScopeGraph.standing_cons_of_nil rest (hat.trans hnil), hconstants, hown]
          exact ⟨List.append_nil _, (or_iff_right hhidden).trans hshadowed⟩
        · -- the scope decides, and the name counts as declared for those around it
          have hin : name ∈ declared ++ visible.map (·.name) := by
            obtain ⟨b, hb⟩ := List.exists_mem_of_ne_nil _ hnil
            obtain ⟨hb, hname⟩ := List.mem_filter.mp hb
            exact List.mem_append_right _ (List.mem_map.mpr ⟨b, hb, by simpa using hname⟩)
          obtain ⟨hconstants, hshadowed⟩ := hdeclared hin
          obtain ⟨hown, hhidden⟩ := standing_of_visible hnamed hmem (consulted id) hnil
          rw [ScopeGraph.standing_cons_of_ne rest (by rwa [hat]), hat, hconstants, hown]
          exact ⟨List.nil_append _, (or_iff_left hshadowed).trans hhidden⟩

end Chain

/-! ### What is known of a name -/

namespace Outlook

variable (o : Outlook)

/-- All facts that are recorded at the place, in order. -/
def facts : List Fact := bindAllFacts o.blank o.constants

/-- What is known once the first facts have been recorded. -/
def knownAfter (count : Nat) : Associations := o.blank.learn (o.facts.take count)

/-- What is known about parts of a name. -/
def rooted (name : String) : List (Path × Value) :=
  o.associations.entries.filter (·.1.binding == name)

theorem associations_eq_learn : o.associations = o.blank.learn o.facts :=
  bindAll_eq_learn o.constants o.blank

theorem isShadowed_associations (name : String) :
    o.associations.isShadowed name = true ↔ name ∈ o.shadowed := by
  rw [associations_eq_learn]
  simp [Associations.isShadowed, blank]

theorem rooted_eq (name : String) :
    o.rooted name = (o.facts.filter (·.path.binding == name)).map fun f => (f.path, f.value) := by
  rw [rooted, associations_eq_learn]
  simp [blank, List.filter_map, Function.comp_def]

/-- If no usable constant has a name, no fact is about the name. -/
theorem facts_filter_of_nil {name : String}
    (h : o.constants.filter (·.name? == some name) = []) :
    o.facts.filter (·.path.binding == name) = [] := by
  refine rooted_bindAllFacts_of_forall o.blank fun d hd => ?_
  simpa using List.filter_eq_nil_iff.mp h d hd

/-- If one usable constant has a name, all facts about the name are its facts. -/
theorem facts_filter_of_singleton {name : String} {d : Declarator}
    (h : o.constants.filter (·.name? == some name) = [d]) :
    ∃ before after, o.constants = before ++ d :: after ∧
      o.facts.filter (·.path.binding == name) = d.facts (bindAll o.blank before) := by
  obtain ⟨before, after, hsplit, hbefore, hd, hafter⟩ := List.filter_eq_cons_iff.mp h
  refine ⟨before, after, hsplit, ?_⟩
  rw [facts, hsplit]
  refine rooted_bindAllFacts o.blank (by simpa using hd) ?_ ?_
  · intro x hx
    simpa using hbefore x hx
  · intro x hx
    simpa using List.filter_eq_nil_iff.mp hafter x hx

/-- Nothing can be taken over from a name that no fact is about. -/
theorem copies_of_filter_nil {name : String}
    (h : o.facts.filter (·.path.binding == name) = []) (count : Nat) (segments : List Segment)
    (target : Path) : (o.knownAfter count).copies ⟨name, segments⟩ target = [] := by
  refine List.filterMap_eq_nil_iff.mpr fun entry hentry => ?_
  rw [knownAfter, Associations.entries_learn] at hentry
  obtain ⟨f, hf, rfl⟩ := List.mem_map.mp hentry
  have hne : f.path.binding ≠ name := by
    simpa using List.filter_eq_nil_iff.mp h f (List.mem_of_mem_take hf)
  simp [Path.suffix?, hne]

end Outlook

/-- **Bound or shadowed, never both.** At every position in every scope of a
program, whether all scopes are consulted or only the innermost, each name is as
it stands. A name that is not declared is not shadowed and nothing is known
about it. A usable constant is not shadowed, and what is known about it is what
binding its declaration adds, at its turn. Any other name is shadowed, nothing
is known about it, and while the facts are recorded there is never anything to
be taken over from it. -/
theorem associations_of_standing (p : Program) (stack : List Nat) (position : Nat)
    (wholeChain : Bool) (name : String) :
    let t : Tracker := ⟨.ofProgram p, stack⟩
    let o := t.outlook position wholeChain
    match t.standing position wholeChain name with
    | .free => o.associations.isShadowed name = false ∧ o.rooted name = []
    | .constant d => o.associations.isShadowed name = false ∧
        ∃ before after, o.constants = before ++ d :: after ∧
          o.rooted name = (d.facts (bindAll o.blank before)).map fun f => (f.path, f.value)
    | .hidden => o.associations.isShadowed name = true ∧ o.rooted name = [] ∧
        ∀ count segments target, (o.knownAfter count).copies ⟨name, segments⟩ target = [] := by
  intro t o
  obtain ⟨hconstants, hshadowed⟩ := (frames_standing (ofProgram_isNamed p) position
    (fun id => wholeChain || id == t.current) name (t.graph.ancestors t.current) []).2
    List.not_mem_nil
  change o.constants.filter (·.name? == some name) =
    (t.standing position wholeChain name).constants at hconstants
  change name ∈ o.shadowed ↔ (t.standing position wholeChain name).isHidden at hshadowed
  rw [← o.isShadowed_associations] at hshadowed
  rw [o.rooted_eq]
  cases hstanding : t.standing position wholeChain name with
  | free =>
    rw [hstanding] at hconstants hshadowed
    rw [o.facts_filter_of_nil hconstants]
    exact ⟨Bool.eq_false_iff.mpr (mt hshadowed.mp Bool.false_ne_true), rfl⟩
  | constant d =>
    rw [hstanding] at hconstants hshadowed
    obtain ⟨before, after, hsplit, hfacts⟩ := o.facts_filter_of_singleton hconstants
    rw [hfacts]
    exact ⟨Bool.eq_false_iff.mpr (mt hshadowed.mp Bool.false_ne_true), before, after, hsplit, rfl⟩
  | hidden =>
    rw [hstanding] at hconstants hshadowed
    have hnil := o.facts_filter_of_nil hconstants
    rw [hnil]
    exact ⟨hshadowed.mpr rfl, rfl, o.copies_of_filter_nil hnil⟩

end DeadBranch
