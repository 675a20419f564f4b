/-
# What is known at a place, from the bindings around it

A tracker finds what is known at a place by the numbers and keys of scopes.
Only the bindings that can be seen there matter: `knownAmong` says what is known
from the visible bindings of the scopes around the place, the innermost scope
first. It is what the scopes of a program yield (`known_eq_knownAmong`), as soon
as the parents of a scope have smaller numbers, which `Sees` records together
with the bindings met on the way out.

If no two functions of a program have the same kind and range, every `if`
statement is judged by the bindings of the functions that it is written in: the
verdicts on the sites of a program are those on its places (`sites_verdicts`).

Key definitions: `knownAmong`, `Sees`, `Viewpoint`, `Outline.places`.
Key theorems: `known_eq_knownAmong`, `sites_verdicts`.
-/
import DeadBranch.Proofs.Collected
import DeadBranch.Proofs.Pruned

namespace DeadBranch

/-! ### From visible bindings to what is known -/

/-- The names that the scopes further in leave to a scope. -/
def freshIn (declared : List String) (visible : List Binding) : List Binding :=
  visible.filter fun b => !declared.contains b.name

/-- The constants that a scope contributes, given its visible bindings. -/
def usableIn (consulted : Bool) (declared : List String) (visible : List Binding) :
    List Declarator :=
  (freshIn declared visible).filterMap fun b =>
    if b.isUsable visible consulted then b.declarator else none

/-- The names of a scope that must not be read. -/
def hiddenIn (consulted : Bool) (declared : List String) (visible : List Binding) :
    List String :=
  ((freshIn declared visible).filter fun b => !b.isUsable visible consulted).map (·.name)

section Chain

variable (wholeChain : Bool)

/-- The constants of several scopes, the innermost of which is given first, from
the outermost inwards. -/
def chainConstants (consulted : Bool) (declared : List String) :
    List (List Binding) → List Declarator
  | [] => []
  | visible :: outer =>
    chainConstants wholeChain (declared ++ visible.map (·.name)) outer ++
      usableIn consulted declared visible

/-- The names of several scopes that must not be read. -/
def chainHidden (consulted : Bool) (declared : List String) : List (List Binding) → List String
  | [] => []
  | visible :: outer =>
    hiddenIn consulted declared visible ++
      chainHidden wholeChain (declared ++ visible.map (·.name)) outer

/-- What is known at a place where the given bindings are visible, scope by
scope from the innermost outwards. -/
def knownAmong (visible : List (List Binding)) : Associations :=
  bindAll (.ofShadowed (chainHidden wholeChain true [] visible))
    (chainConstants wholeChain true [] visible)

/-- The bindings of several scopes that are visible at a position. -/
def visibleAmong (position : Nat) (scopes : List (List Binding)) : List (List Binding) :=
  scopes.map (·.filter (·.visibleAt position))

end Chain

/-- From the scope with a number, going outwards, one meets these bindings. -/
inductive Sees (g : ScopeGraph) : Nat → List (List Binding) → Prop
  | outermost {id : Nat} {s : Scope} (hs : g.get? id = some s) (hparent : s.parent = none) :
    Sees g id [s.bindings]
  | within {id parent : Nat} {s : Scope} {outer : List (List Binding)}
    (hs : g.get? id = some s) (hparent : s.parent = some parent) (hlt : parent < id)
    (houter : Sees g parent outer) : Sees g id (s.bindings :: outer)

section Frames

variable {g : ScopeGraph} {id : Nat} {scopes : List (List Binding)} {wholeChain : Bool}

theorem Outlook.constants_cons (f : Frame) (frames : List Frame) :
    (Outlook.mk (f :: frames)).constants = (Outlook.mk frames).constants ++ f.constants := by
  simp [Outlook.constants]

theorem Outlook.shadowed_cons (f : Frame) (frames : List Frame) :
    (Outlook.mk (f :: frames)).shadowed = f.shadowed ++ (Outlook.mk frames).shadowed := by
  simp [Outlook.shadowed]

/-- The scopes around a place contribute what their visible bindings say. -/
theorem Sees.outlook (h : Sees g id scopes) (position : Nat) :
    ∀ {fuel : Nat} {consulted : Nat → Bool} (declared : List String), id < fuel →
      (∀ i < id, consulted i = wholeChain) →
      (Outlook.mk (g.frames position consulted declared (g.ancestorsUpTo fuel id))).constants =
          chainConstants wholeChain (consulted id) declared (visibleAmong position scopes) ∧
        (Outlook.mk (g.frames position consulted declared (g.ancestorsUpTo fuel id))).shadowed =
          chainHidden wholeChain (consulted id) declared (visibleAmong position scopes) := by
  induction h with
  | @outermost id s hs hparent =>
    intro fuel consulted declared hfuel _
    obtain ⟨fuel, rfl⟩ : ∃ n, fuel = n + 1 := ⟨fuel - 1, by omega⟩
    have hframes : g.frames position consulted declared (g.ancestorsUpTo (fuel + 1) id) =
        [s.frame id position (consulted id) declared] := by
      simp [ScopeGraph.ancestorsUpTo, ScopeGraph.parent?, hs, hparent, ScopeGraph.frames]
    rw [hframes, Outlook.constants_cons, Outlook.shadowed_cons]
    exact ⟨rfl, rfl⟩
  | @within id parent s outer hs hparent hlt houter ih =>
    intro fuel consulted declared hfuel hconsulted
    obtain ⟨fuel, rfl⟩ : ∃ n, fuel = n + 1 := ⟨fuel - 1, by omega⟩
    have hframes : g.frames position consulted declared (g.ancestorsUpTo (fuel + 1) id) =
        s.frame id position (consulted id) declared ::
          g.frames position consulted (declared ++ (s.visibleAt position).map (·.name))
            (g.ancestorsUpTo fuel parent) := by
      simp [ScopeGraph.ancestorsUpTo, ScopeGraph.parent?, hs, hparent, ScopeGraph.frames]
    -- only the innermost scope is consulted for sure
    obtain ⟨hconstants, hshadowed⟩ := @ih fuel consulted
      (declared ++ (s.visibleAt position).map (·.name)) (by omega)
      (fun i hi => hconsulted i (by omega))
    rw [hconsulted parent hlt] at hconstants hshadowed
    rw [hframes, Outlook.constants_cons, Outlook.shadowed_cons, hconstants, hshadowed]
    exact ⟨rfl, rfl⟩

/-- What is known directly in a scope comes from the visible bindings of the
scopes around. -/
theorem known_eq_knownAmong (h : Sees g id scopes) (wholeChain : Bool) (position : Nat) :
    g.known wholeChain id position = knownAmong wholeChain (visibleAmong position scopes) := by
  have hconsulted : ∀ i < id, (wholeChain || i == id) = wholeChain := by
    intro i hi
    simp [Nat.ne_of_lt hi]
  obtain ⟨hconstants, hshadowed⟩ := h.outlook position [] (Nat.lt_succ_self id) hconsulted
  simp only [BEq.rfl, Bool.or_true] at hconstants hshadowed
  simp only [ScopeGraph.known, ScopeGraph.ancestors, Outlook.associations, Outlook.blank,
    knownAmong]
  rw [hconstants, hshadowed]

end Frames

/-! ### The places of `if` statements -/

/-- An `if` statement with the bindings of the scopes around it, the innermost
first. -/
structure Viewpoint where
  span : Span
  test : Expr
  scopes : List (List Binding)

/-- What is known at the place. -/
def Viewpoint.known (wholeChain : Bool) (place : Viewpoint) : Associations :=
  knownAmong wholeChain (visibleAmong place.span.start place.scopes)

/-- The verdict that the bindings around the place give. -/
def Viewpoint.verdict (wholeChain : Bool) (place : Viewpoint) : Option Bool :=
  (evaluate (place.known wholeChain) place.test).map Value.truthy

/-- The bindings of a function with the given parameters. -/
def Outline.functionBindings (params : List Expr) (inside : Outline) : List Binding :=
  paramBindings params ++ inside.own none

/-- All `if` statements of an outline, in the order of the walk. -/
def Outline.places (scopes : List (List Binding)) : Outline → List Viewpoint
  | .blank => []
  | .both first second => first.places scopes ++ second.places scopes
  | .scope _ params inside => inside.places (inside.functionBindings params :: scopes)
  | .block _ inside => inside.places scopes
  | .declare _ => []
  | .choice span test _ inTest consequent alternate =>
    ⟨span, test, scopes⟩ ::
      (inTest.places scopes ++ consequent.places scopes ++ alternate.places scopes)

theorem Outline.places_andThen (scopes : List (List Binding)) (first second : Outline) :
    (first.andThen second).places scopes = first.places scopes ++ second.places scopes := by
  cases first <;> cases second <;> simp [Outline.andThen, Outline.places]

/-- The `if` statements of a program. -/
def Program.places (p : Program) : List Viewpoint := p.outline.places [p.outline.own none]

/-- No two scopes of a program have the same kind and range. -/
def Program.DistinctScopes (p : Program) : Prop :=
  ((ScopeGraph.ofProgram p).scopes.map (·.key)).Nodup

/-- The scopes of an outline stand in the graph from number `next` on. -/
def ScopeGraph.Holds (g : ScopeGraph) (next scope : Nat) (o : Outline) : Prop :=
  o.made next scope <+: g.scopes.drop next

section Holds

variable {g : ScopeGraph} {next scope : Nat}

theorem ScopeGraph.drop_of_append {xs ys : List Scope} (h : xs ++ ys <+: g.scopes.drop next) :
    xs <+: g.scopes.drop next ∧ ys <+: g.scopes.drop (next + xs.length) := by
  obtain ⟨rest, hrest⟩ := h
  rw [List.append_assoc] at hrest
  refine ⟨⟨ys ++ rest, hrest⟩, ⟨rest, ?_⟩⟩
  rw [← List.drop_drop, ← hrest, List.drop_left]

theorem ScopeGraph.Holds.both {first second : Outline}
    (h : g.Holds next scope (.both first second)) :
    g.Holds next scope first ∧ g.Holds (next + first.count) scope second := by
  have h := drop_of_append h
  rwa [Outline.length_made] at h

theorem ScopeGraph.Holds.choice {span : Span} {test : Expr} {hasAlternate : Bool}
    {inTest consequent alternate : Outline}
    (h : g.Holds next scope (.choice span test hasAlternate inTest consequent alternate)) :
    g.Holds next scope inTest ∧ g.Holds (next + inTest.count) scope consequent ∧
      g.Holds (next + inTest.count + consequent.count) scope alternate := by
  obtain ⟨h12, h3⟩ := drop_of_append h
  obtain ⟨h1, h2⟩ := drop_of_append h12
  rw [List.length_append, Outline.length_made, Outline.length_made, ← Nat.add_assoc] at h3
  rw [Outline.length_made] at h2
  exact ⟨h1, h2, h3⟩

theorem ScopeGraph.Holds.andThen {first second : Outline}
    (h : g.Holds next scope (first.andThen second)) :
    g.Holds next scope first ∧ g.Holds (next + first.count) scope second := by
  rw [Holds, Outline.made_andThen] at h
  have h := drop_of_append h
  rwa [Outline.length_made] at h

/-- A function that stands in the graph has its number there. -/
theorem ScopeGraph.Holds.numbered {key : FunctionKey} {params : List Expr} {inside : Outline}
    (h : g.Holds next scope (.scope key params inside)) :
    g.get? next = some ⟨key, some scope, inside.kids (next + 1), inside.functionBindings params⟩ ∧
      g.Holds (next + 1) next inside := by
  have h : [_] ++ inside.made (next + 1) next <+: g.scopes.drop next := h
  obtain ⟨⟨rest, hrest⟩, hinside⟩ := drop_of_append h
  have hget := congrArg (·[0]?) hrest
  exact ⟨by simpa [ScopeGraph.get?, Outline.functionBindings] using hget.symm, hinside⟩

/-- A function that stands in the graph is found there and sees what the scope
around it sees. -/
theorem ScopeGraph.Holds.function {key : FunctionKey} {params : List Expr} {inside : Outline}
    {scopes : List (List Binding)} (hkeys : (g.scopes.map (·.key)).Nodup)
    (hsees : Sees g scope scopes) (hlt : scope < next)
    (h : g.Holds next scope (.scope key params inside)) :
    g.inside scope key = next ∧ Sees g next (inside.functionBindings params :: scopes) ∧
      g.Holds (next + 1) next inside := by
  obtain ⟨hget, hinside⟩ := h.numbered
  refine ⟨?_, .within hget rfl hlt hsees, hinside⟩
  simp [ScopeGraph.inside, ScopeGraph.find?_of_nodup hkeys hget]

end Holds

/-- The verdicts on the sites of an outline are those on its places. -/
theorem Outline.sites_verdicts {g : ScopeGraph} (hkeys : (g.scopes.map (·.key)).Nodup)
    (wholeChain : Bool) (o : Outline) :
    ∀ {next scope : Nat} {scopes : List (List Binding)} {around : List (Conditional × Part)},
      Sees g scope scopes → scope < next → g.Holds next scope o →
      (o.sites g scope around).map (fun s => s.conditional.verdict g wholeChain) =
        (o.places scopes).map (·.verdict wholeChain) := by
  induction o with
  | blank => intros; rfl
  | both first second ih1 ih2 =>
    intro next scope scopes around hsees hlt hholds
    obtain ⟨h1, h2⟩ := hholds.both
    simp only [Outline.sites, Outline.places, List.map_append]
    rw [ih1 hsees hlt h1, ih2 hsees (Nat.lt_add_right _ hlt) h2]
  | scope key params inside ih =>
    intro next scope scopes around hsees hlt hholds
    obtain ⟨hnext, hsees', hholds'⟩ := hholds.function hkeys hsees hlt
    simp only [Outline.sites, Outline.places, hnext]
    exact ih hsees' (Nat.lt_succ_self next) hholds'
  | block span inside ih => intro _ _ _ _ hsees hlt hholds; exact ih hsees hlt hholds
  | declare d => intros; rfl
  | choice span test hasAlternate inTest consequent alternate iht ihc iha =>
    intro next scope scopes around hsees hlt hholds
    obtain ⟨h1, h2, h3⟩ := hholds.choice
    simp only [Outline.sites, Outline.places, List.map_cons, List.map_append]
    rw [iht hsees hlt h1, ihc hsees (by omega) h2, iha hsees (by omega) h3]
    congr 1
    simp only [Conditional.verdict, ScopeGraph.verdict, Viewpoint.verdict, Viewpoint.known,
      known_eq_knownAmong hsees]

theorem Program.sees_outermost (p : Program) :
    Sees (.ofProgram p) 0 [p.outline.own none] ∧ (ScopeGraph.ofProgram p).Holds 1 0 p.outline := by
  have hscopes := ofProgram_scopes p
  refine ⟨?_, ?_⟩
  · have hget : (ScopeGraph.ofProgram p).get? 0 =
        some ⟨.program, none, p.outline.kids 1, p.outline.own none⟩ := by
      simp [ScopeGraph.get?, hscopes]
    exact .outermost hget rfl
  · simp [ScopeGraph.Holds, hscopes]

/-- If no two scopes have the same kind and range, the verdicts on the `if`
statements of a program come from the bindings they are written among. -/
theorem Program.sites_verdicts {p : Program} (hkeys : p.DistinctScopes) (wholeChain : Bool) :
    p.sites.map (fun s => s.conditional.verdict (.ofProgram p) wholeChain) =
      p.places.map (·.verdict wholeChain) :=
  Outline.sites_verdicts hkeys wholeChain p.outline p.sees_outermost.1 Nat.one_pos
    p.sees_outermost.2

end DeadBranch
