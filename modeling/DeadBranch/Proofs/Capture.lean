/-
# Constants that read other constants

What is known at a position is found by binding the constants that are visible
there, one after the other. The initial value of a constant may refer to another
constant, and then it is read from those that are bound already. This is right if
the name, looked up where the constant is declared, refers to the declaration that
was bound. Both declarations are visible at the position, but nobody asks whether
the second one is visible at the first.

Constants of outer functions are bound first. So the one that is read is arranged
with the other one in one of three ways, if blocks are nested as in a text. Where
its environments are around the other one, the name refers to it, unless the own
name of an expression comes between (`constants_resolve`). But it may also stand
in a block of the same function that the other one is not in, or in a `switch`
whose subject holds the other one. Then the name refers to something else, and the
wrong value is taken (`exists_captured_name`).

Key definitions: `ConstantSite`, `Program.constantSites`, `Tracker.Decides`.
Key theorems: `Program.exists_site`, `Tracker.decides_of_split`,
`Program.lookupFrom_eq`.
-/
import DeadBranch.Proofs.Arrangement
import DeadBranch.Proofs.Globals

namespace DeadBranch

/-! ### The constants of a program -/

/-- A constant that is declared by a plain name, and where it is declared. -/
structure ConstantSite where
  name : String
  init : Expr
  setting : Setting

namespace ConstantSite

/-- Its declaration. -/
def declarator (c : ConstantSite) : Declarator := .mk (.ident c.name) c.init

/-- The binding that is made for it. -/
def binding (c : ConstantSite) : Binding :=
  ⟨c.name, .constKind, some c.declarator, c.setting.block⟩

theorem contains_of_visibleAt {c : ConstantSite} {position : Nat}
    (h : c.binding.visibleAt position) : c.setting.Contains position := by
  intro span hspan
  simpa [Binding.visibleAt, binding, Option.mem_def.mp hspan] using h

end ConstantSite

/-- The constant at a setting, if a plain name is declared. -/
def Declarator.site? (here : Setting) : Declarator → Option ConstantSite
  | .mk (.ident name) init => some ⟨name, init, here⟩
  | _ => none

/-- The constants with a plain name that are declared at a spot. -/
def Spot.constants (s : Spot) : List ConstantSite :=
  match s.what with
  | .declares (.vars .constKind declarators) => declarators.filterMap (·.site? s.setting)
  | _ => []

/-- The constants with a plain name of a program. -/
def Program.constantSites (p : Program) : List ConstantSite := p.spots.flatMap Spot.constants

theorem Spot.mem_constants {s : Spot} {c : ConstantSite} (h : c ∈ s.constants) :
    c.setting = s.setting ∧
      ∃ d, s.what = .declares d ∧ Declared.mk c.name (.variable .constKind) ∈ d.lexical := by
  obtain ⟨what, here⟩ := s
  match what with
  | .declares (.vars .constKind declarators) =>
    obtain ⟨⟨target, init⟩, hd, hsite⟩ := List.mem_filterMap.mp h
    cases target with
    | ident name =>
      obtain rfl : ConstantSite.mk name init here = c := Option.some.inj hsite
      refine ⟨rfl, _, rfl, List.mem_map_of_mem (List.mem_flatMap.mpr ⟨_, hd, ?_⟩)⟩
      simp [Expr.boundNames]
    | _ => simp [Declarator.site?] at hsite
  | .declares (.vars .letKind _) | .declares (.vars .varKind _) | .declares (.function _)
  | .declares (.classDecl _) | .declares (.caught _) | .declares (.imports _)
  | .tests _ _ _ => simp [constants] at h

/-- A spot makes a binding of a scope. -/
def Spot.Makes (s : Spot) (id : Nat) (b : Binding) : Prop :=
  s.setting.scope = id ∧ ∃ d, s.what = .declares d ∧ b ∈ d.bindings s.setting.block

/-- A binding with a declaration is made for a constant. -/
theorem Spot.Makes.exists_constant {s : Spot} {id : Nat} {b : Binding} (h : s.Makes id b)
    (hb : b.declarator ≠ none) : ∃ c ∈ s.constants, c.binding = b ∧ c.setting.scope = id := by
  obtain ⟨what, here⟩ := s
  obtain ⟨rfl, d, rfl, hmem⟩ := h
  cases d with
  | vars kind declarators =>
    obtain ⟨⟨target, init⟩, hd, hmem⟩ := List.mem_flatMap.mp hmem
    by_cases hplain : ∀ name, kind = .constKind → target ≠ .ident name
    · rw [Declarator.bindings_of_ne _ _ hplain] at hmem
      obtain ⟨name, -, rfl⟩ := List.mem_map.mp hmem
      exact absurd rfl hb
    · obtain ⟨name, rfl, rfl⟩ : ∃ name, kind = .constKind ∧ target = .ident name := by
        simpa using hplain
      obtain rfl := List.mem_singleton.mp hmem
      exact ⟨⟨name, init, here⟩, List.mem_filterMap.mpr ⟨_, hd, rfl⟩, rfl, rfl⟩
  | function name | classDecl name =>
    obtain rfl := List.mem_singleton.mp hmem
    exact absurd rfl hb
  | caught pattern | imports names =>
    obtain ⟨name, -, rfl⟩ := List.mem_map.mp hmem
    exact absurd rfl hb

/-! ### Bindings and the spots that make them -/

/-- Every binding of these scopes that keeps a declaration is made by a spot. -/
def Traced (spots : List Spot) (next : Nat) (scopes : List Scope) : Prop :=
  ∀ i s, scopes[i]? = some s → ∀ b ∈ s.bindings, b.declarator ≠ none →
    ∃ spot ∈ spots, spot.Makes (next + i) b

section Traced

variable {spots spots' : List Spot} {next : Nat} {scopes scopes' : List Scope}

theorem Traced.mono (hspots : ∀ s ∈ spots, s ∈ spots') (h : Traced spots next scopes) :
    Traced spots' next scopes := by
  intro i s hs b hb hkept
  obtain ⟨spot, hspot, hmakes⟩ := h i s hs b hb hkept
  exact ⟨spot, hspots spot hspot, hmakes⟩

theorem Traced.append (h : Traced spots next scopes)
    (h' : Traced spots' (next + scopes.length) scopes') :
    Traced (spots ++ spots') next (scopes ++ scopes') := by
  intro i s hs b hb hkept
  by_cases hi : i < scopes.length
  · rw [List.getElem?_append_left hi] at hs
    obtain ⟨spot, hspot, hmakes⟩ := h i s hs b hb hkept
    exact ⟨spot, List.mem_append_left _ hspot, hmakes⟩
  · rw [List.getElem?_append_right (Nat.le_of_not_lt hi)] at hs
    obtain ⟨spot, hspot, hmakes⟩ := h' _ s hs b hb hkept
    rw [Nat.add_assoc, Nat.add_sub_cancel' (Nat.le_of_not_lt hi)] at hmakes
    exact ⟨spot, List.mem_append_right _ hspot, hmakes⟩

theorem Traced.cons {s : Scope}
    (hs : ∀ b ∈ s.bindings, b.declarator ≠ none → ∃ spot ∈ spots, spot.Makes next b)
    (h : Traced spots (next + 1) scopes) : Traced spots next (s :: scopes) := by
  intro i s' hs' b hb hkept
  cases i with
  | zero =>
    obtain rfl : s = s' := Option.some.inj hs'
    exact hs b hb hkept
  | succ i =>
    obtain ⟨spot, hspot, hmakes⟩ := h i s' hs' b hb hkept
    rw [Nat.add_right_comm, Nat.add_assoc] at hmakes
    exact ⟨spot, hspot, hmakes⟩

end Traced

namespace Region

/-- The bindings that a region gives to the scope around it are made by its
spots. -/
theorem exists_spot_of_own (r : Region) : ∀ (next : Nat) (here : Setting),
    ∀ b ∈ r.outline.own here.block, ∃ s ∈ r.spots next here, s.Makes here.scope b := by
  induction r with
  | blank => simp [outline, Outline.own]
  | both first second ih1 ih2 =>
    intro next here
    rw [outline, Outline.own_andThen]
    exact exists_mem_append (ih1 next here) (ih2 _ here)
  | named name inside ih => intro next here; exact ih next (here.called name)
  | function key params inKey inParams body => simp [outline, Outline.own]
  | block span subject inside ihs ihi =>
    intro next here
    rw [outline, Outline.own, Outline.own_andThen]
    exact exists_mem_append (ihs next (here.inBlock span [])) (ihi _ (here.inBlock span _))
  | staticBlock span inside ih => intro next here; exact ih next (here.inBlock span _)
  | declare d => intro next here b hb; exact ⟨_, List.mem_singleton_self _, rfl, d, rfl, hb⟩
  | choice span test hasAlternate inTest consequent alternate iht ihc iha =>
    intro next here b hb
    rw [outline, Outline.own, List.append_assoc] at hb
    obtain ⟨s, hs, hmakes⟩ := exists_mem_append (iht next here)
      (exists_mem_append (ihc _ here) (iha _ here)) b hb
    exact ⟨s, List.mem_cons_of_mem _ hs, hmakes⟩

/-- So are the bindings of the functions in it, but for their parameters. -/
theorem traced_made (r : Region) : ∀ (next : Nat) (here : Setting),
    Traced (r.spots next here) next (r.outline.made next here.scope) := by
  induction r with
  | blank | declare _ => simp [outline, Outline.made, Traced]
  | both first second ih1 ih2 =>
    intro next here
    rw [outline, Outline.made_andThen]
    refine (ih1 next here).append ?_
    rw [Outline.length_made]
    exact ih2 _ here
  | named name inside ih => intro next here; exact ih next (here.called name)
  | function key params inKey inParams body ihk ihp ihb =>
    intro next here
    refine .cons ?_ ?_
    · intro b hb hkept
      simp only [Outline.own_andThen] at hb
      refine exists_mem_append (inKey.exists_spot_of_own _ (here.inKey next))
        (exists_mem_append (inParams.exists_spot_of_own _ (here.inParams next _))
          (body.exists_spot_of_own _ (here.inBody next _ _))) b ?_
      refine (List.mem_append.mp hb).resolve_left fun hparam => ?_
      -- a parameter keeps no declaration
      obtain ⟨p, -, hparam⟩ := List.mem_flatMap.mp hparam
      obtain ⟨name, -, rfl⟩ := List.mem_map.mp hparam
      exact hkept rfl
    · simp only [Outline.made_andThen]
      refine (ihk _ (here.inKey next)).append ?_
      rw [Outline.length_made]
      refine (ihp _ (here.inParams next _)).append ?_
      rw [Outline.length_made]
      exact ihb _ (here.inBody next _ _)
  | block span subject inside ihs ihi =>
    intro next here
    rw [outline, Outline.made, Outline.made_andThen]
    refine (ihs next (here.inBlock span [])).append ?_
    rw [Outline.length_made]
    exact ihi _ (here.inBlock span _)
  | staticBlock span inside ih => intro next here; exact ih next (here.inBlock span _)
  | choice span test hasAlternate inTest consequent alternate iht ihc iha =>
    intro next here
    rw [outline, Outline.made, List.append_assoc]
    refine .mono (fun s => List.mem_cons_of_mem _) ((iht next here).append ?_)
    rw [Outline.length_made]
    refine (ihc _ here).append ?_
    rw [Outline.length_made]
    exact iha _ here

end Region

/-- **Every binding that keeps a declaration** is that of a constant of the
program, in the scope of the function that the constant is declared in. -/
theorem Program.exists_site (p : Program) {id : Nat} {b : Binding}
    (h : (ScopeGraph.ofProgram p).Binds id b) (hb : b.declarator ≠ none) :
    ∃ c ∈ p.constantSites, c.binding = b ∧ c.setting.scope = id := by
  obtain ⟨s, hs, hmem⟩ := h
  rw [ScopeGraph.get?, ofProgram_scopes, ← p.region_fits.outline] at hs
  have htraced : Traced p.spots 0 (⟨.program, none, p.region.outline.kids 1,
      p.region.outline.own none⟩ :: p.region.outline.made 1 0) :=
    .cons (fun b hb _ => p.region.exists_spot_of_own 1 p.setting b hb)
      (p.region.traced_made 1 p.setting)
  obtain ⟨spot, hspot, hmakes⟩ := htraced id s hs b hmem hb
  obtain ⟨c, hc, hbinding, hscope⟩ := hmakes.exists_constant hb
  exact ⟨c, List.mem_flatMap.mpr ⟨spot, hspot, hc⟩, hbinding, by rw [hscope, Nat.zero_add]⟩

/-! ### The scope that decides on a name -/

/-- Going outwards, the scope with a number is the first one with a visible binding
of a name, and it has only this one. -/
def Tracker.Decides (t : Tracker) (position id : Nat) (b : Binding) : Prop :=
  ∃ inner outer, t.graph.ancestors t.current = inner ++ id :: outer ∧
    (∀ i ∈ inner, t.graph.namedAt position b.name i = []) ∧
    t.graph.namedAt position b.name id = [b]

section Frames

variable {g : ScopeGraph} {position : Nat} {consulted : Nat → Bool}

theorem ScopeGraph.frames_scopes : ∀ (ids : List Nat) (declared : List String),
    ((g.frames position consulted declared ids).map (·.scope)).Sublist ids
  | [], _ => by simp [frames]
  | id :: rest, declared => by
    rw [frames]
    cases g.get? id with
    | none => exact (frames_scopes rest declared).cons id
    | some s => exact (frames_scopes rest _).cons_cons id

/-- A constant of a frame is the only visible one of its name in the scope, and the
scopes further in have none. -/
theorem ScopeGraph.mem_frames_constants : ∀ (ids : List Nat) (declared : List String),
    ∀ f ∈ g.frames position consulted declared ids, ∀ d ∈ f.constants,
      ∃ inner outer b, ids = inner ++ f.scope :: outer ∧ b.name ∉ declared ∧
        b.declarator = some d ∧ (∀ i ∈ inner, g.namedAt position b.name i = []) ∧
        g.namedAt position b.name f.scope = [b]
  | [], _, f, hf, _, _ => by simp [frames] at hf
  | id :: rest, declared, f, hf, d, hd => by
    rw [frames] at hf
    cases hs : g.get? id with
    | none =>
      rw [hs] at hf
      obtain ⟨inner, outer, b, hids, hname, hb, hinner, hat⟩ :=
        mem_frames_constants rest declared f hf d hd
      refine ⟨id :: inner, outer, b, by rw [hids]; rfl, hname, hb, ?_, hat⟩
      exact List.forall_mem_cons.mpr ⟨namedAt_of_none hs, hinner⟩
    | some s =>
      rw [hs] at hf
      rcases List.mem_cons.mp hf with rfl | hf
      · obtain ⟨b, hfresh, hb⟩ := List.mem_filterMap.mp hd
        obtain ⟨hvisible, hname⟩ := List.mem_filter.mp hfresh
        split at hb
        · next husable =>
          refine ⟨[], rest, b, rfl, by simpa using hname, hb, by simp, ?_⟩
          have hone : ((s.visibleAt position).filter (·.name == b.name)).length = 1 := by
            simp only [Binding.isUsable, Bool.and_eq_true, beq_iff_eq] at husable
            exact husable.2
          obtain ⟨b', hb'⟩ := List.length_eq_one_iff.mp hone
          have hmem : b ∈ (s.visibleAt position).filter (·.name == b.name) := by
            simpa using hvisible
          rw [hb', List.mem_singleton] at hmem
          have hat : g.namedAt position b.name id = [b] := by
            rw [namedAt_of_some hs, hb', ← hmem]
          exact hat
        · cases hb
      · obtain ⟨inner, outer, b, hids, hname, hb, hinner, hat⟩ :=
          mem_frames_constants rest _ f hf d hd
        rw [List.mem_append, not_or] at hname
        refine ⟨id :: inner, outer, b, by rw [hids]; rfl, hname.1, hb, ?_, hat⟩
        refine List.forall_mem_cons.mpr ⟨?_, hinner⟩
        rw [namedAt_of_some hs, List.filter_eq_nil_iff]
        intro x hx hxname
        exact hname.2 (List.mem_map.mpr ⟨x, hx, by simpa using hxname⟩)

/-- Constants are bound from the outermost scope inwards. -/
theorem Outlook.constants_split : ∀ {frames : List Frame} {before after : List Declarator}
    {d : Declarator}, frames.Pairwise (fun f f' => f'.scope < f.scope) →
    (Outlook.mk frames).constants = before ++ d :: after →
    ∃ f ∈ frames, d ∈ f.constants ∧ ∀ d' ∈ before, ∃ f' ∈ frames, d' ∈ f'.constants ∧
      f'.scope ≤ f.scope
  | [], before, after, d, _, h => by simp [Outlook.constants] at h
  | f :: rest, before, after, d, hscopes, h => by
    rw [List.pairwise_cons] at hscopes
    rw [Outlook.constants_cons] at h
    have hcases : (∃ own, before = (Outlook.mk rest).constants ++ own ∧
        f.constants = own ++ d :: after) ∨
          ∃ more, (Outlook.mk rest).constants = before ++ d :: more := by
      rcases List.append_eq_append_iff.mp h with hown | ⟨_ | ⟨x, more⟩, hrest, hmore⟩
      · exact .inl hown
      · exact .inl ⟨[], by simpa using hrest.symm, by simpa using hmore.symm⟩
      · obtain ⟨rfl, -⟩ := List.cons.inj hmore
        exact .inr ⟨more, hrest⟩
    rcases hcases with ⟨own, rfl, hown⟩ | ⟨more, hrest⟩
    · refine ⟨f, List.mem_cons_self, by simp [hown], fun d' hd' => ?_⟩
      rcases List.mem_append.mp hd' with hd' | hd'
      · obtain ⟨f', hf', hmem⟩ := List.mem_flatMap.mp hd'
        have hf' := List.mem_reverse.mp hf'
        exact ⟨f', List.mem_cons_of_mem _ hf', hmem, Nat.le_of_lt (hscopes.1 f' hf')⟩
      · exact ⟨f, List.mem_cons_self, by simp [hown, hd'], Nat.le_refl _⟩
    · obtain ⟨f', hf', hd, hbefore⟩ := constants_split hscopes.2 hrest
      refine ⟨f', List.mem_cons_of_mem _ hf', hd, fun d' hd' => ?_⟩
      obtain ⟨f'', hf'', hle⟩ := hbefore d' hd'
      exact ⟨f'', List.mem_cons_of_mem _ hf'', hle⟩

/-- **The constants that are bound before another one** are decided on by the same
scope or by one around it. -/
theorem Tracker.decides_of_split {t : Tracker} (hg : t.graph.Ascends) {wholeChain : Bool}
    {before after : List Declarator} {d : Declarator}
    (h : (t.outlook position wholeChain).constants = before ++ d :: after) :
    ∃ id b, t.Decides position id b ∧ b.declarator = some d ∧ ∀ d' ∈ before,
      ∃ id' b', t.Decides position id' b' ∧ b'.declarator = some d' ∧ id' ≤ id := by
  have hscopes : ((t.outlook position wholeChain).frames.map (·.scope)).Pairwise (· > ·) :=
    (t.graph.ancestors_pairwise hg t.current).sublist (ScopeGraph.frames_scopes _ _)
  have hdecides : ∀ f ∈ (t.outlook position wholeChain).frames, ∀ x ∈ f.constants,
      ∃ b, t.Decides position f.scope b ∧ b.declarator = some x := by
    intro f hf x hx
    obtain ⟨inner, outer, b, hids, -, hb, hinner, hat⟩ :=
      ScopeGraph.mem_frames_constants _ _ f hf x hx
    exact ⟨b, ⟨inner, outer, hids, hinner, hat⟩, hb⟩
  obtain ⟨f, hf, hd, hbefore⟩ := Outlook.constants_split (List.pairwise_map.mp hscopes) h
  obtain ⟨b, hb, hdeclarator⟩ := hdecides f hf d hd
  refine ⟨f.scope, b, hb, hdeclarator, fun d' hd' => ?_⟩
  obtain ⟨f', hf', hd', hle⟩ := hbefore d' hd'
  obtain ⟨b', hb', hdeclarator'⟩ := hdecides f' hf' d' hd'
  exact ⟨f'.scope, b', hb', hdeclarator', hle⟩

end Frames

/-! ### What a name refers to where a constant is declared -/

section Decides

variable {t : Tracker} {position id : Nat} {b : Binding}

theorem Tracker.Decides.mem_namedAt (h : t.Decides position id b) :
    b ∈ t.graph.namedAt position b.name id := by
  obtain ⟨-, -, -, -, hat⟩ := h
  simp [hat]

theorem Tracker.Decides.visibleAt (h : t.Decides position id b) : b.visibleAt position :=
  (ScopeGraph.mem_namedAt.mp h.mem_namedAt).2.1

/-- A visible binding of the name in a scope around that is not further out is the
one that decides. -/
theorem Tracker.Decides.eq_of_le (h : t.Decides position id b) (hg : t.graph.Ascends) {i : Nat}
    {b' : Binding} (hi : i ∈ t.graph.ancestors t.current) (hle : id ≤ i)
    (hb' : b' ∈ t.graph.namedAt position b.name i) : i = id ∧ b' = b := by
  obtain ⟨inner, outer, hids, hinner, hat⟩ := h
  have hpairwise := t.graph.ancestors_pairwise hg t.current
  rw [hids] at hi hpairwise
  obtain ⟨-, hrest, -⟩ := List.pairwise_append.mp hpairwise
  obtain rfl : i = id := by
    rcases List.mem_append.mp hi with hi | hi
    · rw [hinner i hi] at hb'
      exact absurd hb' List.not_mem_nil
    · rcases List.mem_cons.mp hi with heq | hi
      · exact heq
      · exact absurd (List.rel_of_pairwise_cons hrest hi) (Nat.not_lt_of_le hle)
  rw [hat, List.mem_singleton] at hb'
  exact ⟨rfl, hb'⟩

end Decides

theorem lookupFrom_append {inner outer : List Environment} {name : String} {e : Environment}
    (hinner : ∀ e ∈ inner, e.declares name = false) (he : e ∈ outer.head?)
    (houter : e.declares name) : lookupFrom (inner ++ outer) name = outer := by
  rw [lookupFrom, List.dropWhile_append_of_pos (by simpa using hinner)]
  cases outer with
  | nil => rfl
  | cons e' rest =>
    obtain rfl : e' = e := Option.some.inj he
    rw [List.dropWhile_cons_of_neg (by simp [houter])]

section Sites

variable {p : Program} {n c : ConstantSite}

/-- A constant is a name of the first environment around it. -/
theorem Program.site_placed (hblocks : p.outline.blocksNested) (hc : c ∈ p.constantSites) :
    c.setting.IsHome [⟨c.name, .variable .constKind⟩] ∧
      c.setting.chain.Pairwise Environment.IsInside := by
  obtain ⟨s, hs, hcs⟩ := List.mem_flatMap.mp hc
  obtain ⟨hsetting, d, hwhat, hname⟩ := Spot.mem_constants hcs
  obtain ⟨r, next, hplaced, hr⟩ :=
    Region.inherited_placed.spots p.region (p.region_placed hblocks) s hs
  rw [hwhat] at hr
  cases r with
  | declare d' =>
    obtain rfl : d' = d := by simpa [Region.what?] using hr
    rw [hsetting]
    refine ⟨?_, hplaced.ordered⟩
    refine (hplaced.home.resolve_left (List.ne_nil_of_mem hname)).mono fun m hm => ?_
    rwa [List.mem_singleton.mp hm]
  | _ => simp [Region.what?] at hr

theorem Program.site_covered (hc : c ∈ p.constantSites) : c.setting.Covered (.ofProgram p) := by
  obtain ⟨s, hs, hcs⟩ := List.mem_flatMap.mp hc
  obtain ⟨-, -, ⟨-, hcovered⟩, -⟩ := (Region.inherited_covered (ofProgram_ascends p)).spots
    p.region p.region_covered s hs
  rwa [(Spot.mem_constants hcs).1]

/-- Two constants that are visible at one position are arranged. -/
theorem Program.sites_arranged (hblocks : p.outline.blocksNested) (hn : n ∈ p.constantSites)
    (hc : c ∈ p.constantSites) {position : Nat} (hnp : n.binding.visibleAt position)
    (hcp : c.binding.visibleAt position) (hle : n.setting.scope ≤ c.setting.scope) :
    n.setting.Arranged c.setting := by
  obtain ⟨s, hs, hns⟩ := List.mem_flatMap.mp hn
  obtain ⟨s', hs', hcs⟩ := List.mem_flatMap.mp hc
  obtain ⟨hsetting, d, hwhat, hname⟩ := Spot.mem_constants hns
  obtain ⟨hsetting', d', hwhat', hname'⟩ := Spot.mem_constants hcs
  have hncontains := ConstantSite.contains_of_visibleAt hnp
  have hccontains := ConstantSite.contains_of_visibleAt hcp
  rw [hsetting] at hle hncontains ⊢
  rw [hsetting'] at hle hccontains ⊢
  exact p.region.arranged (p.region_placed hblocks) s hs s' hs'
    ⟨d, hwhat, List.ne_nil_of_mem hname⟩ ⟨d', hwhat', List.ne_nil_of_mem hname'⟩
    hncontains hccontains hle

/-- The collected names of the environments around a constant have bindings that are
visible wherever the constant is. -/
theorem Program.exists_visible (hblocks : p.outline.blocksNested) {t : Tracker}
    (ht : t.graph = .ofProgram p) {position : Nat} (hc : c ∈ p.constantSites)
    (hcd : t.Decides position c.setting.scope c.binding) {e : Environment}
    (he : e ∈ c.setting.chain) {m : Declared} (hm : m ∈ e.names)
    (hcollected : m.construct.isCollected) :
    e.function ∈ t.graph.ancestors t.current ∧
      ∃ b ∈ t.graph.namedAt position m.name e.function, b.Serves m.name e.range := by
  obtain ⟨haround, hserved⟩ := Program.site_covered hc e he
  obtain ⟨b, hb, hserves⟩ := hserved m hm hcollected
  rw [← ht] at haround hb
  have hposition : ∀ span ∈ e.range, span.contains position := by
    intro span hspan
    obtain ⟨block, hblock, hwithin⟩ := (Program.site_placed hblocks hc).1.around e he span hspan
    have hcontains := ConstantSite.contains_of_visibleAt hcd.visibleAt
    exact Span.contains_of_isWithin hwithin (hcontains block hblock)
  refine ⟨?_, b, hb.namedAt hserves hposition, hserves⟩
  obtain ⟨inner, outer, hids, -⟩ := hcd
  have hscope : c.setting.scope ∈ t.graph.ancestors t.current := by simp [hids]
  have hg : t.graph.Ascends := ht ▸ ofProgram_ascends p
  exact (ScopeGraph.ancestors_suffix hg _ _ hscope).subset haround

/-- **Environments around.** If those of one constant are around another one, then
the name of the first refers to it where the second is declared, unless a name that
is not collected comes between. -/
theorem Program.lookupFrom_eq (hblocks : p.outline.blocksNested) {t : Tracker}
    (ht : t.graph = .ofProgram p) {position : Nat} (hn : n ∈ p.constantSites)
    (hc : c ∈ p.constantSites) (hnd : t.Decides position n.setting.scope n.binding)
    (hcd : t.Decides position c.setting.scope c.binding)
    (hcollected : ∀ e ∈ c.setting.chain, ∀ m ∈ e.names, m.name = n.name →
      m.construct.isCollected)
    (hsuffix : n.setting.chain <:+ c.setting.chain) :
    lookupFrom c.setting.chain n.name = n.setting.chain := by
  obtain ⟨⟨home, hhome, hscope, hrange, hnames⟩, -, houtermost⟩ :=
    (Program.site_placed hblocks hn).1
  have hordered := (Program.site_placed hblocks hc).2
  obtain ⟨inner, hchain⟩ := hsuffix
  rw [← hchain] at hordered ⊢
  refine lookupFrom_append (fun e he => ?_) hhome ?_
  · rw [Environment.declares, List.any_eq_false]
    intro m hm hname
    have hname : m.name = n.name := by simpa using hname
    have hmem : e ∈ c.setting.chain := hchain ▸ List.mem_append_left _ he
    have hcol := hcollected e hmem m hm hname
    obtain ⟨haround, b, hat, hserves⟩ := Program.exists_visible hblocks ht hc hcd hmem hm hcol
    rw [hname] at hat
    obtain ⟨hfunction, hsame⟩ :=
      (List.pairwise_append.mp hordered).2.2 e he home (List.mem_of_head? hhome)
    -- the binding of the name is the one that decides, so the environments are one
    obtain ⟨heq, rfl⟩ := hnd.eq_of_le (ht ▸ ofProgram_ascends p) haround (hscope ▸ hfunction) hat
    have hblock : e.range = home.range := by
      rcases hserves.extent with hblock | ⟨-, hkind⟩
      · exact hblock.symm.trans hrange.symm
      · exact absurd rfl hkind
    obtain ⟨hnone, hown⟩ := hsame (heq.trans hscope.symm) hblock
    have hzero : home.function = 0 := hscope.trans (houtermost (hrange.symm.trans hnone))
    rw [hown hzero m hm] at hcol
    exact Bool.false_ne_true hcol
  · exact List.any_eq_true.mpr ⟨_, hnames _ (List.mem_singleton_self _), by simp⟩

end Sites

/-- Of the constants bound before another one, at most one has a given name. -/
theorem filter_eq_singleton {p : Program} {stack : List Nat} {position : Nat} {wholeChain : Bool}
    {before after : List Declarator} {d : Declarator}
    (h : (Tracker.outlook ⟨.ofProgram p, stack⟩ position wholeChain).constants =
      before ++ after) (hd : d ∈ before) {name : String} (hname : d.name? = some name) :
    before.filter (·.name? == some name) = [d] := by
  have hmem : d ∈ before.filter (·.name? == some name) := by simp [hd, hname]
  have hall := (Tracker.outlook_standing p stack position wholeChain name).1
  rw [h, List.filter_append] at hall
  have hlength := Standing.length_constants
    (Tracker.standing ⟨.ofProgram p, stack⟩ position wholeChain name)
  rw [← hall, List.length_append] at hlength
  have hpos := List.length_pos_of_mem hmem
  obtain ⟨x, hx⟩ := List.length_eq_one_iff.mp
    (show (before.filter (·.name? == some name)).length = 1 by omega)
  rw [hx, List.mem_singleton] at hmem
  rw [hx, hmem]

/-- **What a constant reads of other constants.** Whatever is known when a constant
is bound comes from one constant of the same name that is bound before, which the
position sees as well. It stands around the constant, or in a block of the same
function that the constant is not in, or in a `switch` whose subject holds the
constant. If no own name of an expression or default export is in the way, the
name refers to it where the constant is declared just in the first case. -/
theorem constants_resolve (p : Program) (stack : List Nat) (position : Nat) (wholeChain : Bool)
    (hblocks : p.outline.blocksNested) :
    let t : Tracker := ⟨.ofProgram p, stack⟩
    let o := t.outlook position wholeChain
    ∀ before d after, o.constants = before ++ d :: after →
      ∃ c ∈ p.constantSites, c.declarator = d ∧ t.Decides position c.setting.scope c.binding ∧
        ∀ entry ∈ (bindAll o.blank before).entries, ∃ n ∈ p.constantSites,
          n.name = entry.1.binding ∧ before.filter (·.name? == some n.name) = [n.declarator] ∧
          t.Decides position n.setting.scope n.binding ∧ n.setting.Arranged c.setting ∧
          ((∀ e ∈ c.setting.chain, ∀ m ∈ e.names, m.name = n.name → m.construct.isCollected) →
            (lookupFrom c.setting.chain n.name = n.setting.chain ↔
              n.setting.chain <:+ c.setting.chain)) := by
  intro t o before d after hsplit
  -- a binding that decides and keeps a declaration is that of a constant
  have hsite : ∀ {id b x}, t.Decides position id b → b.declarator = some x →
      ∃ c ∈ p.constantSites, c.declarator = x ∧ c.setting.scope = id ∧
        t.Decides position c.setting.scope c.binding := by
    intro id b x hb hx
    have hbinds := (ScopeGraph.mem_namedAt.mp hb.mem_namedAt).1
    obtain ⟨c, hc, rfl, rfl⟩ := p.exists_site hbinds (by simp [hx])
    exact ⟨c, hc, Option.some.inj hx, rfl, hb⟩
  obtain ⟨id, b, hb, hbd, hbefore⟩ := Tracker.decides_of_split (ofProgram_ascends p) hsplit
  obtain ⟨c, hc, hcd, rfl, hdecides⟩ := hsite hb hbd
  refine ⟨c, hc, hcd, hdecides, fun entry hentry => ?_⟩
  obtain ⟨d', hd', hname⟩ : ∃ d' ∈ before, d'.name? = some entry.1.binding :=
    (mem_entries_bindAll hentry).resolve_left List.not_mem_nil
  obtain ⟨id', b', hb', hbd', hle⟩ := hbefore d' hd'
  obtain ⟨n, hn, rfl, rfl, hndecides⟩ := hsite hb' hbd'
  have hnname : n.name = entry.1.binding := Option.some.inj hname
  refine ⟨n, hn, hnname, filter_eq_singleton hsplit hd' rfl, hndecides, ?_, fun hcollected => ?_⟩
  · exact Program.sites_arranged hblocks hn hc hndecides.visibleAt hdecides.visibleAt hle
  · refine ⟨fun heq => heq ▸ List.dropWhile_suffix _, fun hsuffix => ?_⟩
    exact Program.lookupFrom_eq hblocks rfl hn hc hndecides hdecides hcollected hsuffix

/-- The tree of `const n = true; function g() { const c = n; if (c) { f(); } }`. -/
def readOutside : Program :=
  ⟨.script, none, [.stmt (.decl (.vars .constKind [.mk (.ident "n") (.literal (.bool true))])),
    .stmt (.decl (.function "g" (.block ⟨.function, some "g", false, false⟩ ⟨16, 81⟩ []
      (.mk ⟨29, 81⟩ [.decl (.vars .constKind [.mk (.ident "c") (.ident "n")]),
        .ifElse ⟨52, 79⟩ (.ident "c")
          (.block (.mk ⟨59, 79⟩ [.expr (.other .call [.ident "f"])])) none]))))]⟩

/-- The constant of the function reads that of the program, and its name refers to
it. -/
theorem readOutside_resolve :
    let t : Tracker := ⟨.ofProgram readOutside, [1, 0]⟩
    let o := t.outlook 52 true
    readOutside.outline.blocksNested = true ∧
      o.associations.lookup? (.root "c") = some (.bool true) ∧
      ∃ c ∈ readOutside.constantSites, c.declarator ∈ o.constants ∧ c.name = "c" ∧
        ∃ n ∈ readOutside.constantSites, n.declarator ∈ o.constants ∧ n.name = "n" ∧
          lookupFrom c.setting.chain "n" = n.setting.chain := by
  intro t o
  have hblocks : readOutside.outline.blocksNested = true := by decide +kernel
  have hsites : ∀ c ∈ readOutside.constantSites, (∀ e ∈ c.setting.chain, ∀ m ∈ e.names,
      m.construct.isCollected) ∧ ∀ n ∈ readOutside.constantSites, c.name = "c" → n.name = "n" →
        n.setting.chain <:+ c.setting.chain := by decide +kernel
  have hnames : o.constants.map (·.name?) = [some "n", some "c"] := by decide +kernel
  have hknown : (bindAll o.blank (o.constants.take 1)).entries = [(.root "n", .bool true)] := by
    decide +kernel
  obtain ⟨first, second, hconstants⟩ : ∃ first second, o.constants = [first, second] :=
    List.length_eq_two.mp (by decide +kernel)
  rw [hconstants] at hnames hknown
  obtain ⟨c, hc, rfl, -, hread⟩ :=
    constants_resolve readOutside [1, 0] 52 true hblocks [first] second [] hconstants
  obtain ⟨n, hn, hname, hfilter, -, -, hresolve⟩ :=
    hread (.root "n", .bool true) (hknown ▸ List.mem_cons_self)
  have hname : n.name = "n" := hname
  have hcname : c.name = "c" := by
    simpa [ConstantSite.declarator, Declarator.name?] using (List.cons.inj hnames).2
  have hmem : n.declarator ∈ [first] := List.mem_of_mem_filter (hfilter ▸ List.mem_cons_self)
  refine ⟨hblocks, by decide +kernel, c, hc, by simp [hconstants], hcname, n, hn, ?_, hname, ?_⟩
  · rw [hconstants]
    exact List.mem_append_left [c.declarator] hmem
  · have hiff := hresolve fun e he m hm _ => (hsites c hc).1 e he m hm
    rw [← hname]
    exact hiff.mpr ((hsites c hc).2 n hn hcname hname)

/-- The tree of `let n = h(); function g() { let later; { const n = true; later = () =>
{ if (c) { f(); } }; } const c = n; later(); }`. -/
def capturedName : Program :=
  let call (name : String) : Expr := .other .call [.ident name]
  let declare (kind : VarKind) (name : String) (init : Expr) : Stmt :=
    .decl (.vars kind [.mk (.ident name) init])
  ⟨.script, none, [.stmt (declare .letKind "n" (call "h")),
    .stmt (.decl (.function "g" (.block ⟨.function, some "g", false, false⟩ ⟨13, 199⟩ []
      (.mk ⟨26, 199⟩ [declare .letKind "later" .absent,
        .block (.mk ⟨47, 167⟩ [declare .constKind "n" (.literal (.bool true)),
          .expr (.assign none (.ident "later")
            (.closure (.block ⟨.arrow, none, false, false⟩ ⟨89, 160⟩ [] (.mk ⟨93, 160⟩
              [.ifElse ⟨107, 150⟩ (.ident "c")
                (.block (.mk ⟨114, 150⟩ [.expr (call "f")])) none]))))]),
        declare .constKind "c" (.ident "n"), .expr (call "later")]))))]⟩

/-- **A name may be captured.** In the closure both the constant of the block and the
constant `c` after the block are visible. So `c` is given the value of the former,
though where `c` is declared its name refers to the variable of the program, and
the `if` statement that tests `c` is taken for true. -/
theorem exists_captured_name :
    let t : Tracker := ⟨.ofProgram capturedName, [2, 1, 0]⟩
    let o := t.outlook 107 true
    capturedName.outline.blocksNested = true ∧
      ∃ n c, capturedName.constantSites = [n, c] ∧ n.name = "n" ∧ c.init = .ident "n" ∧
        o.constants.map (·.name?) = [some "n", some "c"] ∧
        (∀ e ∈ c.setting.chain, ∀ m ∈ e.names, m.construct.isCollected) ∧
        lookupFrom c.setting.chain "n" ≠ n.setting.chain ∧
        resolve c.setting.chain "n" = some ⟨"n", .variable .letKind⟩ ∧
        o.associations.lookup? (.root "c") = some (.bool true) ∧
        (shrink true (fun n => ⟨none, 1, n⟩) capturedName).folds =
          [⟨⟨none, 1, 107⟩, .keptConsequent⟩] := by
  refine ⟨by decide +kernel, _, _, rfl, rfl, rfl, ?_, ?_, ?_, ?_, ?_, ?_⟩
  · decide +kernel
  · decide +kernel
  · decide +kernel
  · decide +kernel
  · decide +kernel
  · decide +kernel

end DeadBranch
