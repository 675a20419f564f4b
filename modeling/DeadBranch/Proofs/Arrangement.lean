/-
# How two declarations are arranged

Blocks lie in each other or apart, as in a text (`Outline.blocksNested`). If so,
then of two declarations that are visible at one position the one in the outer
function, or in the same, is arranged in one of three ways (`Setting.Arranged`).
Its environments are around the other one; or it stands in a block of the same
function that the other one is not in; or it stands in a `switch` whose subject
holds the other one. Only in the first case does its name mean the same at both.

Key definitions: `Outline.blocksNested`, `Region.Placed`, `Setting.Arranged`,
`Spot.Located`.
Key theorems: `Region.inherited_placed`, `Region.located`, `Region.arranged`.
-/
import DeadBranch.Proofs.Coverage
import DeadBranch.Proofs.Ranges

namespace DeadBranch

/-! ### Nested blocks -/

theorem Span.isWithin_antisymm {s t : Span} (h : s.isWithin t) (h' : t.isWithin s) : s = t := by
  obtain ⟨start, stop⟩ := s
  obtain ⟨start', stop'⟩ := t
  simp only [isWithin, Bool.and_eq_true, decide_eq_true_eq] at h h'
  simp only [Span.mk.injEq]
  omega

theorem Span.isWithin_refl (s : Span) : s.isWithin s := by
  simp [isWithin]

/-- Does a range lie in another one and differ from it? -/
def Span.isInside (s t : Span) : Bool := s.isWithin t && s != t

theorem Span.isInside_of_isWithin {r s t : Span} (h : r.isWithin s) (h' : s.isInside t) :
    r.isInside t := by
  simp only [isInside, Bool.and_eq_true, bne_iff_ne, ne_eq] at h' ⊢
  refine ⟨isWithin_trans h h'.1, ?_⟩
  rintro rfl
  exact h'.2 (isWithin_antisymm h'.1 h)

theorem Span.isWithin_of_isInside {s t : Span} (h : s.isInside t) : s.isWithin t := by
  simp only [isInside, Bool.and_eq_true] at h
  exact h.1

namespace Outline

/-- The outermost blocks of an outline, also those in its functions. -/
def blocks : Outline → List Span
  | .blank | .declare _ => []
  | .both first second => first.blocks ++ second.blocks
  | .scope _ _ inside => inside.blocks
  | .block span _ => [span]
  | .choice _ _ _ inTest consequent alternate =>
    inTest.blocks ++ consequent.blocks ++ alternate.blocks

/-- Do all blocks of one outline lie apart from those of another? -/
def blocksApart (first second : Outline) : Bool :=
  first.blocks.all fun r => second.blocks.all (r.isApart ·)

/-- Are the blocks nested as in a text? -/
def blocksNested : Outline → Bool
  | .blank | .declare _ => true
  | .both first second => first.blocksNested && second.blocksNested && first.blocksApart second
  | .scope _ _ inside => inside.blocksNested
  | .block span inside => inside.blocksNested && inside.blocks.all (·.isInside span)
  | .choice _ _ _ inTest consequent alternate =>
    inTest.blocksNested && consequent.blocksNested && alternate.blocksNested &&
      inTest.blocksApart consequent && inTest.blocksApart alternate &&
      consequent.blocksApart alternate

theorem blocks_andThen (first second : Outline) :
    (first.andThen second).blocks = first.blocks ++ second.blocks := by
  cases first <;> cases second <;> simp [andThen, blocks]

theorem blocksNested_andThen (first second : Outline) : (first.andThen second).blocksNested =
    (first.blocksNested && second.blocksNested && first.blocksApart second) := by
  cases first <;> cases second <;> simp [andThen, blocksNested, blocksApart, blocks]

theorem blocksApart_andThen (o first second : Outline) : o.blocksApart (first.andThen second) =
    (o.blocksApart first && o.blocksApart second) := by
  rw [Bool.eq_iff_iff]
  simp only [blocksApart, blocks_andThen, List.all_append, List.all_eq_true, Bool.and_eq_true]
  exact forall₂_and

theorem blocksApart_comm {first second : Outline} (h : first.blocksApart second) :
    second.blocksApart first := by
  simp only [blocksApart, List.all_eq_true] at h ⊢
  intro r hr s hs
  simpa [Span.isApart, Bool.or_comm] using h s hs r hr

end Outline

/-! ### The blocks of a region -/

namespace Region

section Nested

variable {first second inKey inParams body subject inside inTest consequent alternate : Region}
  {key : FunctionKey} {params : List Expr} {span : Span} {test : Expr} {hasAlternate : Bool}

theorem blocks_both : (Region.both first second).outline.blocks =
    first.outline.blocks ++ second.outline.blocks :=
  Outline.blocks_andThen _ _

theorem blocks_function : (Region.function key params inKey inParams body).outline.blocks =
    inKey.outline.blocks ++ (inParams.outline.blocks ++ body.outline.blocks) := by
  simp only [outline, Outline.blocks, Outline.blocks_andThen]

theorem blocksNested_both (h : (Region.both first second).outline.blocksNested) :
    first.outline.blocksNested ∧ second.outline.blocksNested ∧
      first.outline.blocksApart second.outline := by
  simp only [outline, Outline.blocksNested_andThen, Bool.and_eq_true] at h
  exact ⟨h.1.1, h.1.2, h.2⟩

theorem blocksNested_function
    (h : (Region.function key params inKey inParams body).outline.blocksNested) :
    (inKey.outline.blocksNested ∧ inParams.outline.blocksNested ∧ body.outline.blocksNested) ∧
      inKey.outline.blocksApart inParams.outline ∧ inKey.outline.blocksApart body.outline ∧
      inParams.outline.blocksApart body.outline := by
  simp only [outline, Outline.blocksNested, Outline.blocksNested_andThen,
    Outline.blocksApart_andThen, Bool.and_eq_true] at h
  obtain ⟨⟨hkey, ⟨hparams, hbody⟩, hpb⟩, hkp, hkb⟩ := h
  exact ⟨⟨hkey, hparams, hbody⟩, hkp, hkb, hpb⟩

/-- The blocks of a block lie inside it, and those of its subject apart from the
others. -/
theorem blocksNested_block (h : (Region.block span subject inside).outline.blocksNested) :
    (subject.outline.blocksNested ∧ inside.outline.blocksNested ∧
      subject.outline.blocksApart inside.outline) ∧
      (∀ b ∈ subject.outline.blocks, b.isInside span) ∧
      ∀ b ∈ inside.outline.blocks, b.isInside span := by
  simp only [outline, Outline.blocksNested, Outline.blocksNested_andThen, Outline.blocks_andThen,
    List.all_append, Bool.and_eq_true, List.all_eq_true] at h
  obtain ⟨⟨⟨hsubject, hinside⟩, hapart⟩, hblocks⟩ := h
  exact ⟨⟨hsubject, hinside, hapart⟩, hblocks⟩

theorem blocksNested_staticBlock (h : (Region.staticBlock span inside).outline.blocksNested) :
    inside.outline.blocksNested ∧ ∀ b ∈ inside.outline.blocks, b.isInside span := by
  simpa only [outline, Outline.blocksNested, Bool.and_eq_true, List.all_eq_true] using h

theorem blocksNested_choice
    (h : (Region.choice span test hasAlternate inTest consequent alternate).outline.blocksNested) :
    (inTest.outline.blocksNested ∧ consequent.outline.blocksNested ∧
      alternate.outline.blocksNested) ∧
      inTest.outline.blocksApart consequent.outline ∧
      inTest.outline.blocksApart alternate.outline ∧
      consequent.outline.blocksApart alternate.outline := by
  simp only [outline, Outline.blocksNested, Bool.and_eq_true] at h
  obtain ⟨⟨⟨⟨⟨htest, hconsequent⟩, halternate⟩, htc⟩, hta⟩, hca⟩ := h
  exact ⟨⟨htest, hconsequent, halternate⟩, htc, hta, hca⟩

end Nested

end Region

/-! ### Where regions are placed -/

/-- One environment is inside another one. If they stand for the same range of the
same function they are no blocks, and directly in the program the inner one has
only the own name of an expression. -/
structure Environment.IsInside (e e' : Environment) : Prop where
  function : e'.function ≤ e.function
  same : e.function = e'.function → e.range = e'.range →
    e'.range = none ∧ (e'.function = 0 → ∀ m ∈ e.names, m.construct.isCollected = false)

/-- The first environment around is that of the block or of the program, and has
the given names. -/
structure Setting.IsHome (here : Setting) (names : List Declared) : Prop where
  first : ∃ e ∈ here.chain.head?, e.function = here.scope ∧ e.range = here.block ∧
    ∀ m ∈ names, m ∈ e.names
  around : ∀ e ∈ here.chain, ∀ span ∈ e.range, ∃ block ∈ here.block, block.isWithin span
  outermost : here.block = none → here.scope = 0

/-- A region is placed as in a text. -/
structure Region.Placed (r : Region) (next : Nat) (here : Setting) : Prop where
  regular : r.Regular
  nested : r.outline.blocksNested
  numbered : here.scope < next
  inside : ∀ e ∈ here.chain, e.function ≤ here.scope ∧
    ∀ span ∈ e.range, ∀ b ∈ r.outline.blocks, b.isInside span
  ordered : here.chain.Pairwise Environment.IsInside
  home : r.direct = [] ∨ here.IsHome r.direct

theorem Setting.IsHome.mono {here : Setting} {names names' : List Declared}
    (h : here.IsHome names) (hnames : ∀ m ∈ names', m ∈ names) : here.IsHome names' := by
  obtain ⟨⟨e, he, hfunction, hrange, hall⟩, haround, houtermost⟩ := h
  exact ⟨⟨e, he, hfunction, hrange, fun m hm => hall m (hnames m hm)⟩, haround, houtermost⟩

theorem Region.Placed.home_of_subset {r : Region} {next : Nat} {here : Setting}
    {names : List Declared} (h : r.Placed next here) (hnames : ∀ m ∈ names, m ∈ r.direct) :
    names = [] ∨ here.IsHome names := by
  rcases h.home with hnone | hhome
  · rw [hnone] at hnames
    exact .inl (List.eq_nil_iff_forall_not_mem.mpr fun m hm => List.not_mem_nil (hnames m hm))
  · exact .inr (hhome.mono hnames)

namespace Region

variable {next : Nat} {here : Setting}

/-- A part of a region that is written where the region is. -/
theorem Placed.part {r part : Region} (h : r.Placed next here) (more : Nat)
    (hregular : part.Regular) (hnested : part.outline.blocksNested)
    (hblocks : ∀ b ∈ part.outline.blocks, b ∈ r.outline.blocks)
    (hdirect : ∀ m ∈ part.direct, m ∈ r.direct) : part.Placed (next + more) here where
  regular := hregular
  nested := hnested
  numbered := Nat.lt_add_right more h.numbered
  inside := fun e he => ⟨(h.inside e he).1, fun span hspan b hb =>
    (h.inside e he).2 span hspan b (hblocks b hb)⟩
  ordered := h.ordered
  home := h.home_of_subset hdirect

/-- A part of a function. It declares nothing directly, and the environments of
the function come before those around it. -/
theorem Placed.inFunction {key : FunctionKey} {params : List Expr}
    {inKey inParams body part : Region}
    (h : (Region.function key params inKey inParams body).Placed next here) (more : Nat)
    (hregular : part.Regular ∧ part.direct = []) (hnested : part.outline.blocksNested)
    (hblocks : ∀ b ∈ part.outline.blocks,
      b ∈ (Region.function key params inKey inParams body).outline.blocks)
    (own : List (List Declared)) :
    part.Placed (next + 1 + more) ⟨next, none, own.map (⟨next, none, ·⟩) ++ here.chain⟩ where
  regular := hregular.1
  nested := hnested
  numbered := by
    change next < next + 1 + more
    omega
  inside := by
    refine List.forall_mem_append.mpr ⟨?_, fun e he => ⟨?_, fun span hspan b hb => ?_⟩⟩
    · simp
    · exact Nat.le_of_lt (Nat.lt_of_le_of_lt (h.inside e he).1 h.numbered)
    · exact (h.inside e he).2 span hspan b (hblocks b hb)
  ordered := by
    refine List.pairwise_append.mpr ⟨?_, h.ordered, ?_⟩
    · rw [List.pairwise_map]
      refine List.pairwise_iff_forall_sublist.mpr fun _ =>
        ⟨Nat.le_refl _, fun _ _ => ⟨rfl, fun hzero => ?_⟩⟩
      -- only the program has the number 0
      exact absurd hzero (Nat.ne_of_gt (Nat.zero_lt_of_lt h.numbered))
    · intro e he e' he'
      obtain ⟨names, -, rfl⟩ := List.mem_map.mp he
      have hlt := Nat.lt_of_le_of_lt (h.inside e' he').1 h.numbered
      exact ⟨Nat.le_of_lt hlt, fun heq => absurd heq.symm (Nat.ne_of_lt hlt)⟩
  home := .inl hregular.2

/-- A part of a block in which the given names are known. -/
theorem Placed.inBlock {r part : Region} (h : r.Placed next here) (more : Nat) {span : Span}
    (hspan : span ∈ r.outline.blocks) (hregular : part.Regular)
    (hnested : part.outline.blocksNested) (hblocks : ∀ b ∈ part.outline.blocks, b.isInside span)
    {names : List Declared} (hnames : part.direct = [] ∨ ∀ m ∈ part.direct, m ∈ names) :
    part.Placed (next + more) (here.inBlock span names) where
  regular := hregular
  nested := hnested
  numbered := Nat.lt_add_right more h.numbered
  inside := by
    refine List.forall_mem_cons.mpr ⟨⟨Nat.le_refl _, ?_⟩, fun e he => ⟨(h.inside e he).1, ?_⟩⟩
    · intro own hown
      obtain rfl : span = own := Option.some.inj hown
      exact hblocks
    · intro outer houter b hb
      exact Span.isInside_of_isWithin (Span.isWithin_of_isInside (hblocks b hb))
        ((h.inside e he).2 outer houter span hspan)
  ordered := by
    refine List.pairwise_cons.mpr ⟨fun e he => ⟨(h.inside e he).1, fun _ hrange => ?_⟩, h.ordered⟩
    -- the range of a block differs from those around it
    have hself := (h.inside e he).2 span hrange.symm span hspan
    simp [Span.isInside] at hself
  home := by
    refine hnames.imp_right fun hnames =>
      ⟨⟨_, rfl, rfl, rfl, hnames⟩, ?_, by simp [Setting.inBlock]⟩
    refine List.forall_mem_cons.mpr ⟨?_, fun e he outer houter => ⟨span, rfl, ?_⟩⟩
    · intro own hown
      obtain rfl : span = own := Option.some.inj hown
      exact ⟨span, rfl, span.isWithin_refl⟩
    · exact Span.isWithin_of_isInside ((h.inside e he).2 outer houter span hspan)

/-- **Placement passes on to all parts.** -/
theorem inherited_placed : Inherited Placed where
  both := by
    intro first second next here h
    obtain ⟨hfirst, hsecond, -⟩ := blocksNested_both h.nested
    refine ⟨h.part 0 h.regular.1 hfirst ?_ ?_, h.part _ h.regular.2 hsecond ?_ ?_⟩
    · rw [blocks_both]
      exact fun b => List.mem_append_left _
    · exact fun m => List.mem_append_left _
    · rw [blocks_both]
      exact fun b => List.mem_append_right _
    · exact fun m => List.mem_append_right _
  named := by
    intro name inside next here h
    refine ⟨h.regular.1, h.nested, h.numbered, ?_, ?_, .inl h.regular.2⟩
    · exact List.forall_mem_cons.mpr ⟨⟨Nat.le_refl _, by simp⟩, h.inside⟩
    · refine List.pairwise_cons.mpr ⟨fun e he => ⟨(h.inside e he).1, ?_⟩, h.ordered⟩
      exact fun _ hrange => ⟨hrange.symm, fun _ => by simp [Construct.isCollected]⟩
  function := by
    intro key params inKey inParams body next here h
    obtain ⟨hkey, hparams, hbody⟩ := h.regular
    obtain ⟨⟨hkeyNested, hparamsNested, hbodyNested⟩, -⟩ := blocksNested_function h.nested
    refine ⟨h.inFunction 0 hkey hkeyNested ?_ [], h.inFunction _ hparams hparamsNested ?_ [_], ?_⟩
    · rw [blocks_function]
      exact fun b => List.mem_append_left _
    · rw [blocks_function]
      exact fun b hb => List.mem_append_right _ (List.mem_append_left _ hb)
    · rw [Nat.add_assoc (next + 1)]
      refine h.inFunction _ hbody hbodyNested ?_ [_, _]
      rw [blocks_function]
      exact fun b hb => List.mem_append_right _ (List.mem_append_right _ hb)
  block := by
    intro span subject inside next here h
    obtain ⟨⟨hsubject, hclosed⟩, hinside⟩ := h.regular
    obtain ⟨⟨hsubjectNested, hinsideNested, -⟩, hsubjectBlocks, hinsideBlocks⟩ :=
      blocksNested_block h.nested
    have hspan : span ∈ (Region.block span subject inside).outline.blocks := by
      simp [outline, Outline.blocks]
    exact ⟨h.inBlock 0 hspan hsubject hsubjectNested hsubjectBlocks (.inl hclosed),
      h.inBlock _ hspan hinside hinsideNested hinsideBlocks (.inr fun m hm => hm)⟩
  staticBlock := by
    intro span inside next here h
    obtain ⟨hnested, hblocks⟩ := blocksNested_staticBlock h.nested
    have hspan : span ∈ (Region.staticBlock span inside).outline.blocks := by
      simp [outline, Outline.blocks]
    have hregular : inside.Regular := h.regular
    exact h.inBlock 0 hspan hregular hnested hblocks
      (.inr fun m hm => List.mem_append_left _ hm)
  choice := by
    intro span test hasAlternate inTest consequent alternate next here h
    obtain ⟨hregularTest, hregularConsequent, hregularAlternate⟩ := h.regular
    obtain ⟨⟨htest, hconsequent, halternate⟩, -⟩ := blocksNested_choice h.nested
    refine ⟨h.part 0 hregularTest htest ?_ ?_, h.part _ hregularConsequent hconsequent ?_ ?_, ?_⟩
    · exact fun b hb => List.mem_append_left _ (List.mem_append_left _ hb)
    · exact fun m hm => List.mem_append_left _ (List.mem_append_left _ hm)
    · exact fun b hb => List.mem_append_left _ (List.mem_append_right _ hb)
    · exact fun m hm => List.mem_append_left _ (List.mem_append_right _ hm)
    · rw [Nat.add_assoc]
      refine h.part _ hregularAlternate halternate ?_ ?_
      · exact fun b hb => List.mem_append_right _ hb
      · exact fun m hm => List.mem_append_right _ hm

end Region

/-- A program is placed as in a text, if its blocks are. -/
theorem Program.region_placed (p : Program) (hblocks : p.outline.blocksNested) :
    p.region.Placed 1 p.setting where
  regular := p.region_fits.regular
  nested := by rwa [p.region_fits.outline]
  numbered := Nat.one_pos
  inside := by simp [Program.setting, Program.environment]
  ordered := List.pairwise_singleton _ _
  home := by
    refine .inr ⟨⟨p.environment, rfl, rfl, rfl, fun m hm => ?_⟩, ?_, fun _ => rfl⟩
    · exact List.mem_append_left _ (List.mem_append_left _ hm)
    · simp [Program.setting, Program.environment]

/-! ### How two declarations are arranged -/

/-- How a declaration is arranged with another one that is visible at the same
position. -/
inductive Setting.Arranged (n c : Setting) : Prop
  /-- Its environments are around the other one. -/
  | around (h : n.chain <:+ c.chain)
  /-- It stands in a block of the same function, inside that of the other one. -/
  | deeper {span : Span} (hscope : n.scope = c.scope) (hblock : n.block = some span)
    (h : ∀ outer ∈ c.block, span.isInside outer)
  /-- It stands in a `switch`, and the other one in the subject of the `switch`. -/
  | inSubject {e : Environment} (he : e ∈ c.chain) (hfunction : e.function = n.scope)
    (hrange : e.range = n.block) (hnames : e.names = [])

/-- Does a declaration give names to its block? -/
def Spot.IsLexical (s : Spot) : Prop := ∃ d, s.what = .declares d ∧ d.lexical ≠ []

/-- A position lies in the block. -/
def Setting.Contains (here : Setting) (position : Nat) : Prop :=
  ∀ span ∈ here.block, span.contains position

namespace Region

/-- What is written in a region has the environments around the region, and is in
the same function or in one of the region. -/
theorem mem_spots_around {r : Region} {next : Nat} {here : Setting} {s : Spot}
    (hs : s ∈ r.spots next here) :
    here.chain <:+ s.setting.chain ∧ (s.setting.scope = here.scope ∨ next ≤ s.setting.scope) := by
  have hinherited : Inherited fun _ next' here' => next ≤ next' ∧ here.chain <:+ here'.chain ∧
      (here'.scope = here.scope ∨ next ≤ here'.scope) := by
    refine { both := ?_, named := ?_, function := ?_, block := ?_, staticBlock := ?_, choice := ?_ }
    · rintro first second next' here' ⟨hnext, h⟩
      exact ⟨⟨hnext, h⟩, Nat.le_add_right_of_le hnext, h⟩
    · rintro name inside next' here' ⟨hnext, hchain, hscope⟩
      exact ⟨hnext, hchain.trans (List.suffix_cons _ _), hscope⟩
    · rintro key params inKey inParams body next' here' ⟨hnext, hchain, -⟩
      exact ⟨⟨by omega, hchain, .inr hnext⟩,
        ⟨by omega, hchain.trans (List.suffix_cons _ _), .inr hnext⟩,
        ⟨by omega, hchain.trans ((List.suffix_cons _ _).trans (List.suffix_cons _ _)), .inr hnext⟩⟩
    · rintro span subject inside next' here' ⟨hnext, hchain, hscope⟩
      exact ⟨⟨hnext, hchain.trans (List.suffix_cons _ _), hscope⟩,
        ⟨by omega, hchain.trans (List.suffix_cons _ _), hscope⟩⟩
    · rintro span inside next' here' ⟨hnext, hchain, hscope⟩
      exact ⟨hnext, hchain.trans (List.suffix_cons _ _), hscope⟩
    · rintro span test hasAlternate inTest consequent alternate next' here' ⟨hnext, h⟩
      exact ⟨⟨hnext, h⟩, ⟨by omega, h⟩, ⟨by omega, h⟩⟩
  obtain ⟨-, -, ⟨-, h⟩, -⟩ :=
    hinherited.spots r ⟨Nat.le_refl next, List.suffix_refl _, .inl rfl⟩ s hs
  exact h

end Region

/-- A spot lies in one of the given blocks. -/
def Spot.InBlocks (s : Spot) (blocks : List Span) : Prop :=
  ∃ b ∈ blocks, ∃ span ∈ s.setting.block, span.isWithin b

/-- A spot of a region lies directly in it or in one of its blocks. -/
def Spot.Located (s : Spot) (r : Region) (here : Setting) : Prop :=
  s.setting = here ∧ r.direct ≠ [] ∨ s.InBlocks r.outline.blocks

section Located

variable {s : Spot} {r inner : Region} {here : Setting} {blocks : List Span}

theorem Spot.InBlocks.contains {position : Nat} (h : s.InBlocks blocks)
    (hs : s.setting.Contains position) : ∃ b ∈ blocks, b.contains position := by
  obtain ⟨b, hb, span, hspan, hwithin⟩ := h
  exact ⟨b, hb, Span.contains_of_isWithin hwithin (hs span hspan)⟩

/-- Of a part that is written where the region is. -/
theorem Spot.Located.part (h : s.Located inner here) (hdirect : ∀ m ∈ inner.direct, m ∈ r.direct)
    (hblocks : ∀ b ∈ inner.outline.blocks, b ∈ r.outline.blocks) : s.Located r here := by
  rcases h with ⟨hs, hne⟩ | ⟨b, hb, hs⟩
  · obtain ⟨m, hm⟩ := List.exists_mem_of_ne_nil _ hne
    exact .inl ⟨hs, List.ne_nil_of_mem (hdirect m hm)⟩
  · exact .inr ⟨b, hblocks b hb, hs⟩

/-- Of a part that declares nothing directly. -/
theorem Spot.Located.inBlocks (h : s.Located inner here) (hclosed : inner.direct = []) :
    s.InBlocks inner.outline.blocks :=
  h.resolve_left fun hdirect => hdirect.2 hclosed

/-- Of a part of a block. -/
theorem Spot.Located.inBlock {span : Span} {names : List Declared}
    (h : s.Located inner (here.inBlock span names))
    (hblocks : ∀ b ∈ inner.outline.blocks, b.isInside span) : s.InBlocks [span] := by
  rcases h with ⟨hs, -⟩ | ⟨b, hb, own, hown, hwithin⟩
  · exact ⟨span, List.mem_singleton_self _, span, by simp [hs, Setting.inBlock], span.isWithin_refl⟩
  · refine ⟨span, List.mem_singleton_self _, own, hown, ?_⟩
    exact Span.isWithin_trans hwithin (Span.isWithin_of_isInside (hblocks b hb))

end Located

namespace Region

/-- A declaration that gives names to its block lies directly in a region or in
one of its blocks. -/
theorem located (r : Region) : ∀ {next : Nat} {here : Setting}, r.Placed next here →
    ∀ s ∈ r.spots next here, s.IsLexical → s.Located r here := by
  induction r with
  | blank => simp [spots]
  | both first second ih1 ih2 =>
    intro next here h s hs hlexical
    obtain ⟨h1, h2⟩ := inherited_placed.both h
    rcases List.mem_append.mp hs with hs | hs
    · refine (ih1 h1 s hs hlexical).part (fun m => List.mem_append_left _) ?_
      rw [blocks_both]
      exact fun b => List.mem_append_left _
    · refine (ih2 h2 s hs hlexical).part (fun m => List.mem_append_right _) ?_
      rw [blocks_both]
      exact fun b => List.mem_append_right _
  | named name inside ih =>
    intro next here h s hs hlexical
    exact .inr ((ih (inherited_placed.named h) s hs hlexical).inBlocks h.regular.2)
  | function key params inKey inParams body ihk ihp ihb =>
    intro next here h s hs hlexical
    obtain ⟨hkey, hparams, hbody⟩ := inherited_placed.function h
    obtain ⟨hkeyClosed, hparamsClosed, hbodyClosed⟩ := h.regular
    right
    rw [blocks_function]
    rcases List.mem_append.mp hs with hs | hs
    · obtain ⟨b, hb, hin⟩ := (ihk hkey s hs hlexical).inBlocks hkeyClosed.2
      exact ⟨b, List.mem_append_left _ hb, hin⟩
    · rcases List.mem_append.mp hs with hs | hs
      · obtain ⟨b, hb, hin⟩ := (ihp hparams s hs hlexical).inBlocks hparamsClosed.2
        exact ⟨b, List.mem_append_right _ (List.mem_append_left _ hb), hin⟩
      · obtain ⟨b, hb, hin⟩ := (ihb hbody s hs hlexical).inBlocks hbodyClosed.2
        exact ⟨b, List.mem_append_right _ (List.mem_append_right _ hb), hin⟩
  | block span subject inside ihs ihi =>
    intro next here h s hs hlexical
    obtain ⟨hsubject, hinside⟩ := inherited_placed.block h
    obtain ⟨-, hblocks⟩ := blocksNested_block h.nested
    right
    rcases List.mem_append.mp hs with hs | hs
    · exact (ihs hsubject s hs hlexical).inBlock hblocks.1
    · exact (ihi hinside s hs hlexical).inBlock hblocks.2
  | staticBlock span inside ih =>
    intro next here h s hs hlexical
    obtain ⟨-, hblocks⟩ := blocksNested_staticBlock h.nested
    exact .inr ((ih (inherited_placed.staticBlock h) s hs hlexical).inBlock hblocks)
  | declare d =>
    rintro next here h s hs ⟨d', hwhat, hne⟩
    obtain rfl := List.mem_singleton.mp hs
    obtain rfl : d = d' := by simpa using hwhat
    exact .inl ⟨rfl, hne⟩
  | choice span test hasAlternate inTest consequent alternate iht ihc iha =>
    intro next here h s hs hlexical
    obtain ⟨ht, hc, ha⟩ := inherited_placed.choice h
    rcases List.mem_cons.mp hs with rfl | hs
    · obtain ⟨d, hwhat, -⟩ := hlexical
      simp at hwhat
    · rcases List.mem_append.mp hs with hs | hs
      · exact (iht ht s hs hlexical).part
          (fun m hm => List.mem_append_left _ (List.mem_append_left _ hm))
          fun b hb => List.mem_append_left _ (List.mem_append_left _ hb)
      · rcases List.mem_append.mp hs with hs | hs
        · exact (ihc hc s hs hlexical).part
            (fun m hm => List.mem_append_left _ (List.mem_append_right _ hm))
            fun b hb => List.mem_append_left _ (List.mem_append_right _ hb)
        · exact (iha ha s hs hlexical).part (fun m hm => List.mem_append_right _ hm)
            fun b hb => List.mem_append_right _ hb

/-! ### Two declarations at one position -/

section Arranged

variable {position : Nat} {next next' : Nat} {here : Setting}

/-- All declarations among the first spots are arranged with those among the
others, as far as they are visible at the position and not further in. -/
def Arranges (position : Nat) (ns cs : List Spot) : Prop :=
  ∀ n ∈ ns, ∀ c ∈ cs, n.IsLexical → c.IsLexical → n.setting.Contains position →
    c.setting.Contains position → n.setting.scope ≤ c.setting.scope →
    n.setting.Arranged c.setting

theorem Arranges.append_left {ns ns' cs : List Spot} (h : Arranges position ns cs)
    (h' : Arranges position ns' cs) : Arranges position (ns ++ ns') cs :=
  List.forall_mem_append.mpr ⟨h, h'⟩

theorem Arranges.append_right {ns cs cs' : List Spot} (h : Arranges position ns cs)
    (h' : Arranges position ns cs') : Arranges position ns (cs ++ cs') :=
  fun n hn => List.forall_mem_append.mpr ⟨h n hn, h' n hn⟩

/-- With a spot that declares nothing. -/
theorem Arranges.cons {s : Spot} {ns : List Spot} (hs : ¬ s.IsLexical)
    (h : Arranges position ns ns) : Arranges position (s :: ns) (s :: ns) := by
  have hmem : ∀ n ∈ s :: ns, n.IsLexical → n ∈ ns := by
    intro n hn hlexical
    refine (List.mem_cons.mp hn).resolve_left ?_
    rintro rfl
    exact hs hlexical
  intro n hn c hc hnl hcl
  exact h n (hmem n hn hnl) c (hmem c hc hcl) hnl hcl

/-- Spots in blocks that lie apart are not visible at the same position. -/
theorem not_visible_apart {n c : Spot} {o o' : Outline} (hn : n.InBlocks o.blocks)
    (hc : c.InBlocks o'.blocks) (hapart : o.blocksApart o') (hnc : n.setting.Contains position)
    (hcc : c.setting.Contains position) : False := by
  obtain ⟨b, hb, hbc⟩ := hn.contains hnc
  obtain ⟨b', hb', hbc'⟩ := hc.contains hcc
  simp only [Outline.blocksApart, List.all_eq_true] at hapart
  rw [Span.not_contains_of_isApart (hapart b hb b' hb') hbc] at hbc'
  exact Bool.false_ne_true hbc'

/-- What stands in a block of a part of the function, inside the block of a
declaration. -/
theorem deeper_of_inBlocks {r : Region} {n : Spot} {c : Setting} (hn : n ∈ r.spots next here)
    (hblocks : n.InBlocks r.outline.blocks) (hscope : here.scope = c.scope)
    (hnext : here.scope < next) (hle : n.setting.scope ≤ c.scope)
    (hinside : ∀ b ∈ r.outline.blocks, ∀ outer ∈ c.block, b.isInside outer) :
    n.setting.Arranged c := by
  obtain ⟨b, hb, span, hspan, hwithin⟩ := hblocks
  have hsame : n.setting.scope = c.scope := by
    rcases (mem_spots_around hn).2 with h | h <;> omega
  exact .deeper hsame hspan fun outer houter =>
    Span.isInside_of_isWithin hwithin (hinside b hb outer houter)

/-- Two parts that are written at the same place. -/
theorem arranges_across {r r' : Region} (h : r.Placed next here) (h' : r'.Placed next' here)
    (hapart : r.outline.blocksApart r'.outline) :
    Arranges position (r.spots next here) (r'.spots next' here) := by
  intro n hn c hc hnl hcl hnc hcc hle
  rcases r.located h n hn hnl with ⟨hdirect, -⟩ | hblocks
  · exact .around (hdirect ▸ (mem_spots_around hc).1)
  · rcases r'.located h' c hc hcl with ⟨hdirect, hne⟩ | hblocks'
    · obtain ⟨e, he, -, hrange, -⟩ := (h'.home.resolve_left hne).first
      refine deeper_of_inBlocks hn hblocks (by rw [hdirect]) h.numbered hle ?_
      intro b hb outer houter
      rw [hdirect, ← hrange] at houter
      exact (h.inside e (List.mem_of_head? he)).2 outer houter b hb
    · exact (not_visible_apart hblocks hblocks' hapart hnc hcc).elim

/-- Two parts that declare nothing directly. -/
theorem arranges_closed {r r' : Region} {here' : Setting} (h : r.Placed next here)
    (h' : r'.Placed next' here') (hclosed : r.direct = []) (hclosed' : r'.direct = [])
    (hapart : r.outline.blocksApart r'.outline) :
    Arranges position (r.spots next here) (r'.spots next' here') := by
  intro n hn c hc hnl hcl hnc hcc _
  exact (not_visible_apart ((r.located h n hn hnl).inBlocks hclosed)
    ((r'.located h' c hc hcl).inBlocks hclosed') hapart hnc hcc).elim

/-- **Two declarations of a region** that are visible at the same position. -/
theorem arranged (r : Region) : ∀ {next : Nat} {here : Setting}, r.Placed next here →
    Arranges position (r.spots next here) (r.spots next here) := by
  induction r with
  | blank => simp [spots, Arranges]
  | both first second ih1 ih2 =>
    intro next here h
    obtain ⟨h1, h2⟩ := inherited_placed.both h
    obtain ⟨-, -, hapart⟩ := blocksNested_both h.nested
    refine .append_left (.append_right (ih1 h1) ?_) (.append_right ?_ (ih2 h2))
    · exact arranges_across h1 h2 hapart
    · exact arranges_across h2 h1 (Outline.blocksApart_comm hapart)
  | named name inside ih => intro next here h; exact ih (inherited_placed.named h)
  | function key params inKey inParams body ihk ihp ihb =>
    intro next here h
    obtain ⟨hk, hp, hb⟩ := inherited_placed.function h
    obtain ⟨⟨-, hkc⟩, ⟨-, hpc⟩, -, hbc⟩ := h.regular
    obtain ⟨-, hkp, hkb, hpb⟩ := blocksNested_function h.nested
    refine .append_left (.append_right (ihk hk) (.append_right ?_ ?_))
      (.append_left (.append_right ?_ (.append_right (ihp hp) ?_))
        (.append_right ?_ (.append_right ?_ (ihb hb))))
    · exact arranges_closed hk hp hkc hpc hkp
    · exact arranges_closed hk hb hkc hbc hkb
    · exact arranges_closed hp hk hpc hkc (Outline.blocksApart_comm hkp)
    · exact arranges_closed hp hb hpc hbc hpb
    · exact arranges_closed hb hk hbc hkc (Outline.blocksApart_comm hkb)
    · exact arranges_closed hb hp hbc hpc (Outline.blocksApart_comm hpb)
  | block span subject inside ihs ihi =>
    intro next here h
    obtain ⟨hs, hi⟩ := inherited_placed.block h
    obtain ⟨⟨-, -, hapart⟩, hblocks, -⟩ := blocksNested_block h.nested
    have hclosed := h.regular.1.2
    refine .append_left (.append_right (ihs hs) ?_) (.append_right ?_ (ihi hi))
    · intro n hn c hc hnl hcl hnc hcc hle
      have hn' := (subject.located hs n hn hnl).inBlocks hclosed
      rcases inside.located hi c hc hcl with ⟨hdirect, -⟩ | hc'
      · refine deeper_of_inBlocks hn hn' (by rw [hdirect]; rfl) hs.numbered hle ?_
        intro b hb outer houter
        rw [hdirect] at houter
        obtain rfl : span = outer := Option.some.inj houter
        exact hblocks b hb
      · exact (not_visible_apart hn' hc' hapart hnc hcc).elim
    · intro n hn c hc hnl hcl hnc hcc hle
      have hc' := (subject.located hs c hc hcl).inBlocks hclosed
      rcases inside.located hi n hn hnl with ⟨hdirect, -⟩ | hn'
      · -- in the subject the names of the block are not known
        have hmem : Environment.mk here.scope (some span) [] ∈ c.setting.chain :=
          (mem_spots_around hc).1.subset List.mem_cons_self
        exact .inSubject hmem (by rw [hdirect]; rfl) (by rw [hdirect]; rfl) rfl
      · exact (not_visible_apart hc' hn' hapart hcc hnc).elim
  | staticBlock span inside ih => intro next here h; exact ih (inherited_placed.staticBlock h)
  | declare d =>
    intro next here h n hn c hc _ _ _ _ _
    obtain rfl := List.mem_singleton.mp hn
    obtain rfl := List.mem_singleton.mp hc
    exact .around (List.suffix_refl _)
  | choice span test hasAlternate inTest consequent alternate iht ihc iha =>
    intro next here h
    obtain ⟨ht, hc, ha⟩ := inherited_placed.choice h
    obtain ⟨-, htc, hta, hca⟩ := blocksNested_choice h.nested
    refine .cons ?_ (.append_left (.append_right (iht ht) (.append_right ?_ ?_))
      (.append_left (.append_right ?_ (.append_right (ihc hc) ?_))
        (.append_right ?_ (.append_right ?_ (iha ha)))))
    · -- the statement itself declares nothing
      rintro ⟨d, hwhat, -⟩
      simp at hwhat
    · exact arranges_across ht hc htc
    · exact arranges_across ht ha hta
    · exact arranges_across hc ht (Outline.blocksApart_comm htc)
    · exact arranges_across hc ha hca
    · exact arranges_across ha ht (Outline.blocksApart_comm hta)
    · exact arranges_across ha hc (Outline.blocksApart_comm hca)

end Arranged

end Region

end DeadBranch
