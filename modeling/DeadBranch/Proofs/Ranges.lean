/-
# Ranges and visibility

A binding is visible at a position if the position lies in the range of the
block it is confined to. Ranges are nested as in a text (`Outline.isNested`) if
parts lie within the whole, neighbours lie apart, and an `if` statement begins
before its parts. Then the range of a block holds the start of an `if` statement
only if the statement is written in the block, and what is visible of an outline
from outside its ranges are the bindings that it declares directly
(`own_filter_of_apart`).

Only outlines without functions and without declarations that span a whole
function (`var`, functions, imports) are looked at.

Key definitions: `Outline.ranges`, `Outline.starts`, `Outline.isNested`,
`Outline.isPlain`, `Outline.direct`.
Key theorems: `contains_of_mem_starts`, `own_filter_of_apart`.
-/
import DeadBranch.Proofs.Collected

namespace DeadBranch

/-- Do two ranges have no position in common, one being before the other? -/
def Span.isApart (s t : Span) : Bool := s.stop ≤ t.start || t.stop ≤ s.start

/-- Does a range lie in another one? -/
def Span.isWithin (s t : Span) : Bool := t.start ≤ s.start && s.stop ≤ t.stop

theorem Span.contains_iff {s : Span} {position : Nat} :
    s.contains position = true ↔ s.start ≤ position ∧ position < s.stop := by
  simp [Span.contains]

theorem Span.contains_of_isWithin {s t : Span} {position : Nat} (h : s.isWithin t)
    (hs : s.contains position) : t.contains position := by
  simp only [Span.isWithin, Bool.and_eq_true, decide_eq_true_eq] at h
  rw [Span.contains_iff] at hs ⊢
  omega

theorem Span.isWithin_trans {r s t : Span} (h : r.isWithin s) (h' : s.isWithin t) :
    r.isWithin t := by
  simp only [Span.isWithin, Bool.and_eq_true, decide_eq_true_eq] at h h' ⊢
  omega

theorem Span.not_contains_of_isApart {s t : Span} {position : Nat} (h : s.isApart t)
    (hs : s.contains position) : t.contains position = false := by
  simp only [Span.isApart, Bool.or_eq_true, decide_eq_true_eq] at h
  rw [Span.contains_iff] at hs
  rw [Bool.eq_false_iff, Ne, Span.contains_iff]
  omega

/-- Are all bindings of a declaration confined to the block it stands in? -/
def Declaration.isConfined : Declaration → Bool
  | .vars kind _ => kind != .varKind
  | .classDecl _ | .caught _ => true
  | .function _ | .imports _ => false

namespace Outline

/-- The outermost ranges of an outline. -/
def ranges : Outline → List Span
  | .blank => []
  | .both first second => first.ranges ++ second.ranges
  | .scope key _ _ => [key.span]
  | .block span _ => [span]
  | .declare _ => []
  | .choice span _ _ _ _ _ => [span]

/-- Where the `if` statements of an outline start. -/
def starts : Outline → List Nat
  | .blank => []
  | .both first second => first.starts ++ second.starts
  | .scope _ _ inside => inside.starts
  | .block _ inside => inside.starts
  | .declare _ => []
  | .choice span _ _ inTest consequent alternate =>
    span.start :: (inTest.starts ++ consequent.starts ++ alternate.starts)

/-- Do all ranges of one outline lie apart from those of another? -/
def isApart (first second : Outline) : Bool :=
  first.ranges.all fun r => second.ranges.all (r.isApart ·)

/-- Are the ranges nested as in a text? -/
def isNested : Outline → Bool
  | .blank => true
  | .both first second => first.isNested && second.isNested && first.isApart second
  | .scope key _ inside => inside.isNested && inside.ranges.all (·.isWithin key.span)
  | .block span inside => inside.isNested && inside.ranges.all (·.isWithin span)
  | .declare _ => true
  | .choice span _ _ inTest consequent alternate =>
    span.start < span.stop && inTest.isNested && consequent.isNested && alternate.isNested &&
      inTest.isApart consequent && inTest.isApart alternate && consequent.isApart alternate &&
      (inTest.ranges ++ consequent.ranges ++ alternate.ranges).all fun r =>
        span.start < r.start && r.isWithin span

/-- Is an outline without functions and without declarations that span a whole
function? -/
def isPlain : Outline → Bool
  | .blank => true
  | .both first second => first.isPlain && second.isPlain
  | .scope _ _ _ => false
  | .block _ inside => inside.isPlain
  | .declare d => d.isConfined
  | .choice _ _ _ inTest consequent alternate =>
    inTest.isPlain && consequent.isPlain && alternate.isPlain

/-- The bindings of an outline that no block in it confines. -/
def direct (block : Option Span) : Outline → List Binding
  | .blank => []
  | .both first second => first.direct block ++ second.direct block
  | .scope _ _ _ => []
  | .block _ _ => []
  | .declare d => d.bindings block
  | .choice _ _ _ inTest consequent alternate =>
    inTest.direct block ++ consequent.direct block ++ alternate.direct block

section AndThen

variable (first second : Outline)

theorem direct_andThen (block : Option Span) :
    (first.andThen second).direct block = first.direct block ++ second.direct block := by
  cases first <;> cases second <;> simp [andThen, direct]

theorem starts_andThen : (first.andThen second).starts = first.starts ++ second.starts := by
  cases first <;> cases second <;> simp [andThen, starts]

theorem isPlain_andThen : (first.andThen second).isPlain = (first.isPlain && second.isPlain) := by
  cases first <;> cases second <;> simp [andThen, isPlain]

theorem isNested_andThen : (first.andThen second).isNested =
    (first.isNested && second.isNested && first.isApart second) := by
  cases first <;> cases second <;> simp [andThen, isNested, isApart, ranges]

end AndThen

variable {position : Nat} {block : Option Span}

/-- What nesting says of an `if` statement. -/
theorem isNested_choice {span : Span} {test : Expr} {hasAlternate : Bool}
    {inTest consequent alternate : Outline}
    (h : (choice span test hasAlternate inTest consequent alternate).isNested) :
    span.start < span.stop ∧ inTest.isNested ∧ consequent.isNested ∧ alternate.isNested ∧
      inTest.isApart consequent ∧ inTest.isApart alternate ∧ consequent.isApart alternate ∧
      ∀ r ∈ inTest.ranges ++ consequent.ranges ++ alternate.ranges,
        span.start < r.start ∧ r.isWithin span := by
  simpa only [isNested, Bool.and_eq_true, decide_eq_true_eq, List.all_eq_true, and_assoc] using h

/-- The start of an `if` statement lies in a range of the outline. -/
theorem contains_of_mem_starts : ∀ {o : Outline}, o.isNested → position ∈ o.starts →
    ∃ r ∈ o.ranges, r.contains position
  | .blank, _, hp => by simp [starts] at hp
  | .both first second, hn, hp => by
    simp only [isNested, Bool.and_eq_true] at hn
    simp only [starts, List.mem_append] at hp
    simp only [ranges, List.mem_append]
    rcases hp with hp | hp
    · obtain ⟨r, hr, hc⟩ := contains_of_mem_starts hn.1.1 hp
      exact ⟨r, .inl hr, hc⟩
    · obtain ⟨r, hr, hc⟩ := contains_of_mem_starts hn.1.2 hp
      exact ⟨r, .inr hr, hc⟩
  | .scope key _ inside, hn, hp | .block span inside, hn, hp => by
    simp only [isNested, Bool.and_eq_true, List.all_eq_true] at hn
    obtain ⟨r, hr, hc⟩ := contains_of_mem_starts hn.1 hp
    exact ⟨_, List.mem_singleton_self _, Span.contains_of_isWithin (hn.2 r hr) hc⟩
  | .declare _, _, hp => by simp [starts] at hp
  | .choice span _ _ inTest consequent alternate, hn, hp => by
    obtain ⟨hspan, ht, hc, ha, -, -, -, hparts⟩ := isNested_choice hn
    refine ⟨span, List.mem_singleton_self _, ?_⟩
    -- a range of a part lies within the whole
    have hwhole : ∀ r ∈ inTest.ranges ++ consequent.ranges ++ alternate.ranges,
        r.contains position → span.contains position :=
      fun r hr => Span.contains_of_isWithin (hparts r hr).2
    simp only [starts, List.mem_cons, List.mem_append] at hp
    rcases hp with rfl | (hp | hp) | hp
    · exact Span.contains_iff.mpr ⟨Nat.le_refl _, hspan⟩
    · obtain ⟨r, hr, hcont⟩ := contains_of_mem_starts ht hp
      exact hwhole r (by simp [hr]) hcont
    · obtain ⟨r, hr, hcont⟩ := contains_of_mem_starts hc hp
      exact hwhole r (by simp [hr]) hcont
    · obtain ⟨r, hr, hcont⟩ := contains_of_mem_starts ha hp
      exact hwhole r (by simp [hr]) hcont

/-- The start of an `if` statement lies in no range of an outline that is
apart. -/
theorem not_contains_of_isApart {first second : Outline} (hn : first.isNested)
    (hapart : first.isApart second) (hp : position ∈ first.starts) :
    ∀ r ∈ second.ranges, r.contains position = false := by
  intro r hr
  obtain ⟨s, hs, hc⟩ := contains_of_mem_starts hn hp
  simp only [isApart, List.all_eq_true] at hapart
  exact Span.not_contains_of_isApart (hapart s hs r hr) hc

theorem isApart_comm {first second : Outline} (h : first.isApart second) :
    second.isApart first := by
  simp only [isApart, List.all_eq_true] at h ⊢
  intro r hr s hs
  simpa [Span.isApart, Bool.or_comm] using h s hs r hr

theorem bindings_block {d : Declaration} (hd : d.isConfined) :
    ∀ b ∈ d.bindings block, b.block = block := by
  cases d with
  | vars kind declarators =>
    have hlexical : (BindingKind.ofVarKind kind).isLexical = true := by
      cases kind <;> simp_all [Declaration.isConfined, BindingKind.ofVarKind, BindingKind.isLexical]
    intro b hb
    simp only [Declaration.bindings, List.mem_flatMap] at hb
    obtain ⟨⟨target, init⟩, -, hb⟩ := hb
    simp only [Declarator.bindings] at hb
    split at hb
    · simp_all
    · obtain ⟨name, -, rfl⟩ := List.mem_map.mp hb
      simp [Binding.plain, hlexical]
  | classDecl name => simp [Declaration.bindings, Binding.plain, BindingKind.isLexical]
  | caught pattern =>
    intro b hb
    obtain ⟨name, -, rfl⟩ := List.mem_map.mp hb
    simp [Binding.plain, BindingKind.isLexical]
  | function name => simp [Declaration.isConfined] at hd
  | imports names => simp [Declaration.isConfined] at hd

/-- Nothing in a range is visible from outside. -/
theorem not_visible_of_isWithin : ∀ {o : Outline} {span : Span}, o.isNested → o.isPlain →
    (∀ r ∈ o.ranges, r.isWithin span) → span.contains position = false →
    ∀ b ∈ o.own (some span), b.visibleAt position = false
  | .blank, _, _, _, _, _ => by simp [own]
  | .both first second, span, hn, hp, hr, hs => by
    simp only [isNested, isPlain, Bool.and_eq_true] at hn hp
    simp only [ranges, List.forall_mem_append] at hr
    simp only [own, List.forall_mem_append]
    exact ⟨not_visible_of_isWithin hn.1.1 hp.1 hr.1 hs,
      not_visible_of_isWithin hn.1.2 hp.2 hr.2 hs⟩
  | .scope _ _ _, _, _, hp, _, _ => by simp [isPlain] at hp
  | .block span' inside, span, hn, hp, hr, hs => by
    simp only [isNested, Bool.and_eq_true, List.all_eq_true] at hn
    have hs' : span'.contains position = false := by
      rw [Bool.eq_false_iff] at hs ⊢
      exact fun hc => hs (Span.contains_of_isWithin (hr span' (List.mem_singleton_self _)) hc)
    change ∀ b ∈ inside.own (some span'), b.visibleAt position = false
    exact not_visible_of_isWithin hn.1 hp hn.2 hs'
  | .declare d, span, _, hp, _, hs => by
    intro b hb
    simp [Binding.visibleAt, bindings_block hp b hb, hs]
  | .choice span' _ _ inTest consequent alternate, span, hn, hp, hr, hs => by
    obtain ⟨-, ht, hc, ha, -, -, -, hparts⟩ := isNested_choice hn
    have hspan : span'.isWithin span := hr span' (List.mem_singleton_self _)
    have hwithin : ∀ r ∈ inTest.ranges ++ consequent.ranges ++ alternate.ranges,
        r.isWithin span := fun r hr => Span.isWithin_trans (hparts r hr).2 hspan
    simp only [List.forall_mem_append] at hwithin
    simp only [isPlain, Bool.and_eq_true] at hp
    simp only [own, List.forall_mem_append]
    exact ⟨⟨not_visible_of_isWithin ht hp.1.1 hwithin.1.1 hs,
      not_visible_of_isWithin hc hp.1.2 hwithin.1.2 hs⟩,
      not_visible_of_isWithin ha hp.2 hwithin.2 hs⟩

/-- **What is visible of an outline from outside its ranges** are the bindings
that it declares directly. -/
theorem own_filter_of_apart (hblock : block.all (·.contains position)) : ∀ {o : Outline},
    o.isNested → o.isPlain → (∀ r ∈ o.ranges, r.contains position = false) →
    (o.own block).filter (·.visibleAt position) = o.direct block
  | .blank, _, _, _ => rfl
  | .both first second, hn, hp, hr => by
    simp only [isNested, isPlain, Bool.and_eq_true] at hn hp
    simp only [ranges, List.forall_mem_append] at hr
    simp only [own, direct, List.filter_append, own_filter_of_apart hblock hn.1.1 hp.1 hr.1,
      own_filter_of_apart hblock hn.1.2 hp.2 hr.2]
  | .scope _ _ _, _, hp, _ => by simp [isPlain] at hp
  | .block span inside, hn, hp, hr => by
    simp only [isNested, Bool.and_eq_true, List.all_eq_true] at hn
    have hinside := not_visible_of_isWithin hn.1 hp hn.2 (hr span (List.mem_singleton_self _))
    simpa [own, direct] using hinside
  | .declare d, _, hp, _ => by
    simp only [own, direct, List.filter_eq_self]
    intro b hb
    simpa [Binding.visibleAt, bindings_block hp b hb] using hblock
  | .choice span _ _ inTest consequent alternate, hn, hp, hr => by
    obtain ⟨-, ht, hc, ha, -, -, -, hparts⟩ := isNested_choice hn
    have hspan : span.contains position = false := hr span (List.mem_singleton_self _)
    have hout : ∀ r ∈ inTest.ranges ++ consequent.ranges ++ alternate.ranges,
        r.contains position = false := by
      intro r hr
      rw [Bool.eq_false_iff] at hspan ⊢
      exact fun hcont => hspan (Span.contains_of_isWithin (hparts r hr).2 hcont)
    simp only [List.forall_mem_append] at hout
    simp only [isPlain, Bool.and_eq_true] at hp
    simp only [own, direct, List.filter_append, own_filter_of_apart hblock ht hp.1.1 hout.1.1,
      own_filter_of_apart hblock hc hp.1.2 hout.1.2, own_filter_of_apart hblock ha hp.2 hout.2]

end Outline
end DeadBranch
