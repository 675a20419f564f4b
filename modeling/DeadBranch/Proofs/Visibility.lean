/-
# Visible by position and visible by nesting

A binding is confined to a block by the range of the block, and it is visible at a
position in that range. That is meant to say that the position lies in the block. Here
the nodes of an outline have addresses, the numbers of the parts through which one
comes to them from the root, so that a node lies in another one if the address of
that is a prefix of its own.

What is recorded for a function, or for the program, are the bindings of the
declarations that lie in it and in no function inside it (`ofProgram_bindings`). A
binding is confined to the innermost block around its declaration, if no function is
further in. If ranges are nested as in a text, the range of a block holds the start of
an `if` statement exactly if the statement lies in the block (`contains_start_iff`), and
so what is visible by position is what is visible by nesting
(`visibleAt_iff_isPrefix`).

Key definitions: `Outline.at?`, `Outline.nodes`, `Outline.innermost?`,
`Outline.boundary?`, `Outline.recorded`.
Key theorems: `contains_start_iff`, `ofProgram_bindings`, `visibleAt_iff_isPrefix`.
-/
import DeadBranch.Proofs.Ranges
import Mathlib.Data.List.Infix

namespace DeadBranch
namespace Outline

/-! ### Addresses -/

/-- The parts of an outline. -/
def parts : Outline → List Outline
  | .blank | .declare _ => []
  | .both first second => [first, second]
  | .scope _ _ inside => [inside]
  | .block _ inside => [inside]
  | .choice _ _ _ inTest consequent alternate => [inTest, consequent, alternate]

/-- The node at an address. -/
@[simp] def at? (o : Outline) : List Nat → Option Outline
  | [] => some o
  | i :: rest => o.parts[i]?.bind fun part => part.at? rest

/-- Nodes of a part, with their addresses from the whole. -/
def inPart (i : Nat) (nodes : List (List Nat × Outline)) : List (List Nat × Outline) :=
  nodes.map fun node => (i :: node.1, node.2)

/-- All nodes of an outline with their addresses, in the order of the walk. -/
@[simp] def nodes : Outline → List (List Nat × Outline)
  | .blank => [([], .blank)]
  | .both first second =>
    ([], .both first second) :: (inPart 0 first.nodes ++ inPart 1 second.nodes)
  | .scope key params inside => ([], .scope key params inside) :: inPart 0 inside.nodes
  | .block span inside => ([], .block span inside) :: inPart 0 inside.nodes
  | .declare d => [([], .declare d)]
  | .choice span test hasAlternate inTest consequent alternate =>
    ([], .choice span test hasAlternate inTest consequent alternate) ::
      (inPart 0 inTest.nodes ++ inPart 1 consequent.nodes ++ inPart 2 alternate.nodes)

theorem at?_inPart {o part : Outline} {i : Nat} (hi : o.parts[i]? = some part)
    (h : ∀ node ∈ part.nodes, part.at? node.1 = some node.2) :
    ∀ node ∈ inPart i part.nodes, o.at? node.1 = some node.2 := by
  intro node hnode
  obtain ⟨inner, hinner, rfl⟩ := List.mem_map.mp hnode
  simpa [hi] using h inner hinner

/-- The nodes are listed with their addresses. -/
theorem at?_of_mem_nodes (o : Outline) : ∀ node ∈ o.nodes, o.at? node.1 = some node.2 := by
  induction o with
  | blank => simp
  | both first second ih1 ih2 =>
    rw [nodes, List.forall_mem_cons, List.forall_mem_append]
    exact ⟨rfl, at?_inPart rfl ih1, at?_inPart rfl ih2⟩
  | scope key params inside ih =>
    rw [nodes, List.forall_mem_cons]
    exact ⟨rfl, at?_inPart rfl ih⟩
  | block span inside ih =>
    rw [nodes, List.forall_mem_cons]
    exact ⟨rfl, at?_inPart rfl ih⟩
  | declare d => simp
  | choice span test hasAlternate inTest consequent alternate iht ihc iha =>
    rw [nodes, List.forall_mem_cons, List.forall_mem_append, List.forall_mem_append]
    exact ⟨rfl, ⟨at?_inPart rfl iht, at?_inPart rfl ihc⟩, at?_inPart rfl iha⟩

/-! ### Ranges of parts -/

section Nested

variable {o part part' : Outline}

theorem isNested_of_mem_parts (hn : o.isNested) (h : part ∈ o.parts) : part.isNested := by
  cases o with
  | blank => simp [parts] at h
  | declare d => simp [parts] at h
  | both first second =>
    simp only [isNested, Bool.and_eq_true] at hn
    simp only [parts, List.mem_cons, List.not_mem_nil, or_false] at h
    rcases h with rfl | rfl
    · exact hn.1.1
    · exact hn.1.2
  | scope key params inside =>
    simp only [isNested, Bool.and_eq_true] at hn
    simp only [parts, List.mem_singleton] at h
    exact h ▸ hn.1
  | block span inside =>
    simp only [isNested, Bool.and_eq_true] at hn
    simp only [parts, List.mem_singleton] at h
    exact h ▸ hn.1
  | choice span test hasAlternate inTest consequent alternate =>
    obtain ⟨-, ht, hc, ha, -⟩ := isNested_choice hn
    simp only [parts, List.mem_cons, List.not_mem_nil, or_false] at h
    rcases h with rfl | rfl | rfl
    · exact ht
    · exact hc
    · exact ha

/-- A range of a part lies within a range of the whole. -/
theorem isWithin_of_mem_parts (hn : o.isNested) (h : part ∈ o.parts) :
    ∀ r ∈ part.ranges, ∃ r' ∈ o.ranges, r.isWithin r' := by
  intro r hr
  cases o with
  | blank => simp [parts] at h
  | declare d => simp [parts] at h
  | both first second =>
    refine ⟨r, ?_, by simp [Span.isWithin]⟩
    simp only [parts, List.mem_cons, List.not_mem_nil, or_false] at h
    rcases h with rfl | rfl <;> simp [ranges, hr]
  | scope key params inside =>
    simp only [isNested, Bool.and_eq_true, List.all_eq_true] at hn
    simp only [parts, List.mem_singleton] at h
    exact ⟨key.span, List.mem_singleton_self _, hn.2 r (h ▸ hr)⟩
  | block span inside =>
    simp only [isNested, Bool.and_eq_true, List.all_eq_true] at hn
    simp only [parts, List.mem_singleton] at h
    exact ⟨span, List.mem_singleton_self _, hn.2 r (h ▸ hr)⟩
  | choice span test hasAlternate inTest consequent alternate =>
    obtain ⟨-, -, -, -, -, -, -, hparts⟩ := isNested_choice hn
    refine ⟨span, List.mem_singleton_self _, (hparts r ?_).2⟩
    simp only [parts, List.mem_cons, List.not_mem_nil, or_false] at h
    rcases h with rfl | rfl | rfl <;> simp [hr]

/-- Different parts lie apart. -/
theorem isApart_of_ne (hn : o.isNested) {i j : Nat} (hi : o.parts[i]? = some part)
    (hj : o.parts[j]? = some part') (hne : i ≠ j) : part.isApart part' := by
  have hpairwise : o.parts.Pairwise fun q q' => q.isApart q' := by
    cases o with
    | both first second =>
      simp only [isNested, Bool.and_eq_true] at hn
      simp [parts, hn.2]
    | choice span test hasAlternate inTest consequent alternate =>
      obtain ⟨-, -, -, -, htc, hta, hca, -⟩ := isNested_choice hn
      simp [parts, htc, hta, hca]
    | _ => simp [parts]
  obtain ⟨hi', rfl⟩ := List.getElem?_eq_some_iff.mp hi
  obtain ⟨hj', rfl⟩ := List.getElem?_eq_some_iff.mp hj
  rw [List.pairwise_iff_getElem] at hpairwise
  rcases Nat.lt_or_gt_of_ne hne with hlt | hlt
  · exact hpairwise i j hi' hj' hlt
  · exact isApart_comm (hpairwise j i hj' hi' hlt)

/-- The range of a block lies within a range of the outline. -/
theorem isWithin_of_at? {s : Span} {inside : Outline} : ∀ {o : Outline} {a : List Nat},
    o.isNested → o.at? a = some (.block s inside) → ∃ r ∈ o.ranges, s.isWithin r
  | o, [], _, h => by
    obtain rfl : o = .block s inside := by simpa using h
    exact ⟨s, List.mem_singleton_self _, by simp [Span.isWithin]⟩
  | o, i :: rest, hn, h => by
    obtain ⟨part, hi, hrest⟩ := Option.bind_eq_some_iff.mp h
    have hmem := List.mem_of_getElem? hi
    obtain ⟨r, hr, hwithin⟩ := isWithin_of_at? (isNested_of_mem_parts hn hmem) hrest
    obtain ⟨r', hr', hwithin'⟩ := isWithin_of_mem_parts hn hmem r hr
    exact ⟨r', hr', Span.isWithin_trans hwithin hwithin'⟩

theorem mem_starts_of_at? {x : Span} {test : Expr} {hasAlternate : Bool} {t c e : Outline} :
    ∀ {o : Outline} {a : List Nat}, o.at? a = some (.choice x test hasAlternate t c e) →
      x.start ∈ o.starts
  | o, [], h => by
    obtain rfl : o = .choice x test hasAlternate t c e := by simpa using h
    simp [starts]
  | o, i :: rest, h => by
    obtain ⟨part, hi, hrest⟩ := Option.bind_eq_some_iff.mp h
    have hmem := List.mem_of_getElem? hi
    have hstart := mem_starts_of_at? hrest
    cases o with
    | blank => simp [parts] at hmem
    | declare d => simp [parts] at hmem
    | both first second =>
      simp only [parts, List.mem_cons, List.not_mem_nil, or_false] at hmem
      rcases hmem with rfl | rfl <;> simp [starts, hstart]
    | scope key params inside =>
      simp only [parts, List.mem_singleton] at hmem
      exact hmem ▸ hstart
    | block span inside =>
      simp only [parts, List.mem_singleton] at hmem
      exact hmem ▸ hstart
    | choice span test' hasAlternate' inTest consequent alternate =>
      simp only [parts, List.mem_cons, List.not_mem_nil, or_false] at hmem
      rcases hmem with rfl | rfl | rfl <;> simp [starts, hstart]

/-- The start of an `if` statement does not lie in a block in it. -/
theorem not_contains_start {s x : Span} {test : Expr} {hasAlternate : Bool}
    {inside t c e part : Outline} (hn : (choice x test hasAlternate t c e).isNested)
    (hpart : part ∈ (choice x test hasAlternate t c e).parts) {a : List Nat}
    (hs : part.at? a = some (.block s inside)) : ¬ s.contains x.start := by
  obtain ⟨r, hr, hwithin⟩ := isWithin_of_at? (isNested_of_mem_parts hn hpart) hs
  obtain ⟨-, -, -, -, -, -, -, hparts⟩ := isNested_choice hn
  have hstart : x.start < r.start := by
    refine (hparts r ?_).1
    simp only [parts, List.mem_cons, List.not_mem_nil, or_false] at hpart
    rcases hpart with rfl | rfl | rfl <;> simp [hr]
  simp only [Span.isWithin, Bool.and_eq_true, decide_eq_true_eq] at hwithin
  rw [Span.contains_iff]
  omega

/-- **The range of a block holds the start of an `if` statement exactly if the statement
lies in the block.** -/
theorem contains_start_iff {s x : Span} {test : Expr} {hasAlternate : Bool}
    {inside t c e : Outline} : ∀ {o : Outline} {a b : List Nat}, o.isNested →
      o.at? a = some (.block s inside) → o.at? b = some (.choice x test hasAlternate t c e) →
      (s.contains x.start ↔ a <+: b)
  | o, [], b, hn, ha, hb => by
    obtain rfl : o = .block s inside := by simpa using ha
    refine iff_of_true ?_ List.nil_prefix
    simp only [isNested, Bool.and_eq_true, List.all_eq_true] at hn
    have hstart : x.start ∈ (block s inside).starts := mem_starts_of_at? hb
    obtain ⟨r, hr, hcontains⟩ := contains_of_mem_starts hn.1 hstart
    exact Span.contains_of_isWithin (hn.2 r hr) hcontains
  | o, i :: a, [], hn, ha, hb => by
    obtain rfl : o = .choice x test hasAlternate t c e := by simpa using hb
    obtain ⟨part, hi, ha⟩ := Option.bind_eq_some_iff.mp ha
    exact iff_of_false (not_contains_start hn (List.mem_of_getElem? hi) ha) (by simp)
  | o, i :: a, j :: b, hn, ha, hb => by
    obtain ⟨part, hi, ha⟩ := Option.bind_eq_some_iff.mp ha
    obtain ⟨part', hj, hb⟩ := Option.bind_eq_some_iff.mp hb
    have hpart := isNested_of_mem_parts hn (List.mem_of_getElem? hi)
    have hpart' := isNested_of_mem_parts hn (List.mem_of_getElem? hj)
    by_cases hij : i = j
    · obtain rfl := hij
      obtain rfl : part = part' := Option.some.inj (hi.symm.trans hj)
      rw [List.cons_prefix_cons]
      simpa using contains_start_iff hpart ha hb
    · -- the block lies within a range of its part, and the statement in another part
      refine iff_of_false ?_ fun hle => hij (List.cons_prefix_cons.mp hle).1
      obtain ⟨r, hr, hwithin⟩ := isWithin_of_at? hpart ha
      have hout := not_contains_of_isApart hpart' (isApart_of_ne hn hj hi (Ne.symm hij))
        (mem_starts_of_at? hb) r hr
      intro hcontains
      simp [Span.contains_of_isWithin hwithin hcontains] at hout

end Nested

/-! ### What is around a node -/

/-- The nodes through which one comes to an address, the innermost first, up to the
node at the address itself. -/
def way (o : Outline) (a : List Nat) : List (List Nat × Outline) :=
  a.inits.reverse.filterMap fun b => (o.at? b).map (b, ·)

/-- Is the node a function? -/
def isScope : Outline → Bool
  | .scope _ _ _ => true
  | _ => false

/-- Is the node a block or a function? -/
def isFrame : Outline → Bool
  | .scope _ _ _ | .block _ _ => true
  | _ => false

/-- The range of a block. -/
def blockSpan? : Outline → Option Span
  | .block span _ => some span
  | _ => none

/-- The innermost block or function around an address. -/
def innermost? (o : Outline) (a : List Nat) : Option (List Nat × Outline) :=
  (o.way a).find? (·.2.isFrame)

/-- The address of the innermost function around an address; `none` if there is only
the program. -/
def boundary? (o : Outline) (a : List Nat) : Option (List Nat) :=
  ((o.way a).find? (·.2.isScope)).map (·.1)

/-- The range of the block that confines what is declared at an address, where an outer
block is given: a function ends what the blocks around it confine. -/
def confines? (outer : Option Span) (o : Outline) (a : List Nat) : Option Span :=
  (o.innermost? a).elim outer (·.2.blockSpan?)

/-- What a node declares. -/
def declared (block : Option Span) : Outline → List Binding
  | .declare d => d.bindings block
  | _ => []

/-- What a node declares in a function, or in none. -/
def declaredIn (outer : Option Span) (o : Outline) (boundary : Option (List Nat))
    (node : List Nat × Outline) : List Binding :=
  if o.boundary? node.1 = boundary then node.2.declared (o.confines? outer node.1) else []

/-- What is declared in a function, or in none, and not in a function inside it. -/
def recorded (outer : Option Span) (o : Outline) (boundary : Option (List Nat)) : List Binding :=
  o.nodes.flatMap (o.declaredIn outer boundary)

/-- The parameters of a function. -/
def params? : Outline → Option (List Expr)
  | .scope _ params _ => some params
  | _ => none

/-- The functions of an outline with their parameters, in the order of the walk. -/
def functionNodes (o : Outline) : List (List Nat × List Expr) :=
  o.nodes.filterMap fun node => node.2.params?.map (node.1, ·)

section Part

variable {o part : Outline} {i : Nat}

theorem way_cons (hi : o.parts[i]? = some part) (a : List Nat) :
    o.way (i :: a) = inPart i (part.way a) ++ o.way [] := by
  have hat : ∀ b, o.at? (i :: b) = part.at? b := by simp [hi]
  simp only [way, inPart, List.inits_cons, List.reverse_cons, ← List.map_reverse,
    List.filterMap_append, List.filterMap_map, List.map_filterMap]
  congr 1
  refine List.filterMap_congr fun b _ => ?_
  simp only [Function.comp_apply, hat, Option.map_map]
  rfl

theorem innermost?_cons (hi : o.parts[i]? = some part) (a : List Nat) :
    o.innermost? (i :: a) = ((part.innermost? a).map fun node => (i :: node.1, node.2)).or
      (o.innermost? []) := by
  simp only [innermost?, way_cons hi, List.find?_append, inPart, List.find?_map]
  rfl

theorem boundary?_cons (hi : o.parts[i]? = some part) (a : List Nat) :
    o.boundary? (i :: a) = ((part.boundary? a).map (i :: ·)).or (o.boundary? []) := by
  simp only [boundary?, way_cons hi, List.find?_append, inPart, List.find?_map, Option.map_or,
    Option.map_map]
  rfl

theorem boundary?_nil (o : Outline) : o.boundary? [] = if o.isScope then some [] else none := by
  cases o <;> rfl

theorem boundary?_cons_same (hi : o.parts[i]? = some part) (a f : List Nat) :
    o.boundary? (i :: a) = some (i :: f) ↔ part.boundary? a = some f := by
  rw [boundary?_cons hi, boundary?_nil]
  cases part.boundary? a <;> simp

theorem boundary?_cons_ne (hi : o.parts[i]? = some part) {j : Nat} (hne : i ≠ j) (a f : List Nat) :
    o.boundary? (i :: a) ≠ some (j :: f) := by
  rw [boundary?_cons hi, boundary?_nil]
  cases part.boundary? a <;> simp [hne]

theorem boundary?_cons_none (hi : o.parts[i]? = some part) (ho : o.isScope = false) (a : List Nat) :
    o.boundary? (i :: a) = none ↔ part.boundary? a = none := by
  rw [boundary?_cons hi, boundary?_nil, ho]
  cases part.boundary? a <;> simp

theorem boundary?_cons_ne_none (hi : o.parts[i]? = some part) (ho : o.isScope) (a : List Nat) :
    o.boundary? (i :: a) ≠ none := by
  rw [boundary?_cons hi, boundary?_nil, ho]
  cases part.boundary? a <;> simp

theorem boundary?_cons_nil (hi : o.parts[i]? = some part) (ho : o.isScope) (a : List Nat) :
    o.boundary? (i :: a) = some [] ↔ part.boundary? a = none := by
  rw [boundary?_cons hi, boundary?_nil, ho]
  cases part.boundary? a <;> simp

/-- Where a node confines what is declared in its parts, these are on their own. -/
theorem confines?_cons (hi : o.parts[i]? = some part) (outer : Option Span) (a : List Nat) :
    o.confines? outer (i :: a) = part.confines? (o.confines? outer []) a := by
  simp only [confines?, innermost?_cons hi]
  cases part.innermost? a <;> rfl

/-- What a part declares in a function of the whole, which is a function of its own or the
one around it. -/
theorem flatMap_inPart (hi : o.parts[i]? = some part) (outer : Option Span)
    {boundary boundary' : Option (List Nat)}
    (h : ∀ a, o.boundary? (i :: a) = boundary ↔ part.boundary? a = boundary') :
    (inPart i part.nodes).flatMap (o.declaredIn outer boundary) =
      part.recorded (o.confines? outer []) boundary' := by
  simp only [inPart, recorded, List.flatMap_map, declaredIn, confines?_cons hi, h]
  rfl

theorem flatMap_inPart_of_ne (outer : Option Span) {boundary : Option (List Nat)}
    (h : ∀ a, o.boundary? (i :: a) ≠ boundary) :
    (inPart i part.nodes).flatMap (o.declaredIn outer boundary) = [] := by
  rw [inPart, List.flatMap_map, List.flatMap_eq_nil_iff]
  exact fun node _ => if_neg (h node.1)

theorem flatMap_inPart_some (hi : o.parts[i]? = some part) (outer : Option Span) (j : Nat)
    (f : List Nat) : (inPart i part.nodes).flatMap (o.declaredIn outer (some (j :: f))) =
      if i = j then part.recorded (o.confines? outer []) (some f) else [] := by
  split
  · next h =>
    subst h
    exact flatMap_inPart hi outer (boundary?_cons_same hi · f)
  · next h => exact flatMap_inPart_of_ne outer (boundary?_cons_ne hi h · f)

end Part

/-- What belongs to the scope around an outline is what is declared in no function of it. -/
theorem own_eq_recorded (o : Outline) : ∀ outer, o.own outer = o.recorded outer none := by
  induction o with
  | blank => intro _; rfl
  | both first second ih1 ih2 =>
    intro outer
    rw [recorded, nodes, List.flatMap_cons, List.flatMap_append,
      flatMap_inPart rfl outer (boundary?_cons_none rfl rfl),
      flatMap_inPart rfl outer (boundary?_cons_none rfl rfl), ← ih1, ← ih2]
    rfl
  | scope key params inside ih =>
    intro outer
    rw [recorded, nodes, List.flatMap_cons,
      flatMap_inPart_of_ne outer (boundary?_cons_ne_none rfl rfl)]
    rfl
  | block span inside ih =>
    intro outer
    rw [recorded, nodes, List.flatMap_cons, flatMap_inPart rfl outer (boundary?_cons_none rfl rfl),
      ← ih]
    rfl
  | declare d =>
    intro outer
    rw [recorded, nodes, List.flatMap_cons, List.flatMap_nil, List.append_nil]
    rfl
  | choice span test hasAlternate inTest consequent alternate iht ihc iha =>
    intro outer
    rw [recorded, nodes, List.flatMap_cons, List.flatMap_append, List.flatMap_append,
      flatMap_inPart rfl outer (boundary?_cons_none rfl rfl),
      flatMap_inPart rfl outer (boundary?_cons_none rfl rfl),
      flatMap_inPart rfl outer (boundary?_cons_none rfl rfl), ← iht, ← ihc, ← iha]
    rfl

theorem filterMap_inPart (i : Nat) (o : Outline) :
    (inPart i o.nodes).filterMap (fun node => node.2.params?.map (node.1, ·)) =
      o.functionNodes.map fun f => (i :: f.1, f.2) := by
  simp only [inPart, functionNodes, List.filterMap_map, List.map_filterMap]
  refine List.filterMap_congr fun node _ => ?_
  simp only [Function.comp_apply, Option.map_map]
  rfl

/-- What is recorded for the functions of an outline is what is declared in each. -/
theorem made_bindings (o : Outline) : ∀ outer next parent, (o.made next parent).map (·.bindings) =
    o.functionNodes.map fun f => paramBindings f.2 ++ o.recorded outer (some f.1) := by
  induction o with
  | blank => intros; rfl
  | both first second ih1 ih2 =>
    intro outer next parent
    have hfunctions : (both first second).functionNodes =
        first.functionNodes.map (fun f => (0 :: f.1, f.2)) ++
          second.functionNodes.map (fun f => (1 :: f.1, f.2)) := by
      rw [← filterMap_inPart, ← filterMap_inPart, ← List.filterMap_append]
      rfl
    have hrecorded : ∀ i f, (both first second).recorded outer (some (i :: f)) =
        (if 0 = i then first.recorded ((both first second).confines? outer []) (some f) else []) ++
          if 1 = i then second.recorded ((both first second).confines? outer []) (some f)
            else [] := by
      intro i f
      rw [recorded, nodes, List.flatMap_cons, List.flatMap_append, flatMap_inPart_some rfl,
        flatMap_inPart_some rfl]
      rfl
    rw [made, List.map_append, ih1 ((both first second).confines? outer []),
      ih2 ((both first second).confines? outer []), hfunctions]
    simp [hrecorded, Function.comp_def]
  | scope key params inside ih =>
    intro outer next parent
    have hfunctions : (scope key params inside).functionNodes =
        ([], params) :: inside.functionNodes.map (fun f => (0 :: f.1, f.2)) := by
      rw [← filterMap_inPart]
      rfl
    have hself : (scope key params inside).recorded outer (some []) = inside.own none := by
      rw [recorded, nodes, List.flatMap_cons, flatMap_inPart rfl outer (boundary?_cons_nil rfl rfl),
        inside.own_eq_recorded]
      rfl
    have hrecorded : ∀ f, (scope key params inside).recorded outer (some (0 :: f)) =
        inside.recorded none (some f) := by
      intro f
      rw [recorded, nodes, List.flatMap_cons, flatMap_inPart_some rfl]
      rfl
    rw [made, List.map_cons, ih none, hfunctions]
    simp [hself, hrecorded]
  | block span inside ih =>
    intro outer next parent
    have hfunctions : (block span inside).functionNodes =
        inside.functionNodes.map (fun f => (0 :: f.1, f.2)) := by
      rw [← filterMap_inPart]
      rfl
    have hrecorded : ∀ f, (block span inside).recorded outer (some (0 :: f)) =
        inside.recorded (some span) (some f) := by
      intro f
      rw [recorded, nodes, List.flatMap_cons, flatMap_inPart_some rfl]
      rfl
    rw [made, ih (some span), hfunctions]
    simp [hrecorded, Function.comp_def]
  | declare d => intros; rfl
  | choice span test hasAlternate inTest consequent alternate iht ihc iha =>
    intro outer next parent
    set o := choice span test hasAlternate inTest consequent alternate with ho
    have hfunctions : o.functionNodes = inTest.functionNodes.map (fun f => (0 :: f.1, f.2)) ++
        consequent.functionNodes.map (fun f => (1 :: f.1, f.2)) ++
        alternate.functionNodes.map (fun f => (2 :: f.1, f.2)) := by
      rw [← filterMap_inPart, ← filterMap_inPart, ← filterMap_inPart, ← List.filterMap_append,
        ← List.filterMap_append]
      rfl
    have hrecorded : ∀ i f, o.recorded outer (some (i :: f)) =
        (if 0 = i then inTest.recorded (o.confines? outer []) (some f) else []) ++
          (if 1 = i then consequent.recorded (o.confines? outer []) (some f) else []) ++
          if 2 = i then alternate.recorded (o.confines? outer []) (some f) else [] := by
      intro i f
      rw [recorded, ho, nodes, List.flatMap_cons, List.flatMap_append, List.flatMap_append,
        flatMap_inPart_some rfl, flatMap_inPart_some rfl, flatMap_inPart_some rfl]
      rfl
    rw [ho, made, ← ho, List.map_append, List.map_append, iht (o.confines? outer []),
      ihc (o.confines? outer []), iha (o.confines? outer []), hfunctions]
    simp [hrecorded, Function.comp_def]

end Outline

/-- What is recorded for a program and for each of its functions is what is declared in
it. -/
theorem ofProgram_bindings (p : Program) : (ScopeGraph.ofProgram p).scopes.map (·.bindings) =
    p.outline.recorded none none :: p.outline.functionNodes.map fun f =>
      paramBindings f.2 ++ p.outline.recorded none (some f.1) := by
  rw [ofProgram_scopes, List.map_cons, p.outline.made_bindings none, p.outline.own_eq_recorded]

/-- Only what is confined to a block has the range of one. -/
theorem Declaration.block_of_mem_bindings {d : Declaration} {block : Option Span} {b : Binding}
    (hb : b ∈ d.bindings block) : b.block = if b.kind.isLexical then block else none := by
  have hplain : ∀ {kind : BindingKind} {names : List String},
      b ∈ names.map (.plain kind block) → b.block = if b.kind.isLexical then block else none := by
    intro kind names hb
    obtain ⟨name, -, rfl⟩ := List.mem_map.mp hb
    rfl
  cases d with
  | vars kind declarators =>
    obtain ⟨⟨target, init⟩, -, hb⟩ := List.mem_flatMap.mp hb
    simp only [Declarator.bindings] at hb
    split at hb
    · obtain rfl := List.mem_singleton.mp hb
      rfl
    · exact hplain hb
  | function name =>
    obtain rfl := List.mem_singleton.mp hb
    rfl
  | classDecl name =>
    obtain rfl := List.mem_singleton.mp hb
    rfl
  | caught pattern => exact hplain hb
  | imports names => exact hplain hb

theorem block_of_mem_paramBindings {params : List Expr} {b : Binding}
    (hb : b ∈ paramBindings params) : b.block = none := by
  obtain ⟨pattern, -, hb⟩ := List.mem_flatMap.mp hb
  obtain ⟨name, -, rfl⟩ := List.mem_map.mp hb
  rfl

theorem Binding.visibleAt_of_block_eq_none {b : Binding} (h : b.block = none) (position : Nat) :
    b.visibleAt position := by
  rw [Binding.visibleAt, h]
  rfl

theorem Outline.at?_of_innermost? {o node : Outline} {a b : List Nat}
    (h : o.innermost? a = some (b, node)) : o.at? b = some node := by
  obtain ⟨c, -, hc⟩ := List.mem_filterMap.mp (List.mem_of_find?_eq_some h)
  obtain ⟨n, hn, heq⟩ := Option.map_eq_some_iff.mp hc
  obtain ⟨rfl, rfl⟩ := Prod.mk.inj heq
  exact hn

theorem Outline.innermost?_of_confines? {o : Outline} {a : List Nat} {span : Span}
    (h : o.confines? none a = some span) :
    ∃ c inside, o.innermost? a = some (c, .block span inside) := by
  rw [Outline.confines?] at h
  rcases hinner : o.innermost? a with _ | ⟨c, node⟩
  · simp [hinner] at h
  · rw [hinner] at h
    cases node with
    | block s inside =>
      obtain rfl : s = span := Option.some.inj h
      exact ⟨c, inside, rfl⟩
    | _ => cases h

/-- **Visible by position is visible by nesting.** What is recorded for a program and
for each of its functions is what is declared in it. Parameters have no block and are
visible everywhere. The block of a binding that is confined to one is the innermost
block around its declaration, unless a function is further in. If ranges are nested as
in a text, the binding is visible at an `if` statement exactly if it has no block or
the statement lies in that block. -/
theorem visibleAt_iff_isPrefix (p : Program) (h : p.outline.isNested) :
    let o := p.outline
    (ScopeGraph.ofProgram p).scopes.map (·.bindings) =
        o.recorded none none :: o.functionNodes.map
          (fun f => paramBindings f.2 ++ o.recorded none (some f.1)) ∧
      (∀ f ∈ o.functionNodes, ∀ b ∈ paramBindings f.2,
        b.block = none ∧ ∀ position, b.visibleAt position) ∧
      ∀ a d, (a, .declare d) ∈ o.nodes → ∀ b ∈ d.bindings (o.confines? none a),
        (b.kind.isLexical → b.block = o.confines? none a) ∧
        ∀ x span test hasAlternate inTest consequent alternate,
          (x, .choice span test hasAlternate inTest consequent alternate) ∈ o.nodes →
          (b.visibleAt span.start ↔ b.block = none ∨
            ∃ c block inside, o.innermost? a = some (c, .block block inside) ∧ c <+: x) := by
  intro o
  refine ⟨ofProgram_bindings p, fun f _ b hb => ?_, fun a d _ b hb => ?_⟩
  · have hnone := block_of_mem_paramBindings hb
    exact ⟨hnone, Binding.visibleAt_of_block_eq_none hnone⟩
  have hblock := Declaration.block_of_mem_bindings hb
  refine ⟨fun hlexical => by rw [hblock, if_pos hlexical], ?_⟩
  intro x span test hasAlternate inTest consequent alternate hx
  cases hspan : b.block with
  | none => simp [Binding.visibleAt_of_block_eq_none hspan]
  | some block =>
    -- the binding is confined, so the innermost node around it is the block
    rw [hspan] at hblock
    have hconfines : o.confines? none a = some block := by
      split at hblock
      · exact hblock.symm
      · cases hblock
    obtain ⟨c, inside, hinner⟩ := Outline.innermost?_of_confines? hconfines
    have hiff := Outline.contains_start_iff h (Outline.at?_of_innermost? hinner)
      (o.at?_of_mem_nodes _ hx)
    simp [Binding.visibleAt, hspan, hiff, hinner]

/-- The tree of
`function g() { try { const x = 1; if (x) f(); } catch (e) { } if (y) f(); }`. -/
def confinedConstant : Program :=
  let call : Stmt := .expr (.other .call [.ident "f"])
  let body : Block := .mk ⟨19, 47⟩
    [.decl (.vars .constKind [.mk (.ident "x") (.literal (.bool true))]),
      .ifElse ⟨34, 45⟩ (.ident "x") call none]
  let handler : Handler := .mk ⟨48, 61⟩ (.ident "e") (.mk ⟨58, 61⟩ [])
  ⟨.script, none, [.stmt (.decl (.function "g" (.block ⟨.function, some "g", false, false⟩
    ⟨0, 76⟩ [] (.mk ⟨13, 76⟩ [.tryCatch body (some handler) none,
      .ifElse ⟨62, 74⟩ (.ident "y") call none]))))]⟩

/-- The constant is visible at the `if` statement that lies in its block, and not at the
one after the block. -/
theorem confinedConstant_visibleAt :
    let o := confinedConstant.outline
    let x : Binding :=
      ⟨"x", .constKind, some (.mk (.ident "x") (.literal (.bool true))), some ⟨19, 47⟩⟩
    o.isNested ∧ o.confines? none [1, 0, 0, 0, 0, 0, 0] = some ⟨19, 47⟩ ∧
      x.visibleAt 34 ∧ ¬ x.visibleAt 62 := by
  intro o x
  have hn : o.isNested := by decide
  have hx := ((visibleAt_iff_isPrefix confinedConstant hn).2.2 [1, 0, 0, 0, 0, 0, 0] _
    (List.mem_of_getElem? (i := 8) rfl) x (List.mem_singleton_self _)).2
  have hinside := hx [1, 0, 0, 0, 0, 0, 1] ⟨34, 45⟩ _ _ _ _ _ (List.mem_of_getElem? (i := 9) rfl)
  have hafter := hx [1, 0, 0, 1] ⟨62, 74⟩ _ _ _ _ _ (List.mem_of_getElem? (i := 18) rfl)
  refine ⟨hn, rfl, hinside.mpr (.inr ⟨_, _, _, rfl, by decide⟩), fun hvisible => ?_⟩
  rcases hafter.mp hvisible with hnone | ⟨c, block, inside, hc, hle⟩
  · cases hnone
  · obtain rfl : [1, 0, 0, 0, 0] = c := congrArg Prod.fst (Option.some.inj hc)
    revert hle
    decide

end DeadBranch
