/-
# Consulting all scopes instead of the innermost one

With all scopes consulted fewer names must not be read and more constants are
bound, so more is known when the constants of the innermost scope are bound.
Evaluation is monotone in what is known (`evaluate_mono`), and so is what a
declaration says, with one exception: the first fact about a path counts, so
where an object has two properties with the same key, a key or a value that is
only known in the wider case may overtake the one that counted before
(`exists_overtaken_property`). If the keys of each object differ
(`Expr.keysDiffer`), consulting all scopes only adds to what can be evaluated
(`evaluate_of_innermost`).

The names with a fixed value need care too. A constant of such a name for which
nothing is recorded has the fixed value, and it would lose it if something were
recorded in the wider case.

Key definitions: `Associations.Weaker`, `Expr.keysDiffer`, `constantsDiffer`.
Key theorems: `evaluate_mono`, `factsOf_mono`, `Associations.Weaker.bindAll`.
-/
import DeadBranch.Proofs.Dependence
import DeadBranch.Proofs.Globals
import DeadBranch.Proofs.Traversal

namespace DeadBranch

/-! ### Knowing less -/

/-- Less is known: all that must not be read in the other case must not be read,
all that has a value has it in the other case, and a name with a fixed value that
may be read has no value of its own in the other case only. -/
structure Associations.Weaker (a b : Associations) : Prop where
  shadowed : ∀ {name}, b.isShadowed name = true → a.isShadowed name = true
  lookup : ∀ {path v}, a.lookup? path = some v → b.lookup? path = some v
  fixed : ∀ {name}, (globalValue? name).isSome → a.isShadowed name = false →
    a.lookup? (.root name) = none → b.lookup? (.root name) = none

section Evaluation

variable {a b : Associations} (h : a.Weaker b)
include h

theorem Associations.Weaker.within (names : String → Bool) : a.Within names b where
  shadowed _ := h.shadowed
  whole := by
    intro name v _ hread hv
    cases ha : a.lookup? (.root name) with
    | some w =>
      rw [ha, Option.some_or] at hv
      rw [h.lookup ha, Option.some_or, hv]
    | none =>
      rw [ha, Option.none_or] at hv
      rw [h.fixed (by simp [hv]) hread ha, Option.none_or, hv]
  part _ _ _ _ := h.lookup

/-- **Evaluation is monotone**: what has a value with less known has the same
value with more known. -/
theorem evaluate_mono (e : Expr) {v : Value} (hv : evaluate a e = some v) :
    evaluate b e = some v :=
  evaluate_of_within (h.within fun _ => true) e (fun _ _ => rfl) hv

theorem staticPath_mono (e : Expr) {path : Path} (hp : staticPath a e = some path) :
    staticPath b e = some path :=
  staticPath_of_within (h.within fun _ => true) e (fun _ _ => rfl) hp

theorem Key.segment?_mono {key : Key} {segment : Segment}
    (hs : key.segment? a = some segment) : key.segment? b = some segment :=
  Key.segment?_of_within (h.within fun _ => true) (fun _ _ => rfl) hs

end Evaluation

/-! ### Saying less -/

/-- Whatever some facts say of a path, others say the same. -/
def FactsWithin (facts facts' : List Fact) : Prop :=
  ∀ path v, firstValue? facts path = some v → firstValue? facts' path = some v

theorem FactsWithin.nil (facts : List Fact) : FactsWithin [] facts := by
  intro path v h
  simp [firstValue?] at h

theorem factsWithin_stated {x y : Option Value} (h : ∀ v, x = some v → y = some v)
    (path : Path) : FactsWithin (stated path x) (stated path y) := by
  cases x with
  | none => exact .nil _
  | some v =>
    rw [h v rfl]
    exact fun _ _ hv => hv

theorem Associations.Weaker.takeOver {a b : Associations} (h : a.Weaker b)
    (source target : Path) : FactsWithin (a.takeOver source target) (b.takeOver source target) := by
  intro path v hv
  obtain ⟨f, hf, rfl⟩ := mem_of_firstValue? hv
  obtain ⟨suffix, hpath⟩ := isBelow_of_mem_takeOver hf
  rw [hpath, firstValue?_takeOver] at hv ⊢
  exact h.lookup hv

section Children

variable {p base : Path} {s s' : Segment}

theorem Path.IsBelow.child_inj (h : p.IsBelow (base.child s)) (h' : p.IsBelow (base.child s')) :
    s = s' := by
  obtain ⟨suffix, rfl⟩ := h
  obtain ⟨suffix', h'⟩ := h'
  simp only [join, child, List.append_assoc, List.singleton_append, mk.injEq, true_and,
    List.append_cancel_left_eq, List.cons.injEq] at h'
  exact h'.1

theorem Path.IsBelow.ne_root (h : p.IsBelow (base.child s)) (name : String) : p ≠ .root name := by
  obtain ⟨suffix, rfl⟩ := h
  simp [join, child, root]

theorem Path.isBelow_root {name : String} : p.IsBelow (.root name) ↔ p.binding = name := by
  constructor
  · exact fun h => h.binding_eq
  · rintro rfl
    exact ⟨p.segments, by simp [join, root]⟩

/-- Facts about one part may be followed by facts about others. -/
theorem FactsWithin.append {first first' rest rest' : List Fact} (hfirst : FactsWithin first first')
    (hrest : FactsWithin rest rest') (hown : ∀ f ∈ first', f.path.IsBelow (base.child s))
    (hothers : ∀ f ∈ rest', ∃ s', s' ≠ s ∧ f.path.IsBelow (base.child s')) :
    FactsWithin (first ++ rest) (first' ++ rest') := by
  intro path v h
  rw [firstValue?_append] at h ⊢
  cases hv : firstValue? first path with
  | some w =>
    rw [hv, Option.some_or] at h
    rw [hfirst path w hv, Option.some_or, h]
  | none =>
    rw [hv, Option.none_or] at h
    have hlater := hrest path v h
    obtain ⟨f, hf, rfl⟩ := mem_of_firstValue? hlater
    obtain ⟨s', hne, hbelow⟩ := hothers f hf
    have hnone : firstValue? first' f.path = none := by
      refine firstValue?_eq_none fun f' hf' heq => hne ?_
      exact hbelow.child_inj (heq ▸ hown f' hf')
    rw [hnone, Option.none_or, hlater]

end Children

/-- Nothing is known of parts of a path, nor of all of it. -/
def Associations.IsSilent (known : Associations) (path : Path) : Prop :=
  ∀ entry ∈ known.entries, ¬ entry.1.IsBelow path

section Silence

variable {a b known : Associations} {facts facts' : List Fact} {path base : Path}

theorem Associations.IsSilent.child (h : known.IsSilent path) (segment : Segment) :
    known.IsSilent (path.child segment) :=
  fun entry hentry hbelow => h entry hentry hbelow.of_child

theorem Associations.IsSilent.lookup? (h : known.IsSilent base) (hpath : path.IsBelow base) :
    known.lookup? path = none := by
  rw [lookup?_eq_none_iff]
  rintro entry hentry rfl
  exact h entry hentry hpath

@[simp] theorem Associations.learn_nil (known : Associations) : known.learn [] = known := by
  simp [learn, recordAll]

/-- Facts about one part say nothing of the others. -/
theorem Associations.IsSilent.learn {s s' : Segment} (h : known.IsSilent (base.child s'))
    (hfacts : ∀ f ∈ facts, f.path.IsBelow (base.child s)) (hne : s' ≠ s) :
    (known.learn facts).IsSilent (base.child s') := by
  intro entry hentry hbelow
  rcases (mem_entries_learn known).mp hentry with hentry | ⟨f, hf, rfl⟩
  · exact h entry hentry hbelow
  · exact hne (hbelow.child_inj (hfacts f hf))

/-- **Recording keeps less known less**, if nothing was known of what the facts
are about. -/
theorem Associations.Weaker.learn (h : a.Weaker b) (hfacts : FactsWithin facts facts')
    (hbelow : ∀ f ∈ facts', f.path.IsBelow base) (hsilent : b.IsSilent base)
    (hfixed : ∀ {name}, (globalValue? name).isSome → a.isShadowed name = false →
      a.lookup? (.root name) = none → firstValue? facts (.root name) = none →
      firstValue? facts' (.root name) = none) :
    (a.learn facts).Weaker (b.learn facts') where
  shadowed := by
    intro name
    rw [isShadowed_learn, isShadowed_learn]
    exact h.shadowed
  lookup := by
    intro path v hv
    rw [lookup?_learn] at hv ⊢
    cases ha : a.lookup? path with
    | some w =>
      rw [ha, Option.some_or] at hv
      rw [h.lookup ha, Option.some_or, hv]
    | none =>
      rw [ha, Option.none_or] at hv
      have hv' := hfacts path v hv
      obtain ⟨f, hf, rfl⟩ := mem_of_firstValue? hv'
      rw [hsilent.lookup? (hbelow f hf), Option.none_or, hv']
  fixed := by
    intro name hglobal hname hnone
    rw [isShadowed_learn] at hname
    rw [lookup?_learn, Option.or_eq_none_iff] at hnone ⊢
    exact ⟨h.fixed hglobal hname hnone.1, hfixed hglobal hname hnone.1 hnone.2⟩

/-- Facts about a part are about no name as a whole. -/
theorem Associations.Weaker.learn_part {s : Segment} (h : a.Weaker b)
    (hfacts : FactsWithin facts facts')
    (hbelow : ∀ f ∈ facts', f.path.IsBelow (base.child s))
    (hsilent : b.IsSilent (base.child s)) : (a.learn facts).Weaker (b.learn facts') :=
  h.learn hfacts hbelow hsilent fun _ _ _ _ =>
    firstValue?_eq_none fun f hf => (hbelow f hf).ne_root _

end Silence

/-! ### Objects whose keys differ -/

mutual

/-- Do the known keys of each object in an initial value differ? -/
def Expr.keysDiffer (known : Associations) (path : Path) : Expr → Bool
  | .object properties => propertiesDiffer known path [] properties
  | .array elements => elementsDiffer known path 0 elements
  | .paren inner => inner.keysDiffer known path
  | .assign none _ value => value.keysDiffer known path
  | _ => true

/-- Do the known keys of properties differ, from each other and from the given
ones? -/
def propertiesDiffer (known : Associations) (path : Path) (seen : List Segment) :
    List Property → Bool
  | [] => true
  | .pair key value :: rest =>
    match key.segment? known with
    | some s =>
      !seen.contains s && value.keysDiffer known (path.child s) &&
        propertiesDiffer (known.learn (factsOf known (path.child s) value)) path (s :: seen) rest
    | none => propertiesDiffer known path seen rest
  | .shorthand name .absent :: rest =>
    !seen.contains (.name name) &&
      propertiesDiffer (known.learn (known.takeOver (.root name) (path.child (.name name)))) path
        (.name name :: seen) rest
  | _ :: rest => propertiesDiffer known path seen rest

/-- Do the known keys of each object in the elements of an array differ? -/
def elementsDiffer (known : Associations) (path : Path) (i : Nat) : List Expr → Bool
  | [] => true
  | element :: rest =>
    element.isSpread || element.keysDiffer known (path.child (.index i)) &&
      elementsDiffer (known.learn (factsOf known (path.child (.index i)) element)) path (i + 1) rest

end

/-- A shorthand with a fallback has no key that counts. -/
theorem propertiesDiffer_fallback (known : Associations) (path : Path) (seen : List Segment)
    (name : String) {e : Expr} (h : e ≠ .absent) (rest : List Property) :
    propertiesDiffer known path seen (.shorthand name e :: rest) =
      propertiesDiffer known path seen rest := by
  cases e <;> simp_all [propertiesDiffer]

/-- Properties whose keys differ speak of parts that were not seen before. -/
theorem factsOfProperties_unseen {path : Path} : ∀ (ps : List Property) (known : Associations)
    (seen : List Segment), propertiesDiffer known path seen ps = true →
      ∀ f ∈ factsOfProperties known path ps, ∃ s, s ∉ seen ∧ f.path.IsBelow (path.child s)
  | [] => by simp [factsOfProperties]
  | .pair key value :: rest => by
    intro known seen h
    simp only [propertiesDiffer] at h
    simp only [factsOfProperties]
    cases hs : key.segment? known with
    | none =>
      simp only [hs] at h
      simpa using factsOfProperties_unseen rest _ _ h
    | some s =>
      simp only [hs, Bool.and_eq_true, Bool.not_eq_true', List.contains_eq_mem,
        decide_eq_false_iff_not] at h
      obtain ⟨⟨hnew, -⟩, hrest⟩ := h
      refine List.forall_mem_append.mpr ⟨fun f hf => ?_, fun f hf => ?_⟩
      · exact ⟨s, hnew, factsOf_isBelow known (path.child s) value f hf⟩
      · obtain ⟨s', hs', hbelow⟩ := factsOfProperties_unseen rest _ _ hrest f hf
        exact ⟨s', fun hmem => hs' (List.mem_cons_of_mem _ hmem), hbelow⟩
  | .shorthand name e :: rest => by
    intro known seen h
    by_cases he : e = .absent
    · subst he
      simp only [propertiesDiffer, Bool.and_eq_true, Bool.not_eq_true',
        List.contains_eq_mem, decide_eq_false_iff_not] at h
      obtain ⟨hnew, hrest⟩ := h
      simp only [factsOfProperties]
      refine List.forall_mem_append.mpr ⟨fun f hf => ?_, fun f hf => ?_⟩
      · exact ⟨.name name, hnew, isBelow_of_mem_takeOver hf⟩
      · obtain ⟨s', hs', hbelow⟩ := factsOfProperties_unseen rest _ _ hrest f hf
        exact ⟨s', fun hmem => hs' (List.mem_cons_of_mem _ hmem), hbelow⟩
    · rw [propertiesDiffer_fallback known path seen name he] at h
      rw [factsOfProperties_fallback known path name he]
      exact factsOfProperties_unseen rest _ _ h
  | .spread _ :: rest | .method _ _ _ _ :: rest | .field _ _ _ :: rest
  | .staticBlock _ :: rest | .empty :: rest => by
    intro known seen h
    simp only [propertiesDiffer] at h
    simp only [factsOfProperties]
    exact factsOfProperties_unseen rest _ _ h

/-- Facts of a property may be followed by those of the properties after it, if its
key is none of theirs. -/
theorem FactsWithin.property {a b : Associations} {first first' : List Fact} {path : Path}
    {s : Segment} {seen : List Segment} {rest : List Property} (hfirst : FactsWithin first first')
    (hbelow : ∀ f ∈ first', f.path.IsBelow (path.child s))
    (hkeys : propertiesDiffer (b.learn first') path (s :: seen) rest = true)
    (hrest : FactsWithin (factsOfProperties (a.learn first) path rest)
      (factsOfProperties (b.learn first') path rest)) :
    FactsWithin (first ++ factsOfProperties (a.learn first) path rest)
      (first' ++ factsOfProperties (b.learn first') path rest) := by
  refine hfirst.append hrest hbelow fun f hf => ?_
  obtain ⟨s', hs', hf⟩ := factsOfProperties_unseen rest _ _ hkeys f hf
  exact ⟨s', fun heq => hs' (heq ▸ List.mem_cons_self), hf⟩

/-- After a property nothing is known of the keys that are still unseen. -/
theorem isSilent_unseen {b : Associations} {facts : List Fact} {path : Path} {s : Segment}
    {seen : List Segment} (hsilent : ∀ s, s ∉ seen → b.IsSilent (path.child s))
    (hbelow : ∀ f ∈ facts, f.path.IsBelow (path.child s)) :
    ∀ s', s' ∉ s :: seen → (b.learn facts).IsSilent (path.child s') := by
  intro s' hs'
  rw [List.mem_cons, not_or] at hs'
  exact (hsilent s' hs'.2).learn hbelow hs'.1

/-- Elements speak of parts from their index on. -/
theorem factsOfElements_from {path : Path} (es : List Expr) : ∀ (known : Associations) (i : Nat),
    ∀ f ∈ factsOfElements known path i es, ∃ j, i ≤ j ∧ f.path.IsBelow (path.child (.index j)) := by
  induction es with
  | nil => simp [factsOfElements]
  | cons e rest ih =>
    intro known i
    simp only [factsOfElements]
    split
    · simp
    · refine List.forall_mem_append.mpr ⟨fun f hf => ?_, fun f hf => ?_⟩
      · exact ⟨i, Nat.le_refl i, factsOf_isBelow known (path.child (.index i)) e f hf⟩
      · obtain ⟨j, hj, hbelow⟩ := ih _ (i + 1) f hf
        exact ⟨j, by omega, hbelow⟩

mutual

/-- **What a value says is monotone** in what is known, if the keys of each object
differ and nothing is known yet of what it initialises. -/
theorem factsOf_mono {a b : Associations} (h : a.Weaker b) (path : Path) : ∀ e : Expr,
    e.keysDiffer b path = true → b.IsSilent path →
      FactsWithin (factsOf a path e) (factsOf b path e)
  | .literal value, _, _ => by
    simp only [factsOf]
    exact fun _ _ hv => hv
  | .object properties, hkeys, hsilent => by
    simp only [Expr.keysDiffer] at hkeys
    simp only [factsOf]
    exact factsOfProperties_mono h path [] properties hkeys fun s _ => hsilent.child s
  | .array elements, hkeys, hsilent => by
    simp only [Expr.keysDiffer] at hkeys
    simp only [factsOf]
    exact factsOfElements_mono h path 0 elements hkeys fun j _ => hsilent.child (.index j)
  | .member object name, _, _ => by
    simp only [factsOf]
    cases hs : staticPath a (.member object name) with
    | none => exact .nil _
    | some source =>
      simp only [staticPath_mono h _ hs]
      exact h.takeOver source path
  | .index object key, _, _ => by
    simp only [factsOf]
    cases hs : staticPath a (.index object key) with
    | none => exact .nil _
    | some source =>
      simp only [staticPath_mono h _ hs]
      exact h.takeOver source path
  | .ident name, _, _ => by
    simp only [factsOf]
    exact h.takeOver (.root name) path
  | .paren inner, hkeys, hsilent => by
    simp only [Expr.keysDiffer] at hkeys
    simp only [factsOf]
    exact factsOf_mono h path inner hkeys hsilent
  | .assign none _ value, hkeys, hsilent => by
    simp only [Expr.keysDiffer] at hkeys
    simp only [factsOf]
    exact factsOf_mono h path value hkeys hsilent
  | .unary _ _, _, _ | .binary _ _ _, _, _ | .cond _ _ _, _, _ => by
    simp only [factsOf]
    exact factsWithin_stated (fun v hv => evaluate_mono h _ hv) path
  | .assign (some _) _ _, _, _ | .absent, _, _ | .spread _, _, _ | .arrayPattern _, _, _
  | .objectPattern _, _, _ | .withDefault _ _, _, _ | .closure _, _, _ | .classExpr _ _ _, _, _
  | .other _ _, _, _ => by
    simp only [factsOf]
    exact .nil _

theorem factsOfProperties_mono {a b : Associations} (h : a.Weaker b) (path : Path)
    (seen : List Segment) : ∀ ps : List Property, propertiesDiffer b path seen ps = true →
      (∀ s, s ∉ seen → b.IsSilent (path.child s)) →
      FactsWithin (factsOfProperties a path ps) (factsOfProperties b path ps)
  | [], _, _ => by
    simp only [factsOfProperties]
    exact .nil _
  | .pair key value :: rest, hkeys, hsilent => by
    simp only [propertiesDiffer] at hkeys
    simp only [factsOfProperties]
    cases hb : key.segment? b with
    | none =>
      have ha : key.segment? a = none := by
        cases ha : key.segment? a with
        | none => rfl
        | some s => simp [Key.segment?_mono h ha] at hb
      simp only [hb] at hkeys
      simp only [ha, Associations.learn_nil, List.nil_append]
      exact factsOfProperties_mono h path seen rest hkeys hsilent
    | some s =>
      simp only [hb, Bool.and_eq_true, Bool.not_eq_true', List.contains_eq_mem,
        decide_eq_false_iff_not] at hkeys
      obtain ⟨⟨hnew, hvalue⟩, hrest⟩ := hkeys
      -- with less known the key may be unknown, and then the property says nothing
      have hpart : FactsWithin
          (match key.segment? a with
            | some segment => factsOf a (path.child segment) value
            | none => []) (factsOf b (path.child s) value) := by
        cases ha : key.segment? a with
        | none => exact .nil _
        | some s' =>
          obtain rfl : s = s' := by simpa [hb] using Key.segment?_mono h ha
          exact factsOf_mono h (path.child s) value hvalue (hsilent s hnew)
      have hbelow := factsOf_isBelow b (path.child s) value
      have hlater := factsOfProperties_mono (h.learn_part hpart hbelow (hsilent s hnew)) path
        (s :: seen) rest hrest (isSilent_unseen hsilent hbelow)
      exact hpart.property hbelow hrest hlater
  | .shorthand name e :: rest, hkeys, hsilent => by
    by_cases he : e = .absent
    · subst he
      simp only [propertiesDiffer, Bool.and_eq_true, Bool.not_eq_true', List.contains_eq_mem,
        decide_eq_false_iff_not] at hkeys
      obtain ⟨hnew, hrest⟩ := hkeys
      simp only [factsOfProperties]
      have hpart := h.takeOver (.root name) (path.child (.name name))
      have hbelow : ∀ f ∈ b.takeOver (.root name) (path.child (.name name)),
          f.path.IsBelow (path.child (.name name)) := fun f => isBelow_of_mem_takeOver
      have hlater := factsOfProperties_mono (h.learn_part hpart hbelow (hsilent _ hnew)) path
        (.name name :: seen) rest hrest (isSilent_unseen hsilent hbelow)
      exact hpart.property hbelow hrest hlater
    · rw [propertiesDiffer_fallback b path seen name he] at hkeys
      rw [factsOfProperties_fallback a path name he, factsOfProperties_fallback b path name he]
      exact factsOfProperties_mono h path seen rest hkeys hsilent
  | .spread _ :: rest, hkeys, hsilent | .method _ _ _ _ :: rest, hkeys, hsilent
  | .field _ _ _ :: rest, hkeys, hsilent | .staticBlock _ :: rest, hkeys, hsilent
  | .empty :: rest, hkeys, hsilent => by
    simp only [propertiesDiffer] at hkeys
    simp only [factsOfProperties]
    exact factsOfProperties_mono h path seen rest hkeys hsilent

theorem factsOfElements_mono {a b : Associations} (h : a.Weaker b) (path : Path) (i : Nat) :
    ∀ es : List Expr, elementsDiffer b path i es = true →
      (∀ j, i ≤ j → b.IsSilent (path.child (.index j))) →
      FactsWithin (factsOfElements a path i es) (factsOfElements b path i es)
  | [], _, _ => by
    simp only [factsOfElements]
    exact .nil _
  | e :: rest, hkeys, hsilent => by
    simp only [elementsDiffer, Bool.or_eq_true, Bool.and_eq_true] at hkeys
    simp only [factsOfElements]
    split
    · exact .nil _
    · next hspread =>
      obtain ⟨helement, hrest⟩ := hkeys.resolve_left hspread
      have hpart := factsOf_mono h (path.child (.index i)) e helement (hsilent i (Nat.le_refl i))
      have hbelow := factsOf_isBelow b (path.child (.index i)) e
      refine hpart.append ?_ hbelow ?_
      · refine factsOfElements_mono (h.learn_part hpart hbelow (hsilent i (Nat.le_refl i))) path
          (i + 1) rest hrest fun j hj => ?_
        exact (hsilent j (by omega)).learn hbelow (by simp; omega)
      · intro f hf
        obtain ⟨j, hj, hf⟩ := factsOfElements_from rest _ _ f hf
        exact ⟨.index j, by simp; omega, hf⟩

end

/-! ### Binding the constants of a scope -/

/-- Do the known keys of each object in the initial value differ? -/
def Declarator.keysDiffer (known : Associations) : Declarator → Bool
  | .mk (.ident name) init => init.keysDiffer known (.root name)
  | _ => true

/-- Do they differ in all declarations, each with the earlier ones known? -/
def constantsDiffer (known : Associations) : List Declarator → Bool
  | [] => true
  | d :: rest => d.keysDiffer known && constantsDiffer (bind known d) rest

section Binding

variable {a b : Associations}

/-- **One declaration.** With less known before a declaration less is known after
it, if nothing was known of the constant and, for a name with a fixed value,
something is recorded for the constant itself. -/
theorem Associations.Weaker.bind (h : a.Weaker b) {d : Declarator}
    (hkeys : d.keysDiffer b = true) (hsilent : ∀ name ∈ d.name?, b.IsSilent (.root name))
    (hfixed : ∀ name ∈ d.name?, (globalValue? name).isSome →
      ((DeadBranch.bind a d).lookup? (.root name)).isSome) :
    (DeadBranch.bind a d).Weaker (DeadBranch.bind b d) := by
  obtain ⟨target, init⟩ := d
  cases target with
  | ident declared =>
    have hfacts := factsOf_mono h (.root declared) init hkeys (hsilent declared rfl)
    have hbelow := factsOf_isBelow b (.root declared) init
    refine h.learn hfacts hbelow (hsilent declared rfl) ?_
    intro name hglobal _ hlookup hnone
    by_cases hname : name = declared
    · subst hname
      have hsome := hfixed name rfl hglobal
      rw [DeadBranch.bind, lookup?_learn, hlookup] at hsome
      exact absurd hnone (Option.isSome_iff_ne_none.mp hsome)
    · refine firstValue?_eq_none fun f hf hpath => hname ?_
      have hbinding := (hbelow f hf).binding_eq
      rwa [hpath] at hbinding
  | _ => simpa [DeadBranch.bind, Declarator.facts] using h

theorem isShadowed_bindAll (known : Associations) (ds : List Declarator) (name : String) :
    (bindAll known ds).isShadowed name = known.isShadowed name := by
  rw [bindAll_eq_learn, isShadowed_learn]

/-- Nothing is known of a name that no declaration has. -/
theorem Associations.IsSilent.bindAll {known : Associations} {ds : List Declarator} {name : String}
    (h : known.IsSilent (.root name)) (hds : ∀ d ∈ ds, d.name? ≠ some name) :
    (DeadBranch.bindAll known ds).IsSilent (.root name) := by
  intro entry hentry hbelow
  rcases mem_entries_bindAll hentry with hentry | ⟨d, hd, hname⟩
  · exact h entry hentry hbelow
  · exact hds d hd (hname.trans (congrArg some (Path.isBelow_root.mp hbelow)))

/-- **All declarations of a scope**, if no two of them declare the same name. -/
theorem Associations.Weaker.bindAll : ∀ (ds : List Declarator) {a b : Associations}, a.Weaker b →
    constantsDiffer b ds = true →
    ds.Pairwise (fun d d' => ∀ name ∈ d.name?, d'.name? ≠ some name) →
    (∀ d ∈ ds, ∀ name ∈ d.name?, b.IsSilent (.root name)) →
    (∀ d ∈ ds, ∀ name ∈ d.name?, (globalValue? name).isSome →
      ((DeadBranch.bindAll a ds).lookup? (.root name)).isSome) →
    (DeadBranch.bindAll a ds).Weaker (DeadBranch.bindAll b ds)
  | [], a, b, h, _, _, _, _ => h
  | d :: rest, a, b, h, hkeys, hnames, hsilent, hfixed => by
    rw [constantsDiffer, Bool.and_eq_true] at hkeys
    rw [List.pairwise_cons] at hnames
    rw [List.forall_mem_cons] at hsilent hfixed
    have hstep : (DeadBranch.bind a d).Weaker (DeadBranch.bind b d) := by
      refine h.bind hkeys.1 hsilent.1 fun name hname hglobal => ?_
      have hsome := hfixed.1 name hname hglobal
      -- the later declarations have other names
      rwa [DeadBranch.bindAll, List.foldl_cons,
        show List.foldl DeadBranch.bind = DeadBranch.bindAll from rfl,
        lookup?_bindAll_of_forall _ fun d' hd' => hnames.1 d' hd' name hname] at hsome
    refine Associations.Weaker.bindAll rest hstep hkeys.2 hnames.2 ?_ hfixed.2
    intro d' hd' name hname
    have hother : ∀ x ∈ [d], x.name? ≠ some name := by
      simp only [List.mem_singleton, forall_eq]
      exact fun hd => hnames.1 d' hd' name hd hname
    exact (hsilent.2 d' hd' name hname).bindAll hother

end Binding

/-! ### From the innermost scope to all scopes -/

/-- What is seen of the scopes around the innermost one. -/
def Outlook.outer (o : Outlook) : Outlook := ⟨o.frames.tail⟩

section Chain

variable {g : ScopeGraph} {position : Nat}

theorem usableIn_false (declared : List String) (visible : List Binding) :
    usableIn false declared visible = [] := by
  simp [usableIn, Binding.isUsable]

/-- Scopes that are not consulted have no usable constants. -/
theorem ScopeGraph.constants_of_unconsulted {consulted : Nat → Bool} : ∀ (ids : List Nat)
    (declared : List String), (∀ id ∈ ids, consulted id = false) →
      (Outlook.mk (g.frames position consulted declared ids)).constants = []
  | [], declared, _ => by simp [frames, Outlook.constants]
  | id :: rest, declared, h => by
    rw [List.forall_mem_cons] at h
    rw [frames]
    cases g.get? id with
    | none => exact constants_of_unconsulted rest declared h.2
    | some s =>
      rw [Outlook.constants_cons, constants_of_unconsulted rest _ h.2, List.nil_append, h.1]
      exact usableIn_false declared (s.visibleAt position)

/-- The scopes around the innermost one have smaller numbers. -/
theorem ScopeGraph.ancestors_cons (h : g.Ascends) (id : Nat) :
    ∃ outer, g.ancestors id = id :: outer ∧ ∀ i ∈ outer, i < id := by
  obtain ⟨outer, houter⟩ := g.ancestors_head id
  have hpairwise := g.ancestors_pairwise h id
  rw [houter, List.pairwise_cons] at hpairwise
  exact ⟨outer, houter, hpairwise.1⟩

/-- **Consulting all scopes adds constants before those of the innermost one.** -/
theorem Tracker.constants_eq_append (h : g.Ascends) (stack : List Nat) (position : Nat) :
    let t : Tracker := ⟨g, stack⟩
    let wide := t.outlook position true
    wide.constants = wide.outer.constants ++ (t.outlook position false).constants := by
  intro t wide
  cases hs : g.get? t.current with
  | none =>
    have hids : g.ancestors t.current = [t.current] := by
      simp [ScopeGraph.ancestors, ScopeGraph.ancestorsUpTo, ScopeGraph.parent?, hs]
    have hframes : ∀ wholeChain, (t.outlook position wholeChain).frames = [] := by
      intro wholeChain
      simp [outlook, t, hids, ScopeGraph.frames, hs]
    simp [wide, Outlook.constants, Outlook.outer, hframes]
  | some s =>
    obtain ⟨outer, hids, hlt⟩ := ScopeGraph.ancestors_cons h t.current
    have hother : ∀ id ∈ outer, (false || id == t.current) = false := by
      intro id hid
      simpa using Nat.ne_of_lt (hlt id hid)
    have hframes : ∀ wholeChain, t.outlook position wholeChain =
        ⟨s.frame t.current position true [] ::
          g.frames position (fun id => wholeChain || id == t.current)
            ([] ++ (s.visibleAt position).map (·.name)) outer⟩ := by
      intro wholeChain
      simp [outlook, t, hids, ScopeGraph.frames, hs]
    simp only [wide, hframes, Outlook.constants_cons, Outlook.outer, List.tail_cons,
      ScopeGraph.constants_of_unconsulted outer _ hother, List.nil_append]

end Chain

theorem standingOf_false (named : List Binding) : standingOf false named = .hidden := by
  rcases named with _ | ⟨b, _ | ⟨b', rest⟩⟩
  · rfl
  · cases hd : b.declarator <;> simp [standingOf, hd]
  · rfl

/-- A name stands in the innermost scope as in all scopes, or it is declared and
must not be read there. -/
theorem Tracker.standing_innermost (t : Tracker) (position : Nat) (name : String) :
    t.standing position false name = t.standing position true name ∨
      t.standing position false name = .hidden ∧ t.standing position true name ≠ .free := by
  simp only [standing, ScopeGraph.standing]
  cases (t.graph.ancestors t.current).find? fun id =>
    !(t.graph.namedAt position name id).isEmpty with
  | none => exact .inl rfl
  | some id =>
    by_cases hid : id = t.current
    · simp [hid]
    · right
      simp only [Bool.false_or, beq_eq_false_iff_ne.mpr hid, Bool.true_or]
      exact ⟨standingOf_false _, standingOf_ne_free _ _⟩

theorem Standing.isHidden_of_mem {s : Standing} {d : Declarator} (h : d ∈ s.constants) :
    s.isHidden = false := by
  cases s with
  | constant _ => rfl
  | free | hidden => simp [constants] at h

/-- If each name has at most one declaration, no two declarations share a name. -/
theorem pairwise_of_filter : ∀ {ds : List Declarator},
    (∀ name, (ds.filter (·.name? == some name)).length ≤ 1) →
    ds.Pairwise (fun d d' => ∀ name ∈ d.name?, d'.name? ≠ some name)
  | [], _ => .nil
  | d :: rest, h => by
    refine List.pairwise_cons.mpr ⟨?_, pairwise_of_filter fun name => ?_⟩
    · intro d' hd' name hname hname'
      have hone := h name
      rw [List.filter_cons_of_pos (by simpa using hname), List.length_cons] at hone
      have hmem : d' ∈ rest.filter (·.name? == some name) :=
        List.mem_filter.mpr ⟨hd', by simpa using hname'⟩
      have hpos := List.length_pos_of_mem hmem
      omega
    · refine Nat.le_trans (List.Sublist.length_le ?_) (h name)
      exact (List.sublist_cons_self d rest).filter _

/-- **Consulting all scopes only adds to what can be evaluated**, at every position
in every scope of a program and for every expression, if each object in the
initial value of a constant of the innermost scope has different keys, and if the
value of each of these constants that has the name of a fixed value is recorded. -/
theorem evaluate_of_innermost (p : Program) (stack : List Nat) (position : Nat) (e : Expr)
    (v : Value) :
    let t : Tracker := ⟨.ofProgram p, stack⟩
    let innermost := t.outlook position false
    let all := t.outlook position true
    constantsDiffer (bindAll all.blank all.outer.constants) innermost.constants = true →
    (∀ d ∈ innermost.constants, ∀ name ∈ d.name?, (globalValue? name).isSome →
      (innermost.associations.lookup? (.root name)).isSome) →
    evaluate innermost.associations e = some v → evaluate all.associations e = some v := by
  intro t innermost all hkeys hfixed hv
  have hsplit : all.constants = all.outer.constants ++ innermost.constants :=
    Tracker.constants_eq_append (ofProgram_ascends p) stack position
  have hinnermost := Tracker.outlook_standing p stack position false
  have hall := Tracker.outlook_standing p stack position true
  -- a name that may be read with the innermost scope is not declared further out
  have houter : ∀ name, (t.standing position false name).isHidden = false →
      ∀ d ∈ all.outer.constants, d.name? ≠ some name := by
    intro name hname d hd
    have hsame : t.standing position false name = t.standing position true name := by
      rcases t.standing_innermost position name with hsame | ⟨hhidden, -⟩
      · exact hsame
      · simp [hhidden, Standing.isHidden] at hname
    have hfilter : innermost.constants.filter (·.name? == some name) =
        all.constants.filter (·.name? == some name) :=
      (hinnermost name).1.trans ((congrArg _ hsame).trans (hall name).1.symm)
    rw [hsplit, List.filter_append, List.self_eq_append_left, List.filter_eq_nil_iff] at hfilter
    simpa using hfilter d hd
  have hsilent : ∀ name, (t.standing position false name).isHidden = false →
      (bindAll all.blank all.outer.constants).IsSilent (.root name) := fun name hname =>
    Associations.IsSilent.bindAll (by simp [Associations.IsSilent, Outlook.blank])
      (houter name hname)
  have hstart : innermost.blank.Weaker (bindAll all.blank all.outer.constants) := by
    have hblank : ∀ name, innermost.blank.isShadowed name =
        (t.standing position false name).isHidden := fun name =>
      (isShadowed_bindAll _ innermost.constants name).symm.trans (hinnermost name).2
    refine ⟨fun {name} hname => ?_, fun hlookup => ?_, fun {name} _ hname _ => ?_⟩
    · rw [isShadowed_bindAll, ← isShadowed_bindAll _ all.constants] at hname
      have hhidden : (t.standing position true name).isHidden = true :=
        (hall name).2.symm.trans hname
      rw [hblank]
      rcases t.standing_innermost position name with hsame | ⟨hhidden, -⟩
      · rwa [hsame]
      · rw [hhidden]
        rfl
    · simp [Outlook.blank, Associations.lookup?_eq_find?] at hlookup
    · exact (hsilent name ((hblank name).symm.trans hname)).lookup? (Path.isBelow_refl _)
  have hlast := Associations.Weaker.bindAll innermost.constants hstart hkeys
    (pairwise_of_filter fun name => ?_) ?_ hfixed
  · rw [← bindAll_append, ← hsplit] at hlast
    exact evaluate_mono hlast e hv
  · rw [(hinnermost name).1]
    exact Standing.length_constants _
  · intro d hd name hname
    refine hsilent name ?_
    have hmem : d ∈ innermost.constants.filter (·.name? == some name) :=
      List.mem_filter.mpr ⟨hd, by simpa using hname⟩
    rw [(hinnermost name).1] at hmem
    exact Standing.isHidden_of_mem hmem

/-- The tree of `const k = "a"; function g() { const o = { [k]: false, …: true };
if (o.…) { f(); } }`. -/
def computedKey (second : String) : Program :=
  ⟨.script, none,
    [.stmt (.decl (.vars .constKind [.mk (.ident "k") (.literal (.string "a" "\"a\""))])),
      .stmt (.decl (.function "g" (.block ⟨.function, some "g", false, false⟩ ⟨15, 124⟩ []
        (.mk ⟨28, 124⟩
          [.decl (.vars .constKind [.mk (.ident "o") (.object
              [.pair (.computed (.ident "k")) (.literal (.bool false)),
                .pair (.ident second) (.literal (.bool true))])]),
            .ifElse ⟨93, 122⟩ (.member (.ident "o") second)
              (.block (.mk ⟨102, 122⟩ [.expr (.other .call [.ident "f"])])) none]))))]⟩

/-- With different keys the test has its value in both cases. -/
theorem computedKey_b :
    let t : Tracker := ⟨.ofProgram (computedKey "b"), [1, 0]⟩
    let innermost := t.outlook 93 false
    let all := t.outlook 93 true
    constantsDiffer (bindAll all.blank all.outer.constants) innermost.constants = true ∧
      innermost.constants.length = 1 ∧ all.outer.constants.length = 1 ∧
      evaluate innermost.associations (.member (.ident "o") "b") = some (.bool true) ∧
      evaluate all.associations (.member (.ident "o") "b") = some (.bool true) := by
  intro t innermost all
  have hkeys : constantsDiffer (bindAll all.blank all.outer.constants) innermost.constants := by
    decide +kernel
  have hfixed : ∀ d ∈ innermost.constants, ∀ name ∈ d.name?, (globalValue? name).isSome →
      (innermost.associations.lookup? (.root name)).isSome := by
    decide +kernel
  have hv : evaluate innermost.associations (.member (.ident "o") "b") = some (.bool true) := by
    decide +kernel
  exact ⟨hkeys, by decide +kernel, by decide +kernel, hv,
    evaluate_of_innermost (computedKey "b") [1, 0] 93 _ _ hkeys hfixed hv⟩

/-- **A property may be overtaken.** With the key `a` twice, the second property
counts as long as the first key is unknown. Consulting all scopes makes it known,
and then the first property counts. -/
theorem exists_overtaken_property :
    ¬ ∀ (p : Program) (stack : List Nat) (position : Nat) (e : Expr) (v : Value),
      let t : Tracker := ⟨.ofProgram p, stack⟩
      evaluate (t.outlook position false).associations e = some v →
        evaluate (t.outlook position true).associations e = some v := by
  intro h
  have hwide := h (computedKey "a") [1, 0] 93 (.member (.ident "o") "a") (.bool true)
    (by decide +kernel)
  let t : Tracker := ⟨.ofProgram (computedKey "a"), [1, 0]⟩
  have hfalse : evaluate (t.outlook 93 true).associations (.member (.ident "o") "a") =
      some (.bool false) := by
    decide +kernel
  rw [hfalse] at hwide
  simp at hwide

end DeadBranch
