/-
# What facts are about

The facts that a declaration states are about parts of the constant that it
declares, whatever is known, and binding several constants records their facts
one after the other. So all that is known of a name in the end comes from the
declaration of that name.

Key definitions: `Path.IsBelow`.
Key theorems: `mem_takeOver`, `factsOf_isBelow`, `bindAll_eq_learn`, `rooted_bindAllFacts`.
-/
import DeadBranch.Proofs.Collected
import DeadBranch.Scope.Tracker

namespace DeadBranch

/-! ### The facts of one value -/

/-- What is taken over from a source is what is known of the parts of the source. -/
theorem mem_takeOver {known : Associations} {source target : Path} {f : Fact}
    (hf : f ∈ known.takeOver source target) :
    ∃ suffix, f.path = target.join suffix ∧ (source.join suffix, f.value) ∈ known.entries := by
  simp only [Associations.takeOver, Associations.copies, List.mem_map, List.mem_filterMap,
    Option.map_eq_some_iff] at hf
  obtain ⟨_, ⟨⟨⟨binding, segments⟩, v⟩, hentry, suffix, hsuffix, rfl⟩, rfl⟩ := hf
  simp only [Path.suffix?, Option.ite_none_right_eq_some, Option.some.injEq] at hsuffix
  obtain ⟨⟨rfl, rest, rfl⟩, rfl⟩ := hsuffix
  refine ⟨_, rfl, ?_⟩
  rw [List.drop_left]
  exact hentry

theorem mem_stated {path : Path} {value : Option Value} {f : Fact} :
    f ∈ stated path value ↔ f.path = path ∧ value = some f.value ∧ f.copied = false := by
  obtain ⟨path', v, copied⟩ := f
  cases value <;> simp [stated, eq_comm]

/-- Does a path lead to a part of what another one leads to, or to all of it? -/
def Path.IsBelow (p base : Path) : Prop := ∃ suffix, p = base.join suffix

section Below

variable {p base : Path}

theorem Path.isBelow_refl (p : Path) : p.IsBelow p := ⟨[], by simp [join]⟩

theorem Path.IsBelow.of_child {segment : Segment} (h : p.IsBelow (base.child segment)) :
    p.IsBelow base := by
  obtain ⟨suffix, rfl⟩ := h
  exact ⟨segment :: suffix, by simp [join, child]⟩

theorem Path.IsBelow.ne_of_child {segment : Segment} (h : p.IsBelow (base.child segment)) :
    p ≠ base := by
  obtain ⟨suffix, rfl⟩ := h
  intro heq
  have hlength := congrArg (·.segments.length) heq
  simp only [join, child, List.length_append, List.length_singleton] at hlength
  omega

theorem Path.IsBelow.binding_eq (h : p.IsBelow base) : p.binding = base.binding := by
  obtain ⟨suffix, rfl⟩ := h
  rfl

theorem isBelow_of_mem_takeOver {known : Associations} {source target : Path} {f : Fact}
    (hf : f ∈ known.takeOver source target) : f.path.IsBelow target := by
  obtain ⟨suffix, hpath, -⟩ := mem_takeOver hf
  exact ⟨suffix, hpath⟩

theorem isBelow_of_mem_stated {path : Path} {value : Option Value} {f : Fact}
    (hf : f ∈ stated path value) : f.path.IsBelow path := by
  rw [(mem_stated.mp hf).1]
  exact Path.isBelow_refl path

end Below

mutual

/-- Whatever an initial value says is about parts of what it initialises. -/
theorem factsOf_isBelow : ∀ (known : Associations) (path : Path) (e : Expr),
    ∀ f ∈ factsOf known path e, f.path.IsBelow path
  | known, path, .literal value => by
    intro f hf
    simp only [factsOf] at hf
    exact isBelow_of_mem_stated hf
  | known, path, .object properties => by
    intro f hf
    simp only [factsOf] at hf
    obtain ⟨segment, h⟩ := factsOfProperties_isBelow known path properties f hf
    exact h.of_child
  | known, path, .array elements => by
    intro f hf
    simp only [factsOf] at hf
    obtain ⟨segment, h⟩ := factsOfElements_isBelow known path 0 elements f hf
    exact h.of_child
  | known, path, .member object name => by
    intro f hf
    simp only [factsOf] at hf
    split at hf
    · exact isBelow_of_mem_takeOver hf
    · simp at hf
  | known, path, .index object key => by
    intro f hf
    simp only [factsOf] at hf
    split at hf
    · exact isBelow_of_mem_takeOver hf
    · simp at hf
  | known, path, .ident name => by
    intro f hf
    simp only [factsOf] at hf
    exact isBelow_of_mem_takeOver hf
  | known, path, .paren inner => by
    simp only [factsOf]
    exact factsOf_isBelow known path inner
  | known, path, .assign none target value => by
    simp only [factsOf]
    exact factsOf_isBelow known path value
  | known, path, .unary _ _ | known, path, .binary _ _ _ | known, path, .cond _ _ _ => by
    intro f hf
    simp only [factsOf] at hf
    exact isBelow_of_mem_stated hf
  | _, _, .assign (some _) _ _ | _, _, .absent | _, _, .spread _ | _, _, .arrayPattern _
  | _, _, .objectPattern _ | _, _, .withDefault _ _ | _, _, .closure _ | _, _, .classExpr _ _ _
  | _, _, .other _ _ => by simp [factsOf]

theorem factsOfProperties_isBelow : ∀ (known : Associations) (path : Path) (ps : List Property),
    ∀ f ∈ factsOfProperties known path ps, ∃ segment, f.path.IsBelow (path.child segment)
  | _, _, [] => by simp [factsOfProperties]
  | known, path, .pair key value :: rest => by
    simp only [factsOfProperties, List.forall_mem_append]
    refine ⟨?_, factsOfProperties_isBelow _ path rest⟩
    cases key.segment? known with
    | none => simp
    | some segment =>
      intro f hf
      exact ⟨segment, factsOf_isBelow known (path.child segment) value f hf⟩
  | known, path, .shorthand name e :: rest => by
    by_cases he : e = .absent
    · subst he
      simp only [factsOfProperties, List.forall_mem_append]
      refine ⟨fun f hf => ?_, factsOfProperties_isBelow _ path rest⟩
      exact ⟨.name name, isBelow_of_mem_takeOver hf⟩
    · rw [factsOfProperties_fallback known path name he]
      exact factsOfProperties_isBelow known path rest
  | known, path, .spread _ :: rest | known, path, .method _ _ _ _ :: rest
  | known, path, .field _ _ _ :: rest | known, path, .staticBlock _ :: rest
  | known, path, .empty :: rest => by
    simp only [factsOfProperties]
    exact factsOfProperties_isBelow known path rest

theorem factsOfElements_isBelow : ∀ (known : Associations) (path : Path) (i : Nat) (es : List Expr),
    ∀ f ∈ factsOfElements known path i es, ∃ segment, f.path.IsBelow (path.child segment)
  | _, _, _, [] => by simp [factsOfElements]
  | known, path, i, e :: rest => by
    simp only [factsOfElements]
    split
    · simp
    · simp only [List.forall_mem_append]
      refine ⟨fun f hf => ?_, factsOfElements_isBelow _ path (i + 1) rest⟩
      exact ⟨.index i, factsOf_isBelow known (path.child (.index i)) e f hf⟩

end

theorem factsOf_binding (known : Associations) (path : Path) (e : Expr) :
    ∀ f ∈ factsOf known path e, f.path.binding = path.binding :=
  fun f hf => (factsOf_isBelow known path e f hf).binding_eq

/-! ### The facts of declarations -/

/-- All facts of a declaration are about the name that it declares. -/
theorem Declarator.facts_binding {known : Associations} {d : Declarator} {f : Fact}
    (hf : f ∈ d.facts known) : d.name? = some f.path.binding := by
  obtain ⟨target, init⟩ := d
  cases target with
  | ident name =>
    have hroot := factsOf_binding known (.root name) init f hf
    rw [Declarator.name?, hroot]
    rfl
  | _ => simp [Declarator.facts] at hf

/-- All facts of declarations are about names that they declare. -/
theorem bindAllFacts_binding {ds : List Declarator} {f : Fact} : ∀ {known : Associations},
    f ∈ bindAllFacts known ds → ∃ d ∈ ds, d.name? = some f.path.binding := by
  induction ds with
  | nil => simp [bindAllFacts]
  | cons d rest ih =>
    intro known hf
    rcases List.mem_append.mp hf with hf | hf
    · exact ⟨d, List.mem_cons_self, Declarator.facts_binding hf⟩
    · obtain ⟨d', hd', hname⟩ := ih hf
      exact ⟨d', List.mem_cons_of_mem _ hd', hname⟩

/-- If no declaration has a name, no fact is about the name. -/
theorem rooted_bindAllFacts_of_forall {ds : List Declarator} {name : String}
    (known : Associations) (h : ∀ d ∈ ds, d.name? ≠ some name) :
    (bindAllFacts known ds).filter (·.path.binding == name) = [] := by
  refine List.filter_eq_nil_iff.mpr fun f hf hroot => ?_
  obtain ⟨d, hd, hname⟩ := bindAllFacts_binding hf
  exact h d hd (hname.trans (congrArg some (by simpa using hroot)))

theorem bindAll_append (known : Associations) (ds ds' : List Declarator) :
    bindAll known (ds ++ ds') = bindAll (bindAll known ds) ds' :=
  List.foldl_append

theorem bindAllFacts_append (first second : List Declarator) : ∀ known : Associations,
    bindAllFacts known (first ++ second) =
      bindAllFacts known first ++ bindAllFacts (bindAll known first) second := by
  induction first with
  | nil => intro known; rfl
  | cons d rest ih =>
    intro known
    simp [bindAllFacts, bindAll, ih (bind known d)]

/-- Binding several constants records their facts. -/
theorem bindAll_eq_learn (ds : List Declarator) : ∀ known : Associations,
    bindAll known ds = known.learn (bindAllFacts known ds) := by
  induction ds with
  | nil => intro known; simp [bindAll, bindAllFacts, Associations.learn, Associations.recordAll]
  | cons d rest ih =>
    intro known
    change bindAll (bind known d) rest = _
    rw [ih, bindAllFacts, Associations.learn_append]
    rfl

/-- What is known after several declarations was known before or is about a name
that they declare. -/
theorem mem_entries_bindAll {known : Associations} {ds : List Declarator} {entry : Path × Value}
    (hentry : entry ∈ (bindAll known ds).entries) :
    entry ∈ known.entries ∨ ∃ d ∈ ds, d.name? = some entry.1.binding := by
  simp only [bindAll_eq_learn, Associations.entries_learn, List.mem_append, List.mem_map] at hentry
  refine hentry.imp_right ?_
  rintro ⟨f, hf, rfl⟩
  exact bindAllFacts_binding hf

/-- If one of several constants has a name, all facts about the name are its
facts. -/
theorem rooted_bindAllFacts {before after : List Declarator} {d : Declarator} {name : String}
    (known : Associations) (hname : d.name? = some name)
    (hbefore : ∀ x ∈ before, x.name? ≠ some name) (hafter : ∀ x ∈ after, x.name? ≠ some name) :
    (bindAllFacts known (before ++ d :: after)).filter (·.path.binding == name) =
      d.facts (bindAll known before) := by
  have hall : (d.facts (bindAll known before)).filter (·.path.binding == name) =
      d.facts (bindAll known before) := by
    refine List.filter_eq_self.mpr fun f hf => ?_
    have := (Declarator.facts_binding hf).symm.trans hname
    simpa using this
  rw [bindAllFacts_append, List.filter_append, rooted_bindAllFacts_of_forall known hbefore,
    bindAllFacts, List.filter_append, hall, rooted_bindAllFacts_of_forall _ hafter,
    List.nil_append, List.append_nil]

end DeadBranch
