/-
# Looking up what was recorded

Facts may repeat a path, and the first one counts. So what is looked up after
facts were recorded is what was known before or, failing that, what the first
fact about the path says (`lookup?_learn`); and what is taken over from a source
says of each part of the target what is known of the same part of the source
(`firstValue?_takeOver`).

Key definitions: `firstValue?`.
Key theorems: `lookup?_learn`, `firstValue?_takeOver`, `lookup?_bindAll_of_forall`.
-/
import DeadBranch.Proofs.Facts

namespace DeadBranch

/-- The value that facts give to a path: that of the first one about it. -/
def firstValue? (facts : List Fact) (path : Path) : Option Value :=
  (facts.find? (·.path = path)).map (·.value)

section First

variable {facts : List Fact} {path : Path}

theorem firstValue?_cons (f : Fact) (facts : List Fact) (path : Path) :
    firstValue? (f :: facts) path =
      if f.path = path then some f.value else firstValue? facts path := by
  by_cases h : f.path = path <;> simp [firstValue?, h]

theorem firstValue?_append (first second : List Fact) (path : Path) :
    firstValue? (first ++ second) path = (firstValue? first path).or (firstValue? second path) := by
  rw [firstValue?, List.find?_append]
  cases h : first.find? (·.path = path) <;> simp [firstValue?, h]

/-- The facts have one about the path. -/
theorem mem_of_firstValue? {v : Value} (h : firstValue? facts path = some v) :
    ∃ f ∈ facts, f.path = path := by
  obtain ⟨f, hf, -⟩ := Option.map_eq_some_iff.mp h
  exact ⟨f, List.mem_of_find?_eq_some hf, by simpa using List.find?_some hf⟩

theorem firstValue?_eq_none (h : ∀ f ∈ facts, f.path ≠ path) : firstValue? facts path = none := by
  rw [firstValue?, Option.map_eq_none_iff, List.find?_eq_none]
  simpa using h

theorem firstValue?_stated (path : Path) (value : Option Value) :
    firstValue? (stated path value) path = value := by
  cases value <;> simp [stated, firstValue?]

end First

theorem Path.suffix?_eq_some {p base : Path} {suffix : List Segment} :
    p.suffix? base = some suffix ↔ p = base.join suffix := by
  obtain ⟨binding, segments⟩ := p
  simp only [suffix?, Option.ite_none_right_eq_some, Option.some.injEq, join, mk.injEq]
  constructor
  · rintro ⟨⟨rfl, rest, rfl⟩, rfl⟩
    simp
  · rintro ⟨rfl, rfl⟩
    simp

theorem Path.join_inj {base : Path} {s t : List Segment} : base.join s = base.join t ↔ s = t := by
  simp [join]

theorem Path.join_child (p : Path) (segments : List Segment) (s : Segment) :
    (p.join segments).child s = p.join (segments ++ [s]) := by
  simp [join, child]

theorem Path.join_cons (p : Path) (s : Segment) (segments : List Segment) :
    p.join (s :: segments) = (p.child s).join segments := by
  simp [join, child]

/-- **What is taken over** says of each part of the target what is known of the
same part of the source. -/
theorem firstValue?_takeOver (known : Associations) (source target : Path)
    (suffix : List Segment) :
    firstValue? (known.takeOver source target) (target.join suffix) =
      known.lookup? (source.join suffix) := by
  simp only [Associations.takeOver, Associations.copies, Associations.lookup?_eq_find?]
  induction known.entries with
  | nil => rfl
  | cons entry rest ih =>
    obtain ⟨path, v⟩ := entry
    cases h : path.suffix? source with
    | none =>
      have hne : path ≠ source.join suffix := by
        intro heq
        simp [Path.suffix?_eq_some.mpr heq] at h
      rw [List.filterMap_cons_none (by simp [h]), ih]
      simp [hne]
    | some s =>
      obtain rfl := Path.suffix?_eq_some.mp h
      rw [List.filterMap_cons_some (b := (target.join s, v)) (by simp [h]), List.map_cons,
        firstValue?_cons, ih]
      by_cases hs : s = suffix
      · simp [hs]
      · simp [Path.join_inj, hs]

section Learn

variable (known : Associations)

/-- Recorded facts answer where nothing was known before. -/
theorem lookup?_learn (facts : List Fact) (path : Path) :
    (known.learn facts).lookup? path = (known.lookup? path).or (firstValue? facts path) := by
  simp only [Associations.lookup?_eq_find?, Associations.entries_learn, List.find?_append,
    firstValue?, List.find?_map]
  cases known.entries.find? (·.1 = path) with
  | some entry => simp
  | none =>
    simp only [Option.none_or, Option.map_none, Option.map_map]
    rfl

@[simp] theorem isShadowed_learn (facts : List Fact) (name : String) :
    (known.learn facts).isShadowed name = known.isShadowed name := by
  simp [Associations.isShadowed]

theorem mem_entries_learn {facts : List Fact} {entry : Path × Value} :
    entry ∈ (known.learn facts).entries ↔
      entry ∈ known.entries ∨ ∃ f ∈ facts, (f.path, f.value) = entry := by
  simp

theorem lookup?_eq_none_iff {path : Path} :
    known.lookup? path = none ↔ ∀ entry ∈ known.entries, entry.1 ≠ path := by
  simp [Associations.lookup?_eq_find?, List.find?_eq_none]

/-- A member has the value that is recorded for the part it leads to. -/
theorem evaluate_member (base : Expr) (name : String) :
    evaluate known (.member base name) =
      (staticPath known (.member base name)).bind known.lookup? := by
  simp only [evaluate, staticPath]
  cases staticPath known base <;> rfl

theorem evaluate_index (base key : Expr) :
    evaluate known (.index base key) =
      (staticPath known (.index base key)).bind known.lookup? := by
  simp only [evaluate, staticPath]
  cases staticPath known base with
  | none => rfl
  | some path => cases evaluate known key <;> rfl

/-- Binding constants of other names does not change what is looked up. -/
theorem lookup?_bindAll_of_forall {ds : List Declarator} {path : Path}
    (h : ∀ d ∈ ds, d.name? ≠ some path.binding) :
    (bindAll known ds).lookup? path = known.lookup? path := by
  have hnone : firstValue? (bindAllFacts known ds) path = none := by
    refine firstValue?_eq_none fun f hf hpath => ?_
    obtain ⟨d, hd, hname⟩ := bindAllFacts_binding hf
    exact h d hd (hpath ▸ hname)
  rw [bindAll_eq_learn, lookup?_learn, hnone, Option.or_none]

end Learn

end DeadBranch
