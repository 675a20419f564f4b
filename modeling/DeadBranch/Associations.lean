/-
# What is known at one place

The facts that hold at one conditional: which part of which binding has which
value, in the order in which they were found, and which names must not be read
because their nearest binding is no usable constant. Facts are never removed
and may repeat a path; the first one counts. An index tells where the first fact
about a path stands, and a lookup goes through it.

Key definitions: `Associations`, `Associations.record`,
`Associations.lookup?`, `Associations.adopt`, `Associations.shadow`.
Key theorems: `Associations.lookup?_eq_find?`.
-/
import DeadBranch.Path

namespace DeadBranch

/-- Known values of paths, and names that stay unknown. -/
structure Associations where
  /-- The facts, the earliest first. -/
  entries : List (Path × Value)
  /-- Where the first fact about a path stands. -/
  first : List (Path × Nat)
  /-- The names that stay unknown. -/
  shadowed : List String
  /-- The index is that of the facts. -/
  first_lookup : ∀ path, first.lookup path = entries.findIdx? (·.1 = path)

namespace Associations

/-- Nothing is known, and the given names stay unknown. -/
def ofShadowed (names : List String) : Associations := ⟨[], [], names, fun _ => rfl⟩

/-- Nothing is known. -/
def empty : Associations := ofShadowed []

/-- The index after a fact about a path at a position. -/
def positions (first : List (Path × Nat)) (path : Path) (position : Nat) : List (Path × Nat) :=
  if (first.lookup path).isSome then first else (path, position) :: first

theorem lookup_positions (first : List (Path × Nat)) (path other : Path) (position : Nat) :
    (positions first path position).lookup other =
      (first.lookup other).or (if path = other then some position else none) := by
  unfold positions
  by_cases h : path = other
  · subst h
    cases hfirst : first.lookup path <;> simp [hfirst]
  · have hne : (other == path) = false := beq_eq_false_iff_ne.mpr (Ne.symm h)
    rw [if_neg h, Option.or_none]
    split
    · rfl
    · rw [List.lookup_cons, hne]

/-- One more fact. -/
def record (a : Associations) (path : Path) (value : Value) : Associations where
  entries := a.entries ++ [(path, value)]
  first := positions a.first path a.entries.length
  shadowed := a.shadowed
  first_lookup other := by
    rw [lookup_positions, a.first_lookup, List.findIdx?_append, List.findIdx?_cons]
    by_cases h : path = other <;> simp [h]

/-- Several more facts, in order. -/
def recordAll (a : Associations) (facts : List (Path × Value)) : Associations :=
  facts.foldl (fun a fact => a.record fact.1 fact.2) a

/-- The given facts are known, and the given names stay unknown. -/
def of (facts : List (Path × Value)) (names : List String) : Associations :=
  (ofShadowed names).recordAll facts

theorem lt_length {a : Associations} {path : Path} {i : Nat} (h : a.first.lookup path = some i) :
    i < a.entries.length := by
  rw [a.first_lookup] at h
  exact (List.findIdx?_eq_some_iff_getElem.mp h).1

/-- The value first recorded for a path. -/
def lookup? (a : Associations) (path : Path) : Option Value :=
  match h : a.first.lookup path with
  | some i => some (a.entries.get ⟨i, lt_length h⟩).2
  | none => none

/-- What is known below `source`, as facts below `target`. -/
def copies (a : Associations) (source target : Path) : List (Path × Value) :=
  a.entries.filterMap fun (path, value) =>
    (path.suffix? source).map fun suffix => (target.join suffix, value)

/-- Records all that is known below `source` for `target` as well. -/
def adopt (a : Associations) (source target : Path) : Associations :=
  a.recordAll (a.copies source target)

/-- A name stays unknown from now on. -/
def shadow (a : Associations) (name : String) : Associations :=
  { a with shadowed := name :: a.shadowed }

/-- Must the name stay unknown? -/
def isShadowed (a : Associations) (name : String) : Bool := a.shadowed.contains name

@[simp] theorem entries_ofShadowed (names : List String) : (ofShadowed names).entries = [] := rfl

@[simp] theorem shadowed_ofShadowed (names : List String) :
    (ofShadowed names).shadowed = names := rfl

@[simp] theorem entries_record (a : Associations) (path : Path) (value : Value) :
    (a.record path value).entries = a.entries ++ [(path, value)] := rfl

@[simp] theorem shadowed_record (a : Associations) (path : Path) (value : Value) :
    (a.record path value).shadowed = a.shadowed := rfl

@[simp] theorem entries_recordAll (facts : List (Path × Value)) : ∀ a : Associations,
    (a.recordAll facts).entries = a.entries ++ facts := by
  induction facts with
  | nil => intro a; simp [recordAll]
  | cons fact rest ih =>
    intro a
    have hrest := ih (a.record fact.1 fact.2)
    rw [entries_record, List.append_assoc] at hrest
    exact hrest

@[simp] theorem shadowed_recordAll (facts : List (Path × Value)) : ∀ a : Associations,
    (a.recordAll facts).shadowed = a.shadowed := by
  induction facts with
  | nil => intro a; rfl
  | cons fact rest ih => intro a; exact ih (a.record fact.1 fact.2)

@[simp] theorem entries_of (facts : List (Path × Value)) (names : List String) :
    (of facts names).entries = facts := by simp [of]

@[simp] theorem shadowed_of (facts : List (Path × Value)) (names : List String) :
    (of facts names).shadowed = names := by simp [of]

theorem recordAll_append (a : Associations) (facts more : List (Path × Value)) :
    a.recordAll (facts ++ more) = (a.recordAll facts).recordAll more :=
  List.foldl_append ..

/-- **A lookup finds the first fact about the path**, as a search through all of
them would. -/
theorem lookup?_eq_find? (a : Associations) (path : Path) :
    a.lookup? path = (a.entries.find? (·.1 = path)).map (·.2) := by
  have hindex := a.first_lookup path
  unfold lookup?
  split
  · rename_i i h
    obtain ⟨hlt, hpath, hbefore⟩ :=
      List.findIdx?_eq_some_iff_getElem.mp (hindex.symm.trans h)
    have hfind : a.entries.find? (·.1 = path) = some a.entries[i] :=
      List.find?_eq_some_iff_getElem.mpr
        ⟨hpath, i, hlt, rfl, fun j hj => by simpa using hbefore j hj⟩
    rw [hfind]
    rfl
  · rename_i h
    have hnone := List.findIdx?_eq_none_iff.mp (hindex.symm.trans h)
    rw [List.find?_eq_none.mpr fun entry hentry => by simpa using hnone entry hentry]
    rfl

end Associations
end DeadBranch
