/-
# Reading after an update

What is looked up after what is known below one path was adopted below another,
and what a constant is read as after it was bound.

Adopting works on the facts as they were before, in their order. So it does not
matter whether the two paths have to do with each other: a part of the target that
had a value keeps it, and every other part has what the same part of the source had
(`adopt_copies`).

The value that is recorded for a constant is found by another route than the value
of its initial value: a name takes over what is recorded instead of being read, and
an array is taken apart instead of counting as true. These are the two places where
the routes part (`Expr.isForgotten`); apart from them reading the constant is
evaluating its initial value (`evaluate_bind`).

Key definitions: `Expr.bare`, `Expr.isForgotten`.
Key theorems: `wholeValue?_eq`, `adopt_copies`, `evaluate_bind`.
-/
import DeadBranch.Proofs.Globals

namespace DeadBranch

/-! ### Adopting what is known -/

theorem Path.isBelow_iff_suffix? {p base : Path} : p.IsBelow base ↔ (p.suffix? base).isSome := by
  rw [Option.isSome_iff_exists]
  exact exists_congr fun suffix => Path.suffix?_eq_some.symm

instance (p base : Path) : Decidable (p.IsBelow base) :=
  decidable_of_iff _ Path.isBelow_iff_suffix?.symm

namespace Associations

variable (a : Associations) (source target : Path)

/-- Adopting records what is taken over. -/
theorem adopt_eq_learn : a.adopt source target = a.learn (a.takeOver source target) := by
  simp [adopt, learn, takeOver, Function.comp_def]

/-- One copy is made of each fact below the source. -/
theorem length_copies : (a.copies source target).length =
    a.entries.countP fun entry => entry.1.IsBelow source := by
  rw [copies, List.length_filterMap_eq_countP]
  refine List.countP_congr fun entry _ => ?_
  simp [Path.isBelow_iff_suffix?]

/-- **Adopting copies a whole subtree and nothing else.** A part of the target that
had a value keeps it, and any other has the value of the same part of the source;
what is not below the target is as before. There is one more fact for each fact
below the source, and they come behind all others. -/
theorem adopt_copies :
    (∀ suffix, (a.adopt source target).lookup? (target.join suffix) =
      (a.lookup? (target.join suffix)).or (a.lookup? (source.join suffix))) ∧
    (∀ path, ¬ path.IsBelow target → (a.adopt source target).lookup? path = a.lookup? path) ∧
    (a.adopt source target).entries.length =
      a.entries.length + a.entries.countP (fun entry => entry.1.IsBelow source) ∧
    a.entries <+: (a.adopt source target).entries ∧
    (a.adopt source target).shadowed = a.shadowed := by
  refine ⟨fun suffix => ?_, fun path hpath => ?_, ?_, ?_, ?_⟩
  · rw [adopt_eq_learn, lookup?_learn, firstValue?_takeOver]
  · have hnone : firstValue? (a.takeOver source target) path = none :=
      firstValue?_eq_none fun f hf heq => hpath (heq ▸ isBelow_of_mem_takeOver hf)
    rw [adopt_eq_learn, lookup?_learn, hnone, Option.or_none]
  · rw [adopt, entries_recordAll, List.length_append, length_copies]
  · rw [adopt, entries_recordAll]
    exact List.prefix_append _ _
  · exact shadowed_recordAll _ a

end Associations

/-! ### Reading a constant -/

/-- What is left without parentheses and plain assignments around it. -/
def Expr.bare : Expr → Expr
  | .paren inner => inner.bare
  | .assign none _ value => value.bare
  | e => e

/-- Does a constant with this initial value have no value, whatever the initial
value has? So it is for an array, of which only the elements are recorded, and for
the name of a fixed value that is not recorded. -/
def Expr.isForgotten (known : Associations) (e : Expr) : Bool :=
  match e.bare with
  | .array _ => true
  | .ident name => (globalValue? name).isSome && (known.lookup? (.root name)).isNone
  | _ => false

section Constant

variable {known : Associations}

/-- What is recorded for a name is what the name is read as, unless it is a fixed
value. -/
theorem wholeValue?_ident
    (hreadable : ∀ entry ∈ known.entries, known.isShadowed entry.1.binding = false)
    (name : String) : (Expr.ident name).wholeValue? known =
      if (Expr.ident name).isForgotten known then none else evaluate known (.ident name) := by
  have hforgotten : (Expr.ident name).isForgotten known =
      ((globalValue? name).isSome && (known.lookup? (.root name)).isNone) := rfl
  rw [hforgotten]
  simp only [Expr.wholeValue?, evaluate]
  rcases Option.eq_none_or_eq_some (known.lookup? (.root name)) with hlookup | ⟨v, hlookup⟩
  · cases globalValue? name <;> simp [hlookup]
  · have hread : known.isShadowed name = false := by
      obtain ⟨entry, hentry, -⟩ :=
        Option.map_eq_some_iff.mp ((known.lookup?_eq_find? _).symm.trans hlookup)
      have hpath : entry.1 = .root name := by simpa using List.find?_some hentry
      have hbinding := hreadable entry (List.mem_of_find?_eq_some hentry)
      rwa [hpath] at hbinding
    simp [hlookup, hread]

/-- **What is recorded for a constant is the value of its initial value**, if the
constant does not forget it. -/
theorem wholeValue?_eq
    (hreadable : ∀ entry ∈ known.entries, known.isShadowed entry.1.binding = false) :
    ∀ e : Expr, e.wholeValue? known = if e.isForgotten known then none else evaluate known e
  | .ident name => wholeValue?_ident hreadable name
  | .paren inner => by
    simp only [Expr.wholeValue?, evaluate]
    exact wholeValue?_eq hreadable inner
  | .assign none _ value => by
    simp only [Expr.wholeValue?, evaluate]
    exact wholeValue?_eq hreadable value
  | .array _ => by simp [Expr.wholeValue?, Expr.isForgotten, Expr.bare]
  | .member base name => by
    simp [Expr.wholeValue?, Expr.isForgotten, Expr.bare, evaluate_member]
  | .index base key => by
    simp [Expr.wholeValue?, Expr.isForgotten, Expr.bare, evaluate_index]
  | .literal _ | .unary _ _ | .binary _ _ _ | .cond _ _ _ => by
    simp [Expr.wholeValue?, Expr.isForgotten, Expr.bare, evaluate]
  | .assign (some _) _ _ | .absent | .object _ | .spread _ | .arrayPattern _ | .objectPattern _
  | .withDefault _ _ | .closure _ | .classExpr _ _ _ | .other _ _ => by
    simp [Expr.wholeValue?, Expr.isForgotten, Expr.bare, evaluate]

/-- **Reading a constant is evaluating its initial value.** If nothing is recorded
for names that must not be read, a constant that may be read, with a name for which
nothing is recorded and that has no fixed value, is read as what its initial value
evaluates to; except that it has no value if the initial value is, under parentheses
and plain assignments, an array or the name of a fixed value that is not recorded. -/
theorem evaluate_bind (name : String) (e : Expr)
    (hreadable : ∀ entry ∈ known.entries, known.isShadowed entry.1.binding = false)
    (hnew : known.lookup? (.root name) = none) (hread : known.isShadowed name = false)
    (hfixed : globalValue? name = none) :
    evaluate (bind known (.mk (.ident name) e)) (.ident name) =
      if e.isForgotten known then none else evaluate known e := by
  rw [← wholeValue?_eq hreadable e, bind]
  simp only [evaluate, isShadowed_learn, hread, Bool.false_eq_true, if_false, hfixed,
    Option.or_none, lookup?_learn, hnew, Option.none_or, Declarator.facts]
  exact firstValue?_factsOf known (.root name) e

end Constant

/-- Of `y` it is known that `y.on` is true, and `z` must not be read. -/
def switchedOn : Associations := .of [(⟨"y", [.name "on"]⟩, .bool true)] ["z"]

/-- The constant `x` after `const x = (t = y.on && [z])` is true, as the array is an
operand, and after `const x = (t = [y.on])` it has no value, although the initial
value has one. -/
theorem evaluate_bind_switchedOn :
    let operand : Expr := .paren (.assign none (.ident "t")
      (.binary .and (.member (.ident "y") "on") (.array [.ident "z"])))
    let whole : Expr := .paren (.assign none (.ident "t") (.array [.member (.ident "y") "on"]))
    (∀ entry ∈ switchedOn.entries, switchedOn.isShadowed entry.1.binding = false) ∧
      evaluate (bind switchedOn (.mk (.ident "x") operand)) (.ident "x") = some (.bool true) ∧
      evaluate switchedOn whole = some (.bool true) ∧
      evaluate (bind switchedOn (.mk (.ident "x") whole)) (.ident "x") = none := by
  intro operand whole
  have hreadable : ∀ entry ∈ switchedOn.entries,
      switchedOn.isShadowed entry.1.binding = false := by decide +kernel
  have hbind := fun e => evaluate_bind "x" e hreadable (by decide +kernel)
    (by decide +kernel) (by decide +kernel)
  refine ⟨hreadable, (hbind operand).trans ?_, ?_, (hbind whole).trans ?_⟩ <;> decide +kernel

end DeadBranch
