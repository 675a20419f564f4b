/-
# Recording only ever adds

All that is done to what is known is one of four updates: a fact is recorded, what
is known below a path is adopted below another, a name becomes unreadable, or a
constant is bound, which records its facts. However many updates are made, in
whatever order, the facts stay where they are and further ones come behind them
(`entries_update`). So a lookup that has an answer keeps it, and the index, which
every update extends by the paths that are new, lists each recorded path once,
with the first position at which it stands.

Key definitions: `Update`, `Associations.update`, `Associations.updateAll`,
`Associations.added`.
Key theorems: `entries_update`, `mem_first_iff`, `entries_prefix_updateAll`,
`updateAll_first_match`.
-/
import DeadBranch.Proofs.Facts
import Mathlib.Order.Bounds.Defs

namespace DeadBranch

/-- Something that is done to what is known. -/
inductive Update where
  | record (path : Path) (value : Value)
  | adopt (source target : Path)
  | shadow (name : String)
  | bind (d : Declarator)

namespace Associations

/-- What is known after an update. -/
def update (a : Associations) : Update → Associations
  | .record path value => a.record path value
  | .adopt source target => a.adopt source target
  | .shadow name => a.shadow name
  | .bind d => DeadBranch.bind a d

/-- What is known after several updates, in order. -/
def updateAll (a : Associations) (updates : List Update) : Associations := updates.foldl update a

/-- The facts that an update adds. -/
def added (a : Associations) : Update → List (Path × Value)
  | .record path value => [(path, value)]
  | .adopt source target => a.copies source target
  | .shadow _ => []
  | .bind d => (d.facts a).map fun f => (f.path, f.value)

/-! ### What one update does -/

/-- The facts before an update stay in front, and those it adds come behind. -/
theorem entries_update (a : Associations) (u : Update) :
    (a.update u).entries = a.entries ++ a.added u := by
  cases u with
  | record path value => rfl
  | adopt source target => exact entries_recordAll _ a
  | shadow name => exact (List.append_nil _).symm
  | bind d => exact entries_learn a (d.facts a)

/-- An update extends the index as recording its facts one by one does. -/
theorem first_update (a : Associations) (u : Update) :
    (a.update u).first = (a.recordAll (a.added u)).first := by
  cases u <;> rfl

/-- Binding a constant makes no name unreadable. -/
theorem shadowed_bind (a : Associations) (d : Declarator) :
    (a.update (.bind d)).shadowed = a.shadowed :=
  shadowed_learn a (d.facts a)

/-- All that binding a constant adds is about its name. -/
theorem binding_of_mem_added {a : Associations} {d : Declarator} {entry : Path × Value}
    (hentry : entry ∈ a.added (.bind d)) : d.name? = some entry.1.binding := by
  obtain ⟨f, hf, rfl⟩ := List.mem_map.mp hentry
  exact Declarator.facts_binding hf

/-! ### The index -/

/-- A path that is new to the index is added to it, no other. -/
theorem nodup_positions {first : List (Path × Nat)} (h : (first.map (·.1)).Nodup) (path : Path)
    (position : Nat) : ((positions first path position).map (·.1)).Nodup := by
  unfold positions
  split
  · exact h
  · rename_i hnew
    have hnone : first.lookup path = none := Option.not_isSome_iff_eq_none.mp hnew
    have habsent : path ∉ first.map (·.1) := by
      intro hmem
      obtain ⟨entry, hentry, rfl⟩ := List.mem_map.mp hmem
      have hne := List.lookup_eq_none_iff.mp hnone entry hentry
      simp at hne
    exact List.nodup_cons.mpr ⟨habsent, h⟩

theorem nodup_recordAll (facts : List (Path × Value)) : ∀ {a : Associations},
    (a.first.map (·.1)).Nodup → ((a.recordAll facts).first.map (·.1)).Nodup := by
  induction facts with
  | nil => intro a h; exact h
  | cons fact rest ih =>
    intro a h
    have hstep : ((a.record fact.1 fact.2).first.map (·.1)).Nodup :=
      nodup_positions h fact.1 a.entries.length
    exact ih hstep

/-- No sequence of updates makes the index list a path twice. -/
theorem nodup_updateAll (updates : List Update) : ∀ {a : Associations},
    (a.first.map (·.1)).Nodup → ((a.updateAll updates).first.map (·.1)).Nodup := by
  induction updates with
  | nil => intro a h; exact h
  | cons u rest ih =>
    intro a h
    have hstep : ((a.update u).first.map (·.1)).Nodup := by
      rw [first_update]
      exact nodup_recordAll (a.added u) h
    exact ih hstep

/-- The index finds for a path the least position of a fact about it. -/
theorem lookup_first_iff (a : Associations) (path : Path) (i : Nat) :
    a.first.lookup path = some i ↔ IsLeast {j | ∃ v, a.entries[j]? = some (path, v)} i := by
  rw [a.first_lookup, List.findIdx?_eq_some_iff_getElem]
  constructor
  · rintro ⟨hlt, hpath, hbefore⟩
    have hpath : a.entries[i].1 = path := by simpa using hpath
    refine ⟨⟨a.entries[i].2, ?_⟩, ?_⟩
    · rw [List.getElem?_eq_getElem hlt, ← hpath]
    · rintro j ⟨v, hj⟩
      by_contra hji
      have hother := hbefore j (Nat.lt_of_not_le hji)
      obtain ⟨hjlt, heq⟩ := List.getElem?_eq_some_iff.mp hj
      simp [heq] at hother
  · rintro ⟨⟨v, hv⟩, hleast⟩
    obtain ⟨hlt, heq⟩ := List.getElem?_eq_some_iff.mp hv
    refine ⟨hlt, by simp [heq], fun j hj hpath => ?_⟩
    have hjlt : j < a.entries.length := Nat.lt_trans hj hlt
    have hmem : ∃ w, a.entries[j]? = some (path, w) := by
      refine ⟨a.entries[j].2, ?_⟩
      have hpath : a.entries[j].1 = path := by simpa using hpath
      rw [List.getElem?_eq_getElem hjlt, ← hpath]
    exact Nat.not_le_of_lt hj (hleast hmem)

/-- What stands in an index without repetitions is what it finds. -/
theorem mem_first_iff {a : Associations} (h : (a.first.map (·.1)).Nodup) (path : Path) (i : Nat) :
    (path, i) ∈ a.first ↔ a.first.lookup path = some i := by
  rw [List.lookup_eq_some_iff]
  constructor
  · intro hmem
    obtain ⟨before, after, hsplit⟩ := List.append_of_mem hmem
    refine ⟨before, after, hsplit, fun entry hentry => ?_⟩
    rw [hsplit, List.map_append, List.map_cons] at h
    have hne : entry.1 ≠ path :=
      (List.nodup_append.mp h).2.2 entry.1 (List.mem_map_of_mem hentry) path List.mem_cons_self
    simpa using hne.symm
  · rintro ⟨before, after, hsplit, -⟩
    rw [hsplit]
    exact List.mem_append_right before List.mem_cons_self

/-! ### What many updates do -/

theorem entries_prefix_updateAll (updates : List Update) : ∀ a : Associations,
    a.entries <+: (a.updateAll updates).entries := by
  induction updates with
  | nil => intro a; exact List.prefix_rfl
  | cons u rest ih =>
    intro a
    have hstep : a.entries <+: (a.update u).entries := ⟨a.added u, (entries_update a u).symm⟩
    exact hstep.trans (ih (a.update u))

/-- Facts that come behind change no answer. -/
theorem lookup?_of_prefix {a b : Associations} (h : a.entries <+: b.entries) {path : Path}
    {v : Value} (hv : a.lookup? path = some v) : b.lookup? path = some v := by
  obtain ⟨more, hmore⟩ := h
  rw [lookup?_eq_find?] at hv ⊢
  obtain ⟨entry, hentry, rfl⟩ := Option.map_eq_some_iff.mp hv
  rw [← hmore, List.find?_append, hentry]
  rfl

end Associations

open Associations

/-- **What is known is a log whose first match counts.** After any updates of what
is known from nothing: the index lists exactly the recorded paths, each with the
least position of a fact about it, which is a position in the log; a lookup
answers as a search through the log does; the next update leaves the facts where
they are; an answer stays the same whatever updates follow; and binding a constant
adds only facts about its name and makes no name unreadable. -/
theorem updateAll_first_match (updates : List Update) :
    let a := Associations.empty.updateAll updates
    (∀ path i, (path, i) ∈ a.first ↔ IsLeast {j | ∃ v, a.entries[j]? = some (path, v)} i) ∧
      (∀ entry ∈ a.entries, ∃ i, (entry.1, i) ∈ a.first) ∧
      (∀ entry ∈ a.first, entry.2 < a.entries.length) ∧
      (∀ path, a.lookup? path = (a.entries.find? (·.1 = path)).map (·.2)) ∧
      (∀ u, a.entries <+: (a.update u).entries) ∧
      (∀ more path v, a.lookup? path = some v → (a.updateAll more).lookup? path = some v) ∧
      (∀ d : Declarator, (a.update (.bind d)).shadowed = a.shadowed ∧
        ∃ added, (a.update (.bind d)).entries = a.entries ++ added ∧
          ∀ entry ∈ added, d.name? = some entry.1.binding) := by
  intro a
  have hnodup : (a.first.map (·.1)).Nodup := nodup_updateAll updates List.nodup_nil
  have hindex : ∀ path i, (path, i) ∈ a.first ↔ a.first.lookup path = some i :=
    mem_first_iff hnodup
  refine ⟨fun path i => ?_, fun entry hentry => ?_, fun entry hentry => ?_, a.lookup?_eq_find?,
    fun u => ?_, fun more path v hv => ?_, fun d => ⟨a.shadowed_bind d, ?_⟩⟩
  · rw [hindex, lookup_first_iff]
  · have hsome : (a.first.lookup entry.1).isSome := by
      rw [a.first_lookup, List.findIdx?_isSome, List.any_eq_true]
      exact ⟨entry, hentry, by simp⟩
    obtain ⟨i, hi⟩ := Option.isSome_iff_exists.mp hsome
    exact ⟨i, (hindex entry.1 i).mpr hi⟩
  · exact lt_length ((hindex entry.1 entry.2).mp hentry)
  · exact entries_prefix_updateAll [u] a
  · exact lookup?_of_prefix (entries_prefix_updateAll more a) hv
  · exact ⟨a.added (.bind d), entries_update a (.bind d), fun _ => binding_of_mem_added⟩

end DeadBranch
