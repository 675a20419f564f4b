/-
# The variables of open blocks

The bindings of every block that a run has entered and not left are split into those
whose declaration has run and those whose declaration is still to come (`OpenBlock`).
A store fits the open blocks if it has the variables that they say, and those to come
have no value (`Fits`). Entering a block, running a declaration and assigning to a
variable keep it so.

Key definitions: `OpenBlock`, `doneOf`, `pendingOf`, `Fits`.
Key theorems: `Fits.find?_pending`, `Fits.enter`, `Fits.declare`, `Fits.assign`.
-/
import DeadBranch.Proofs.Store
import DeadBranch.Scope.Graph

namespace DeadBranch

/-! ### Open blocks -/

/-- The bindings of an open block. -/
structure OpenBlock where
  /-- Those whose declaration has run, in order. -/
  done : List Binding
  /-- Those whose declaration is to come, in order. -/
  pending : List Binding

/-- The names of an open block. -/
def OpenBlock.names (l : OpenBlock) : List String := (l.done ++ l.pending).map (·.name)

/-- All bindings of several open blocks that have run, from the outermost inwards. -/
def doneOf : List OpenBlock → List Binding
  | [] => []
  | l :: outer => doneOf outer ++ l.done

/-- All bindings of several open blocks that are to come, from the innermost
outwards. -/
def pendingOf : List OpenBlock → List Binding
  | [] => []
  | l :: outer => l.pending ++ pendingOf outer

/-- All names of several open blocks. -/
def namesOf (blocks : List OpenBlock) : List String := blocks.flatMap (·.names)

theorem count_namesOf (name : String) : ∀ blocks : List OpenBlock,
    ((doneOf blocks ++ pendingOf blocks).filter (·.name == name)).length =
      (namesOf blocks).count name
  | [] => rfl
  | l :: outer => by
    have ih := count_namesOf name outer
    simp only [List.filter_append, List.length_append] at ih
    have hl : ∀ bs : List Binding,
        (bs.filter (·.name == name)).length = (bs.map (·.name)).count name := by
      intro bs
      rw [List.count, List.countP_map, List.countP_eq_length_filter]
      rfl
    simp only [doneOf, pendingOf, namesOf, OpenBlock.names, List.flatMap_cons, List.count_append,
      List.filter_append, List.length_append, List.map_append, hl] at ih ⊢
    omega

theorem count_namesOf_cons (l : OpenBlock) (blocks : List OpenBlock) (name : String) :
    (namesOf (l :: blocks)).count name = l.names.count name + (namesOf blocks).count name := by
  simp [namesOf, List.count_append]

theorem count_namesOf_tail {l : OpenBlock} {blocks : List OpenBlock} {name : String}
    (h : (namesOf (l :: blocks)).count name ≤ 1) : (namesOf blocks).count name ≤ 1 := by
  rw [count_namesOf_cons] at h
  omega

/-- A name that stands once, further out, is none of the innermost block. -/
theorem notMem_names_of_count {l : OpenBlock} {blocks : List OpenBlock} {name : String}
    (h : (namesOf (l :: blocks)).count name ≤ 1) (hname : name ∈ namesOf blocks) :
    name ∉ l.names := by
  intro hmem
  rw [count_namesOf_cons] at h
  have hinside := List.count_pos_iff.mpr hmem
  have houtside := List.count_pos_iff.mpr hname
  omega

theorem mem_namesOf_of_done {b : Binding} : ∀ {blocks : List OpenBlock},
    b ∈ doneOf blocks → b.name ∈ namesOf blocks
  | [], hb => by simp [doneOf] at hb
  | l :: blocks, hb => by
    simp only [namesOf, List.flatMap_cons, List.mem_append]
    rcases List.mem_append.mp hb with hb | hb
    · exact .inr (mem_namesOf_of_done hb)
    · exact .inl (List.mem_map_of_mem (List.mem_append_left _ hb))

theorem mem_namesOf_of_pending {b : Binding} : ∀ {blocks : List OpenBlock},
    b ∈ pendingOf blocks → b.name ∈ namesOf blocks
  | [], hb => by simp [pendingOf] at hb
  | l :: blocks, hb => by
    simp only [namesOf, List.flatMap_cons, List.mem_append]
    rcases List.mem_append.mp hb with hb | hb
    · exact .inl (List.mem_map_of_mem (List.mem_append_right _ hb))
    · exact .inr (mem_namesOf_of_pending hb)

/-! ### Stores that fit -/

/-- The variables of a block are those declared in it, and the ones to come have no
value. -/
structure OpenBlock.Fits (l : OpenBlock) (layer : Layer) : Prop where
  ordinary : ∀ b ∈ l.done ++ l.pending, globalValue? b.name = none
  names : layer.map (·.name) = l.names
  nodup : l.names.Nodup
  kinds : ∀ b ∈ l.done ++ l.pending, ∀ c ∈ layer, c.name = b.name →
    c.isConst = b.kind.isImmutable
  waiting : ∀ b ∈ l.pending, ∀ c ∈ layer, c.name = b.name → c.value = none

/-- The store has the variables of the open blocks, the innermost first. -/
def Fits : List OpenBlock → Store → Prop
  | [], [] => True
  | l :: blocks, layer :: outer => l.Fits layer ∧ Fits blocks outer
  | _, _ => False

section FitsBlock

variable {l : OpenBlock} {layer : Layer} (hl : l.Fits layer)
include hl

/-- A binding of the innermost block has its variable in the store. -/
theorem OpenBlock.Fits.find? (outer : Store) {b : Binding} (hb : b ∈ l.done ++ l.pending) :
    ∃ c ∈ layer, c.name = b.name ∧ Store.find? b.name (layer :: outer) = some c := by
  have hmem : b.name ∈ layer.map (·.name) := hl.names ▸ List.mem_map_of_mem hb
  obtain ⟨c, hc, hname⟩ := List.mem_map.mp hmem
  refine ⟨c, hc, hname, ?_⟩
  rw [Store.find?, ← hname, Layer.find?_of_mem (hl.names ▸ hl.nodup) hc, Option.some_or]

/-- A variable of the innermost block has its binding. -/
theorem OpenBlock.Fits.binding {c : Cell} (hc : c ∈ layer) :
    ∃ b ∈ l.done ++ l.pending, b.name = c.name := by
  have hmem : c.name ∈ l.names := hl.names ▸ List.mem_map_of_mem hc
  obtain ⟨b, hb, hname⟩ := List.mem_map.mp hmem
  exact ⟨b, hb, hname⟩

/-- A variable of the innermost block gets a value, and its declaration may have
run by that. -/
theorem OpenBlock.Fits.fill {name : String} {l' : OpenBlock}
    (hsame : l'.done ++ l'.pending = l.done ++ l.pending)
    (hpending : ∀ b ∈ l'.pending, b ∈ l.pending ∧ b.name ≠ name) (d : Datum) :
    l'.Fits (layer.fill name d) := by
  have hnames : l'.names = l.names := by
    rw [OpenBlock.names, OpenBlock.names, hsame]
  refine ⟨hsame ▸ hl.ordinary, ?_, hnames ▸ hl.nodup, ?_, ?_⟩
  · rw [Layer.names_fill, hl.names, hnames]
  · intro b hb c hc hname
    rw [hsame] at hb
    rcases Layer.mem_fill.mp hc with ⟨hc, -⟩ | ⟨c', hc', -, rfl⟩
    · exact hl.kinds b hb c hc hname
    · exact hl.kinds b hb c' hc' hname
  · intro b hb c hc hname
    obtain ⟨hb, hne⟩ := hpending b hb
    rcases Layer.mem_fill.mp hc with ⟨hc, -⟩ | ⟨c', -, hname', rfl⟩
    · exact hl.waiting b hb c hc hname
    · exact absurd (hname.symm.trans hname') hne

end FitsBlock

theorem Fits.isOrdinary : ∀ {blocks : List OpenBlock} {store : Store}, Fits blocks store →
    store.IsOrdinary
  | [], [], _ => by simp [Store.IsOrdinary, Store.find?]
  | l :: blocks, layer :: outer, ⟨hl, houter⟩ => by
    intro name c hc
    simp only [Store.find?] at hc
    cases hfind : layer.find? (·.name = name) with
    | some c' =>
      obtain rfl : c'.name = name := by simpa using List.find?_some hfind
      obtain ⟨b, hb, hname⟩ := hl.binding (List.mem_of_find?_eq_some hfind)
      exact hname ▸ hl.ordinary b hb
    | none =>
      rw [hfind, Option.none_or] at hc
      exact houter.isOrdinary name c hc

/-- A binding to come is found without a value, if no other has its name. -/
theorem Fits.find?_pending : ∀ {blocks : List OpenBlock} {store : Store}, Fits blocks store →
    ∀ {b : Binding}, b ∈ pendingOf blocks → (namesOf blocks).count b.name ≤ 1 →
      ∃ c, store.find? b.name = some c ∧ c.isConst = b.kind.isImmutable ∧ c.value = none
  | [], [], _, b, hb, _ => by simp [pendingOf] at hb
  | l :: blocks, layer :: outer, ⟨hl, houter⟩, b, hb, hcount => by
    rcases List.mem_append.mp hb with hb | hb
    · have hb' := List.mem_append_right l.done hb
      obtain ⟨c, hc, hname, hfind⟩ := hl.find? outer hb'
      exact ⟨c, hfind, hl.kinds b hb' c hc hname, hl.waiting b hb c hc hname⟩
    · obtain ⟨c, hfind, hkind, hvalue⟩ := houter.find?_pending hb (count_namesOf_tail hcount)
      have hname := notMem_names_of_count hcount (mem_namesOf_of_pending hb)
      exact ⟨c, (Store.find?_cons_of_notMem (hl.names ▸ hname)).trans hfind, hkind, hvalue⟩

/-! ### Steps of a run -/

/-- A variable that nothing was assigned to yet. -/
def Binding.cell (b : Binding) : Cell := ⟨b.name, b.kind.isImmutable, none⟩

/-- A block is entered. -/
theorem Fits.enter {blocks : List OpenBlock} {store : Store} (hfits : Fits blocks store)
    {pending : List Binding} (hordinary : ∀ b ∈ pending, globalValue? b.name = none)
    (hnodup : (pending.map (·.name)).Nodup) :
    Fits (⟨[], pending⟩ :: blocks) (pending.map Binding.cell :: store) := by
  have hunique : ∀ b ∈ pending, ∀ c ∈ pending.map Binding.cell, c.name = b.name → c = b.cell := by
    intro b hb c hc hname
    obtain ⟨b', hb', rfl⟩ := List.mem_map.mp hc
    rw [List.inj_on_of_nodup_map hnodup hb' hb hname]
  refine ⟨⟨hordinary, ?_, hnodup, ?_, ?_⟩, hfits⟩
  · simp [OpenBlock.names, Binding.cell]
  · intro b hb c hc hname
    rw [hunique b hb c hc hname, Binding.cell]
  · intro b hb c hc hname
    rw [hunique b hb c hc hname, Binding.cell]

/-- The next declaration of the innermost block runs. -/
theorem Fits.declare {done pending : List Binding} {b : Binding} {blocks : List OpenBlock}
    {layer : Layer} {outer : Store} (hfits : Fits (⟨done, b :: pending⟩ :: blocks) (layer :: outer))
    (d : Datum) : Fits (⟨done ++ [b], pending⟩ :: blocks) (layer.fill b.name d :: outer) ∧
      Store.Grows (layer :: outer) (layer.fill b.name d :: outer) := by
  obtain ⟨hl, houter⟩ := hfits
  have hnodup := hl.nodup
  simp only [OpenBlock.names, List.map_append, List.map_cons, List.nodup_append,
    List.nodup_cons] at hnodup
  obtain ⟨-, ⟨hpending, -⟩, -⟩ := hnodup
  refine ⟨⟨hl.fill (by simp) (fun b' hb' => ?_) d, houter⟩, ?_⟩
  · exact ⟨List.mem_cons_of_mem _ hb', fun hname => hpending (hname ▸ List.mem_map_of_mem hb')⟩
  · refine Store.grows_fill (hl.names ▸ hl.nodup) fun c hc hname => .inr ?_
    exact hl.waiting b List.mem_cons_self c hc hname

/-- A variable is assigned to. -/
theorem Fits.assign {name : String} {c : Cell} (d : Datum) (hlet : c.isConst = false)
    (hready : c.value.isSome) : ∀ {blocks : List OpenBlock} {store : Store}, Fits blocks store →
    store.find? name = some c →
      Fits blocks (store.assign name d) ∧ store.Grows (store.assign name d)
  | [], [], _, hc => by simp [Store.find?] at hc
  | l :: blocks, layer :: outer, ⟨hl, houter⟩, hc => by
    have hnodup : (layer.map (·.name)).Nodup := hl.names ▸ hl.nodup
    by_cases hmem : layer.any (·.name = name)
    · -- the variable is the only one of that name in the layer
      have hcell : ∀ c' ∈ layer, c'.name = name → c' = c := by
        rintro c' hc' rfl
        rw [Store.find?, Layer.find?_of_mem hnodup hc', Option.some_or] at hc
        exact Option.some.inj hc
      have hlets : ∀ c' ∈ layer, c'.name = name → c'.isConst = false ∨ c'.value = none :=
        fun c' hc' hname => .inl (hcell c' hc' hname ▸ hlet)
      rw [Store.assign, if_pos hmem]
      refine ⟨⟨hl.fill rfl (fun b hb => ⟨hb, ?_⟩) d, houter⟩, Store.grows_fill hnodup hlets⟩
      rintro rfl
      obtain ⟨c', hc', hname, -⟩ := hl.find? outer (List.mem_append_right _ hb)
      have hnone := hl.waiting b hb c' hc' hname
      rw [hcell c' hc' hname] at hnone
      simp [hnone] at hready
    · have hnone : layer.find? (·.name = name) = none := by
        simpa [List.find?_eq_none, List.any_eq_true] using hmem
      rw [Store.find?, hnone, Option.none_or] at hc
      obtain ⟨hfits, hgrows⟩ := houter.assign d hlet hready hc
      rw [Store.assign, if_neg hmem]
      exact ⟨⟨hl, hfits⟩, hgrows.cons layer⟩

end DeadBranch
