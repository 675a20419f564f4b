/-
# Variables in a store

A store holds one layer of variables for every open block, the innermost first.
Entering a block opens a layer with all the names that the block declares, none of
which has a value yet; a declaration gives its name a value when it is come to. To
read a name that has no value yet is an error.

A constant gets its value once. So where more declarations have run, the constants
that had a value before still have it (`Store.Grows`).

Key definitions: `Cell`, `Store`, `Host.over`, `hoisted`, `Store.Grows`.
Key theorems: `Store.grows_fill`.
-/
import DeadBranch.Proofs.SideEffects
import Mathlib.Data.List.Nodup

namespace DeadBranch

/-! ### Stores -/

/-- A variable of a block. -/
structure Cell where
  name : String
  isConst : Bool
  /-- What it holds; nothing before its declaration has run. -/
  value : Option Datum

/-- The variables of a block. -/
abbrev Layer := List Cell

/-- The variables of the open blocks, the innermost first. -/
abbrev Store := List Layer

/-- The variables with a name get a value. -/
def Layer.fill (name : String) (d : Datum) (layer : Layer) : Layer :=
  layer.map fun c => if c.name = name then { c with value := some d } else c

namespace Store

/-- The variable that a name refers to. -/
def find? (name : String) : Store → Option Cell
  | [] => none
  | layer :: outer => (layer.find? (·.name = name)).or (find? name outer)

/-- Assigns to the variable that a name refers to. -/
def assign (name : String) (d : Datum) : Store → Store
  | [] => []
  | layer :: outer =>
    if layer.any (·.name = name) then layer.fill name d :: outer else layer :: assign name d outer

end Store

/-- A host with the variables of a store in front of it. -/
def Host.over (h : Host) (store : Store) : Host :=
  { h with
    read := fun done name =>
      match store.find? name with
      | some c => match c.value with
        | some d => .holds d
        | none => .pending
      | none => match globalValue? name with
        | some v => .holds (.plain v)
        | none => h.read done name }

/-- The variables that a declaration declares. -/
def Declarator.cells (kind : VarKind) : Declarator → Layer
  | .mk (.ident name) _ => [⟨name, kind == .constKind, none⟩]
  | _ => []

/-- The variables that a statement of a block declares for the block. -/
def Stmt.cells : Stmt → Layer
  | .decl (.vars kind declarators) => declarators.flatMap (·.cells kind)
  | _ => []

/-- The variables of a block before it runs. -/
def hoisted (stmts : List Stmt) : Layer := stmts.flatMap Stmt.cells

/-- The value that an assignment assigns, as an expression. -/
def assigned (op : Option BinaryOp) (name : String) (value : Expr) : Expr :=
  match op with
  | none => value
  | some op => .binary op (.ident name) value

/-! ### What variables hold later on -/

theorem Layer.find?_of_mem : ∀ {layer : Layer}, (layer.map (·.name)).Nodup → ∀ {c : Cell},
    c ∈ layer → layer.find? (·.name = c.name) = some c
  | [], _, _, hc => by simp at hc
  | c' :: layer, hnodup, c, hc => by
    simp only [List.map_cons, List.nodup_cons] at hnodup
    rcases List.mem_cons.mp hc with rfl | hc
    · simp
    · have hne : c'.name ≠ c.name := fun h => hnodup.1 (h ▸ List.mem_map_of_mem hc)
      simp [hne, find?_of_mem hnodup.2 hc]

theorem Store.find?_cons_of_notMem {layer : Layer} {outer : Store} {name : String}
    (hname : name ∉ layer.map (·.name)) :
    Store.find? name (layer :: outer) = outer.find? name := by
  have hnone : layer.find? (·.name = name) = none := by
    simp only [List.find?_eq_none, decide_eq_true_eq]
    exact fun c hc h => hname (h ▸ List.mem_map_of_mem hc)
  rw [Store.find?, hnone, Option.none_or]

/-- No variable has the name of a global value. -/
def Store.IsOrdinary (store : Store) : Prop :=
  ∀ name c, store.find? name = some c → globalValue? name = none

/-- The constants of the later store are constants of the earlier one, and those that
had a value have it still. -/
def Store.Grows (store store' : Store) : Prop :=
  ∀ name c', store'.find? name = some c' → c'.isConst →
    ∃ c, store.find? name = some c ∧ c.isConst ∧ ∀ d ∈ c.value, c'.value = some d

theorem Store.Grows.refl (store : Store) : store.Grows store :=
  fun _ c hc hconst => ⟨c, hc, hconst, fun _ hd => hd⟩

theorem Store.Grows.cons {outer outer' : Store} (hgrows : outer.Grows outer') (layer : Layer) :
    Store.Grows (layer :: outer) (layer :: outer') := by
  intro name c' hc' hconst'
  simp only [Store.find?] at hc' ⊢
  cases hl : layer.find? (·.name = name) with
  | some c =>
    obtain rfl : c = c' := by simpa [hl] using hc'
    exact ⟨c, by simp, hconst', fun d hd => hd⟩
  | none =>
    rw [hl, Option.none_or] at hc'
    simpa using hgrows name c' hc' hconst'

section Fill

variable {layer : Layer} {outer : Store} {name : String} {d : Datum}

theorem Layer.mem_fill {c : Cell} : c ∈ layer.fill name d ↔
    (c ∈ layer ∧ c.name ≠ name) ∨
      ∃ c' ∈ layer, c'.name = name ∧ c = { c' with value := some d } := by
  simp only [Layer.fill, List.mem_map]
  constructor
  · rintro ⟨c', hc', rfl⟩
    by_cases hname : c'.name = name
    · exact .inr ⟨c', hc', hname, if_pos hname⟩
    · rw [if_neg hname]
      exact .inl ⟨hc', hname⟩
  · rintro (⟨hc, hname⟩ | ⟨c', hc', hname, rfl⟩)
    · exact ⟨c, hc, if_neg hname⟩
    · exact ⟨c', hc', if_pos hname⟩

@[simp] theorem Layer.names_fill : (layer.fill name d).map (·.name) = layer.map (·.name) := by
  simp only [Layer.fill, List.map_map]
  refine List.map_congr_left fun c _ => ?_
  by_cases hname : c.name = name <;> simp [hname]

theorem Store.find?_fill_of_ne {other : String} (h : other ≠ name) :
    Store.find? other (layer.fill name d :: outer) = Store.find? other (layer :: outer) := by
  have hfind : (layer.fill name d).find? (·.name = other) = layer.find? (·.name = other) := by
    induction layer with
    | nil => rfl
    | cons c layer ih =>
      by_cases hc : c.name = name
      · have hne : ¬ name = other := fun hname => h hname.symm
        simp only [Layer.fill, List.map_cons, hc, if_true, List.find?_cons, hne, decide_false]
        exact ih
      · simp only [Layer.fill, List.map_cons, hc, if_false, List.find?_cons]
        cases decide (c.name = other) with
        | true => rfl
        | false => exact ih
  rw [Store.find?, Store.find?, hfind]

/-- Giving a value to a variable, or to a constant without one, takes nothing
from what holds. -/
theorem Store.grows_fill (hnodup : (layer.map (·.name)).Nodup)
    (hready : ∀ c ∈ layer, c.name = name → c.isConst = false ∨ c.value = none) :
    Store.Grows (layer :: outer) (layer.fill name d :: outer) := by
  intro m c' hc' hconst'
  by_cases hm : m ∈ layer.map (·.name)
  · obtain ⟨c₀, hc₀, rfl⟩ := List.mem_map.mp hm
    have hfind₀ := Layer.find?_of_mem hnodup hc₀
    refine ⟨c₀, by rw [Store.find?, hfind₀, Option.some_or], ?_⟩
    -- the variable of that name before and after
    obtain ⟨c₁, hc₁, hname₁⟩ : ∃ c₁ ∈ layer.fill name d, c₁.name = c₀.name := by
      exact List.mem_map.mp (Layer.names_fill.symm ▸ hm)
    have hfind₁ := Layer.find?_of_mem (Layer.names_fill.symm ▸ hnodup) hc₁
    obtain rfl : c₁ = c' := by
      rw [Store.find?, ← hname₁, hfind₁, Option.some_or] at hc'
      exact Option.some.inj hc'
    rcases Layer.mem_fill.mp hc₁ with ⟨hc₁, -⟩ | ⟨c₂, hc₂, hname₂, rfl⟩
    · obtain rfl : c₁ = c₀ := List.inj_on_of_nodup_map hnodup hc₁ hc₀ hname₁
      exact ⟨hconst', fun _ hd => hd⟩
    · obtain rfl : c₂ = c₀ := List.inj_on_of_nodup_map hnodup hc₂ hc₀ hname₁
      rcases hready c₂ hc₂ hname₂ with hlet | hnone
      · simp [hlet] at hconst'
      · exact ⟨hconst', by simp [hnone]⟩
  · rw [Store.find?_cons_of_notMem (Layer.names_fill.symm ▸ hm)] at hc'
    exact ⟨c', (Store.find?_cons_of_notMem hm).trans hc', hconst', fun _ hd => hd⟩

end Fill

end DeadBranch
