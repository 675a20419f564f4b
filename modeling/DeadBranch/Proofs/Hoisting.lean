/-
# Hoisted names that are lost with a dropped branch

A `var` or a function declaration declares its name for the whole function
around it, also from within a branch that never runs. A dropped part takes its
declarations with it, so a function that is left may declare less than before
(`exists_lost_declaration`). Here is what exactly: each function, and the
program, is listed with its hoisted declarations, and each of these with the
`if` statements around it (`FunctionSite`). What is left of a program has the
functions outside all dropped parts, in the same order, and each of them
declares the names that it has a declaration of outside all dropped parts.

Key definitions: `FunctionNames`, `Program.functions`, `Hoisting`,
`FunctionSite`, `Program.functionSites`.
Key theorems: `Outline.hoistedNames_pruned`, `Outline.functions_pruned`,
`shrink_functions`, `exists_lost_declaration`.
-/
import DeadBranch.Proofs.Invariance

namespace DeadBranch

/-! ### Hoisted names -/

/-- The names that a declaration declares for the whole function around it. -/
def Declaration.hoistedNames : Declaration → List String
  | .vars .varKind declarators => declarators.flatMap fun (.mk target _) => target.boundNames
  | .function name => [name]
  | _ => []

/-- The names that are declared for the whole function around an outline, in the
order of their declarations. -/
def Outline.hoistedNames : Outline → List String
  | .blank => []
  | .both first second => first.hoistedNames ++ second.hoistedNames
  | .scope _ _ _ => []
  | .block _ inside => inside.hoistedNames
  | .declare d => d.hoistedNames
  | .choice _ _ _ inTest consequent alternate =>
    inTest.hoistedNames ++ consequent.hoistedNames ++ alternate.hoistedNames

/-- A function, or the program, with the hoisted names that it declares. -/
structure FunctionNames where
  key : ScopeKey
  names : List String
deriving DecidableEq, Repr

/-- The functions of an outline, in order. -/
def Outline.functions : Outline → List FunctionNames
  | .blank => []
  | .both first second => first.functions ++ second.functions
  | .scope key _ inside => ⟨key, inside.hoistedNames⟩ :: inside.functions
  | .block _ inside => inside.functions
  | .declare _ => []
  | .choice _ _ _ inTest consequent alternate =>
    inTest.functions ++ consequent.functions ++ alternate.functions

/-- The name of a function. -/
def Closure.name? : Closure → Option String
  | .block head _ _ _ | .concise head _ _ _ => head.name

/-- The name that is declared by exporting a function as the default. -/
def Item.defaultName? : Item → Option String
  | .exportDefault true (.closure body) => body.name?
  | _ => none

/-- The functions of a program, the program itself first. -/
def Program.functions (p : Program) : List FunctionNames :=
  ⟨.program, p.items.filterMap Item.defaultName? ++ p.outline.hoistedNames⟩ :: p.outline.functions

/-! ### Hoisted names with the `if` statements around them -/

/-- A hoisted name, with the `if` statements around its declaration. -/
structure Hoisting where
  name : String
  around : List (Conditional × Part)

/-- A function with its hoisted names, and the `if` statements around it. -/
structure FunctionSite where
  key : ScopeKey
  around : List (Conditional × Part)
  hoistings : List Hoisting

section Sites

variable (g : ScopeGraph)

/-- The hoisted names of an outline. -/
def Outline.hoistings (scope : Nat) (around : List (Conditional × Part)) :
    Outline → List Hoisting
  | .blank => []
  | .both first second => first.hoistings scope around ++ second.hoistings scope around
  | .scope _ _ _ => []
  | .block _ inside => inside.hoistings scope around
  | .declare d => d.hoistedNames.map (⟨·, around⟩)
  | .choice span test hasAlternate inTest consequent alternate =>
    let here : Conditional := ⟨scope, span, test, hasAlternate⟩
    inTest.hoistings scope ((here, .test) :: around) ++
      consequent.hoistings scope ((here, .consequent) :: around) ++
      alternate.hoistings scope ((here, .alternate) :: around)

/-- The functions of an outline, in order. -/
def Outline.functionSites (scope : Nat) (around : List (Conditional × Part)) :
    Outline → List FunctionSite
  | .blank => []
  | .both first second => first.functionSites scope around ++ second.functionSites scope around
  | .scope key _ inside =>
    ⟨key, around, inside.hoistings (g.inside scope key) around⟩ ::
      inside.functionSites (g.inside scope key) around
  | .block _ inside => inside.functionSites scope around
  | .declare _ => []
  | .choice span test hasAlternate inTest consequent alternate =>
    let here : Conditional := ⟨scope, span, test, hasAlternate⟩
    inTest.functionSites scope ((here, .test) :: around) ++
      consequent.functionSites scope ((here, .consequent) :: around) ++
      alternate.functionSites scope ((here, .alternate) :: around)

end Sites

/-- The functions of a program, the program itself first. -/
def Program.functionSites (p : Program) : List FunctionSite :=
  ⟨.program, [], (p.items.filterMap Item.defaultName?).map (⟨·, []⟩) ++ p.outline.hoistings 0 []⟩ ::
    p.outline.functionSites (.ofProgram p) 0 []

/-- The function with all its hoisted names. -/
def FunctionSite.all (f : FunctionSite) : FunctionNames := ⟨f.key, f.hoistings.map (·.name)⟩

section Left

variable (g : ScopeGraph) (wholeChain : Bool)

/-- Does the declaration lie outside all dropped parts? -/
def Hoisting.isLeft (h : Hoisting) : Bool := !anyDropped g wholeChain h.around

/-- Does the function lie outside all dropped parts? -/
def FunctionSite.isLeft (f : FunctionSite) : Bool := !anyDropped g wholeChain f.around

/-- The function with the hoisted names that are declared outside all dropped
parts. -/
def FunctionSite.left (f : FunctionSite) : FunctionNames :=
  ⟨f.key, (f.hoistings.filter (·.isLeft g wholeChain)).map (·.name)⟩

end Left

namespace Outline

/-! ### Listing changes nothing -/

theorem hoistings_names (o : Outline) : ∀ (scope : Nat) (around : List (Conditional × Part)),
    (o.hoistings scope around).map (·.name) = o.hoistedNames := by
  induction o with
  | blank => intro _ _; rfl
  | both first second ih1 ih2 => intro _ _; simp [hoistings, hoistedNames, ih1, ih2]
  | scope key params inside => intro _ _; rfl
  | block span inside ih => intro _ _; exact ih _ _
  | declare d => intro _ _; simp [hoistings, hoistedNames, Function.comp_def]
  | choice span test hasAlternate inTest consequent alternate iht ihc iha =>
    intro _ _
    simp [hoistings, hoistedNames, iht, ihc, iha]

theorem functionSites_all (g : ScopeGraph) (o : Outline) :
    ∀ (scope : Nat) (around : List (Conditional × Part)),
      (o.functionSites g scope around).map (·.all) = o.functions := by
  induction o with
  | blank => intro _ _; rfl
  | both first second ih1 ih2 => intro _ _; simp [functionSites, functions, ih1, ih2]
  | scope key params inside ih =>
    intro _ _
    rw [functionSites, functions, List.map_cons, ih, FunctionSite.all, hoistings_names]
  | block span inside ih => intro _ _; exact ih _ _
  | declare d => intro _ _; rfl
  | choice span test hasAlternate inTest consequent alternate iht ihc iha =>
    intro _ _
    simp [functionSites, functions, iht, ihc, iha]

theorem hoistedNames_core (o : Outline) : o.core.hoistedNames = o.hoistedNames := by
  induction o <;> simp_all [core, hoistedNames]

theorem functions_core (o : Outline) : o.core.functions = o.functions := by
  induction o <;> simp_all [core, functions, hoistedNames_core]

theorem hoistedNames_andThen (first second : Outline) :
    (first.andThen second).hoistedNames = first.hoistedNames ++ second.hoistedNames := by
  cases first <;> cases second <;> simp [andThen, hoistedNames]

theorem functions_andThen (first second : Outline) :
    (first.andThen second).functions = first.functions ++ second.functions := by
  cases first <;> cases second <;> simp [andThen, functions]

end Outline

/-! ### What is left declares what is declared outside the dropped parts -/

section Pruned

variable (g : ScopeGraph) (wholeChain : Bool)

theorem Declaration.hoistedNames_pruned (scope : Nat) (d : Declaration) :
    (d.pruned g wholeChain scope).hoistedNames = d.hoistedNames := by
  cases d with
  | vars kind ds =>
    cases kind with
    | varKind =>
      simp only [Declaration.pruned, Declaration.hoistedNames]
      induction ds with
      | nil => simp only [declaratorsPruned]
      | cons d ds ih =>
        obtain ⟨target, init⟩ := d
        simp only [declaratorsPruned, Declarator.pruned, List.flatMap_cons, boundNames_pruned, ih]
    | constKind => rfl
    | letKind => rfl
  | function name => rfl
  | classDecl name => rfl
  | caught pattern => rfl
  | imports names => rfl

/-- Declarations that lie outside all dropped parts are left. -/
theorem Hoisting.names_left {around : List (Conditional × Part)}
    (h : anyDropped g wholeChain around = false) (names : List String) :
    ((names.map (Hoisting.mk · around)).filter (·.isLeft g wholeChain)).map (·.name) = names := by
  have hall : (names.map (Hoisting.mk · around)).filter (·.isLeft g wholeChain) =
      names.map (Hoisting.mk · around) := by
    refine List.filter_eq_self.mpr fun hoisting hmem => ?_
    obtain ⟨name, -, rfl⟩ := List.mem_map.mp hmem
    simp [Hoisting.isLeft, h]
  rw [hall]
  simp [Function.comp_def]

/-- No declaration in a dropped part is left. -/
theorem Hoisting.isLeft_eq_false {g : ScopeGraph} {wholeChain : Bool} (o : Outline) :
    ∀ {scope : Nat} {around : List (Conditional × Part)}, anyDropped g wholeChain around = true →
      (o.hoistings scope around).filter (·.isLeft g wholeChain) = [] := by
  induction o with
  | blank => intro _ _ _; rfl
  | both first second ih1 ih2 => intro _ _ h; simp [Outline.hoistings, ih1 h, ih2 h]
  | scope key params inside => intro _ _ _; rfl
  | block span inside ih => intro _ _ h; exact ih h
  | declare d =>
    intro _ around h
    refine List.filter_eq_nil_iff.mpr fun hoisting hmem => ?_
    obtain ⟨name, -, rfl⟩ := List.mem_map.mp hmem
    simp [Hoisting.isLeft, h]
  | choice span test hasAlternate inTest consequent alternate iht ihc iha =>
    intro scope around h
    simp [Outline.hoistings, iht, ihc, iha, h]

/-- No function in a dropped part is left. -/
theorem FunctionSite.isLeft_eq_false {g : ScopeGraph} {wholeChain : Bool} (o : Outline) :
    ∀ {scope : Nat} {around : List (Conditional × Part)}, anyDropped g wholeChain around = true →
      (o.functionSites g scope around).filter (·.isLeft g wholeChain) = [] := by
  induction o with
  | blank => intro _ _ _; rfl
  | both first second ih1 ih2 => intro _ _ h; simp [Outline.functionSites, ih1 h, ih2 h]
  | scope key params inside ih =>
    intro _ _ h
    rw [Outline.functionSites, List.filter_cons_of_neg (by simp [FunctionSite.isLeft, h]), ih h]
  | block span inside ih => intro _ _ h; exact ih h
  | declare d => intro _ _ _; rfl
  | choice span test hasAlternate inTest consequent alternate iht ihc iha =>
    intro scope around h
    simp [Outline.functionSites, iht, ihc, iha, h]

/-- What is left of an outline declares the names that are declared outside all
dropped parts. -/
theorem Outline.hoistedNames_pruned (o : Outline) :
    ∀ {scope : Nat} (around : List (Conditional × Part)), anyDropped g wholeChain around = false →
      (o.pruned g wholeChain scope).hoistedNames =
        ((o.hoistings scope around).filter (·.isLeft g wholeChain)).map (·.name) := by
  induction o with
  | blank => intro _ _ _; rfl
  | both first second ih1 ih2 =>
    intro scope around h
    simp only [Outline.pruned, Outline.hoistings, Outline.hoistedNames_andThen, List.filter_append,
      List.map_append]
    rw [ih1 around h, ih2 around h]
  | scope key params inside => intro _ _ _; rfl
  | block span inside ih => intro _ around h; exact ih around h
  | declare d =>
    intro scope around h
    rw [Outline.hoistings, Hoisting.names_left g wholeChain h]
    exact d.hoistedNames_pruned g wholeChain scope
  | choice span test hasAlternate inTest consequent alternate iht ihc iha =>
    intro scope around h
    let here : Conditional := ⟨scope, span, test, hasAlternate⟩
    have hpart : ∀ part, anyDropped g wholeChain ((here, part) :: around) =
        part.isDropped (g.verdict wholeChain scope span test) :=
      anyDropped_inside wholeChain h here
    simp only [Outline.pruned, Outline.hoistings, List.filter_append, List.map_append]
    cases hv : g.verdict wholeChain scope span test with
    | none =>
      rw [hv] at hpart
      rw [← iht _ (hpart .test), ← ihc _ (hpart .consequent), ← iha _ (hpart .alternate)]
      rfl
    | some isTrue =>
      rw [hv] at hpart
      cases isTrue with
      | true =>
        rw [Hoisting.isLeft_eq_false inTest (hpart .test),
          Hoisting.isLeft_eq_false alternate (hpart .alternate), ← ihc _ (hpart .consequent)]
        simp
      | false =>
        rw [Hoisting.isLeft_eq_false inTest (hpart .test),
          Hoisting.isLeft_eq_false consequent (hpart .consequent), ← iha _ (hpart .alternate)]
        simp

/-- What is left of an outline has the functions outside all dropped parts, each
with the names that are declared outside all dropped parts. -/
theorem Outline.functions_pruned (o : Outline) :
    ∀ {scope : Nat} (around : List (Conditional × Part)), anyDropped g wholeChain around = false →
      (o.pruned g wholeChain scope).functions =
        ((o.functionSites g scope around).filter (·.isLeft g wholeChain)).map
          (·.left g wholeChain) := by
  induction o with
  | blank => intro _ _ _; rfl
  | both first second ih1 ih2 =>
    intro scope around h
    simp only [Outline.pruned, Outline.functionSites, Outline.functions_andThen,
      List.filter_append, List.map_append]
    rw [ih1 around h, ih2 around h]
  | scope key params inside ih =>
    intro scope around h
    rw [Outline.functionSites, List.filter_cons_of_pos (by simp [FunctionSite.isLeft, h]),
      List.map_cons, Outline.pruned, Outline.functions, ih around h,
      inside.hoistedNames_pruned g wholeChain around h]
    rfl
  | block span inside ih => intro _ around h; exact ih around h
  | declare d => intro _ _ _; rfl
  | choice span test hasAlternate inTest consequent alternate iht ihc iha =>
    intro scope around h
    let here : Conditional := ⟨scope, span, test, hasAlternate⟩
    have hpart : ∀ part, anyDropped g wholeChain ((here, part) :: around) =
        part.isDropped (g.verdict wholeChain scope span test) :=
      anyDropped_inside wholeChain h here
    simp only [Outline.pruned, Outline.functionSites, List.filter_append, List.map_append]
    cases hv : g.verdict wholeChain scope span test with
    | none =>
      rw [hv] at hpart
      rw [← iht _ (hpart .test), ← ihc _ (hpart .consequent), ← iha _ (hpart .alternate)]
      rfl
    | some isTrue =>
      rw [hv] at hpart
      cases isTrue with
      | true =>
        rw [FunctionSite.isLeft_eq_false inTest (hpart .test),
          FunctionSite.isLeft_eq_false alternate (hpart .alternate), ← ihc _ (hpart .consequent)]
        simp
      | false =>
        rw [FunctionSite.isLeft_eq_false inTest (hpart .test),
          FunctionSite.isLeft_eq_false consequent (hpart .consequent), ← iha _ (hpart .alternate)]
        simp

/-- No default export is dropped, and its name is kept. -/
theorem Item.defaultName?_pruned (scope : Nat) (i : Item) :
    (i.pruned g wholeChain scope).toList.filterMap Item.defaultName? =
      i.defaultName?.toList := by
  cases i with
  | stmt s => cases h : s.pruned g wholeChain scope <;> simp [Item.pruned, Item.defaultName?, h]
  | importNames names source => rfl
  | exportNames names source => rfl
  | exportAll source => rfl
  | exportDecl d => rfl
  | exportDefault isDecl e =>
    cases isDecl with
    | false => simp [Item.pruned, Item.defaultName?]
    | true =>
      cases e with
      | closure body =>
        cases body <;> simp [Item.pruned, Item.defaultName?, Expr.pruned, Closure.pruned,
          Closure.name?, List.filterMap_cons] <;> split <;> simp_all
      | _ => simp [Item.pruned, Item.defaultName?, Expr.pruned]

theorem defaultNames_pruned (scope : Nat) (items : List Item) :
    (itemsPruned g wholeChain scope items).filterMap Item.defaultName? =
      items.filterMap Item.defaultName? := by
  induction items with
  | nil => rfl
  | cons i items ih =>
    rw [itemsPruned, List.filterMap_append, Item.defaultName?_pruned, ih]
    cases h : i.defaultName? <;> simp [h]

end Pruned

/-- **What is left of the hoisted names.** A program has the functions of its
function sites, each with all names that are hoisted there. After its dead
branches were removed it has the functions outside all dropped parts, and each
of them, like the program, declares exactly those of these names that it has a
declaration of outside all dropped parts. -/
theorem shrink_functions (wholeChain : Bool) (locate : Nat → Location) (p : Program) :
    let g := ScopeGraph.ofProgram p
    p.functions = p.functionSites.map (·.all) ∧
      (shrink wholeChain locate p).program.functions =
        (p.functionSites.filter (·.isLeft g wholeChain)).map (·.left g wholeChain) := by
  intro g
  have hcore := p.outline_pruned wholeChain
  have hdefaults := defaultNames_pruned g wholeChain 0 p.items
  refine ⟨?_, ?_⟩
  · rw [Program.functions, Program.functionSites, List.map_cons, Outline.functionSites_all,
      FunctionSite.all, List.map_append, Outline.hoistings_names]
    simp [Function.comp_def]
  · rw [shrink_program, Program.functions, ← Outline.hoistedNames_core, ← Outline.functions_core,
      hcore, Outline.hoistedNames_pruned _ _ _ [] rfl, Outline.functions_pruned _ _ _ [] rfl,
      Program.functionSites, List.filter_cons_of_pos (by rfl), List.map_cons, FunctionSite.left,
      List.filter_append, List.map_append, Hoisting.names_left g wholeChain rfl, ← hdefaults]
    rfl

/-- The tree of `if (false) { var x; }`. -/
def unreachedVar : Program :=
  ⟨.script, none, [.stmt (.ifElse ⟨0, 21⟩ (.literal (.bool false))
    (.block (.mk ⟨11, 21⟩ [.decl (.vars .varKind [.mk (.ident "x") .absent])])) none)]⟩

/-- **A hoisted name may be lost.** The variable is declared in the whole program,
from within a branch that is dropped. -/
theorem exists_lost_declaration :
    ¬ ∀ (p : Program) (wholeChain : Bool) (locate : Nat → Location),
      ∀ f ∈ p.functions, ∀ f' ∈ (shrink wholeChain locate p).program.functions,
        f'.key = f.key → ∀ name ∈ f.names, name ∈ f'.names := by
  intro h
  have hbefore : unreachedVar.functions = [⟨.program, ["x"]⟩] := by decide +kernel
  have hafter : (shrink false (fun n => ⟨"x.js", 1, n⟩) unreachedVar).program.functions =
      [⟨.program, []⟩] := by
    decide +kernel
  have hlost := h unreachedVar false (fun n => ⟨"x.js", 1, n⟩) ⟨.program, ["x"]⟩
    (by simp [hbefore]) ⟨.program, []⟩ (by simp [hafter]) rfl "x" (by simp)
  simp at hlost

end DeadBranch
