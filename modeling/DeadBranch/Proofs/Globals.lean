/-
# Declared names and the names with a fixed value

The names `undefined`, `NaN` and `Infinity` have a fixed value unless a binding
takes them. Where a name is declared, it either must not be read, and then it
has no value, or it is a usable constant. All that is recorded about a constant
comes from its declaration, and what that says of the constant as a whole is
`Expr.wholeValue?` of the initial value: literals, operators and what refers to
something known have one, but an object, an array, a call or a closure has none.

A constant without such a value is as good as not declared: its name is not
among those that must not be read, so the fixed value is taken
(`evaluate_ident_of_declared`). This is the one gap, and it can be met
(`exists_unhidden_fixed_value`).

Key definitions: `Expr.wholeValue?`, `Declarator.wholeValue?`.
Key theorems: `firstValue?_factsOf`, `Outlook.lookup?_of_singleton`.
-/
import DeadBranch.Proofs.Lookups
import DeadBranch.Proofs.Standing
import DeadBranch.Shrink

namespace DeadBranch

/-! ### What a declaration says of its constant as a whole -/

/-- The value that is recorded for a constant itself, and not only for its
parts, if it has this initial value. -/
def Expr.wholeValue? (known : Associations) : Expr → Option Value
  | .literal value => value.value?
  | .ident name => known.lookup? (.root name)
  | .member base name => (staticPath known (.member base name)).bind known.lookup?
  | .index base key => (staticPath known (.index base key)).bind known.lookup?
  | .paren inner => inner.wholeValue? known
  | .assign none _ value => value.wholeValue? known
  | .unary op operand => evaluate known (.unary op operand)
  | .binary op left right => evaluate known (.binary op left right)
  | .cond test consequent alternate => evaluate known (.cond test consequent alternate)
  | _ => none

/-- The value that is recorded for the declared constant itself. -/
def Declarator.wholeValue? (known : Associations) : Declarator → Option Value
  | .mk (.ident _) init => init.wholeValue? known
  | _ => none

theorem firstValue?_takeOver_self (known : Associations) (source target : Path) :
    firstValue? (known.takeOver source target) target = known.lookup? source := by
  simpa [Path.join] using firstValue?_takeOver known source target []

/-- Parts of an object or an array say nothing of the whole. -/
theorem firstValue?_of_children {facts : List Fact} {path : Path}
    (h : ∀ f ∈ facts, ∃ segment, f.path.IsBelow (path.child segment)) :
    firstValue? facts path = none := by
  refine firstValue?_eq_none fun f hf => ?_
  obtain ⟨segment, hbelow⟩ := h f hf
  exact hbelow.ne_of_child

/-- **The whole and its parts.** Of all that an initial value says about parts of
a path, `wholeValue?` is what it says of the path itself. -/
theorem firstValue?_factsOf (known : Associations) (path : Path) : ∀ e : Expr,
    firstValue? (factsOf known path e) path = e.wholeValue? known
  | .literal value => by simp only [factsOf, Expr.wholeValue?, firstValue?_stated]
  | .object properties => by
    simp only [factsOf, Expr.wholeValue?]
    exact firstValue?_of_children (factsOfProperties_isBelow known path properties)
  | .array elements => by
    simp only [factsOf, Expr.wholeValue?]
    exact firstValue?_of_children (factsOfElements_isBelow known path 0 elements)
  | .ident name => by
    simp only [factsOf, Expr.wholeValue?, firstValue?_takeOver_self]
  | .member object name => by
    simp only [factsOf, Expr.wholeValue?]
    cases staticPath known (.member object name) with
    | none => rfl
    | some source => exact firstValue?_takeOver_self known source path
  | .index object key => by
    simp only [factsOf, Expr.wholeValue?]
    cases staticPath known (.index object key) with
    | none => rfl
    | some source => exact firstValue?_takeOver_self known source path
  | .paren inner => by
    simp only [factsOf, Expr.wholeValue?]
    exact firstValue?_factsOf known path inner
  | .assign none _ value => by
    simp only [factsOf, Expr.wholeValue?]
    exact firstValue?_factsOf known path value
  | .unary _ _ | .binary _ _ _ | .cond _ _ _ => by
    simp only [factsOf, Expr.wholeValue?, firstValue?_stated]
  | .assign (some _) _ _ | .absent | .spread _ | .arrayPattern _ | .objectPattern _
  | .withDefault _ _ | .closure _ | .classExpr _ _ _ | .other _ _ => by
    simp [factsOf, Expr.wholeValue?, firstValue?]

theorem Declarator.firstValue?_facts (known : Associations) {d : Declarator} {name : String}
    (hname : d.name? = some name) :
    firstValue? (d.facts known) (.root name) = d.wholeValue? known := by
  obtain ⟨target, init⟩ := d
  cases target with
  | ident declared =>
    obtain rfl : declared = name := by simpa [Declarator.name?] using hname
    exact firstValue?_factsOf known (.root declared) init
  | _ => simp [Declarator.name?] at hname

/-! ### The value of a name -/

/-- What is recorded for a name itself, if one usable constant has the name, is
what its declaration says at its turn. -/
theorem Outlook.lookup?_of_singleton (o : Outlook) {name : String} {d : Declarator}
    (h : o.constants.filter (·.name? == some name) = [d]) :
    ∃ before after, o.constants = before ++ d :: after ∧
      o.associations.lookup? (.root name) = d.wholeValue? (bindAll o.blank before) := by
  obtain ⟨before, after, hsplit, hbefore, hd, hafter⟩ := List.filter_eq_cons_iff.mp h
  have hname : d.name? = some name := by simpa using hd
  have hout : ∀ ds : List Declarator, (∀ x ∈ ds, ¬ (x.name? == some name)) →
      ∀ known, (bindAll known ds).lookup? (.root name) = known.lookup? (.root name) := by
    intro ds hds known
    exact lookup?_bindAll_of_forall known fun x hx => by simpa [Path.root] using hds x hx
  refine ⟨before, after, hsplit, ?_⟩
  calc o.associations.lookup? (.root name)
      = (bindAll (bind (bindAll o.blank before) d) after).lookup? (.root name) := by
        rw [associations, hsplit, bindAll_append]
        rfl
    _ = (bind (bindAll o.blank before) d).lookup? (.root name) :=
        hout after (List.filter_eq_nil_iff.mp hafter) _
    _ = ((bindAll o.blank before).lookup? (.root name)).or
          (d.wholeValue? (bindAll o.blank before)) := by
        rw [bind, lookup?_learn, d.firstValue?_facts _ hname]
    _ = d.wholeValue? (bindAll o.blank before) := by
        rw [hout before hbefore]
        rfl

theorem Standing.length_constants (s : Standing) : s.constants.length ≤ 1 := by
  cases s <;> simp [constants]

/-- What the scopes around a place contribute to a name is what its standing
says. -/
theorem Tracker.outlook_standing (p : Program) (stack : List Nat) (position : Nat)
    (wholeChain : Bool) (name : String) :
    let t : Tracker := ⟨.ofProgram p, stack⟩
    let o := t.outlook position wholeChain
    let standing := t.standing position wholeChain name
    o.constants.filter (·.name? == some name) = standing.constants ∧
      o.associations.isShadowed name = standing.isHidden := by
  intro t o standing
  obtain ⟨hconstants, hshadowed⟩ := (frames_standing (ofProgram_isNamed p) position
    (fun id => wholeChain || id == t.current) name (t.graph.ancestors t.current) []).2
    List.not_mem_nil
  exact ⟨hconstants, Bool.eq_iff_iff.mpr ((o.isShadowed_associations name).trans hshadowed)⟩

theorem standingOf_ne_free (consulted : Bool) (named : List Binding) :
    standingOf consulted named ≠ .free := by
  rcases named with _ | ⟨b, _ | ⟨b', rest⟩⟩
  · simp [standingOf]
  · cases hd : b.declarator with
    | none => simp [standingOf, hd]
    | some d => by_cases hconst : consulted && b.kind.isImmutable <;> simp [standingOf, hd, hconst]
  · simp [standingOf]

/-- A name that is declared around a place is not free there. -/
theorem ScopeGraph.standing_ne_free {g : ScopeGraph} {position : Nat} {name : String}
    {ids : List Nat} (consulted : Nat → Bool) (h : ∃ id ∈ ids, g.namedAt position name id ≠ []) :
    g.standing position consulted name ids ≠ .free := by
  obtain ⟨id, hid, hne⟩ := h
  have hsome : (ids.find? fun id => !(g.namedAt position name id).isEmpty).isSome := by
    rw [List.find?_isSome]
    exact ⟨id, hid, by simpa using hne⟩
  obtain ⟨found, hfound⟩ := Option.isSome_iff_exists.mp hsome
  simp only [standing, hfound]
  exact standingOf_ne_free _ _

/-- **A declared name** that must not be read has no value, whichever it is. The
value of a usable constant is the one that its declaration records for it, and
only if that is none the fixed value of the name, if it has one. -/
theorem evaluate_ident_of_declared (p : Program) (stack : List Nat) (position : Nat)
    (wholeChain : Bool) (name : String) :
    let t : Tracker := ⟨.ofProgram p, stack⟩
    let o := t.outlook position wholeChain
    let value := evaluate o.associations (.ident name)
    (∃ id ∈ t.graph.ancestors t.current, t.graph.namedAt position name id ≠ []) →
      (t.standing position wholeChain name = .hidden ∧ value = none) ∨
      ∃ d before after, t.standing position wholeChain name = .constant d ∧
        o.constants = before ++ d :: after ∧
        o.associations.lookup? (.root name) = d.wholeValue? (bindAll o.blank before) ∧
        value = (d.wholeValue? (bindAll o.blank before)).or (globalValue? name) := by
  intro t o value hdeclared
  obtain ⟨hconstants, hshadowed⟩ := Tracker.outlook_standing p stack position wholeChain name
  change o.associations.isShadowed name =
    (t.standing position wholeChain name).isHidden at hshadowed
  have hvalue : value = if o.associations.isShadowed name then none
      else (o.associations.lookup? (.root name)).or (globalValue? name) := by
    simp only [value, evaluate]
  cases hstanding : t.standing position wholeChain name with
  | free => exact absurd hstanding (ScopeGraph.standing_ne_free _ hdeclared)
  | hidden =>
    rw [hstanding] at hshadowed
    left
    refine ⟨rfl, ?_⟩
    rw [hvalue, hshadowed]
    rfl
  | constant d =>
    rw [hstanding] at hconstants hshadowed
    obtain ⟨before, after, hsplit, hlookup⟩ := o.lookup?_of_singleton hconstants
    right
    refine ⟨d, before, after, rfl, hsplit, hlookup, ?_⟩
    rw [hvalue, hshadowed, hlookup]
    rfl

/-- The tree of `function g() { const NaN = …; if (NaN) { f(); } }`. -/
def takenName (init : Expr) : Program :=
  ⟨.script, none, [.stmt (.decl (.function "g" (.block ⟨.function, some "g", false, false⟩
    ⟨0, 73⟩ [] (.mk ⟨13, 73⟩
      [.decl (.vars .constKind [.mk (.ident "NaN") init]),
        .ifElse ⟨40, 71⟩ (.ident "NaN")
          (.block (.mk ⟨49, 71⟩ [.expr (.other .call [.ident "f"])])) none]))))]⟩

/-- A constant `NaN` with a recorded value. -/
theorem takenName_recorded :
    let p := takenName (.literal (.bool true))
    let t : Tracker := ⟨.ofProgram p, [1, 0]⟩
    let o := t.outlook 40 false
    (∃ id ∈ t.graph.ancestors t.current, t.graph.namedAt 40 "NaN" id ≠ []) ∧
      ((t.standing 40 false "NaN" = .hidden ∧ evaluate o.associations (.ident "NaN") = none) ∨
      ∃ d before after, t.standing 40 false "NaN" = .constant d ∧
        o.constants = before ++ d :: after ∧
        o.associations.lookup? (.root "NaN") = d.wholeValue? (bindAll o.blank before) ∧
        evaluate o.associations (.ident "NaN") =
          (d.wholeValue? (bindAll o.blank before)).or (globalValue? "NaN")) ∧
      evaluate o.associations (.ident "NaN") = some (.bool true) := by
  intro p t o
  have hdeclared : ∃ id ∈ t.graph.ancestors t.current, t.graph.namedAt 40 "NaN" id ≠ [] := by
    decide +kernel
  exact ⟨hdeclared, evaluate_ident_of_declared p [1, 0] 40 false "NaN" hdeclared,
    by decide +kernel⟩

/-- **A declared name may keep its fixed value.** Nothing is recorded for a
constant that a call initialises. So the constant `NaN` of a function is taken
for false, and the `if` statement that tests it is dropped. -/
theorem exists_unhidden_fixed_value :
    let p := takenName (.other .call [.ident "h"])
    let t : Tracker := ⟨.ofProgram p, [1, 0]⟩
    (∃ id ∈ t.graph.ancestors t.current, t.graph.namedAt 40 "NaN" id ≠ []) ∧
      (t.outlook 40 false).associations.lookup? (.root "NaN") = none ∧
      evaluate (t.outlook 40 false).associations (.ident "NaN") = globalValue? "NaN" ∧
      (shrink false (fun n => ⟨none, 1, n⟩) p).folds = [⟨⟨none, 1, 40⟩, .removed⟩] := by
  decide +kernel

end DeadBranch
