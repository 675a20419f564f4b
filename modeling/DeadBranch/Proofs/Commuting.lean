/-
# Declarations that do not read each other

A constant is bound with what is known at its turn, and what it adds is looked up by the
declarations behind it. So the order of declarations matters in general. But a
declaration looks up nothing but facts about the names that it reads (`facts_sameOn`),
and all that it adds is about its own name. If two declarations have different names and
neither reads the name of the other, each says the same whichever comes first, and
afterwards the facts about every single name are the same, in the same order; only the
facts about the two names stand in a different order among each other, which no lookup
sees (`bind_comm`). The same holds of any number of such declarations (`bindAll_perm`).

Key definitions: `Associations.about`, `Associations.SameOn`, `Declarator.Apart`.
Key theorems: `factsOf_sameOn`, `bind_bind_sameOn`, `bindAll_perm`, `bind_comm`.
-/
import DeadBranch.Proofs.Dependence
import Mathlib.Data.List.Perm.Basic

namespace DeadBranch

/-! ### Knowing the same of some names -/

/-- The facts about a name, the earliest first. -/
def Associations.about (known : Associations) (name : String) : List (Path × Value) :=
  known.entries.filter (·.1.binding == name)

/-- A lookup looks at no facts but those about the name. -/
theorem Associations.lookup?_eq_about (known : Associations) (path : Path) :
    known.lookup? path = ((known.about path.binding).find? (·.1 = path)).map (·.2) := by
  rw [lookup?_eq_find?, about, List.find?_filter]
  congr 2
  funext entry
  by_cases hentry : entry.1 = path
  · simp [hentry]
  · simp [hentry]

/-- What is taken over from a source comes from the facts about its name. -/
theorem Associations.takeOver_eq_about (known : Associations) (source target : Path) :
    known.takeOver source target =
      ((known.about source.binding).filterMap fun entry =>
        (entry.1.suffix? source).map fun suffix => Fact.mk (target.join suffix) entry.2 true) := by
  rw [takeOver, copies, about, List.map_filterMap, List.filterMap_filter]
  refine List.filterMap_congr fun entry _ => ?_
  by_cases hname : entry.1.binding = source.binding
  · simp [hname, Function.comp_def]
  · have hsuffix : entry.1.suffix? source = none := by
      unfold Path.suffix?
      rw [if_neg fun h => hname h.1]
    simp [hname, hsuffix]

theorem Associations.about_learn (known : Associations) (facts : List Fact) (name : String) :
    (known.learn facts).about name = known.about name ++
      (facts.filter (·.path.binding == name)).map fun f => (f.path, f.value) := by
  rw [about, entries_learn, List.filter_append, List.filter_map, about]
  rfl

/-- Of each of the given names the same facts are known in the same order, and the same
ones of the names stay unknown. -/
structure Associations.SameOn (names : String → Bool) (a b : Associations) : Prop where
  about : ∀ {name}, names name → a.about name = b.about name
  shadowed : ∀ {name}, names name → a.isShadowed name = b.isShadowed name

namespace Associations.SameOn

variable {names : String → Bool} {a b c : Associations}

theorem symm (h : a.SameOn names b) : b.SameOn names a :=
  ⟨fun hname => (h.about hname).symm, fun hname => (h.shadowed hname).symm⟩

theorem trans (h : a.SameOn names b) (h' : b.SameOn names c) : a.SameOn names c :=
  ⟨fun hname => (h.about hname).trans (h'.about hname),
    fun hname => (h.shadowed hname).trans (h'.shadowed hname)⟩

theorem lookup?_eq (h : a.SameOn names b) (path : Path) (hname : names path.binding) :
    a.lookup? path = b.lookup? path := by
  rw [lookup?_eq_about, lookup?_eq_about, h.about hname]

theorem takeOver_eq (h : a.SameOn names b) {source : Path} (hname : names source.binding)
    (target : Path) : a.takeOver source target = b.takeOver source target := by
  rw [takeOver_eq_about, takeOver_eq_about, h.about hname]

theorem within (h : a.SameOn names b) : a.Within names b where
  shadowed hname hb := (h.shadowed hname).trans hb
  whole := by
    intro name v hname _ hv
    rw [← h.lookup?_eq (.root name) hname]
    exact hv
  part := by
    intro path s v hname _ _ _ hv
    rw [← h.lookup?_eq (path.child s) hname]
    exact hv

theorem evaluate_eq (h : a.SameOn names b) {e : Expr} (hn : ∀ name ∈ e.namesRead, names name) :
    evaluate a e = evaluate b e :=
  Option.ext fun _ => ⟨evaluate_of_within h.within e hn, evaluate_of_within h.symm.within e hn⟩

theorem staticPath_eq (h : a.SameOn names b) {e : Expr} (hn : ∀ name ∈ e.namesRead, names name) :
    staticPath a e = staticPath b e :=
  Option.ext fun _ =>
    ⟨staticPath_of_within h.within e hn, staticPath_of_within h.symm.within e hn⟩

theorem segment?_eq (h : a.SameOn names b) {key : Key}
    (hn : ∀ name ∈ key.namesRead, names name) : key.segment? a = key.segment? b :=
  Option.ext fun _ =>
    ⟨Key.segment?_of_within h.within hn, Key.segment?_of_within h.symm.within hn⟩

theorem learn (h : a.SameOn names b) (facts : List Fact) :
    (a.learn facts).SameOn names (b.learn facts) where
  about hname := by rw [about_learn, about_learn, h.about hname]
  shadowed hname := by rw [isShadowed_learn, isShadowed_learn, h.shadowed hname]

/-- Facts about other names make no difference. -/
theorem learn_left {facts : List Fact} (hfacts : ∀ f ∈ facts, names f.path.binding = false) :
    (a.learn facts).SameOn names a where
  about := by
    intro name hname
    have hnone : facts.filter (·.path.binding == name) = [] := by
      refine List.filter_eq_nil_iff.mpr fun f hf hbinding => ?_
      have hother := hfacts f hf
      rw [beq_iff_eq] at hbinding
      rw [hbinding, hname] at hother
      cases hother
    rw [about_learn, hnone, List.map_nil, List.append_nil]
  shadowed _ := isShadowed_learn a facts _

end Associations.SameOn

/-! ### Saying the same -/

section Facts

variable {names : String → Bool}

mutual

/-- **An initial value says the same** where the same is known of the names that it
reads. -/
theorem factsOf_sameOn : ∀ {a b : Associations} (path : Path) (e : Expr),
    (∀ name ∈ e.namesRead, names name) → a.SameOn names b → factsOf a path e = factsOf b path e
  | a, b, path, .object ps, hn, h => by
    simp only [Expr.namesRead] at hn
    simp only [factsOf, factsOfProperties_sameOn path ps hn h]
  | a, b, path, .array es, hn, h => by
    simp only [Expr.namesRead] at hn
    simp only [factsOf, factsOfElements_sameOn path 0 es hn h]
  | a, b, path, .ident name, hn, h => by
    have hname : names (Path.root name).binding := hn name (by simp [Expr.namesRead])
    simp only [factsOf, h.takeOver_eq hname]
  | a, b, path, .member object name, hn, h => by
    simp only [factsOf, ← h.staticPath_eq hn]
    split
    · next source hsource => exact h.takeOver_eq (hn _ (staticPath_spec a _ hsource).1) path
    · rfl
  | a, b, path, .index object key, hn, h => by
    simp only [factsOf, ← h.staticPath_eq hn]
    split
    · next source hsource => exact h.takeOver_eq (hn _ (staticPath_spec a _ hsource).1) path
    · rfl
  | a, b, path, .paren e, hn, h => by
    simp only [Expr.namesRead] at hn
    simp only [factsOf, factsOf_sameOn path e hn h]
  | a, b, path, .assign none _ e, hn, h => by
    simp only [Expr.namesRead] at hn
    simp only [factsOf, factsOf_sameOn path e hn h]
  | a, b, path, .unary op e, hn, h => by simp only [factsOf, h.evaluate_eq hn]
  | a, b, path, .binary op e f, hn, h => by simp only [factsOf, h.evaluate_eq hn]
  | a, b, path, .cond c e f, hn, h => by simp only [factsOf, h.evaluate_eq hn]
  | _, _, _, .literal _, _, _ | _, _, _, .assign (some _) _ _, _, _ | _, _, _, .absent, _, _
  | _, _, _, .spread _, _, _ | _, _, _, .arrayPattern _, _, _ | _, _, _, .objectPattern _, _, _
  | _, _, _, .withDefault _ _, _, _ | _, _, _, .closure _, _, _ | _, _, _, .classExpr _ _ _, _, _
  | _, _, _, .other _ _, _, _ => by simp only [factsOf]

theorem factsOfProperties_sameOn : ∀ {a b : Associations} (path : Path) (ps : List Property),
    (∀ name ∈ propertiesRead ps, names name) → a.SameOn names b →
    factsOfProperties a path ps = factsOfProperties b path ps
  | _, _, _, [], _, _ => by simp only [factsOfProperties]
  | a, b, path, .pair key value :: ps, hn, h => by
    simp only [propertiesRead, List.forall_mem_append] at hn
    -- what the first property says is the same, so the rest starts from the same
    simp only [factsOfProperties, h.segment?_eq hn.1]
    cases key.segment? b with
    | none => rw [factsOfProperties_sameOn path ps hn.2.2 (h.learn [])]
    | some segment =>
      simp only [factsOf_sameOn (path.child segment) value hn.2.1 h]
      rw [factsOfProperties_sameOn path ps hn.2.2
        (h.learn (factsOf b (path.child segment) value))]
  | a, b, path, .shorthand name e :: ps, hn, h => by
    simp only [propertiesRead, List.forall_mem_cons] at hn
    by_cases he : e = .absent
    · subst he
      have hname : names (Path.root name).binding := hn.1
      simp only [factsOfProperties, h.takeOver_eq hname]
      rw [factsOfProperties_sameOn path ps hn.2 (h.learn _)]
    · rw [factsOfProperties_fallback a path name he, factsOfProperties_fallback b path name he,
        factsOfProperties_sameOn path ps hn.2 h]
  | a, b, path, .spread _ :: ps, hn, h | a, b, path, .method _ _ _ _ :: ps, hn, h
  | a, b, path, .field _ _ _ :: ps, hn, h | a, b, path, .staticBlock _ :: ps, hn, h
  | a, b, path, .empty :: ps, hn, h => by
    simp only [propertiesRead] at hn
    simp only [factsOfProperties, factsOfProperties_sameOn path ps hn h]

theorem factsOfElements_sameOn : ∀ {a b : Associations} (path : Path) (i : Nat) (es : List Expr),
    (∀ name ∈ elementsRead es, names name) → a.SameOn names b →
    factsOfElements a path i es = factsOfElements b path i es
  | _, _, _, _, [], _, _ => by simp only [factsOfElements]
  | a, b, path, i, e :: es, hn, h => by
    simp only [elementsRead, List.forall_mem_append] at hn
    have hrest := factsOfElements_sameOn path (i + 1) es hn.2
      (h.learn (factsOf b (path.child (.index i)) e))
    simp only [factsOfElements, factsOf_sameOn (path.child (.index i)) e hn.1 h, hrest]

end

/-- The names that the declaration of a constant reads. -/
def Declarator.namesRead : Declarator → List String
  | .mk _ init => init.namesRead

variable {a b : Associations}

theorem facts_sameOn (h : a.SameOn names b) {d : Declarator}
    (hn : ∀ name ∈ d.namesRead, names name) : d.facts a = d.facts b := by
  obtain ⟨target, init⟩ := d
  cases target with
  | ident name => exact factsOf_sameOn (.root name) init hn h
  | _ => rfl

theorem Associations.SameOn.bind (h : a.SameOn names b) {d : Declarator}
    (hn : ∀ name ∈ d.namesRead, names name) :
    (DeadBranch.bind a d).SameOn names (DeadBranch.bind b d) := by
  rw [DeadBranch.bind, DeadBranch.bind, facts_sameOn h hn]
  exact h.learn (d.facts b)

end Facts

/-! ### Declarations apart from each other -/

/-- The declarations have different names, and neither reads the name of the other. -/
structure Declarator.Apart (d d' : Declarator) : Prop where
  differ : ∀ name, d.name? = some name → d'.name? ≠ some name
  unread : ∀ name, d.name? = some name → name ∉ d'.namesRead
  unread' : ∀ name, d'.name? = some name → name ∉ d.namesRead

theorem Declarator.Apart.symm {d d' : Declarator} (h : d.Apart d') : d'.Apart d :=
  ⟨fun name hname hname' => h.differ name hname' hname, h.unread', h.unread⟩

section Order

variable (known : Associations) {d d' : Declarator}

/-- A declaration says the same before and after one whose name it does not read. -/
theorem facts_bind (h : ∀ name, d.name? = some name → name ∉ d'.namesRead) :
    d'.facts (bind known d) = d'.facts known := by
  have hsame : (bind known d).SameOn (fun name => d.name? != some name) known := by
    refine Associations.SameOn.learn_left fun f hf => ?_
    rw [Declarator.facts_binding hf, bne_self_eq_false]
  refine facts_sameOn hsame fun name hname => ?_
  rw [bne_iff_ne]
  exact fun heq => h name heq hname

/-- No facts of a declaration are about another name. -/
theorem Declarator.filter_facts {name : String} (h : d.name? ≠ some name) :
    (d.facts known).filter (·.path.binding == name) = [] := by
  refine List.filter_eq_nil_iff.mpr fun f hf hbinding => h ?_
  rw [beq_iff_eq] at hbinding
  rw [← hbinding]
  exact facts_binding hf

/-- **Declarations apart from each other can be exchanged**: the facts about each name
are the same. -/
theorem bind_bind_sameOn (h : d.Apart d') (names : String → Bool) :
    (bind (bind known d) d').SameOn names (bind (bind known d') d) := by
  have hleft : bind (bind known d) d' = (known.learn (d.facts known)).learn (d'.facts known) := by
    rw [bind, facts_bind known h.unread, bind]
  have hright : bind (bind known d') d = (known.learn (d'.facts known)).learn (d.facts known) := by
    rw [bind, facts_bind known h.unread', bind]
  rw [hleft, hright]
  constructor
  · intro name _
    simp only [Associations.about_learn]
    -- at most one of the two declarations has facts about the name
    by_cases hd : d.name? = some name
    · rw [Declarator.filter_facts known (h.differ name hd), List.map_nil, List.append_nil,
        List.append_nil]
    · rw [Declarator.filter_facts known hd, List.map_nil, List.append_nil, List.append_nil]
  · intro name _
    simp only [isShadowed_learn]

end Order

theorem Associations.SameOn.bindAll (ds : List Declarator) : ∀ {a b : Associations},
    a.SameOn (fun _ => true) b →
    (DeadBranch.bindAll a ds).SameOn (fun _ => true) (DeadBranch.bindAll b ds) := by
  induction ds with
  | nil => intro a b h; exact h
  | cons d rest ih => intro a b h; exact ih (h.bind fun _ _ => rfl)

/-- **The order of declarations apart from each other does not matter.** -/
theorem bindAll_perm {ds ds' : List Declarator} (hperm : ds.Perm ds') : ∀ (known : Associations),
    ds.Pairwise Declarator.Apart →
    (bindAll known ds).SameOn (fun _ => true) (bindAll known ds') := by
  induction hperm with
  | nil => intro known _; exact ⟨fun _ => rfl, fun _ => rfl⟩
  | cons d _ ih =>
    intro known hapart
    exact ih (bind known d) (List.pairwise_cons.mp hapart).2
  | swap d d' rest =>
    intro known hapart
    have hfirst : d'.Apart d := (List.pairwise_cons.mp hapart).1 d List.mem_cons_self
    exact (bind_bind_sameOn known hfirst fun _ => true).bindAll rest
  | trans hperm _ ih ih' =>
    intro known hapart
    have hapart' := (hperm.pairwise_iff fun h => h.symm).mp hapart
    exact (ih known hapart).trans (ih' known hapart')

/-- **Independent declarations commute.** For two constants with different names, neither
of which is read in the initial value of the other, it does not matter to any lookup, to
the value of any expression or to its path which of them is bound first. -/
theorem bind_comm (known : Associations) {x y : String} {e e' : Expr} (hne : x ≠ y)
    (hy : y ∉ e.namesRead) (hx : x ∉ e'.namesRead) :
    let a := bind (bind known (.mk (.ident x) e)) (.mk (.ident y) e')
    let b := bind (bind known (.mk (.ident y) e')) (.mk (.ident x) e)
    (∀ path, a.lookup? path = b.lookup? path) ∧
      ∀ e, evaluate a e = evaluate b e ∧ staticPath a e = staticPath b e := by
  intro a b
  have hapart : (Declarator.mk (.ident x) e).Apart (.mk (.ident y) e') := by
    refine ⟨fun name hname hname' => hne ?_, fun name hname => ?_, fun name hname => ?_⟩
    · exact (Option.some.inj hname).trans (Option.some.inj hname').symm
    · exact Option.some.inj hname ▸ hx
    · exact Option.some.inj hname ▸ hy
  have hsame : a.SameOn (fun _ => true) b := bind_bind_sameOn known hapart _
  exact ⟨fun path => hsame.lookup?_eq path rfl,
    fun e => ⟨hsame.evaluate_eq fun _ _ => rfl, hsame.staticPath_eq fun _ _ => rfl⟩⟩

/-- Where `k` is known to be `"a"`, the constants `x = { [k]: k === "a" }` and `y = [{ k }]`
do not read each other, and `x[y[0].k]` is true whichever comes first. After `y = x.a`,
which reads `x`, the constant `y` has a value only if it comes second. -/
theorem bind_comm_keyed :
    let known : Associations := .of [(.root "k", .string "a")] ["z"]
    let e : Expr := .object [.pair (.computed (.ident "k"))
      (.binary .strictEq (.ident "k") (.literal (.string "a" "\"a\"")))]
    let e' : Expr := .array [.object [.shorthand "k" .absent]]
    let reads : Expr := .member (.ident "x") "a"
    let x (e : Expr) : Declarator := .mk (.ident "x") e
    let y (e : Expr) : Declarator := .mk (.ident "y") e
    let element : Expr := .index (.ident "y") (.literal (.number (.ofNat 0) "0"))
    let test : Expr := .index (.ident "x") (.member element "k")
    "y" ∉ e.namesRead ∧ "x" ∉ e'.namesRead ∧
      evaluate (bind (bind known (x e)) (y e')) test = some (.bool true) ∧
      evaluate (bind (bind known (y e')) (x e)) test = some (.bool true) ∧
      evaluate (bind (bind known (x e)) (y reads)) (.ident "y") = some (.bool true) ∧
      evaluate (bind (bind known (y reads)) (x e)) (.ident "y") = none := by
  intro known e e' reads x y element test
  have hy : "y" ∉ e.namesRead := by decide +kernel
  have hx : "x" ∉ e'.namesRead := by decide +kernel
  have hvalue : evaluate (bind (bind known (x e)) (y e')) test = some (.bool true) := by
    decide +kernel
  obtain ⟨-, hsame⟩ := bind_comm known (by decide) hy hx
  refine ⟨hy, hx, hvalue, (hsame test).1.symm.trans hvalue, ?_, ?_⟩ <;> decide +kernel

end DeadBranch
