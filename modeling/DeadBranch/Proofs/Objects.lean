/-
# Running programs

How programs run that are built from blocks, declarations with `const` and `let`,
assignments, calls of external functions, `while` loops and `if` statements, and that
make objects by literals, read members of objects and assign to them. Variables are in
a store; the objects that a program has made are in a heap, and a datum refers to one
by its number. A literal makes an object with the members that it lists; an assignment
changes one of these or adds a member. What is read of an object and is not there is
asked of the host, as is all about objects that the program has not made.

To read a name that has no value yet is an error, and so is to assign to it or to a
constant; a run with an error does not finish, so there is no rule for one. A block
that declares a name twice is no program.

An external function does not see the variables, but it sees the objects. It may read
them, and when it is called it may assign to their members (`World.writes`); all else
that it does is in the actions, with the function and the arguments of every call.

For every assignment to a member that a literal listed, a run records what the
member held before and after it (`Change`). Nothing depends on this record.

Key definitions: `Obj`, `Heap`, `World`, `Process`, `Expr.build`, `Proceeds`,
`Completes`, `Finishes`.
Key theorems: `Proceeds.unique`, `Completes.unique`.
-/
import DeadBranch.Proofs.Store

namespace DeadBranch

/-! ### Objects -/

/-- An object. Of several members with one key the first counts. -/
structure Obj where
  /-- The members that were listed when the object was made. -/
  listed : List (Segment × Datum)
  /-- The members that were added later. -/
  added : List (Segment × Datum)

/-- What an object has under a key. -/
def Obj.member? (o : Obj) (s : Segment) : Option Datum :=
  (o.listed.lookup s).or (o.added.lookup s)

/-- Assigns to a member of an object. -/
def Obj.put (o : Obj) (s : Segment) (d : Datum) : Obj :=
  if (o.listed.lookup s).isSome then { o with listed := (s, d) :: o.listed }
  else { o with added := (s, d) :: o.added }

/-- The objects that a program has made, by their numbers. The first of a number
is what the object is now, others are what it was. -/
abbrev Heap := List (Nat × Obj)

/-- The member that something has under a key, if it is an object of the
program. -/
def Heap.member? (heap : Heap) (d : Datum) (s : Segment) : Option Datum :=
  match d with
  | .object t => (heap.lookup t).bind (·.member? s)
  | _ => none

/-- All that the variables hold. -/
def Store.data (store : Store) : List Datum := store.flatten.filterMap (·.value)

/-- The objects of a program, and all that they hold or held. -/
def Heap.data (heap : Heap) : List Datum :=
  heap.flatMap fun (t, o) => .object t :: (o.listed ++ o.added).map (·.2)

/-- The first number after those of the given objects. -/
def unused : List Datum → Nat
  | [] => 0
  | .object t :: rest => max (t + 1) (unused rest)
  | _ :: rest => unused rest

theorem lt_unused {t : Nat} : ∀ {data : List Datum}, .object t ∈ data → t < unused data
  | d :: rest, ht => by
    rcases List.mem_cons.mp ht with rfl | ht
    · simp only [unused]
      omega
    · have hlt := lt_unused ht
      cases d <;> simp only [unused] <;> omega

/-! ### Processes -/

/-- An assignment to a member of an object. -/
structure Write where
  object : Nat
  segment : Segment
  value : Datum

/-- What is around a program with objects. -/
structure World where
  host : Heap → Host
  /-- What is assigned to members of objects from outside, right after the last of
  the actions. -/
  writes : Heap → List Action → List Write

/-- A member that a literal listed was assigned to. -/
structure Change where
  segment : Segment
  before : Datum
  after : Datum

/-- A running program. -/
structure Process where
  store : Store
  heap : Heap
  changes : List Change
  done : List Action

section Process

variable (w : World)

/-- The host with the variables and the objects of a program in front of it. -/
def World.over (store : Store) (heap : Heap) : Host :=
  { (w.host heap).over store with
    member := fun done d s => (heap.member? d s).or ((w.host heap).member done d s) }

/-- An expression yields something, after which this has been done. -/
def Process.Evaluates (m : Process) (e : Expr) (d : Datum) (done : List Action) : Prop :=
  e.exec (w.over m.store m.heap) m.done = (some d, done)

/-- Executes an expression. -/
def Process.exec (m : Process) (e : Expr) : Option (Datum × Process) :=
  match e.exec (w.over m.store m.heap) m.done with
  | (some d, done) => some (d, { m with done := done })
  | (none, _) => none

/-- Makes an object with the given members. -/
def Process.create (m : Process) (members : List (Segment × Datum)) : Datum × Process :=
  let t := unused (m.store.data ++ m.heap.data)
  (.object t, { m with heap := (t, ⟨members, []⟩) :: m.heap })

/-- Assigns to a member of an object, if it is one of the program. -/
def Process.write (m : Process) (x : Write) : Process :=
  match m.heap.lookup x.object with
  | none => m
  | some o =>
    { m with
      heap := (x.object, o.put x.segment x.value) :: m.heap
      changes := m.changes ++
        ((o.listed.lookup x.segment).map fun before => ⟨x.segment, before, x.value⟩).toList }

/-- Lets the world assign to members of objects, after an action. -/
def Process.react (m : Process) : Process := (w.writes m.heap m.done).foldl Process.write m

/-- The key of a member as a text. -/
def Segment.key : Segment → String
  | .name key => key
  | .index i => String.ofList (Nat.toDigits 10 i)

/-- Assigns to a member of something. An assignment to an object that is none of
the program is an action, one to a value that is no object is lost, and one to
`null` or `undefined` is an error. -/
def Process.assignMember (m : Process) (target : Datum) (s : Segment) (d : Datum) :
    Option Process :=
  match target with
  | .object t =>
    if (m.heap.lookup t).isSome then some (m.write ⟨t, s, d⟩)
    else
      some (Process.react w
        { m with done := m.done ++ [⟨.assign, [.object t, .plain (.string s.key), d]⟩] })
  | target => if target.isNullish then none else some m

/-- The key of a property, if it is written out. The key `__proto__` is none: what
stands there is no member. -/
def Key.static? : Key → Option Segment
  | .ident name => if name = "__proto__" then none else some (.name name)
  | .string value _ => if value = "__proto__" then none else some (.ofKey value)
  | .number value _ => some (.ofValue (.number value))
  | .bigint value _ => some (.ofKey (String.ofList (Nat.toDigits 10 value)))
  | .computed _ | .privateName _ => none

mutual

/-- Executes an expression that may be an object literal. -/
def Expr.build : Expr → Process → Option (Datum × Process)
  | .object properties, m => do
    let (members, m) ← propertiesBuild properties m
    return m.create members
  | .paren inner, m => inner.build m
  | e, m => m.exec w e

/-- Executes the properties of an object literal, one after the other. The members
are given in reverse, so that the last one with a key counts. -/
def propertiesBuild : List Property → Process → Option (List (Segment × Datum) × Process)
  | [], m => some ([], m)
  | .pair key value :: rest, m => do
    let s ← key.static?
    let (d, m) ← value.build m
    let (members, m) ← propertiesBuild rest m
    return (members ++ [(s, d)], m)
  | .shorthand name .absent :: rest, m => do
    let (d, m) ← m.exec w (.ident name)
    let (members, m) ← propertiesBuild rest m
    return (members ++ [(.name name, d)], m)
  | _, _ => none

end

variable {w} {m m' : Process}

theorem Process.exec_eq_some {e : Expr} {d : Datum} :
    m.exec w e = some (d, m') ↔ ∃ done, m.Evaluates w e d done ∧ m' = { m with done := done } := by
  unfold Process.exec Process.Evaluates
  rcases e.exec (w.over m.store m.heap) m.done with ⟨_ | d', done'⟩
  · simp
  · simp only [Option.some.injEq, Prod.mk.injEq]
    constructor
    · rintro ⟨rfl, rfl⟩
      exact ⟨done', ⟨rfl, rfl⟩, rfl⟩
    · rintro ⟨_, ⟨rfl, rfl⟩, rfl⟩
      exact ⟨rfl, rfl⟩

theorem build_object {ps : List Property} {result : Datum × Process} :
    (Expr.object ps).build w m = some result ↔
      ∃ members m₁, propertiesBuild w ps m = some (members, m₁) ∧ m₁.create members = result := by
  simp [Expr.build, Option.bind_eq_some_iff]

theorem build_pair {key : Key} {value : Expr} {rest : List Property}
    {result : List (Segment × Datum) × Process} :
    propertiesBuild w (.pair key value :: rest) m = some result ↔
      ∃ s d m₁ members m₂, key.static? = some s ∧ value.build w m = some (d, m₁) ∧
        propertiesBuild w rest m₁ = some (members, m₂) ∧ (members ++ [(s, d)], m₂) = result := by
  simp [propertiesBuild, Option.bind_eq_some_iff]

theorem build_shorthand {name : String} {rest : List Property}
    {result : List (Segment × Datum) × Process} :
    propertiesBuild w (.shorthand name .absent :: rest) m = some result ↔
      ∃ d m₁ members m₂, m.exec w (.ident name) = some (d, m₁) ∧
        propertiesBuild w rest m₁ = some (members, m₂) ∧
        (members ++ [(.name name, d)], m₂) = result := by
  simp [propertiesBuild, Option.bind_eq_some_iff]

/-- A shorthand with a fallback stands in patterns only. -/
theorem build_fallback {name : String} {e : Expr} (he : e ≠ .absent) {rest : List Property} :
    propertiesBuild w (.shorthand name e :: rest) m = none := by
  cases e <;> simp_all [propertiesBuild]

end Process

/-- The object and the key of a member that an expression stands for. -/
def Expr.place? : Expr → Option (Expr × Segment)
  | .member base name => some (base, .name name)
  | .index base (.literal value) => value.value?.map fun v => (base, .ofValue v)
  | .paren inner => inner.place?
  | _ => none

/-! ### Runs of statements -/

/-- The statements are run one after the other to their end. -/
inductive Proceeds (w : World) : List Stmt → Process → Process → Prop
  | finish {m : Process} : Proceeds w [] m m
  | empty {rest : List Stmt} {m m' : Process} (hrest : Proceeds w rest m m') :
    Proceeds w (.empty :: rest) m m'
  | removed {rest : List Stmt} {m m' : Process} (hrest : Proceeds w rest m m') :
    Proceeds w (.removed :: rest) m m'
  | call {f : String} {args : List Expr} {rest : List Stmt} {m m' : Process} {d : Datum}
    {done : List Action} (hexternal : m.store.find? f = none)
    (he : m.Evaluates w (.other .call (.ident f :: args)) d done)
    (hrest : Proceeds w rest (Process.react w { m with done := done }) m') :
    Proceeds w (.expr (.other .call (.ident f :: args)) :: rest) m m'
  | assign {op : Option BinaryOp} {name : String} {value : Expr} {rest : List Stmt}
    {m m₁ m' : Process} {c : Cell} {d : Datum}
    (hcell : m.store.find? name = some c) (hlet : c.isConst = false) (hready : c.value.isSome)
    (hvalue : (assigned op name value).build w m = some (d, m₁))
    (hrest : Proceeds w rest { m₁ with store := m₁.store.assign name d } m') :
    Proceeds w (.expr (.assign op (.ident name) value) :: rest) m m'
  | assignMember {target value object : Expr} {s : Segment} {rest : List Stmt}
    {m m₁ m₂ m' : Process} {d d' : Datum} {done : List Action}
    (htarget : target.place? = some (object, s)) (hobject : m.Evaluates w object d' done)
    (hvalue : value.build w { m with done := done } = some (d, m₁))
    (hassign : m₁.assignMember w d' s d = some m₂) (hrest : Proceeds w rest m₂ m') :
    Proceeds w (.expr (.assign none target value) :: rest) m m'
  | declared {kind : VarKind} {rest : List Stmt} {m m' : Process} (hrest : Proceeds w rest m m') :
    Proceeds w (.decl (.vars kind []) :: rest) m m'
  | declare {kind : VarKind} {name : String} {init : Expr} {declarators : List Declarator}
    {rest : List Stmt} {layer : Layer} {outer : Store} {m m₁ m' : Process} {d : Datum}
    (hvalue : init.build w m = some (d, m₁)) (hstore : m₁.store = layer :: outer)
    (hrest : Proceeds w (.decl (.vars kind declarators) :: rest)
      { m₁ with store := layer.fill name d :: outer } m') :
    Proceeds w (.decl (.vars kind (.mk (.ident name) init :: declarators)) :: rest) m m'
  | block {span : Span} {stmts rest : List Stmt} {m m₁ m' : Process} {layer : Layer}
    {outer : Store} (hnames : ((hoisted stmts).map (·.name)).Nodup)
    (hinside : Proceeds w stmts { m with store := hoisted stmts :: m.store } m₁)
    (hstore : m₁.store = layer :: outer)
    (hrest : Proceeds w rest { m₁ with store := outer } m') :
    Proceeds w (.block (.mk span stmts) :: rest) m m'
  | consequent {span : Span} {test : Expr} {consequent : Stmt} {alternate : Option Stmt}
    {rest : List Stmt} {m m' : Process} {d : Datum} {done : List Action}
    (he : m.Evaluates w test d done) (htrue : d.truthy (w.over m.store m.heap) = true)
    (hrest : Proceeds w (consequent :: rest) { m with done := done } m') :
    Proceeds w (.ifElse span test consequent alternate :: rest) m m'
  | alternate {span : Span} {test : Expr} {consequent : Stmt} {alternate : Option Stmt}
    {rest : List Stmt} {m m' : Process} {d : Datum} {done : List Action}
    (he : m.Evaluates w test d done) (hfalse : d.truthy (w.over m.store m.heap) = false)
    (hrest : Proceeds w (alternate.toList ++ rest) { m with done := done } m') :
    Proceeds w (.ifElse span test consequent alternate :: rest) m m'
  | loop {test : Expr} {body : Stmt} {rest : List Stmt} {m m' : Process} {d : Datum}
    {done : List Action} (he : m.Evaluates w test d done)
    (htrue : d.truthy (w.over m.store m.heap) = true)
    (hrest : Proceeds w (body :: .whileLoop test body :: rest) { m with done := done } m') :
    Proceeds w (.whileLoop test body :: rest) m m'
  | exit {test : Expr} {body : Stmt} {rest : List Stmt} {m m' : Process} {d : Datum}
    {done : List Action} (he : m.Evaluates w test d done)
    (hfalse : d.truthy (w.over m.store m.heap) = false)
    (hrest : Proceeds w rest { m with done := done } m') :
    Proceeds w (.whileLoop test body :: rest) m m'

theorem Process.Evaluates.unique {w : World} {m : Process} {e : Expr} {d d' : Datum}
    {done done' : List Action} (he : m.Evaluates w e d done) (he' : m.Evaluates w e d' done') :
    d = d' ∧ done = done' := by
  simpa using (Eq.symm he).trans he'

theorem build_unique {w : World} {m m₁ m₂ : Process} {e : Expr} {d d' : Datum}
    (he : e.build w m = some (d, m₁)) (he' : e.build w m = some (d', m₂)) : d = d' ∧ m₁ = m₂ := by
  simpa using he.symm.trans he'

/-- A run has one outcome. -/
theorem Proceeds.unique {w : World} {ss : List Stmt} {m m₁ m₂ : Process}
    (hrun : Proceeds w ss m m₁) (hrun' : Proceeds w ss m m₂) : m₁ = m₂ := by
  induction hrun generalizing m₂ with
  | finish =>
    cases hrun'
    rfl
  | empty hrest ih =>
    cases hrun' with
    | empty hrest' => exact ih hrest'
  | removed hrest ih =>
    cases hrun' with
    | removed hrest' => exact ih hrest'
  | declared hrest ih =>
    cases hrun' with
    | declared hrest' => exact ih hrest'
  | call hexternal he hrest ih =>
    cases hrun' with
    | call hexternal' he' hrest' =>
      obtain ⟨rfl, rfl⟩ := he.unique he'
      exact ih hrest'
  | assign hcell hlet hready hvalue hrest ih =>
    cases hrun' with
    | assign hcell' hlet' hready' hvalue' hrest' =>
      obtain ⟨rfl, rfl⟩ := build_unique hvalue hvalue'
      exact ih hrest'
    | assignMember htarget => simp [Expr.place?] at htarget
  | assignMember htarget hobject hvalue hassign hrest ih =>
    cases hrun' with
    | assign => simp [Expr.place?] at htarget
    | assignMember htarget' hobject' hvalue' hassign' hrest' =>
      obtain ⟨rfl, rfl⟩ := Prod.mk.inj (Option.some.inj (htarget.symm.trans htarget'))
      obtain ⟨rfl, rfl⟩ := hobject.unique hobject'
      obtain ⟨rfl, rfl⟩ := build_unique hvalue hvalue'
      obtain rfl := Option.some.inj (hassign.symm.trans hassign')
      exact ih hrest'
  | declare hvalue hstore hrest ih =>
    cases hrun' with
    | declare hvalue' hstore' hrest' =>
      obtain ⟨rfl, rfl⟩ := build_unique hvalue hvalue'
      obtain ⟨rfl, rfl⟩ := List.cons.inj (hstore.symm.trans hstore')
      exact ih hrest'
  | block hnames hinside hstore hrest ihinside ih =>
    cases hrun' with
    | block hnames' hinside' hstore' hrest' =>
      obtain rfl := ihinside hinside'
      obtain ⟨rfl, rfl⟩ := List.cons.inj (hstore.symm.trans hstore')
      exact ih hrest'
  | consequent he htrue hrest ih =>
    cases hrun' with
    | consequent he' htrue' hrest' =>
      obtain ⟨rfl, rfl⟩ := he.unique he'
      exact ih hrest'
    | alternate he' hfalse' hrest' =>
      obtain ⟨rfl, rfl⟩ := he.unique he'
      simp [htrue] at hfalse'
  | alternate he hfalse hrest ih =>
    cases hrun' with
    | consequent he' htrue' hrest' =>
      obtain ⟨rfl, rfl⟩ := he.unique he'
      simp [hfalse] at htrue'
    | alternate he' hfalse' hrest' =>
      obtain ⟨rfl, rfl⟩ := he.unique he'
      exact ih hrest'
  | loop he htrue hrest ih =>
    cases hrun' with
    | loop he' htrue' hrest' =>
      obtain ⟨rfl, rfl⟩ := he.unique he'
      exact ih hrest'
    | exit he' hfalse' hrest' =>
      obtain ⟨rfl, rfl⟩ := he.unique he'
      simp [htrue] at hfalse'
  | exit he hfalse hrest ih =>
    cases hrun' with
    | loop he' htrue' hrest' =>
      obtain ⟨rfl, rfl⟩ := he.unique he'
      simp [hfalse] at htrue'
    | exit he' hfalse' hrest' =>
      obtain ⟨rfl, rfl⟩ := he.unique he'
      exact ih hrest'

/-! ### What a step leaves as it is -/

section Frame

variable {w : World}

theorem Process.write_store (m : Process) (x : Write) : (m.write x).store = m.store := by
  unfold Process.write
  split <;> rfl

theorem Process.write_changes (m : Process) (x : Write) : m.changes ⊆ (m.write x).changes := by
  unfold Process.write
  split
  · exact List.Subset.refl _
  · exact List.subset_append_left _ _

/-- Assignments from outside touch no variable, and what was recorded stays. -/
theorem Process.foldl_write (xs : List Write) : ∀ m : Process,
    (xs.foldl Process.write m).store = m.store ∧
      m.changes ⊆ (xs.foldl Process.write m).changes := by
  induction xs with
  | nil => exact fun m => ⟨rfl, List.Subset.refl _⟩
  | cons x xs ih =>
    intro m
    obtain ⟨hstore, hchanges⟩ := ih (m.write x)
    exact ⟨hstore.trans (m.write_store x), List.Subset.trans (m.write_changes x) hchanges⟩

theorem Process.assignMember_frame {m m' : Process} {target d : Datum} {s : Segment}
    (h : m.assignMember w target s d = some m') :
    m'.store = m.store ∧ m.changes ⊆ m'.changes := by
  unfold Process.assignMember at h
  split at h
  · split at h
    · obtain rfl := Option.some.inj h
      exact ⟨m.write_store _, m.write_changes _⟩
    · obtain rfl := Option.some.inj h
      exact Process.foldl_write _ _
  · split at h
    · cases h
    · obtain rfl := Option.some.inj h
      exact ⟨rfl, List.Subset.refl _⟩

end Frame

/-- The program runs to its end without an error and leaves these variables,
objects, changes and actions. -/
def Completes (w : World) (p : Program) (globals : Layer) (heap : Heap) (changes : List Change)
    (done : List Action) : Prop :=
  ((hoisted p.stmts).map (·.name)).Nodup ∧
    Proceeds w p.stmts ⟨[hoisted p.stmts], [], [], []⟩ ⟨[globals], heap, changes, done⟩

theorem Completes.unique {w : World} {p : Program} {globals globals' : Layer} {heap heap' : Heap}
    {changes changes' : List Change} {done done' : List Action}
    (hrun : Completes w p globals heap changes done)
    (hrun' : Completes w p globals' heap' changes' done') :
    globals' = globals ∧ heap' = heap ∧ changes' = changes ∧ done' = done := by
  obtain ⟨hstore, hheap, hchanges, hdone⟩ := Process.mk.inj (hrun'.2.unique hrun.2)
  exact ⟨(List.cons.inj hstore).1, hheap, hchanges, hdone⟩

/-- The same for a program that makes no objects, with functions around it that make
none either. -/
def Finishes (h : Host) (p : Program) (globals : Layer) (done : List Action) : Prop :=
  Completes ⟨fun _ => h, fun _ _ => []⟩ p globals [] [] done

end DeadBranch
