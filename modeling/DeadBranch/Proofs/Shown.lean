/-
# What is known of constants

What is known of a constant and its parts comes from its initial value: from a value
itself, or from the literal that made its object and the literals of the objects in it.
It is compared here with the variables and objects of a run, under keys that are
watched: those by which the initial values of constants and the tests read.

An initial value that converts no misread text says of a constant what can be followed
from it (`factsOf_build`), also where the constant shares an object with another one.
This stays so as long as all changes of listed members are harmless. What is known of a
constant whose declaration has not run yet is claimed of no value, and to read it is an
error. So what is known is true at every point of the run (`Sound.known`).

Key definitions: `Store.Shows`, `Fact.HoldsOf`, `Stated`, `Sound`.
Key theorems: `Store.Shows.agrees`, `factsOf_build`, `Sound.known`, `Sound.declare`,
`Sound.assign`, `Sound.keeps`.
-/
import DeadBranch.Proofs.Clarity
import DeadBranch.Proofs.Members
import DeadBranch.Proofs.OpenBlocks
import DeadBranch.Proofs.Reads

namespace DeadBranch

/-! ### What is known and what can be followed -/

/-- All that is known under watched keys is about constants of the store, and is
found along listed members of those that have a value. -/
def Store.Shows (watched : Segment → Bool) (heap : Heap) (store : Store) (known : Associations) :
    Prop :=
  ∀ entry ∈ known.entries, entry.1.segments.all watched →
    ∃ c, store.find? entry.1.binding = some c ∧ c.isConst ∧
      ∀ d ∈ c.value, heap.follow d entry.1.segments = some (.plain entry.2)

/-- A fact is about a part of `path`, and if it is under watched keys, it is true
of what stands there. -/
def Fact.HoldsOf (watched : Segment → Bool) (heap : Heap) (path : Path) (d : Datum) (f : Fact) :
    Prop :=
  ∃ suffix, f.path = path.join suffix ∧
    (suffix.all watched → heap.follow d suffix = some (.plain f.value))

theorem Store.mem_data_of_find? {store : Store} {name : String} {c : Cell} {d : Datum}
    (hc : store.find? name = some c) (hd : d ∈ c.value) : d ∈ store.data := by
  induction store with
  | nil => cases hc
  | cons layer outer ih =>
    simp only [Store.data, List.flatten_cons, List.filterMap_append, List.mem_append]
    rw [Store.find?, Option.or_eq_some_iff] at hc
    rcases hc with hc | ⟨-, hc⟩
    · exact .inl (List.mem_filterMap.mpr ⟨c, List.mem_of_find?_eq_some hc, hd⟩)
    · exact .inr (ih hc)

section Shows

variable {w : World} {watched : Segment → Bool} {heap heap' : Heap} {store store' : Store}
  {known : Associations} {done : List Action}

theorem Fact.HoldsOf.onward {held : List Datum} (hkeeps : heap.Keeps watched held heap')
    {path : Path} {d : Datum} {f : Fact} (hf : f.HoldsOf watched heap path d) :
    f.HoldsOf watched heap' path d := by
  obtain ⟨suffix, hpath, hfollow⟩ := hf
  exact ⟨suffix, hpath, fun hs => hkeeps.onward hs (hfollow hs)⟩

theorem Store.Shows.onward {held : List Datum} (hk : store.Shows watched heap known)
    (hkeeps : heap.Keeps watched held heap') : store.Shows watched heap' known := by
  intro entry hentry hs
  obtain ⟨c, hc, hconst, hvalue⟩ := hk entry hentry hs
  exact ⟨c, hc, hconst, fun d hd => hkeeps.onward hs (hvalue d hd)⟩

/-- What is shown later was shown before. -/
theorem Store.Shows.back (hgrows : store.Grows store')
    (hkeeps : heap.Keeps watched store.data heap') (hk : store'.Shows watched heap' known) :
    store.Shows watched heap known := by
  intro entry hentry hs
  obtain ⟨c', hc', hconst', hvalue'⟩ := hk entry hentry hs
  obtain ⟨c, hc, hconst, hvalue⟩ := hgrows _ c' hc' hconst'
  refine ⟨c, hc, hconst, fun d hd => ?_⟩
  exact hkeeps.back hs (Store.mem_data_of_find? hc hd) (hvalue' d (hvalue d hd))

theorem Store.Shows.of_lookup? (hk : store.Shows watched heap known) {path : Path} {v : Value}
    (hv : (known.within watched).lookup? path = some v) :
    ∃ c, store.find? path.binding = some c ∧
      ∀ d ∈ c.value, heap.follow d path.segments = some (.plain v) := by
  simp only [Associations.lookup?_eq_find?, Associations.within, Associations.entries_of,
    Option.map_eq_some_iff] at hv
  obtain ⟨⟨path', v'⟩, hfind, rfl⟩ := hv
  obtain rfl : path' = path := by simpa using List.find?_some hfind
  obtain ⟨hentry, hs⟩ := List.mem_filter.mp (List.mem_of_find?_eq_some hfind)
  obtain ⟨c, hc, -, hvalue⟩ := hk _ hentry hs
  exact ⟨c, hc, hvalue⟩

/-- What a program reads along a path that it may rely on. -/
theorem readPath_eq_some {path : Path} {d : Datum}
    (hread : (w.over store heap).readPath done path = some d) {c : Cell}
    (hc : store.find? path.binding = some c) :
    ∃ d₀ ∈ c.value, path.segments.foldlM ((w.over store heap).member done) d₀ = some d := by
  cases hcv : c.value with
  | none =>
    have hname : (w.over store heap).read done path.binding = .pending := by
      simp [World.over, Host.over, hc, hcv]
    simp [Host.readPath, hname] at hread
  | some d₀ =>
    have hname : (w.over store heap).read done path.binding = .holds d₀ := by
      simp [World.over, Host.over, hc, hcv]
    exact ⟨d₀, rfl, by simpa only [Host.readPath, hname] using hread⟩

/-- A program can rely on what is shown under watched keys. -/
theorem Store.Shows.agrees (hk : store.Shows watched heap known) (hordinary : store.IsOrdinary)
    (w : World) (done : List Action) :
    (w.over store heap).Agrees done (known.within watched) := by
  constructor
  · intro name v hv
    simp only [evaluate] at hv
    split at hv
    · cases hv
    rw [Option.or_eq_some_iff] at hv
    rcases hv with hl | ⟨-, hglobal⟩
    · obtain ⟨c, hc, hvalue⟩ := hk.of_lookup? hl
      change store.find? name = some c at hc
      cases hcv : c.value with
      | none => exact .inl (by simp [World.over, Host.over, hc, hcv])
      | some d =>
        obtain rfl : d = .plain v := Option.some.inj (hvalue d hcv)
        exact .inr (by simp [World.over, Host.over, hc, hcv])
    · have hnone : store.find? name = none := by
        cases hc : store.find? name with
        | none => rfl
        | some c => simp [hordinary name c hc] at hglobal
      exact .inr (by simp [World.over, Host.over, hnone, hglobal])
  · intro path v _ hv d hd
    obtain ⟨c, hc, hvalue⟩ := hk.of_lookup? hv
    obtain ⟨d₀, hd₀, hread⟩ := readPath_eq_some hd hc
    exact Option.some.inj (hread.symm.trans (Heap.follow_read w store done (hvalue d₀ hd₀)))

/-- What is taken over from a part holds of what is read there. -/
theorem Store.Shows.takeOver (hk : store.Shows watched heap known) {source path : Path} {d : Datum}
    (hsource : source.segments.all watched)
    (hread : (w.over store heap).readPath done source = some d) {f : Fact}
    (hf : f ∈ known.takeOver source path) : f.HoldsOf watched heap path d := by
  obtain ⟨suffix, hpath, hentry⟩ := mem_takeOver hf
  refine ⟨suffix, hpath, fun hs => ?_⟩
  obtain ⟨c, hc, -, hvalue⟩ := hk _ hentry (by simp [Path.join, hsource, hs])
  obtain ⟨d₀, hd₀, hread⟩ := readPath_eq_some hread hc
  have hfollow : heap.follow d₀ (source.segments ++ suffix) = some (.plain f.value) :=
    hvalue d₀ hd₀
  rw [Heap.follow_append, Option.bind_eq_some_iff] at hfollow
  obtain ⟨d', hd', hsuffix⟩ := hfollow
  obtain rfl : d = d' :=
    Option.some.inj (hread.symm.trans (Heap.follow_read w store done hd'))
  exact hsuffix

/-- What is taken over from a chain. -/
theorem Store.Shows.takeOver_chain (hk : store.Shows watched heap known)
    (hordinary : store.IsOrdinary) {e : Expr} (hchain : e.isChain watched) {d : Datum}
    {done' : List Action} (he : e.exec (w.over store heap) done = (some d, done'))
    {source path : Path} (hsource : staticPath known e = some source) {f : Fact}
    (hf : f ∈ known.takeOver source path) :
    f.HoldsOf watched heap path d := by
  obtain ⟨hsame, hall⟩ := staticPath_within known hchain
  obtain ⟨-, hyields⟩ := exec_staticPath (hk.agrees hordinary w done) e (hsame.trans hsource)
    (Expr.isInertPath_of_isChain _ hchain) (Expr.isClear_of_isChain _ hchain)
  exact hk.takeOver (hall source hsource) (hyields.2 d (congrArg Prod.fst he)) hf

/-- **What an expression that reads says is what it yields**, if no misread text is converted. -/
theorem Store.Shows.factsOf_exec (hk : store.Shows watched heap known)
    (hordinary : store.IsOrdinary) {path : Path} {d : Datum} {done' : List Action} {f : Fact} :
    ∀ {e : Expr}, e.isReading watched → e.isClear known →
      e.exec (w.over store heap) done = (some d, done') →
      f ∈ factsOf known path e → f.HoldsOf watched heap path d
  | .literal value, _, _, he, hf => by
    simp only [factsOf] at hf
    obtain ⟨hpath, hv, -⟩ := mem_stated.mp hf
    have hexec : some (Datum.plain f.value) = some d := by
      simpa [Expr.exec, Literal.exec, hv, pure] using congrArg Prod.fst he
    exact ⟨[], by simp [hpath, Path.join], fun _ => hexec.symm⟩
  | .ident source, _, _, he, hf => by
    simp only [factsOf] at hf
    have hexec := congrArg Prod.fst he
    simp only [Expr.exec, execName, Execution.ask] at hexec
    have hread : (w.over store heap).readPath done (.root source) = some d := by
      simp only [Host.readPath, Path.root]
      cases hname : (w.over store heap).read done source <;> simp_all
    exact hk.takeOver rfl hread hf
  | .paren inner, hr, hc, he, hf => by
    simp only [Expr.isReading] at hr
    simp only [Expr.isClear] at hc
    simp only [Expr.exec] at he
    simp only [factsOf] at hf
    exact hk.factsOf_exec hordinary hr hc he hf
  | .member base name, hr, _, he, hf => by
    simp only [Expr.isReading] at hr
    simp only [factsOf] at hf
    split at hf
    · rename_i source hsource
      exact hk.takeOver_chain hordinary hr he hsource hf
    · simp at hf
  | .index base key, hr, _, he, hf => by
    simp only [Expr.isReading] at hr
    simp only [factsOf] at hf
    split at hf
    · rename_i source hsource
      exact hk.takeOver_chain hordinary hr he hsource hf
    · simp at hf
  | .unary op e, hr, hc, he, hf | .binary op e e', hr, hc, he, hf
  | .cond c e e', hr, hc, he, hf => by
    simp only [factsOf] at hf
    obtain ⟨hpath, hv, -⟩ := mem_stated.mp hf
    have hclear := isClear_within known hr hv hc
    rw [← evaluate_within known hr] at hv
    have hyields := exec_evaluate (hk.agrees hordinary w done) _ hv
      (Expr.isInert_of_isReading _ true hr) hclear
    have hplain := (hyields.2 d (congrArg Prod.fst he)).eq_plain
    exact ⟨[], by simp [hpath, Path.join], fun _ => congrArg some hplain⟩
  | .absent, hr, _, _, _ | .assign _ _ _, hr, _, _, _ | .array _, hr, _, _, _
  | .object _, hr, _, _, _ | .spread _, hr, _, _, _ | .arrayPattern _, hr, _, _, _
  | .objectPattern _, hr, _, _, _ | .withDefault _ _, hr, _, _, _ | .closure _, hr, _, _, _
  | .classExpr _ _ _, hr, _, _, _ | .other _ _, hr, _, _, _ => by
    simp [Expr.isReading, Expr.isChain] at hr

end Shows

/-! ### What an initial value says -/

/-- A constant has no value yet. -/
def Store.Awaits (store : Store) (name : String) : Prop :=
  ∃ c, store.find? name = some c ∧ c.isConst ∧ c.value = none

/-- Nothing can be held against facts about a constant without a value. -/
theorem Store.Shows.learn {watched : Segment → Bool} {heap : Heap} {store : Store}
    {known : Associations} (hk : store.Shows watched heap known) {name : String}
    (hawaits : store.Awaits name) {facts : List Fact}
    (hfacts : ∀ f ∈ facts, f.path.binding = name) :
    store.Shows watched heap (known.learn facts) := by
  intro entry hentry hs
  simp only [Associations.entries_learn, List.mem_append, List.mem_map] at hentry
  rcases hentry with hentry | ⟨f, hf, rfl⟩
  · exact hk entry hentry hs
  · obtain ⟨c, hc, hconst, hnone⟩ := hawaits
    exact ⟨c, (hfacts f hf).symm ▸ hc, hconst, by simp [hnone]⟩

theorem Key.segment?_of_static? {key : Key} {s : Segment} (h : key.static? = some s)
    (known : Associations) : key.segment? known = some s := by
  cases key <;> simp_all [Key.static?, Key.segment?]

section Build

variable {w : World} {watched : Segment → Bool}

/-- The members that properties make have the keys of the properties. -/
theorem propertiesBuild_keys : ∀ {ps : List Property} {m m' : Process}
    {members : List (Segment × Datum)}, propertiesBuild w ps m = some (members, m') →
    ∀ s ∉ ps.filterMap Property.key?, members.lookup s = none
  | [], m, m', members, h, s, _ => by
    simp only [propertiesBuild, Option.some.injEq, Prod.mk.injEq] at h
    rw [← h.1, List.lookup_nil]
  | .pair key value :: rest, m, m', members, h, s, hs => by
    obtain ⟨s', d, m₁, members', m₂, hkey, -, hrest, heq⟩ := build_pair.mp h
    obtain ⟨rfl, -⟩ := Prod.mk.inj heq
    have hfirst : (Property.pair key value).key? = some s' := hkey
    rw [List.filterMap_cons_some hfirst, List.mem_cons, not_or] at hs
    rw [List.lookup_append, propertiesBuild_keys hrest s hs.2]
    simp [List.lookup_cons, beq_eq_false_iff_ne.mpr hs.1]
  | .shorthand name e :: rest, m, m', members, h, s, hs => by
    by_cases he : e = .absent
    · subst he
      obtain ⟨d, m₁, members', m₂, -, hrest, heq⟩ := build_shorthand.mp h
      obtain ⟨rfl, -⟩ := Prod.mk.inj heq
      have hfirst : (Property.shorthand name .absent).key? = some (.name name) := rfl
      rw [List.filterMap_cons_some hfirst, List.mem_cons, not_or] at hs
      rw [List.lookup_append, propertiesBuild_keys hrest s hs.2]
      simp [List.lookup_cons, beq_eq_false_iff_ne.mpr hs.1]
    · rw [build_fallback he] at h
      cases h
  | .spread _ :: _, _, _, _, h, _, _ | .method _ _ _ _ :: _, _, _, _, h, _, _
  | .field _ _ _ :: _, _, _, _, h, _, _ | .staticBlock _ :: _, _, _, _, h, _, _
  | .empty :: _, _, _, _, h, _, _ => by simp [propertiesBuild] at h

/-- One property more: its facts hold of its member, and those of the others of
their members. -/
theorem facts_of_append {rest : List Property} {m₁ m₂ : Process}
    {members : List (Segment × Datum)} (hrest : propertiesBuild w rest m₁ = some (members, m₂))
    {s : Segment} (hs : s ∉ rest.filterMap Property.key?) {d : Datum} {path : Path}
    {facts others : List Fact}
    (hfacts : ∀ f ∈ facts, f.HoldsOf watched m₁.heap (path.child s) d)
    (hothers : ∀ f ∈ others, ∃ s x, members.lookup s = some x ∧
      f.HoldsOf watched m₂.heap (path.child s) x) :
    ∀ f ∈ facts ++ others, ∃ s' x, (members ++ [(s, d)]).lookup s' = some x ∧
      f.HoldsOf watched m₂.heap (path.child s') x := by
  have hextends : m₁.Extends watched m₂ := propertiesBuild_extends hrest
  refine List.forall_mem_append.mpr ⟨fun f hf => ?_, fun f hf => ?_⟩
  · refine ⟨s, d, ?_, (hfacts f hf).onward hextends.heap⟩
    rw [List.lookup_append, propertiesBuild_keys hrest s hs, Option.none_or, List.lookup_cons_self]
  · obtain ⟨s', x, hx, hholds⟩ := hothers f hf
    exact ⟨s', x, by rw [List.lookup_append, hx, Option.some_or], hholds⟩

mutual

/-- **The facts of an initial value hold of what it makes**, if they are found
before the constant has its value and no misread text is converted to find them. -/
theorem factsOf_build : ∀ {e : Expr} {m m' : Process} {d : Datum} {known : Associations}
    {path : Path}, e.isValue watched → e.isClearInit known path → e.build w m = some (d, m') →
    m.store.IsOrdinary → m.store.Awaits path.binding → m.store.Shows watched m.heap known →
    ∀ f ∈ factsOf known path e, f.HoldsOf watched m'.heap path d
  | .object ps, m, m', d, known, path, hv, hc, h, hordinary, hawaits, hk => by
    intro f hf
    simp only [Expr.isValue, Bool.and_eq_true, decide_eq_true_eq] at hv
    simp only [Expr.isClearInit] at hc
    simp only [factsOf] at hf
    obtain ⟨members, m₁, hps, hcreate⟩ := build_object.mp h
    obtain ⟨s, x, hx, suffix, hpath, hfollow⟩ :=
      factsOfProperties_build hv.1 hv.2 hc hps hordinary hawaits hk f hf
    have hkeeps := m₁.create_keeps watched members
    rw [hcreate] at hkeeps
    refine ⟨s :: suffix, by simp [hpath, Path.child, Path.join], fun hs => ?_⟩
    rw [List.all_cons, Bool.and_eq_true] at hs
    -- the new object leads on to the member
    have hlisted : m'.heap.listed? d s = some x := by
      obtain ⟨rfl, rfl⟩ := Prod.mk.inj hcreate
      rw [Heap.listed?_object, List.lookup_cons_self]
      exact hx
    rw [Heap.follow_cons, hlisted, Option.bind_some]
    exact hkeeps.onward hs.2 (hfollow hs.2)
  | .paren inner, m, m', d, known, path, hv, hc, h, hordinary, hawaits, hk => by
    simp only [Expr.isValue] at hv
    simp only [Expr.isClearInit] at hc
    simp only [Expr.build] at h
    simp only [factsOf]
    exact factsOf_build hv hc h hordinary hawaits hk
  | .absent, _, _, _, _, _, _, _, _, _, _, _ => by simp [factsOf]
  | .literal _, m, m', d, known, path, hv, hc, h, hordinary, hawaits, hk
  | .ident _, m, m', d, known, path, hv, hc, h, hordinary, hawaits, hk
  | .unary _ _, m, m', d, known, path, hv, hc, h, hordinary, hawaits, hk
  | .binary _ _ _, m, m', d, known, path, hv, hc, h, hordinary, hawaits, hk
  | .cond _ _ _, m, m', d, known, path, hv, hc, h, hordinary, hawaits, hk
  | .member _ _, m, m', d, known, path, hv, hc, h, hordinary, hawaits, hk
  | .index _ _, m, m', d, known, path, hv, hc, h, hordinary, hawaits, hk => by
    simp only [Expr.isValue] at hv
    simp only [Expr.isClearInit] at hc
    simp only [Expr.build] at h
    obtain ⟨done, he, rfl⟩ := Process.exec_eq_some.mp h
    exact fun f hf => hk.factsOf_exec hordinary hv hc he hf
  | .assign _ _ _, _, _, _, _, _, hv, _, _, _, _, _ | .array _, _, _, _, _, _, hv, _, _, _, _, _
  | .spread _, _, _, _, _, _, hv, _, _, _, _, _
  | .arrayPattern _, _, _, _, _, _, hv, _, _, _, _, _
  | .objectPattern _, _, _, _, _, _, hv, _, _, _, _, _
  | .withDefault _ _, _, _, _, _, _, hv, _, _, _, _, _
  | .closure _, _, _, _, _, _, hv, _, _, _, _, _
  | .classExpr _ _ _, _, _, _, _, _, hv, _, _, _, _, _
  | .other _ _, _, _, _, _, _, hv, _, _, _, _, _ => by
    simp [Expr.isValue, Expr.isReading, Expr.isChain] at hv

/-- The facts of properties hold of the members that they make. -/
theorem factsOfProperties_build : ∀ {ps : List Property} {m m' : Process}
    {members : List (Segment × Datum)} {known : Associations} {path : Path},
    propertiesValue watched ps → (ps.filterMap Property.key?).Nodup →
    propertiesClear known path ps → propertiesBuild w ps m = some (members, m') →
    m.store.IsOrdinary → m.store.Awaits path.binding → m.store.Shows watched m.heap known →
    ∀ f ∈ factsOfProperties known path ps, ∃ s x, members.lookup s = some x ∧
      f.HoldsOf watched m'.heap (path.child s) x
  | [], _, _, _, _, _, _, _, _, _, _, _, _ => by simp [factsOfProperties]
  | .pair key value :: rest, m, m', members, known, path, hv, hnodup, hc, h, hordinary, hawaits,
    hk => by
    simp only [propertiesValue, Bool.and_eq_true] at hv
    obtain ⟨s, d, m₁, members', m₂, hkey, hvalue, hrest, heq⟩ := build_pair.mp h
    obtain ⟨rfl, rfl⟩ := Prod.mk.inj heq
    have hsegment := Key.segment?_of_static? hkey known
    simp only [propertiesClear, hsegment, Bool.and_eq_true] at hc
    have hfirst : (Property.pair key value).key? = some s := hkey
    rw [List.filterMap_cons_some hfirst, List.nodup_cons] at hnodup
    have hextends : m.Extends watched m₁ := Expr.build_extends hvalue
    have hchild : m.store.Awaits (path.child s).binding := hawaits
    have hlearn := (hk.onward hextends.heap).learn hchild
      (factsOf_binding known (path.child s) value)
    simp only [factsOfProperties, hsegment]
    refine facts_of_append hrest hnodup.1
      (factsOf_build hv.1.2 hc.2.1 hvalue hordinary hchild hk) ?_
    rw [← hextends.store] at hordinary hawaits hlearn
    exact factsOfProperties_build hv.2 hnodup.2 hc.2.2 hrest hordinary hawaits hlearn
  | .shorthand name e :: rest, m, m', members, known, path, hv, hnodup, hc, h, hordinary, hawaits,
    hk => by
    by_cases he : e = .absent
    · subst he
      simp only [propertiesValue] at hv
      simp only [propertiesClear] at hc
      obtain ⟨d, m₁, members', m₂, hname, hrest, heq⟩ := build_shorthand.mp h
      obtain ⟨rfl, rfl⟩ := Prod.mk.inj heq
      have hfirst : (Property.shorthand name .absent).key? = some (.name name) := rfl
      rw [List.filterMap_cons_some hfirst, List.nodup_cons] at hnodup
      have hextends : m.Extends watched m₁ := Process.exec_extends hname
      obtain ⟨done, hexec, -⟩ := Process.exec_eq_some.mp hname
      have hreading : (Expr.ident name).isReading watched := by
        simp [Expr.isReading, Expr.isChain]
      have hfacts : ∀ f ∈ factsOf known (path.child (.name name)) (.ident name),
          f.HoldsOf watched m₁.heap (path.child (.name name)) d :=
        fun f hf => (hk.factsOf_exec hordinary hreading (by simp [Expr.isClear]) hexec hf).onward
          hextends.heap
      have hchild : m.store.Awaits (path.child (.name name)).binding := hawaits
      have hlearn := (hk.onward hextends.heap).learn hchild
        (factsOf_binding known (path.child (.name name)) (.ident name))
      simp only [factsOf] at hfacts hlearn
      simp only [factsOfProperties]
      refine facts_of_append hrest hnodup.1 hfacts ?_
      rw [← hextends.store] at hordinary hawaits hlearn
      exact factsOfProperties_build hv hnodup.2 hc hrest hordinary hawaits hlearn
    · rw [build_fallback he] at h
      cases h
  | .spread _ :: _, _, _, _, _, _, hv, _, _, _, _, _, _
  | .method _ _ _ _ :: _, _, _, _, _, _, hv, _, _, _, _, _, _
  | .field _ _ _ :: _, _, _, _, _, _, hv, _, _, _, _, _, _
  | .staticBlock _ :: _, _, _, _, _, _, hv, _, _, _, _, _, _
  | .empty :: _, _, _, _, _, _, hv, _, _, _, _, _, _ => by simp [propertiesValue] at hv

end

end Build

/-! ### Constants that are shown -/

/-- Whatever is known, the initial value of a constant says nothing but what is
true of the constant, unless a misread text is converted to find what it says. -/
def Stated (watched : Segment → Bool) (heap : Heap) (store : Store) (name : String) (init : Expr)
    (d : Datum) : Prop :=
  ∀ known, store.Shows watched heap known → init.isClearInit known (.root name) →
    ∀ f ∈ factsOf known (.root name) init, f.HoldsOf watched heap (.root name) d

/-- The constant is in the store, and what its initial value says is true of it. -/
inductive Declarator.Shown (watched : Segment → Bool) (heap : Heap) (store : Store) :
    Declarator → Prop
  | constant {name : String} {init : Expr} {c : Cell} (hcell : store.find? name = some c)
    (hconst : c.isConst) (hstated : ∀ d ∈ c.value, Stated watched heap store name init d) :
    Shown watched heap store (.mk (.ident name) init)

section Stated

variable {w : World} {watched : Segment → Bool} {heap heap' : Heap} {store store' : Store}

theorem Stated.later (hgrows : store.Grows store') (hkeeps : heap.Keeps watched store.data heap')
    {name : String} {init : Expr} {d : Datum} (h : Stated watched heap store name init d) :
    Stated watched heap' store' name init d :=
  fun known hk hc f hf => (h known (hk.back hgrows hkeeps) hc f hf).onward hkeeps

theorem Declarator.Shown.later {d : Declarator} (h : d.Shown watched heap store)
    (hgrows : store.Grows store') (hkeeps : heap.Keeps watched store.data heap')
    (hsame : ∀ name, d.name? = some name → store'.find? name = store.find? name) :
    d.Shown watched heap' store' := by
  obtain ⟨hcell, hconst, hstated⟩ := h
  exact .constant ((hsame _ rfl).trans hcell) hconst fun d hd => (hstated d hd).later hgrows hkeeps

/-- The initial value that was executed is stated. -/
theorem stated_of_build {m m' : Process} {init : Expr} {d : Datum} {name : String}
    (hv : init.isValue watched) (hbuild : init.build w m = some (d, m'))
    (hordinary : m.store.IsOrdinary) (hawaits : m.store.Awaits name) :
    Stated watched m'.heap m.store name init d := by
  intro known hk hc
  have hextends : m.Extends watched m' := Expr.build_extends hbuild
  exact factsOf_build hv hc hbuild hordinary hawaits (hk.back (.refl m.store) hextends.heap)

end Stated

section Known

variable {watched : Segment → Bool} {heap : Heap} {store : Store}

theorem Store.Shows.cons {layer : Layer} {known : Associations}
    (hk : store.Shows watched heap known)
    (hnames : ∀ entry ∈ known.entries, entry.1.binding ∉ layer.map (·.name)) :
    Store.Shows watched heap (layer :: store) known := by
  intro entry hentry
  rw [Store.find?_cons_of_notMem (hnames entry hentry)]
  exact hk entry hentry

/-- What is known stays true with a constant more. -/
theorem Store.Shows.bind {known : Associations} (hk : store.Shows watched heap known)
    {d : Declarator} (hd : d.Shown watched heap store) (hclear : d.isClear known) :
    store.Shows watched heap (DeadBranch.bind known d) := by
  obtain ⟨hcell, hconst, hstated⟩ := hd
  intro entry hentry hs
  simp only [DeadBranch.bind, Declarator.facts, Associations.entries_learn, List.mem_append,
    List.mem_map] at hentry
  rcases hentry with hold | ⟨f, hf, rfl⟩
  · exact hk entry hold hs
  · have hroot := factsOf_binding known _ _ f hf
    refine ⟨_, hroot ▸ hcell, hconst, fun d hd => ?_⟩
    obtain ⟨suffix, hpath, hfollow⟩ := hstated d hd known hk hclear f hf
    have hsegments : f.path.segments = suffix := by simp [hpath, Path.join, Path.root]
    rw [hsegments] at hs ⊢
    exact hfollow hs

theorem Store.Shows.bindAll : ∀ {ds : List Declarator} {known : Associations},
    store.Shows watched heap known → (∀ d ∈ ds, d.Shown watched heap store) →
    declaratorsClear known ds → store.Shows watched heap (DeadBranch.bindAll known ds)
  | [], _, hk, _, _ => hk
  | d :: ds, known, hk, hds, hclear => by
    change store.Shows watched heap (DeadBranch.bindAll (DeadBranch.bind known d) ds)
    rw [List.forall_mem_cons] at hds
    rw [declaratorsClear, Bool.and_eq_true] at hclear
    exact (hk.bind hds.1 hclear.1).bindAll hds.2 hclear.2

end Known

/-! ### What holds along a run -/

/-- What a binding keeps is the declaration of a constant of its name. -/
def Binding.IsConstant (b : Binding) : Prop :=
  ∀ d, b.declarator = some d → b.kind.isImmutable ∧ ∃ init, d = .mk (.ident b.name) init

/-- The constants of open blocks that have run are shown, each in the blocks around
it. -/
def Grounded (watched : Segment → Bool) (heap : Heap) : List OpenBlock → Store → Prop
  | l :: blocks, layer :: outer =>
    (∀ b ∈ l.done, ∀ d, b.declarator = some d → d.Shown watched heap (layer :: outer)) ∧
      Grounded watched heap blocks outer
  | _, _ => True

/-- The store has the variables of the open blocks, and what the initial values of
their constants say is true. -/
structure Sound (watched : Segment → Bool) (blocks : List OpenBlock) (store : Store)
    (heap : Heap) : Prop where
  shape : Fits blocks store
  constants : ∀ b ∈ doneOf blocks ++ pendingOf blocks, b.IsConstant
  grounded : Grounded watched heap blocks store

theorem Binding.IsConstant.name? {b : Binding} (hb : b.IsConstant) {d : Declarator}
    (hd : b.declarator = some d) : d.name? = some b.name := by
  obtain ⟨-, init, rfl⟩ := hb d hd
  rfl

section Sound

variable {watched : Segment → Bool} {blocks : List OpenBlock} {store : Store} {heap heap' : Heap}

/-- The constants that `f` picks from the bindings that have run. Each is bound
when only constants before it are known, as it was initialised. -/
theorem Grounded.shows_done {f : Binding → Option Declarator} : ∀ {blocks : List OpenBlock}
    {store : Store}, Fits blocks store → Grounded watched heap blocks store →
    (∀ b ∈ doneOf blocks, ∀ d, f b = some d → b.declarator = some d ∧ d.name? = some b.name ∧
      (namesOf blocks).count b.name ≤ 1) →
    ∀ shadowed, declaratorsClear (.ofShadowed shadowed) ((doneOf blocks).filterMap f) →
      store.Shows watched heap (bindAll (.ofShadowed shadowed) ((doneOf blocks).filterMap f))
  | [], [], _, _, _, _, _ => by simp [Store.Shows, doneOf, bindAll]
  | l :: blocks, layer :: outer, ⟨hl, houter⟩, ⟨hhere, hground⟩, hf, shadowed, hclear => by
    rw [doneOf, List.filterMap_append, declaratorsClear_append, Bool.and_eq_true] at hclear
    rw [doneOf, List.filterMap_append, bindAll_append]
    have hshows := hground.shows_done houter
      (fun b hb d hd => by
        obtain ⟨hdeclarator, hname, hcount⟩ := hf b (List.mem_append_left _ hb) d hd
        exact ⟨hdeclarator, hname, count_namesOf_tail hcount⟩) shadowed hclear.1
    refine (hshows.cons fun entry hentry hmem => ?_).bindAll (fun d hd => ?_) hclear.2
    · -- what comes from further out has no name of this block
      obtain ⟨d, hd, hname⟩ :
          ∃ d ∈ (doneOf blocks).filterMap f, d.name? = some entry.1.binding := by
        simpa using mem_entries_bindAll hentry
      obtain ⟨b, hb, hd⟩ := List.mem_filterMap.mp hd
      obtain ⟨-, hname', hcount⟩ := hf b (List.mem_append_left _ hb) d hd
      have hroot : b.name = entry.1.binding := Option.some.inj (hname'.symm.trans hname)
      rw [← hroot, hl.names] at hmem
      exact notMem_names_of_count hcount (mem_namesOf_of_done hb) hmem
    · obtain ⟨b, hb, hd⟩ := List.mem_filterMap.mp hd
      exact hhere b hb d (hf b (List.mem_append_right _ hb) d hd).1

/-- **What is known is true of the variables and objects**, if no misread text is converted to
find it: a constant that has run was initialised where the same constants were known before it,
and a constant to come cannot be read. -/
theorem Sound.known (h : Sound watched blocks store heap) {wholeChain : Bool}
    (hclear : clearAmong wholeChain [doneOf blocks ++ pendingOf blocks]) :
    store.Shows watched heap (knownAmong wholeChain [doneOf blocks ++ pendingOf blocks]) := by
  set visible := doneOf blocks ++ pendingOf blocks with hvisible
  let f : Binding → Option Declarator := fun b =>
    if b.isUsable visible true then b.declarator else none
  have hf : ∀ b d, f b = some d →
      b.declarator = some d ∧ (namesOf blocks).count b.name ≤ 1 := by
    intro b d hd
    simp only [f, Option.ite_none_right_eq_some] at hd
    obtain ⟨husable, hd⟩ := hd
    simp only [Binding.isUsable, Bool.and_eq_true, beq_iff_eq] at husable
    exact ⟨hd, Nat.le_of_eq ((count_namesOf b.name blocks).symm.trans husable.2)⟩
  have hchain : chainConstants wholeChain true [] [visible] =
      (doneOf blocks).filterMap f ++ (pendingOf blocks).filterMap f := by
    simp [chainConstants, usableIn, freshIn, hvisible, f]
  rw [clearAmong, hchain, declaratorsClear_append, Bool.and_eq_true] at hclear
  have hconstants := List.forall_mem_append.mp h.constants
  have hdone := h.grounded.shows_done h.shape
    (fun b hb d hd =>
      ⟨(hf b d hd).1, (hconstants.1 b hb).name? (hf b d hd).1, (hf b d hd).2⟩)
    (chainHidden wholeChain true [] [visible]) hclear.1
  rw [knownAmong, hchain, bindAll_append]
  refine hdone.bindAll (fun d hd => ?_) hclear.2
  obtain ⟨b, hb, hd⟩ := List.mem_filterMap.mp hd
  obtain ⟨hdeclarator, hcount⟩ := hf b d hd
  obtain ⟨hconst, init, rfl⟩ := hconstants.2 b hb d hdeclarator
  obtain ⟨c, hfind, hkind, hvalue⟩ := h.shape.find?_pending hb hcount
  exact .constant hfind (hkind.trans hconst) (by simp [hvalue])

theorem Sound.isOrdinary (h : Sound watched blocks store heap) : store.IsOrdinary :=
  h.shape.isOrdinary

theorem Store.data_cons (layer : Layer) (outer : Store) :
    Store.data (layer :: outer) = layer.filterMap (·.value) ++ outer.data := by
  simp [Store.data]

/-- Objects are made or changed, and nothing that is shown is touched. -/
theorem Sound.keeps (h : Sound watched blocks store heap)
    (hkeeps : heap.Keeps watched store.data heap') : Sound watched blocks store heap' := by
  obtain ⟨hshape, hconstants, hgrounded⟩ := h
  refine ⟨hshape, hconstants, ?_⟩
  clear hshape hconstants
  induction blocks generalizing store with
  | nil => exact trivial
  | cons l blocks ih =>
    cases store with
    | nil => exact trivial
    | cons layer outer =>
      obtain ⟨hhere, houter⟩ := hgrounded
      refine ⟨fun b hb d hd => ?_, ih (hkeeps.mono ?_) houter⟩
      · exact (hhere b hb d hd).later (.refl _) hkeeps fun _ _ => rfl
      · rw [Store.data_cons]
        exact List.subset_append_right _ _

/-- A block is entered. -/
theorem Sound.enter (h : Sound watched blocks store heap) {pending : List Binding}
    (hordinary : ∀ b ∈ pending, globalValue? b.name = none)
    (hconstants : ∀ b ∈ pending, b.IsConstant) (hnodup : (pending.map (·.name)).Nodup) :
    Sound watched (⟨[], pending⟩ :: blocks) (pending.map Binding.cell :: store) heap := by
  refine ⟨h.shape.enter hordinary hnodup, ?_, by simp, h.grounded⟩
  have hall := List.forall_mem_append.mp h.constants
  simp only [doneOf, pendingOf, List.append_nil, List.forall_mem_append]
  exact ⟨hall.1, hconstants, hall.2⟩

/-- A block is left. -/
theorem Sound.leave {l : OpenBlock} {layer : Layer}
    (h : Sound watched (l :: blocks) (layer :: store) heap) : Sound watched blocks store heap := by
  refine ⟨h.shape.2, ?_, h.grounded.2⟩
  have hall := h.constants
  simp only [doneOf, pendingOf, List.forall_mem_append] at hall ⊢
  exact ⟨hall.1.1, hall.2.2⟩

/-- The constant whose declaration comes next has no value. -/
theorem Sound.awaits {done pending : List Binding} {b : Binding}
    (h : Sound watched (⟨done, b :: pending⟩ :: blocks) store heap)
    (hconst : b.kind.isImmutable) : store.Awaits b.name := by
  cases store with
  | nil => exact h.shape.elim
  | cons layer outer =>
    have hl := h.shape.1
    have hmem : b ∈ done ++ b :: pending := List.mem_append_right done List.mem_cons_self
    obtain ⟨c, hc, hname, hfind⟩ := hl.find? outer hmem
    exact ⟨c, hfind, (hl.kinds b hmem c hc hname).trans hconst,
      hl.waiting b List.mem_cons_self c hc hname⟩

/-- The next declaration of the innermost block runs. -/
theorem Sound.declare {done pending : List Binding} {b : Binding} {layer : Layer} {outer : Store}
    (h : Sound watched (⟨done, b :: pending⟩ :: blocks) (layer :: outer) heap) {d : Datum}
    (hstated : ∀ target init, b.declarator = some (.mk target init) →
      Stated watched heap (layer :: outer) b.name init d) :
    Sound watched (⟨done ++ [b], pending⟩ :: blocks) (layer.fill b.name d :: outer) heap := by
  obtain ⟨hshape, hconstants, hhere, houter⟩ := h
  have hnodup := hshape.1.nodup
  simp only [OpenBlock.names, List.map_append, List.map_cons, List.nodup_append] at hnodup
  obtain ⟨hshape', hgrows⟩ := hshape.declare d
  refine ⟨hshape', by simpa [doneOf, pendingOf] using hconstants, ?_, houter⟩
  intro b' hb' d' hd'
  rcases List.mem_append.mp hb' with hb' | hb'
  · -- another constant of the block stays as it is
    refine (hhere b' hb' d' hd').later hgrows (.refl watched _ _) fun name hname => ?_
    have hconstant : b'.IsConstant := hconstants b' (by simp [doneOf, hb'])
    obtain rfl : b'.name = name := Option.some.inj ((hconstant.name? hd').symm.trans hname)
    exact Store.find?_fill_of_ne (hnodup.2.2 _ (List.mem_map_of_mem hb') _ List.mem_cons_self)
  · obtain rfl := List.mem_singleton.mp hb'
    obtain ⟨hconst, init, rfl⟩ := hconstants b' (by simp [pendingOf]) d' hd'
    have hmem : b' ∈ done ++ [b'] ++ pending := by simp
    obtain ⟨c, hc, hname, hfind⟩ := hshape'.1.find? outer hmem
    refine .constant hfind ((hshape'.1.kinds b' hmem c hc hname).trans hconst) fun x hx => ?_
    -- the variable of that name holds what it was given
    obtain rfl : d = x := by
      rcases Layer.mem_fill.mp hc with ⟨-, hne⟩ | ⟨c', -, -, rfl⟩
      · exact absurd hname hne
      · exact Option.some.inj hx
    exact (hstated _ init hd').later hgrows (.refl watched _ _)

/-- A variable is assigned to. -/
theorem Sound.assign (h : Sound watched blocks store heap) {name : String} {c : Cell} (d : Datum)
    (hcell : store.find? name = some c) (hlet : c.isConst = false) (hready : c.value.isSome) :
    Sound watched blocks (store.assign name d) heap := by
  obtain ⟨hshape, hconstants, hgrounded⟩ := h
  refine ⟨(hshape.assign d hlet hready hcell).1, hconstants, ?_⟩
  induction blocks generalizing store with
  | nil => cases store <;> exact trivial
  | cons l blocks ih =>
    cases store with
    | nil => exact trivial
    | cons layer outer =>
      have hgrows := (hshape.assign d hlet hready hcell).2
      obtain ⟨hl, houter⟩ := hshape
      obtain ⟨hhere, hgrounded⟩ := hgrounded
      have hmem : ∀ b ∈ l.done, b ∈ l.done ++ l.pending := fun b hb =>
        List.mem_append_left _ hb
      have hconstant : ∀ b ∈ l.done, b.IsConstant := fun b hb =>
        hconstants b (by simp [doneOf, hb])
      by_cases hany : layer.any (·.name = name)
      · rw [Store.assign, if_pos hany] at hgrows ⊢
        refine ⟨fun b hb d' hd' => ?_, hgrounded⟩
        refine (hhere b hb d' hd').later hgrows (.refl watched _ _) fun other hother => ?_
        obtain rfl : b.name = other :=
          Option.some.inj (((hconstant b hb).name? hd').symm.trans hother)
        -- a constant is none of the variables that can be assigned to
        refine Store.find?_fill_of_ne fun hname => ?_
        obtain ⟨c', hc', hname', hfind⟩ := hl.find? outer (hmem b hb)
        obtain rfl : c' = c := by
          rw [← hname] at hcell
          exact Option.some.inj (hfind.symm.trans hcell)
        have hconst : c'.isConst = true :=
          (hl.kinds _ (hmem b hb) c' hc' hname').trans (hconstant b hb d' hd').1
        rw [hlet] at hconst
        cases hconst
      · have hnone : layer.find? (·.name = name) = none := by
          simpa [List.find?_eq_none, List.any_eq_true] using hany
        rw [Store.find?, hnone, Option.none_or] at hcell
        rw [Store.assign, if_neg hany] at hgrows ⊢
        refine ⟨fun b hb d' hd' => ?_, ?_⟩
        · refine (hhere b hb d' hd').later hgrows (.refl watched _ _) fun other hother => ?_
          obtain rfl : b.name = other :=
            Option.some.inj (((hconstant b hb).name? hd').symm.trans hother)
          obtain ⟨c', hc', hname', -⟩ := hl.find? outer (hmem b hb)
          have hfind := Layer.find?_of_mem (hl.names ▸ hl.nodup) hc'
          rw [hname'] at hfind
          rw [Store.find?, Store.find?, hfind, Option.some_or, Option.some_or]
        · refine ih hcell houter (fun b hb => hconstants b ?_) hgrounded
          simp only [doneOf, pendingOf, List.mem_append] at hb ⊢
          exact hb.imp .inl .inr

end Sound

end DeadBranch
