/-
# Members that stay as they were listed

A path into an object is followed through members that literals listed
(`Heap.follow`). Making an object adds to what can be followed and takes nothing
away, and an assignment to a member leaves it as it is, unless a literal listed
the member. An assignment to a listed member is harmless if nobody watches its
key, or if the member held the same before (`Change.IsHarmless`).

Key definitions: `Heap.follow`, `Heap.Keeps`, `Change.IsHarmless`.
Key theorems: `Process.create_keeps`, `Process.write_keeps`, `Expr.build_extends`,
`Proceeds.changes_subset`.
-/
import DeadBranch.Proofs.Objects

namespace DeadBranch

/-! ### Listed members -/

namespace Heap

/-- The member that a literal has listed under a key. -/
def listed? (heap : Heap) (d : Datum) (s : Segment) : Option Datum :=
  match d with
  | .object t => (heap.lookup t).bind (·.listed.lookup s)
  | _ => none

/-- What is found along keys, through listed members. -/
def follow (heap : Heap) (d : Datum) (segments : List Segment) : Option Datum :=
  segments.foldlM heap.listed? d

variable {heap heap' : Heap} {d x : Datum} {s : Segment} {segments : List Segment}

@[simp] theorem follow_nil : heap.follow d [] = some d := rfl

theorem follow_cons :
    heap.follow d (s :: segments) = (heap.listed? d s).bind (heap.follow · segments) :=
  List.foldlM_cons

theorem follow_append {rest : List Segment} :
    heap.follow d (segments ++ rest) = (heap.follow d segments).bind (heap.follow · rest) :=
  List.foldlM_append

theorem listed?_object {t : Nat} :
    heap.listed? (.object t) s = (heap.lookup t).bind (·.listed.lookup s) :=
  rfl

theorem exists_of_listed? (h : heap.listed? d s = some x) :
    ∃ t o, d = .object t ∧ heap.lookup t = some o ∧ o.listed.lookup s = some x := by
  cases d with
  | object t =>
    obtain ⟨o, ho, hx⟩ := Option.bind_eq_some_iff.mp h
    exact ⟨t, o, rfl, ho, hx⟩
  | plain v => cases h
  | exotic id => cases h

/-- A program reads what is found along listed members. -/
theorem follow_read (w : World) (store : Store) (done : List Action) :
    ∀ {segments : List Segment} {d : Datum}, heap.follow d segments = some x →
      segments.foldlM ((w.over store heap).member done) d = some x
  | [], d, h => h
  | s :: segments, d, h => by
    rw [follow_cons, Option.bind_eq_some_iff] at h
    obtain ⟨y, hy, hx⟩ := h
    obtain ⟨t, o, rfl, ho, hlisted⟩ := exists_of_listed? hy
    have hmember : (w.over store heap).member done (.object t) s = some y := by
      simp [World.over, Heap.member?, ho, Obj.member?, hlisted]
    rw [List.foldlM_cons, hmember]
    exact follow_read w store done hx

/-! ### What a heap keeps of another one -/

/-- Under watched keys, what could be followed before can be followed now, and
from the data held nothing else can. -/
structure Keeps (watched : Segment → Bool) (held : List Datum) (heap heap' : Heap) : Prop where
  onward : ∀ {d segments x}, segments.all watched → heap.follow d segments = some x →
    heap'.follow d segments = some x
  back : ∀ {d segments x}, segments.all watched → d ∈ held → heap'.follow d segments = some x →
    heap.follow d segments = some x

variable {watched : Segment → Bool} {held : List Datum}

theorem Keeps.refl (watched : Segment → Bool) (held : List Datum) (heap : Heap) :
    Keeps watched held heap heap :=
  ⟨fun _ h => h, fun _ _ h => h⟩

theorem Keeps.trans {heap'' : Heap} (h : Keeps watched held heap heap')
    (h' : Keeps watched held heap' heap'') : Keeps watched held heap heap'' :=
  ⟨fun hs hd => h'.onward hs (h.onward hs hd), fun hs hd hx => h.back hs hd (h'.back hs hd hx)⟩

theorem Keeps.mono {held' : List Datum} (h : Keeps watched held heap heap') (hsub : held' ⊆ held) :
    Keeps watched held' heap heap' :=
  ⟨h.onward, fun hs hd => h.back hs (hsub hd)⟩

/-- A heap that lists the same under watched keys. -/
theorem keeps_of_listed? (h : ∀ d s, watched s → heap'.listed? d s = heap.listed? d s) :
    Keeps watched held heap heap' := by
  have hfollow : ∀ {segments : List Segment} {d : Datum}, segments.all watched →
      heap'.follow d segments = heap.follow d segments := by
    intro segments
    induction segments with
    | nil => intro d _; rfl
    | cons s segments ih =>
      intro d hs
      rw [List.all_cons, Bool.and_eq_true] at hs
      rw [follow_cons, follow_cons, h d s hs.1]
      exact Option.bind_congr fun y _ => ih hs.2
  exact ⟨fun hs hx => (hfollow hs).trans hx, fun hs _ hx => (hfollow hs).symm.trans hx⟩

/-- The objects of a heap and what literals list for them are in its data. -/
theorem object_mem_data {t : Nat} {o : Obj} (h : heap.lookup t = some o) :
    .object t ∈ heap.data ∧ ∀ s x, o.listed.lookup s = some x → x ∈ heap.data := by
  obtain ⟨before, after, rfl, -⟩ := List.lookup_eq_some_iff.mp h
  have hmem : (t, o) ∈ before ++ (t, o) :: after := by simp
  refine ⟨List.mem_flatMap.mpr ⟨_, hmem, List.mem_cons_self⟩, fun s x hx => ?_⟩
  obtain ⟨before', after', hlisted, -⟩ := List.lookup_eq_some_iff.mp hx
  exact List.mem_flatMap.mpr ⟨_, hmem, by simp [hlisted]⟩

theorem listed?_cons_of_ne {t : Nat} {o : Obj} (hd : d ≠ .object t) :
    listed? ((t, o) :: heap) d s = heap.listed? d s := by
  cases d with
  | object t' =>
    have hne : (t' == t) = false := beq_eq_false_iff_ne.mpr fun h => hd (h ▸ rfl)
    rw [listed?_object, listed?_object, List.lookup_cons, hne]
  | plain v => rfl
  | exotic id => rfl

/-- An object with an unused number is found from nowhere. -/
theorem keeps_cons {t : Nat} (o : Obj) (hheap : .object t ∉ heap.data) (hheld : .object t ∉ held) :
    Keeps watched held heap ((t, o) :: heap) := by
  -- what is in the heap leads on to what is in the heap
  have hlisted : ∀ {d s x}, heap.listed? d s = some x → d ≠ .object t ∧ x ≠ .object t := by
    intro d s x hx
    obtain ⟨t', o', rfl, ho, hx⟩ := exists_of_listed? hx
    obtain ⟨hobject, hmembers⟩ := object_mem_data ho
    constructor
    · intro h
      exact hheap (h ▸ hobject)
    · rintro rfl
      exact hheap (hmembers s _ hx)
  have honward : ∀ (segments : List Segment) {d x : Datum}, heap.follow d segments = some x →
      follow ((t, o) :: heap) d segments = some x := by
    intro segments
    induction segments with
    | nil => exact fun h => h
    | cons s segments ih =>
      intro d x h
      rw [follow_cons, Option.bind_eq_some_iff] at h ⊢
      obtain ⟨y, hy, hx⟩ := h
      exact ⟨y, (listed?_cons_of_ne (hlisted hy).1).trans hy, ih hx⟩
  have hback : ∀ (segments : List Segment) {d x : Datum}, d ≠ .object t →
      follow ((t, o) :: heap) d segments = some x → heap.follow d segments = some x := by
    intro segments
    induction segments with
    | nil => exact fun _ h => h
    | cons s segments ih =>
      intro d x hd h
      rw [follow_cons, Option.bind_eq_some_iff] at h ⊢
      obtain ⟨y, hy, hx⟩ := h
      rw [listed?_cons_of_ne hd] at hy
      exact ⟨y, hy, ih (hlisted hy).2 hx⟩
  exact ⟨fun _ => honward _, fun _ hd => hback _ fun h => hheld (h ▸ hd)⟩

end Heap

/-- Nobody watches the key, or the member held the same before. -/
def Change.IsHarmless (watched : Segment → Bool) (c : Change) : Prop :=
  watched c.segment → c.after = c.before

section Steps

variable {w : World} {watched : Segment → Bool} {m m' : Process}

/-- Making an object takes nothing from what can be followed. -/
theorem Process.create_keeps (watched : Segment → Bool) (m : Process)
    (members : List (Segment × Datum)) :
    m.heap.Keeps watched m.store.data (m.create members).2.heap := by
  have hunused : .object (unused (m.store.data ++ m.heap.data)) ∉ m.store.data ++ m.heap.data :=
    fun hmem => Nat.lt_irrefl _ (lt_unused hmem)
  rw [List.mem_append, not_or] at hunused
  exact Heap.keeps_cons _ hunused.2 hunused.1

/-- **A harmless assignment leaves what can be followed as it is.** -/
theorem Process.write_keeps (held : List Datum) (x : Write)
    (h : ∀ c ∈ (m.write x).changes, c.IsHarmless watched) :
    m.heap.Keeps watched held (m.write x).heap := by
  unfold Process.write at h ⊢
  split
  · exact .refl watched held m.heap
  · rename_i o ho
    simp only [ho] at h
    refine Heap.keeps_of_listed? fun d s hs => ?_
    by_cases hd : d = .object x.object
    · subst hd
      rw [Heap.listed?_object, Heap.listed?_object, List.lookup_cons_self, ho, Option.bind_some,
        Option.bind_some, Obj.put]
      cases hlisted : o.listed.lookup x.segment with
      | none => rfl
      | some before =>
        by_cases hkey : s = x.segment
        · subst hkey
          have hchange : (⟨x.segment, before, x.value⟩ : Change).IsHarmless watched :=
            h _ (by simp [hlisted])
          simpa [hlisted] using hchange hs
        · simp [List.lookup_cons, beq_eq_false_iff_ne.mpr hkey]
    · exact Heap.listed?_cons_of_ne hd

/-- So do harmless assignments from outside. -/
theorem Process.foldl_write_keeps (held : List Datum) (xs : List Write) : ∀ m : Process,
    (∀ c ∈ (xs.foldl Process.write m).changes, c.IsHarmless watched) →
      m.heap.Keeps watched held (xs.foldl Process.write m).heap := by
  induction xs with
  | nil => exact fun m _ => .refl watched held m.heap
  | cons x xs ih =>
    intro m h
    have hlater := (Process.foldl_write xs (m.write x)).2
    exact (m.write_keeps held x fun c hc => h c (hlater hc)).trans (ih (m.write x) h)

theorem Process.assignMember_keeps (held : List Datum) {target d : Datum} {s : Segment}
    (h : m.assignMember w target s d = some m')
    (hharmless : ∀ c ∈ m'.changes, c.IsHarmless watched) :
    m.heap.Keeps watched held m'.heap := by
  unfold Process.assignMember at h
  split at h
  · split at h
    · obtain rfl := Option.some.inj h
      exact m.write_keeps held _ hharmless
    · obtain rfl := Option.some.inj h
      exact Process.foldl_write_keeps held _ _ hharmless
  · split at h
    · cases h
    · obtain rfl := Option.some.inj h
      exact .refl watched held m.heap

end Steps

/-! ### Executing initial values -/

/-- Variables and changes are the same, and what could be followed still can. -/
structure Process.Extends (watched : Segment → Bool) (m m' : Process) : Prop where
  store : m'.store = m.store
  changes : m'.changes = m.changes
  heap : m.heap.Keeps watched m.store.data m'.heap

section Build

variable {w : World} {watched : Segment → Bool}

theorem Process.Extends.refl (watched : Segment → Bool) (m : Process) : m.Extends watched m :=
  ⟨rfl, rfl, .refl watched _ _⟩

theorem Process.Extends.trans {m m' m'' : Process} (h : m.Extends watched m')
    (h' : m'.Extends watched m'') : m.Extends watched m'' :=
  ⟨h'.store.trans h.store, h'.changes.trans h.changes, h.heap.trans (h.store ▸ h'.heap)⟩

theorem Process.exec_extends {m m' : Process} {e : Expr} {d : Datum}
    (h : m.exec w e = some (d, m')) : m.Extends watched m' := by
  obtain ⟨done, -, rfl⟩ := Process.exec_eq_some.mp h
  exact ⟨rfl, rfl, .refl watched _ _⟩

mutual

/-- Executing an initial value makes objects at most. -/
theorem Expr.build_extends : ∀ {e : Expr} {m m' : Process} {d : Datum},
    e.build w m = some (d, m') → m.Extends watched m'
  | .object ps, m, m', d, h => by
    obtain ⟨members, m₁, hps, hcreate⟩ := build_object.mp h
    have hextends : m.Extends watched m₁ := propertiesBuild_extends hps
    obtain ⟨-, rfl⟩ := Prod.mk.inj hcreate
    exact hextends.trans ⟨rfl, rfl, m₁.create_keeps watched members⟩
  | .paren inner, m, m', d, h => by
    simp only [Expr.build] at h
    exact Expr.build_extends h
  | .absent, _, _, _, h | .literal _, _, _, _, h | .ident _, _, _, _, h | .unary _ _, _, _, _, h
  | .binary _ _ _, _, _, _, h | .cond _ _ _, _, _, _, h | .assign _ _ _, _, _, _, h
  | .member _ _, _, _, _, h | .index _ _, _, _, _, h | .array _, _, _, _, h | .spread _, _, _, _, h
  | .arrayPattern _, _, _, _, h | .objectPattern _, _, _, _, h | .withDefault _ _, _, _, _, h
  | .closure _, _, _, _, h | .classExpr _ _ _, _, _, _, h | .other _ _, _, _, _, h => by
    simp only [Expr.build] at h
    exact Process.exec_extends h

theorem propertiesBuild_extends : ∀ {ps : List Property} {m m' : Process}
    {members : List (Segment × Datum)}, propertiesBuild w ps m = some (members, m') →
    m.Extends watched m'
  | [], m, m', members, h => by
    simp only [propertiesBuild, Option.some.injEq, Prod.mk.injEq] at h
    exact h.2 ▸ .refl watched m
  | .pair key value :: rest, m, m', members, h => by
    obtain ⟨s, d, m₁, members', m₂, -, hvalue, hrest, heq⟩ := build_pair.mp h
    obtain ⟨-, rfl⟩ := Prod.mk.inj heq
    exact (Expr.build_extends hvalue).trans (propertiesBuild_extends hrest)
  | .shorthand name e :: rest, m, m', members, h => by
    by_cases he : e = .absent
    · subst he
      obtain ⟨d, m₁, members', m₂, hname, hrest, heq⟩ := build_shorthand.mp h
      obtain ⟨-, rfl⟩ := Prod.mk.inj heq
      exact (Process.exec_extends hname).trans (propertiesBuild_extends hrest)
    · rw [build_fallback he] at h
      cases h
  | .spread _ :: _, _, _, _, h | .method _ _ _ _ :: _, _, _, _, h | .field _ _ _ :: _, _, _, _, h
  | .staticBlock _ :: _, _, _, _, h | .empty :: _, _, _, _, h => by simp [propertiesBuild] at h

end

end Build

/-- What a run has recorded stays recorded. -/
theorem Proceeds.changes_subset {w : World} {ss : List Stmt} {m m' : Process}
    (hrun : Proceeds w ss m m') : m.changes ⊆ m'.changes := by
  have hbuild : ∀ {e : Expr} {m m' : Process} {d : Datum}, e.build w m = some (d, m') →
      m'.changes = m.changes := by
    intro e m m' d hvalue
    have hextends : m.Extends (fun _ => true) m' := Expr.build_extends hvalue
    exact hextends.changes
  induction hrun with
  | finish => exact List.Subset.refl _
  | empty _ ih | removed _ ih | declared _ ih => exact ih
  | consequent _ _ _ ih | alternate _ _ _ ih | loop _ _ _ ih | exit _ _ _ ih => exact ih
  | @call _ _ _ m _ _ done _ _ _ ih =>
    have hreact := (Process.foldl_write (w.writes m.heap done) { m with done := done }).2
    exact List.Subset.trans hreact ih
  | assign _ _ _ hvalue _ ih => exact hbuild hvalue ▸ ih
  | assignMember _ _ hvalue hassign _ ih =>
    exact hbuild hvalue ▸ List.Subset.trans (Process.assignMember_frame hassign).2 ih
  | declare hvalue _ _ ih => exact hbuild hvalue ▸ ih
  | block _ _ _ _ ihinside ih => exact List.Subset.trans ihinside ih

end DeadBranch
