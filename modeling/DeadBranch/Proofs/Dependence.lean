/-
# What an expression depends on

The value of an expression depends on what is known of the names that it reads. If
less is known of these names in one case than in another, what has a value in the
first case has the same value in the second (`evaluate_of_within`). Less is known if
fewer of the names may be read and fewer of their parts have values, with one
exception: a name with a fixed value loses this value when another is recorded for it.

There is no weaker condition. Each part that an expression can lead to is read by an
expression (`Path.reader`), so if no expression of the names ever loses its value or
its path, less is known (`within_iff`).

Key definitions: `Expr.namesRead`, `Associations.Within`, `Path.reader`.
Key theorems: `staticPath_spec`, `evaluate_of_within`, `within_iff`,
`evaluate_of_more_known`.
-/
import DeadBranch.Proofs.Keys
import DeadBranch.Proofs.Lookups

namespace DeadBranch

/-! ### The names that are read -/

mutual

/-- The names that may be read when an expression is evaluated, or bound as the
initial value of a constant. Names that stand elsewhere in it, in calls, in functions or
to the left of `=`, are not read. -/
def Expr.namesRead : Expr → List String
  | .ident name => [name]
  | .paren inner => inner.namesRead
  | .unary _ operand => operand.namesRead
  | .binary _ left right => left.namesRead ++ right.namesRead
  | .cond test consequent alternate =>
    test.namesRead ++ (consequent.namesRead ++ alternate.namesRead)
  | .assign none _ value => value.namesRead
  | .member object _ => object.namesRead
  | .index object key => object.namesRead ++ key.namesRead
  | .array elements => elementsRead elements
  | .object properties => propertiesRead properties
  | _ => []

/-- The names that may be read in a key. -/
def Key.namesRead : Key → List String
  | .computed key => key.namesRead
  | _ => []

/-- The names that may be read in elements. -/
def elementsRead : List Expr → List String
  | [] => []
  | element :: rest => element.namesRead ++ elementsRead rest

/-- The names that may be read in properties. -/
def propertiesRead : List Property → List String
  | [] => []
  | .pair key value :: rest => key.namesRead ++ (value.namesRead ++ propertiesRead rest)
  | .shorthand name _ :: rest => name :: propertiesRead rest
  | _ :: rest => propertiesRead rest

end

/-- Is it a name, or a number that is an array index? -/
def Segment.isProper : Segment → Bool
  | .name _ => true
  | .index i => decide (i < indexLimit)

@[simp] theorem Segment.isProper_ofKey (key : String) : (ofKey key).isProper := by
  simp only [ofKey]
  split
  · next h => exact decide_eq_true h.2
  · rfl

/-- The path that an expression reads is one of a name that it reads and that may be
read, by proper keys. -/
theorem staticPath_spec (known : Associations) : ∀ (e : Expr) {path : Path},
    staticPath known e = some path → path.binding ∈ e.namesRead ∧
      known.isShadowed path.binding = false ∧ path.segments.all Segment.isProper
  | .ident name, path, hp => by
    simp only [staticPath, Option.ite_none_left_eq_some, Bool.not_eq_true,
      Option.some.injEq] at hp
    obtain ⟨hread, rfl⟩ := hp
    exact ⟨by simp [Expr.namesRead, Path.root], hread, rfl⟩
  | .member object name, path, hp => by
    simp only [staticPath, Option.bind_eq_bind, Option.bind_eq_some_iff] at hp
    obtain ⟨base, hbase, hp⟩ := hp
    obtain rfl := Option.some.inj hp
    obtain ⟨hname, hread, hproper⟩ := staticPath_spec known object hbase
    simp only [Expr.namesRead]
    exact ⟨hname, hread, by simp [Path.child, hproper, Segment.isProper]⟩
  | .index object key, path, hp => by
    simp only [staticPath, Option.bind_eq_bind, Option.bind_eq_some_iff] at hp
    obtain ⟨base, hbase, k, -, hp⟩ := hp
    obtain rfl := Option.some.inj hp
    obtain ⟨hname, hread, hproper⟩ := staticPath_spec known object hbase
    refine ⟨?_, hread, by simp [Path.child, hproper, Segment.ofValue]⟩
    simp only [Expr.namesRead]
    exact List.mem_append_left _ hname
  | .paren inner, path, hp => by
    simp only [staticPath] at hp
    simp only [Expr.namesRead]
    exact staticPath_spec known inner hp
  | .literal _, _, hp | .unary _ _, _, hp | .binary _ _ _, _, hp | .cond _ _ _, _, hp
  | .assign _ _ _, _, hp | .array _, _, hp | .absent, _, hp | .object _, _, hp
  | .spread _, _, hp | .arrayPattern _, _, hp | .objectPattern _, _, hp
  | .withDefault _ _, _, hp | .closure _, _, hp | .classExpr _ _ _, _, hp
  | .other _ _, _, hp => by simp [staticPath] at hp

/-! ### Knowing less of some names -/

/-- Less is known of the given names, as far as it can be read: those that must not be
read in the other case must not be read, and a name or a part of one that has a value has
the same value in the other case. A name without a recorded value may have a fixed one. -/
structure Associations.Within (names : String → Bool) (a b : Associations) : Prop where
  shadowed : ∀ {name}, names name → b.isShadowed name = true → a.isShadowed name = true
  whole : ∀ {name v}, names name → a.isShadowed name = false →
    (a.lookup? (.root name)).or (globalValue? name) = some v →
    (b.lookup? (.root name)).or (globalValue? name) = some v
  part : ∀ {path : Path} {s : Segment} {v}, names path.binding →
    a.isShadowed path.binding = false → path.segments.all Segment.isProper → s.isProper →
    a.lookup? (path.child s) = some v → b.lookup? (path.child s) = some v

section Evaluation

variable {names : String → Bool} {a b : Associations} (h : a.Within names b)
include h

theorem Associations.Within.readable {name : String} (hname : names name)
    (hread : a.isShadowed name = false) : b.isShadowed name = false := by
  rw [Bool.eq_false_iff] at hread ⊢
  exact mt (h.shadowed hname) hread

mutual

/-- **Evaluation is monotone** in what is known of the names that are read. -/
theorem evaluate_of_within : ∀ (e : Expr), (∀ name ∈ e.namesRead, names name) → ∀ {v : Value},
    evaluate a e = some v → evaluate b e = some v
  | .literal value, _, v, hv => by
    simp only [evaluate] at hv ⊢
    exact hv
  | .ident name, hn, v, hv => by
    have hname : names name := hn name (by simp [Expr.namesRead])
    simp only [evaluate, Option.ite_none_left_eq_some, Bool.not_eq_true] at hv ⊢
    exact ⟨h.readable hname hv.1, h.whole hname hv.1 hv.2⟩
  | .member object name, hn, v, hv => by
    simp only [Expr.namesRead] at hn
    simp only [evaluate, Option.bind_eq_bind, Option.bind_eq_some_iff] at hv ⊢
    obtain ⟨path, hpath, hv⟩ := hv
    obtain ⟨hname, hread, hproper⟩ := staticPath_spec a object hpath
    exact ⟨path, staticPath_of_within object hn hpath,
      h.part (hn _ hname) hread hproper rfl hv⟩
  | .index object key, hn, v, hv => by
    simp only [Expr.namesRead, List.forall_mem_append] at hn
    simp only [evaluate, Option.bind_eq_bind, Option.bind_eq_some_iff] at hv ⊢
    obtain ⟨path, hpath, k, hk, hv⟩ := hv
    obtain ⟨hname, hread, hproper⟩ := staticPath_spec a object hpath
    exact ⟨path, staticPath_of_within object hn.1 hpath, k, evaluate_of_within key hn.2 hk,
      h.part (hn.1 _ hname) hread hproper (Segment.isProper_ofKey _) hv⟩
  | .paren inner, hn, v, hv => by
    simp only [Expr.namesRead] at hn
    simp only [evaluate] at hv ⊢
    exact evaluate_of_within inner hn hv
  | .unary op operand, hn, v, hv => by
    simp only [Expr.namesRead] at hn
    simp only [evaluate, Option.bind_eq_bind, Option.bind_eq_some_iff] at hv ⊢
    obtain ⟨x, hx, hv⟩ := hv
    exact ⟨x, evaluate_of_within operand hn hx, hv⟩
  | .binary op left right, hn, v, hv => by
    simp only [Expr.namesRead, List.forall_mem_append] at hn
    simp only [evaluate, Option.bind_eq_bind, Option.bind_eq_some_iff] at hv ⊢
    obtain ⟨x, hx, y, hy, hv⟩ := hv
    exact ⟨x, evaluate_of_within left hn.1 hx, y, evaluate_of_within right hn.2 hy, hv⟩
  | .cond test consequent alternate, hn, v, hv => by
    simp only [Expr.namesRead, List.forall_mem_append] at hn
    simp only [evaluate, Option.bind_eq_bind, Option.bind_eq_some_iff] at hv ⊢
    obtain ⟨x, hx, hv⟩ := hv
    refine ⟨x, evaluate_of_within test hn.1 hx, ?_⟩
    split
    · next htrue =>
      rw [if_pos htrue] at hv
      exact evaluate_of_within consequent hn.2.1 hv
    · next hfalse =>
      rw [if_neg hfalse] at hv
      exact evaluate_of_within alternate hn.2.2 hv
  | .assign none _ value, hn, v, hv => by
    simp only [Expr.namesRead] at hn
    simp only [evaluate] at hv ⊢
    exact evaluate_of_within value hn hv
  | .array _, _, v, hv => by
    simp only [evaluate] at hv ⊢
    exact hv
  | .assign (some _) _ _, _, _, hv | .absent, _, _, hv | .object _, _, _, hv
  | .spread _, _, _, hv | .arrayPattern _, _, _, hv | .objectPattern _, _, _, hv
  | .withDefault _ _, _, _, hv | .closure _, _, _, hv | .classExpr _ _ _, _, _, hv
  | .other _ _, _, _, hv => by simp [evaluate] at hv

theorem staticPath_of_within : ∀ (e : Expr), (∀ name ∈ e.namesRead, names name) →
    ∀ {path : Path}, staticPath a e = some path → staticPath b e = some path
  | .ident name, hn, path, hp => by
    simp only [staticPath, Option.ite_none_left_eq_some, Bool.not_eq_true] at hp ⊢
    exact ⟨h.readable (hn name (by simp [Expr.namesRead])) hp.1, hp.2⟩
  | .member object name, hn, path, hp => by
    simp only [Expr.namesRead] at hn
    simp only [staticPath, Option.bind_eq_bind, Option.bind_eq_some_iff] at hp ⊢
    obtain ⟨base, hbase, hp⟩ := hp
    exact ⟨base, staticPath_of_within object hn hbase, hp⟩
  | .index object key, hn, path, hp => by
    simp only [Expr.namesRead, List.forall_mem_append] at hn
    simp only [staticPath, Option.bind_eq_bind, Option.bind_eq_some_iff] at hp ⊢
    obtain ⟨base, hbase, k, hk, hp⟩ := hp
    exact ⟨base, staticPath_of_within object hn.1 hbase, k, evaluate_of_within key hn.2 hk, hp⟩
  | .paren inner, hn, path, hp => by
    simp only [Expr.namesRead] at hn
    simp only [staticPath] at hp ⊢
    exact staticPath_of_within inner hn hp
  | .literal _, _, _, hp | .unary _ _, _, _, hp | .binary _ _ _, _, _, hp
  | .cond _ _ _, _, _, hp | .assign _ _ _, _, _, hp | .array _, _, _, hp | .absent, _, _, hp
  | .object _, _, _, hp | .spread _, _, _, hp | .arrayPattern _, _, _, hp
  | .objectPattern _, _, _, hp | .withDefault _ _, _, _, hp | .closure _, _, _, hp
  | .classExpr _ _ _, _, _, hp | .other _ _, _, _, hp => by simp [staticPath] at hp

end

theorem Key.segment?_of_within {key : Key} (hn : ∀ name ∈ key.namesRead, names name)
    {segment : Segment} (hs : key.segment? a = some segment) : key.segment? b = some segment := by
  cases key with
  | computed e =>
    simp only [Key.namesRead] at hn
    simp only [Key.segment?, Option.map_eq_some_iff] at hs ⊢
    obtain ⟨v, hv, hs⟩ := hs
    exact ⟨v, evaluate_of_within h e hn hv, hs⟩
  | _ => exact hs

end Evaluation

/-! ### Expressions that read a given part -/

/-- One key further along. -/
def Expr.step (e : Expr) : Segment → Expr
  | .name name => .member e name
  | .index i => .index e (.literal (.string (Segment.index i).key (Segment.index i).key))

/-- The expression that reads a part of a binding. -/
def Path.reader (p : Path) : Expr := p.segments.foldl Expr.step (.ident p.binding)

theorem Path.reader_child (p : Path) (s : Segment) : (p.child s).reader = p.reader.step s := by
  simp [reader, child, List.foldl_append]

section Reader

variable {known : Associations}

/-- It reads nothing else. -/
theorem Path.namesRead_reader (p : Path) : p.reader.namesRead = [p.binding] := by
  have hfold : ∀ (segments : List Segment) (e : Expr),
      (segments.foldl Expr.step e).namesRead = e.namesRead := by
    intro segments
    induction segments with
    | nil => intro e; rfl
    | cons s rest ih =>
      intro e
      refine (ih (e.step s)).trans ?_
      cases s <;> simp [Expr.step, Expr.namesRead]
  rw [reader, hfold, Expr.namesRead]

theorem staticPath_step {e : Expr} {p : Path} (he : staticPath known e = some p) {s : Segment}
    (hs : s.isProper) : staticPath known (e.step s) = some (p.child s) := by
  cases s with
  | name name => simp [Expr.step, staticPath, he]
  | index i =>
    have hkey : Segment.ofKey (Segment.index i).key = .index i :=
      Segment.ofKey_key_index (of_decide_eq_true hs)
    simp [Expr.step, staticPath, he, evaluate, Literal.value?, Segment.ofValue, Value.toText, hkey]

theorem staticPath_reader {p : Path} (hread : known.isShadowed p.binding = false)
    (hproper : p.segments.all Segment.isProper) : staticPath known p.reader = some p := by
  have hfold : ∀ (segments : List Segment) (e : Expr) (base : Path),
      segments.all Segment.isProper → staticPath known e = some base →
      staticPath known (segments.foldl Expr.step e) = some (base.join segments) := by
    intro segments
    induction segments with
    | nil => intro e base _ he; simpa [Path.join] using he
    | cons s rest ih =>
      intro e base hall he
      rw [List.all_cons, Bool.and_eq_true] at hall
      rw [Path.join_cons]
      exact ih (e.step s) (base.child s) hall.2 (staticPath_step he hall.1)
  have hroot : staticPath known (.ident p.binding) = some (.root p.binding) := by
    simp [staticPath, hread]
  rw [Path.reader, hfold p.segments _ _ hproper hroot]
  rfl

/-- The reader of a part has the value that is recorded for it. -/
theorem evaluate_reader {base : Path} {s : Segment} (hread : known.isShadowed base.binding = false)
    (hproper : base.segments.all Segment.isProper) (hs : s.isProper) :
    evaluate known (base.child s).reader = known.lookup? (base.child s) := by
  have hpath : staticPath known (base.child s).reader = some (base.child s) :=
    staticPath_reader hread (by simp [Path.child, hproper, hs])
  rw [Path.reader_child] at hpath ⊢
  cases s with
  | name name =>
    simp only [Expr.step] at hpath ⊢
    rw [evaluate_member, hpath, Option.bind_some]
  | index i =>
    simp only [Expr.step] at hpath ⊢
    rw [evaluate_index, hpath, Option.bind_some]

end Reader

/-- **Less is known of some names exactly if no expression shows otherwise**: every
expression that reads only these names keeps its value and its path. -/
theorem within_iff {names : String → Bool} {a b : Associations} : a.Within names b ↔
    ∀ e : Expr, (∀ name ∈ e.namesRead, names name) →
      (∀ v, evaluate a e = some v → evaluate b e = some v) ∧
        ∀ path, staticPath a e = some path → staticPath b e = some path := by
  refine ⟨fun h e hn => ⟨fun _ => evaluate_of_within h e hn, fun _ => staticPath_of_within h e hn⟩,
    fun hkept => ?_⟩
  -- a name alone shows whether it may be read and what it has for a value
  have hident : ∀ {name : String}, names name → ∀ n ∈ (Expr.ident name).namesRead, names n := by
    intro name hname n hn
    simp only [Expr.namesRead, List.mem_singleton] at hn
    exact hn ▸ hname
  have hshadowed : ∀ {name}, names name → b.isShadowed name = true →
      a.isShadowed name = true := by
    intro name hname hb
    by_contra ha
    have hpath := (hkept (.ident name) (hident hname)).2 (.root name) (by simp [staticPath, ha])
    simp [staticPath, hb] at hpath
  refine ⟨hshadowed, fun {name v} hname hread hv => ?_,
    fun {path s v} hname hread hproper hs hv => ?_⟩
  · have hvalue := (hkept (.ident name) (hident hname)).1 v (by simpa [evaluate, hread] using hv)
    simp only [evaluate, Option.ite_none_left_eq_some] at hvalue
    exact hvalue.2
  · have hnames : ∀ n ∈ (path.child s).reader.namesRead, names n := by
      intro n hn
      rw [Path.namesRead_reader, List.mem_singleton] at hn
      exact hn ▸ hname
    have hread' : b.isShadowed path.binding = false := by
      rw [Bool.eq_false_iff] at hread ⊢
      exact mt (hshadowed hname) hread
    have hvalue := (hkept (path.child s).reader hnames).1 v
    rw [evaluate_reader hread hproper hs, evaluate_reader hread' hproper hs] at hvalue
    exact hvalue hv

/-- **Knowing more changes no answer.** If every name that must not be read in the second
case must not be read in the first, every lookup that succeeds in the first case gives the
same value in the second, and the second has an entry for a name with a fixed value only
where the first has one, then an expression that has a value or a path in the first case
has the same one in the second. -/
theorem evaluate_of_more_known {a b : Associations}
    (hshadowed : ∀ name, b.isShadowed name = true → a.isShadowed name = true)
    (hlookup : ∀ path v, a.lookup? path = some v → b.lookup? path = some v)
    (hfixed : ∀ name ∈ ["undefined", "NaN", "Infinity"],
      (b.lookup? (.root name)).isSome → (a.lookup? (.root name)).isSome) (e : Expr) :
    (∀ v, evaluate a e = some v → evaluate b e = some v) ∧
      ∀ path, staticPath a e = some path → staticPath b e = some path := by
  have hwithin : a.Within (fun _ => true) b := by
    refine ⟨fun _ => hshadowed _, fun {name v} _ _ hv => ?_, fun _ _ _ _ => hlookup _ _⟩
    cases ha : a.lookup? (.root name) with
    | some w =>
      rw [ha, Option.some_or] at hv
      rw [hlookup _ w ha, Option.some_or, hv]
    | none =>
      rw [ha, Option.none_or] at hv
      have hname : name ∈ ["undefined", "NaN", "Infinity"] := by
        simp only [globalValue?] at hv
        grind
      have hb : b.lookup? (.root name) = none := by
        have := hfixed name hname
        simpa [ha] using this
      rw [hb, Option.none_or, hv]
  exact within_iff.mp hwithin e fun _ _ => rfl

/-- The expression `modes[k] === NaN ? z : modes[k]`. -/
def pickedMode : Expr :=
  let mode := .index (.ident "modes") (.ident "k")
  .cond (.binary .strictEq mode (.ident "NaN")) (.ident "z") mode

/-- The key `k` and the mode that it picks are known in both cases, and the expression has
the same value and no path in both, although in the second another mode is known and `z`
may be read. -/
theorem pickedMode_more_known :
    let entries := [(Path.root "k", Value.string "a"), (⟨"modes", [.name "a"]⟩, .bool true)]
    let a : Associations := .of entries ["z", "y"]
    let b : Associations := .of (entries ++ [(⟨"modes", [.name "b"]⟩, .null)]) ["y"]
    evaluate a pickedMode = some (.bool true) ∧ evaluate b pickedMode = some (.bool true) ∧
      evaluate a (.ident "z") = none ∧
      staticPath b (.index (.ident "modes") (.ident "k")) = some ⟨"modes", [.name "a"]⟩ := by
  intro entries a b
  have hshadowed : ∀ name, b.isShadowed name = true → a.isShadowed name = true := by
    simp [a, b, Associations.isShadowed]
  have hlookup : ∀ path v, a.lookup? path = some v → b.lookup? path = some v := by
    intro path v hv
    simp only [a, b, Associations.lookup?_eq_find?, Associations.entries_of, List.find?_append,
      Option.map_eq_some_iff] at hv ⊢
    obtain ⟨entry, hentry, hv⟩ := hv
    exact ⟨entry, by rw [hentry, Option.some_or], hv⟩
  have hmore := evaluate_of_more_known hshadowed hlookup (by decide +kernel)
  refine ⟨?_, (hmore pickedMode).1 _ ?_, ?_, (hmore _).2 _ ?_⟩ <;> decide +kernel

end DeadBranch
