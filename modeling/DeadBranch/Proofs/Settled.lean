/-
# Properties that nothing replaces

What an initial value says about the parts of a constant is read off its text, and of
two things that it says about a part the first one counts. When the program makes the
object the last one counts: a property replaces an earlier one with the same key, a
spread may copy any key, and so may a computed key that is not known. The two agree for
a part of the constant if on the way to the part nothing replaces what was found
(`Expr.isSettled`): in each object on the way, no property behind the one that leads on
is a spread or may have its key. The keys and the value that are evaluated must be
certain (`Expr.isCertain`), so that the operators of the language give what is known.
Then whatever the initial value comes to holds the value that is recorded
(`holds_of_bind`). Otherwise it may hold another one (`exists_replaced_property`).

Key definitions: `Host.Keeps`, `Expr.isCertain`, `Key.spares`, `Expr.isSettled`.
Key theorems: `lookup_of_spares`, `holds_factsOf`, `holds_of_bind`.
-/
import DeadBranch.Proofs.Construction
import DeadBranch.Proofs.Widening

namespace DeadBranch

/-! ### What is known all the time -/

/-- What is known is true whenever the program runs: of names, and of the parts of what
they hold. -/
structure Host.Keeps (h : Host) (known : Associations) : Prop where
  names : ∀ done name v, evaluate known (.ident name) = some v →
    h.read done name = .pending ∨ h.read done name = .holds (.plain v)
  parts : ∀ done later name d, h.read done name = .holds d → ∀ keys v,
    known.lookup? ⟨name, keys⟩ = some v → keys.foldlM (h.member later) d = some (.plain v)

/-- A name cannot be read, as a constant while its initial value is evaluated. -/
def Host.Withholds (h : Host) (name : String) : Prop := ∀ done, h.read done name = .pending

section Keeps

variable {h : Host} {known : Associations}

theorem Host.Keeps.agrees (hk : h.Keeps known) (done : List Action) : h.Agrees done known where
  names := hk.names done
  members := by
    rintro ⟨name, keys⟩ v - hv d hd
    simp only [Host.readPath] at hd
    split at hd
    · next held hheld =>
      rw [hk.parts done done name held hheld keys v hv] at hd
      exact (Option.some.inj hd).symm
    · cases hd

/-- Facts about a name that cannot be read yet do no harm. -/
theorem Host.Keeps.learn {x : String} {facts : List Fact} (hk : h.Keeps known)
    (hx : h.Withholds x) (hfacts : ∀ f ∈ facts, f.path.binding = x) :
    h.Keeps (known.learn facts) := by
  have hothers : ∀ path : Path, path.binding ≠ x →
      (known.learn facts).lookup? path = known.lookup? path := by
    intro path hpath
    rw [lookup?_learn, firstValue?_eq_none, Option.or_none]
    rintro f hf rfl
    exact hpath (hfacts f hf)
  constructor
  · intro done name v hv
    by_cases hname : name = x
    · exact .inl (hname ▸ hx done)
    · simp only [evaluate, isShadowed_learn, hothers (.root name) hname] at hv
      exact hk.names done name v (by simpa only [evaluate] using hv)
  · intro done later name d hd keys v hv
    by_cases hname : name = x
    · rw [hname, hx done] at hd
      cases hd
    · rw [hothers ⟨name, keys⟩ hname] at hv
      exact hk.parts done later name d hd keys v hv

/-- Does an expression with a known value come to that value? It must be inert, and no
operator may convert a misread text. -/
def Expr.isCertain (known : Associations) (e : Expr) : Bool :=
  e.isInert known true && e.isClear known

theorem Host.Keeps.eq_plain (hk : h.Keeps known) {e : Expr} {v : Value}
    (hv : evaluate known e = some v) (hcertain : e.isCertain known = true)
    {done done' : List Action} {d : Datum} (hexec : e.exec h done = (some d, done')) :
    d = .plain v := by
  rw [Expr.isCertain, Bool.and_eq_true] at hcertain
  refine Datum.Matches.eq_plain
    ((exec_evaluate (hk.agrees done) e hv hcertain.1 hcertain.2).2 d ?_)
  rw [hexec]
  rfl

end Keeps

/-! ### Where nothing is replaced -/

section Settled

variable (known : Associations)

/-- Is the key that is known for a property that of the member? -/
def Key.isCertain : Key → Bool
  | .computed e => e.isCertain known
  | key => !key.setsPrototype

/-- Is the key certainly another one? -/
def Key.spares (s : Segment) : Key → Bool
  | .computed e => e.isCertain known && (evaluate known e).any (·.toText != s.key)
  | key => key.text? != some s.key

/-- Does a property certainly define no member with the key? -/
def Property.spares (s : Segment) : Property → Bool
  | .pair key _ | .method _ _ key _ => key.spares known s
  | .shorthand name _ => name != s.key
  | _ => false

end Settled

mutual

/-- Is what an initial value says about the part with these keys certainly what it comes
to there? In an object this is up to the first property that says something about the
part: its key must be certain and no property behind it may have the same one. -/
def Expr.isSettled (known : Associations) (path : Path) : Expr → List Segment → Bool
  | .paren inner, keys => inner.isSettled known path keys
  | .object properties, s :: keys => propertiesSettled known path s keys properties
  | .array elements, s :: keys => elementsSettled known path s keys 0 elements
  | .ident _, _ => true
  | e, keys => keys.isEmpty && e.isCertain known

/-- The same of properties. -/
def propertiesSettled (known : Associations) (path : Path) (s : Segment) (keys : List Segment) :
    List Property → Bool
  | [] => true
  | .pair key value :: rest =>
    match key.segment? known with
    | some t =>
      let facts := factsOf known (path.child t) value
      if (firstValue? facts (path.join (s :: keys))).isSome then
        key.isCertain known && value.isSettled known (path.child t) keys &&
          rest.all (·.spares known s)
      else propertiesSettled (known.learn facts) path s keys rest
    | none => propertiesSettled known path s keys rest
  | .shorthand name .absent :: rest =>
    let facts := known.takeOver (.root name) (path.child (.name name))
    if (firstValue? facts (path.join (s :: keys))).isSome then rest.all (·.spares known s)
    else propertiesSettled (known.learn facts) path s keys rest
  | _ :: rest => propertiesSettled known path s keys rest

/-- The same of elements from an index on. -/
def elementsSettled (known : Associations) (path : Path) (s : Segment) (keys : List Segment)
    (i : Nat) : List Expr → Bool
  | [] => true
  | element :: rest =>
    if s = .index i then element.isSettled known (path.child s) keys
    else
      elementsSettled (known.learn (factsOf known (path.child (.index i)) element)) path s keys
        (i + 1) rest

end

theorem propertiesSettled_fallback (known : Associations) (path : Path) (s : Segment)
    (keys : List Segment) (name : String) {e : Expr} (he : e ≠ .absent) (rest : List Property) :
    propertiesSettled known path s keys (.shorthand name e :: rest) =
      propertiesSettled known path s keys rest := by
  cases e <;> simp_all [propertiesSettled]

/-! ### What is behind replaces nothing -/

section Spared

variable {h : Host} {known : Associations} {s : Segment}

theorem lookup_defined (k : Option String) (content : Option Made) (key : String) :
    (defined k content).lookup key = if k = some key then some content else none := by
  cases k with
  | none => rfl
  | some text =>
    by_cases hkey : text = key
    · simp [defined, hkey]
    · simp [defined, hkey, Ne.symm hkey]

/-- The key that is known is the key of the member. -/
theorem Key.MayBe.eq_of_certain (hk : h.Keeps known) {key : Key}
    (hs : key.segment? known = some s) (hcertain : key.isCertain known = true)
    {done done' : List Action} {k : Option String} (hkey : key.MayBe h done k done') :
    k = some s.key ∧ key.setsPrototype = false := by
  cases key with
  | computed e =>
    obtain ⟨v, hv, rfl⟩ := Option.map_eq_some_iff.mp hs
    obtain ⟨d, done₁, hexec, hd⟩ := hkey
    obtain rfl := hk.eq_plain hv hcertain hexec
    exact ⟨by rw [hd.1, Segment.ofValue, Segment.key_ofKey], rfl⟩
  | ident _ | string _ _ | number _ _ | bigint _ _ | privateName _ =>
    refine ⟨hkey.1.trans (Key.text?_of_segment? (by simp) hs), ?_⟩
    simpa [Key.isCertain] using hcertain

theorem Key.MayBe.ne_of_spares (hk : h.Keeps known) {key : Key}
    (hspares : key.spares known s = true) {done done' : List Action} {k : Option String}
    (hkey : key.MayBe h done k done') : k ≠ some s.key := by
  cases key with
  | computed e =>
    simp only [Key.spares, Bool.and_eq_true, Option.any_eq_true] at hspares
    obtain ⟨hcertain, v, hv, hne⟩ := hspares
    obtain ⟨d, done₁, hexec, hd⟩ := hkey
    obtain rfl := hk.eq_plain hv hcertain hexec
    rw [hd.1]
    simpa using hne
  | ident _ | string _ _ | number _ _ | bigint _ _ | privateName _ =>
    rw [hkey.1]
    simpa [Key.spares] using hspares

/-- **Properties that certainly have other keys** define no member with the key. -/
theorem lookup_of_spares (hk : h.Keeps known) : ∀ {ps : List Property},
    ps.all (·.spares known s) = true → ∀ {done done' : List Action}
      {members : List (String × Option Made)}, PropertiesMake h ps done members done' →
      members.lookup s.key = none
  | [], _, done, done', members, hmake => by
    simp only [PropertiesMake] at hmake
    rw [hmake.1]
    rfl
  | .pair key value :: rest, hspares, done, done', members, hmake => by
    simp only [List.all_cons, Property.spares, Bool.and_eq_true] at hspares
    simp only [PropertiesMake] at hmake
    obtain ⟨k, done₁, m, done₂, later, hkey, -, hrest, rfl⟩ := hmake
    have hne := hkey.ne_of_spares hk hspares.1
    rw [List.lookup_append, lookup_of_spares hk hspares.2 hrest, Option.none_or]
    split
    · rfl
    · rw [lookup_defined, if_neg hne]
  | .shorthand name e :: rest, hspares, done, done', members, hmake => by
    simp only [List.all_cons, Property.spares, Bool.and_eq_true, bne_iff_ne] at hspares
    by_cases he : e = .absent
    · subst he
      simp only [PropertiesMake] at hmake
      obtain ⟨d, later, -, hrest, rfl⟩ := hmake
      rw [List.lookup_append, lookup_of_spares hk hspares.2 hrest, Option.none_or, lookup_defined,
        if_neg (by simpa using hspares.1)]
    · obtain ⟨done₁, -, hrest⟩ := (propertiesMake_fallback he).mp hmake
      exact lookup_of_spares hk hspares.2 hrest
  | .method role _ key _ :: rest, hspares, done, done', members, hmake => by
    simp only [List.all_cons, Property.spares, Bool.and_eq_true] at hspares
    simp only [PropertiesMake] at hmake
    obtain ⟨k, done₁, f, later, hkey, hrest, rfl⟩ := hmake
    rw [List.lookup_append, lookup_of_spares hk hspares.2 hrest, Option.none_or, lookup_defined,
      if_neg (hkey.ne_of_spares hk hspares.1)]
  | .spread _ :: _, hspares, _, _, _, _ | .field _ _ _ :: _, hspares, _, _, _, _
  | .staticBlock _ :: _, hspares, _, _, _, _ | .empty :: _, hspares, _, _, _, _ => by
    simp [Property.spares] at hspares

theorem lookup_placed {i j : Nat} (hj : j < i) (items : List Made) :
    (placed i items).lookup (Segment.index j).key = none := by
  rw [List.lookup_eq_none_iff]
  intro member hmember
  obtain ⟨n, hn, rfl⟩ := List.mem_mapIdx.mp hmember
  rw [bne_iff_ne, Ne, Segment.key_index_inj]
  omega

/-- Elements from an index on have no smaller index. -/
theorem lookup_elements {j : Nat} : ∀ {es : List Expr} {i : Nat}, j < i →
    ∀ {done done' : List Action} {members : List (String × Option Made)},
      ElementsMake h i es done members done' → members.lookup (Segment.index j).key = none
  | [], i, _, done, done', members, hmake => by
    simp only [ElementsMake] at hmake
    rw [hmake.1]
    rfl
  | element :: rest, i, hj, done, done', members, hmake => by
    simp only [ElementsMake] at hmake
    split at hmake
    · exact lookup_elements (by omega) hmake
    · split at hmake
      · obtain ⟨d, done₁, done₂, items, later, -, -, hrest, rfl⟩ := hmake
        rw [List.lookup_append, lookup_elements (by omega) hrest, lookup_placed hj, Option.none_or]
      · obtain ⟨m, done₁, later, -, hrest, rfl⟩ := hmake
        rw [List.lookup_append, lookup_elements (by omega) hrest, lookup_placed hj, Option.none_or]

end Spared

/-! ### What is said is what is made -/

/-- Facts about one part say nothing of another one. -/
theorem firstValue?_of_other {facts : List Fact} {path : Path} {s t : Segment}
    (hfacts : ∀ f ∈ facts, f.path.IsBelow (path.child t)) (hne : t ≠ s) (keys : List Segment) :
    firstValue? facts (path.join (s :: keys)) = none := by
  refine firstValue?_eq_none fun f hf hpath => hne ?_
  refine (hfacts f hf).child_inj ⟨keys, ?_⟩
  rw [hpath, Path.join_cons]

theorem eq_of_firstValue? {facts : List Fact} {path : Path} {s t : Segment} {keys : List Segment}
    {v : Value} (hfacts : ∀ f ∈ facts, f.path.IsBelow (path.child t))
    (hv : firstValue? facts (path.join (s :: keys)) = some v) : t = s := by
  by_contra hne
  rw [firstValue?_of_other hfacts hne] at hv
  cases hv

/-- Elements from an index on say nothing of a smaller one. -/
theorem firstValue?_of_smaller {i j : Nat} (hj : j < i) (known : Associations) (path : Path)
    (es : List Expr) (keys : List Segment) :
    firstValue? (factsOfElements known path i es) (path.join (.index j :: keys)) = none := by
  refine firstValue?_eq_none fun f hf hpath => ?_
  obtain ⟨n, hn, hbelow⟩ := factsOfElements_from es known i f hf
  have heq : Segment.index n = .index j := by
    refine hbelow.child_inj ⟨keys, ?_⟩
    rw [hpath, Path.join_cons]
  cases heq
  omega

/-- The value of an expression that refers to no name alone is what it says of the whole
constant. -/
theorem evaluate_of_firstValue? {known : Associations} {e : Expr} {path : Path}
    {keys : List Segment} {v : Value} (he : e.wholeValue? known = evaluate known e)
    (hv : firstValue? (factsOf known path e) (path.join keys) = some v) :
    keys = [] → evaluate known e = some v := by
  rintro rfl
  have hself : path.join [] = path := by simp [Path.join]
  rw [hself, firstValue?_factsOf] at hv
  rw [← he, hv]

section Leaves

variable {h : Host} {known : Associations} (hk : h.Keeps known) {keys : List Segment} {v : Value}
  {done done' : List Action} {m : Made}
include hk

/-- A leaf of an initial value that is evaluated. -/
theorem holds_of_certain {e : Expr} (hsettled : (keys.isEmpty && e.isCertain known) = true)
    (hv : keys = [] → evaluate known e = some v)
    (hmakes : ∃ d, m = .datum d ∧ e.exec h done = (some d, done')) : m.Holds h keys v := by
  simp only [Bool.and_eq_true, List.isEmpty_iff] at hsettled
  obtain ⟨rfl, hcertain⟩ := hsettled
  obtain ⟨d, rfl, hexec⟩ := hmakes
  intro later
  rw [hk.eq_plain (hv rfl) hcertain hexec]
  rfl

/-- A name in an initial value, of whose parts something is known. -/
theorem holds_of_name {name : String} {path : Path} {d : Datum}
    (hv : firstValue? (known.takeOver (.root name) path) (path.join keys) = some v)
    (hread : h.read done name = .holds d) : (Made.datum d).Holds h keys v := by
  intro later
  rw [firstValue?_takeOver] at hv
  rw [Made.read]
  exact hk.parts done later name d hread keys v hv

end Leaves

section Sound

variable {h : Host}

mutual

/-- **What an initial value says about a settled part is what is read there**, whatever
it comes to. -/
theorem holds_factsOf : ∀ (e : Expr) {known : Associations} {path : Path} {keys : List Segment}
    {v : Value}, h.Keeps known → h.Withholds path.binding →
    firstValue? (factsOf known path e) (path.join keys) = some v →
    e.isSettled known path keys = true → ∀ {done done' : List Action} {m : Made},
      e.Makes h done m done' → m.Holds h keys v
  | .paren inner, known, path, keys, v, hk, hpath, hv, hsettled, done, done', m, hmakes => by
    simp only [factsOf] at hv
    simp only [Expr.isSettled] at hsettled
    simp only [Expr.Makes] at hmakes
    exact holds_factsOf inner hk hpath hv hsettled hmakes
  | .object properties, known, path, keys, v, hk, hpath, hv, hsettled, done, done', m, hmakes => by
    cases keys with
    | nil => simp [Expr.isSettled, Expr.isCertain, Expr.isInert] at hsettled
    | cons s keys =>
      simp only [factsOf] at hv
      simp only [Expr.isSettled] at hsettled
      simp only [Expr.Makes] at hmakes
      obtain ⟨members, rfl, hmake⟩ := hmakes
      exact holds_factsOfProperties properties hk hpath hv hsettled hmake
  | .array elements, known, path, keys, v, hk, hpath, hv, hsettled, done, done', m, hmakes => by
    cases keys with
    | nil => simp [Expr.isSettled, Expr.isCertain, Expr.isInert] at hsettled
    | cons s keys =>
      simp only [factsOf] at hv
      simp only [Expr.isSettled] at hsettled
      simp only [Expr.Makes] at hmakes
      obtain ⟨members, rfl, hmake⟩ := hmakes
      exact holds_factsOfElements elements hk hpath hv hsettled hmake
  | .ident name, known, path, keys, v, hk, hpath, hv, _, done, done', m, hmakes => by
    simp only [factsOf] at hv
    simp only [Expr.Makes, Expr.exec] at hmakes
    obtain ⟨d, rfl, hexec⟩ := hmakes
    exact holds_of_name hk hv (read_of_execName hexec).1
  | .literal _, known, path, keys, v, hk, hpath, hv, hsettled, done, done', m, hmakes
  | .unary _ _, known, path, keys, v, hk, hpath, hv, hsettled, done, done', m, hmakes
  | .binary _ _ _, known, path, keys, v, hk, hpath, hv, hsettled, done, done', m, hmakes
  | .cond _ _ _, known, path, keys, v, hk, hpath, hv, hsettled, done, done', m, hmakes => by
    simp only [Expr.isSettled] at hsettled
    simp only [Expr.Makes] at hmakes
    refine holds_of_certain hk hsettled (evaluate_of_firstValue? ?_ hv) hmakes
    simp only [Expr.wholeValue?, evaluate]
  | .member base name, known, path, keys, v, hk, hpath, hv, hsettled, done, done', m, hmakes => by
    simp only [Expr.isSettled] at hsettled
    simp only [Expr.Makes] at hmakes
    refine holds_of_certain hk hsettled (evaluate_of_firstValue? ?_ hv) hmakes
    rw [Expr.wholeValue?, evaluate_member]
  | .index base key, known, path, keys, v, hk, hpath, hv, hsettled, done, done', m, hmakes => by
    simp only [Expr.isSettled] at hsettled
    simp only [Expr.Makes] at hmakes
    refine holds_of_certain hk hsettled (evaluate_of_firstValue? ?_ hv) hmakes
    rw [Expr.wholeValue?, evaluate_index]
  | .assign _ _ _, _, _, _, _, _, _, _, hsettled, _, _, _, _
  | .absent, _, _, _, _, _, _, _, hsettled, _, _, _, _
  | .spread _, _, _, _, _, _, _, _, hsettled, _, _, _, _
  | .arrayPattern _, _, _, _, _, _, _, _, hsettled, _, _, _, _
  | .objectPattern _, _, _, _, _, _, _, _, hsettled, _, _, _, _
  | .withDefault _ _, _, _, _, _, _, _, _, hsettled, _, _, _, _
  | .closure _, _, _, _, _, _, _, _, hsettled, _, _, _, _
  | .classExpr _ _ _, _, _, _, _, _, _, _, hsettled, _, _, _, _
  | .other _ _, _, _, _, _, _, _, _, hsettled, _, _, _, _ => by
    simp [Expr.isSettled, Expr.isCertain, Expr.isInert] at hsettled

theorem holds_factsOfProperties : ∀ (ps : List Property) {known : Associations} {path : Path}
    {s : Segment} {keys : List Segment} {v : Value}, h.Keeps known → h.Withholds path.binding →
    firstValue? (factsOfProperties known path ps) (path.join (s :: keys)) = some v →
    propertiesSettled known path s keys ps = true → ∀ {done done' : List Action}
      {members : List (String × Option Made)}, PropertiesMake h ps done members done' →
      (Made.object members).Holds h (s :: keys) v
  | [], _, _, _, _, _, _, _, hv, _, _, _, _, _ => by simp [factsOfProperties, firstValue?] at hv
  | .pair key value :: rest, known, path, s, keys, v, hk, hpath, hv, hsettled, done, done',
      members, hmake => by
    simp only [PropertiesMake] at hmake
    obtain ⟨k, done₁, m, done₂, later, hkey, hvalue, hrest, rfl⟩ := hmake
    cases ht : key.segment? known with
    | none =>
      simp only [factsOfProperties, ht, List.nil_append, Associations.learn_nil] at hv
      simp only [propertiesSettled, ht] at hsettled
      exact (holds_factsOfProperties rest hk hpath hv hsettled hrest).append _
    | some t =>
      have hbelow := factsOf_isBelow known (path.child t) value
      simp only [factsOfProperties, ht, firstValue?_append] at hv
      simp only [propertiesSettled, ht] at hsettled
      cases hown : firstValue? (factsOf known (path.child t) value) (path.join (s :: keys)) with
      | none =>
        -- the property says nothing about the part, so one behind it does
        simp only [hown, Option.none_or] at hv
        simp only [hown, Option.isSome_none, Bool.false_eq_true, if_false] at hsettled
        have hlearnt := hk.learn hpath fun f hf => (hbelow f hf).binding_eq
        exact (holds_factsOfProperties rest hlearnt hpath hv hsettled hrest).append _
      | some w =>
        simp only [hown, Option.some_or, Option.some.injEq] at hv
        simp only [hown, Option.isSome_some, if_true, Bool.and_eq_true] at hsettled
        obtain ⟨⟨hcertain, hpart⟩, hspares⟩ := hsettled
        obtain rfl : t = s := eq_of_firstValue? hbelow hown
        rw [Path.join_cons, hv] at hown
        have hchild : h.Withholds (path.child t).binding := hpath
        have hm : m.Holds h keys v := holds_factsOf value hk hchild hown hpart hvalue
        obtain ⟨rfl, hmember⟩ := hkey.eq_of_certain hk ht hcertain
        refine hm.of_lookup (lookup_of_spares hk hspares hrest) ?_
        rw [hmember, if_neg Bool.false_ne_true, lookup_defined, if_pos rfl]
  | .shorthand name e :: rest, known, path, s, keys, v, hk, hpath, hv, hsettled, done, done',
      members, hmake => by
    by_cases he : e = .absent
    · subst he
      simp only [PropertiesMake] at hmake
      obtain ⟨d, later, hread, hrest, rfl⟩ := hmake
      have hbelow : ∀ f ∈ known.takeOver (.root name) (path.child (.name name)),
          f.path.IsBelow (path.child (.name name)) := fun f hf => isBelow_of_mem_takeOver hf
      simp only [factsOfProperties, firstValue?_append] at hv
      simp only [propertiesSettled] at hsettled
      cases hown : firstValue? (known.takeOver (.root name) (path.child (.name name)))
          (path.join (s :: keys)) with
      | none =>
        simp only [hown, Option.none_or] at hv
        simp only [hown, Option.isSome_none, Bool.false_eq_true, if_false] at hsettled
        have hlearnt := hk.learn hpath fun f hf => (hbelow f hf).binding_eq
        exact (holds_factsOfProperties rest hlearnt hpath hv hsettled hrest).append _
      | some w =>
        simp only [hown, Option.some_or, Option.some.injEq] at hv
        simp only [hown, Option.isSome_some, if_true] at hsettled
        obtain rfl : .name name = s := eq_of_firstValue? hbelow hown
        rw [Path.join_cons, hv] at hown
        refine (holds_of_name hk hown hread).of_lookup (lookup_of_spares hk hsettled hrest) ?_
        rw [lookup_defined, Segment.key, if_pos rfl]
    · rw [factsOfProperties_fallback known path name he] at hv
      rw [propertiesSettled_fallback known path s keys name he] at hsettled
      obtain ⟨done₁, -, hrest⟩ := (propertiesMake_fallback he).mp hmake
      exact holds_factsOfProperties rest hk hpath hv hsettled hrest
  | .spread operand :: rest, known, path, s, keys, v, hk, hpath, hv, hsettled, done, done',
      members, hmake => by
    simp only [factsOfProperties] at hv
    simp only [propertiesSettled] at hsettled
    simp only [PropertiesMake] at hmake
    obtain ⟨d, done₁, done₂, copied, later, -, -, hrest, rfl⟩ := hmake
    exact (holds_factsOfProperties rest hk hpath hv hsettled hrest).append copied
  | .method role _ key _ :: rest, known, path, s, keys, v, hk, hpath, hv, hsettled, done, done',
      members, hmake => by
    simp only [factsOfProperties] at hv
    simp only [propertiesSettled] at hsettled
    simp only [PropertiesMake] at hmake
    obtain ⟨k, done₁, f, later, -, hrest, rfl⟩ := hmake
    exact (holds_factsOfProperties rest hk hpath hv hsettled hrest).append _
  | .field _ _ _ :: rest, known, path, s, keys, v, hk, hpath, hv, hsettled, done, done', members,
      hmake
  | .staticBlock _ :: rest, known, path, s, keys, v, hk, hpath, hv, hsettled, done, done', members,
      hmake
  | .empty :: rest, known, path, s, keys, v, hk, hpath, hv, hsettled, done, done', members,
      hmake => by
    simp only [factsOfProperties] at hv
    simp only [propertiesSettled] at hsettled
    simp only [PropertiesMake] at hmake
    obtain ⟨done₁, -, hrest⟩ := hmake
    exact holds_factsOfProperties rest hk hpath hv hsettled hrest

theorem holds_factsOfElements : ∀ (es : List Expr) {known : Associations} {path : Path}
    {s : Segment} {keys : List Segment} {v : Value} {i : Nat}, h.Keeps known →
    h.Withholds path.binding →
    firstValue? (factsOfElements known path i es) (path.join (s :: keys)) = some v →
    elementsSettled known path s keys i es = true → ∀ {done done' : List Action}
      {members : List (String × Option Made)}, ElementsMake h i es done members done' →
      (Made.object members).Holds h (s :: keys) v
  | [], _, _, _, _, _, _, _, _, hv, _, _, _, _, _ => by simp [factsOfElements, firstValue?] at hv
  | element :: rest, known, path, s, keys, v, i, hk, hpath, hv, hsettled, done, done', members,
      hmake => by
    have hbelow := factsOf_isBelow known (path.child (.index i)) element
    simp only [factsOfElements] at hv
    simp only [elementsSettled] at hsettled
    simp only [ElementsMake] at hmake
    cases hspread : element.isSpread with
    | true => simp [hspread, firstValue?] at hv
    | false =>
      simp only [hspread, Bool.false_eq_true, if_false, firstValue?_append] at hv hmake
      by_cases hs : s = .index i
      · subst hs
        -- nothing behind the element is about its index
        rw [firstValue?_of_smaller (Nat.lt_succ_self i), Option.or_none, Path.join_cons] at hv
        rw [if_pos rfl] at hsettled
        cases habsent : element.isAbsent with
        | true => cases element <;> simp_all [Expr.isAbsent, factsOf, firstValue?]
        | false =>
          simp only [habsent, Bool.false_eq_true, if_false] at hmake
          obtain ⟨m, done₁, later, helement, hrest, rfl⟩ := hmake
          have hchild : h.Withholds (path.child (.index i)).binding := hpath
          have hm : m.Holds h keys v := holds_factsOf element hk hchild hv hsettled helement
          refine hm.of_lookup (lookup_elements (Nat.lt_succ_self i) hrest) ?_
          simp [placed]
      · rw [firstValue?_of_other hbelow (Ne.symm hs), Option.none_or] at hv
        rw [if_neg hs] at hsettled
        have hlearnt := hk.learn hpath fun f hf => (hbelow f hf).binding_eq
        split at hmake
        · exact holds_factsOfElements rest hlearnt hpath hv hsettled hmake
        · obtain ⟨m, done₁, later, -, hrest, rfl⟩ := hmake
          exact (holds_factsOfElements rest hlearnt hpath hv hsettled hrest).append _

end

end Sound

/-- **What is recorded of a settled part of a constant is what the program reads there.**
If what is known is true whenever the program runs, nothing is recorded about the name
of a constant before and the name cannot be read while the initial value is evaluated,
then whatever the initial value comes to holds the value that is looked up for a part
afterwards, if the part is settled. -/
theorem holds_of_bind {h : Host} {known : Associations} {name : String} {e : Expr}
    {keys : List Segment} {v : Value} (hk : h.Keeps known) (hname : h.Withholds name)
    (hnew : ∀ entry ∈ known.entries, entry.1.binding ≠ name)
    (hv : (bind known (.mk (.ident name) e)).lookup? ⟨name, keys⟩ = some v)
    (hsettled : e.isSettled known (.root name) keys = true) {done done' : List Action} {m : Made}
    (hmakes : e.Makes h done m done') : m.Holds h keys v := by
  have hnone : known.lookup? ⟨name, keys⟩ = none := by
    refine (lookup?_eq_none_iff known).mpr fun entry hentry hpath => ?_
    exact hnew entry hentry (by rw [hpath])
  rw [bind, lookup?_learn, hnone, Option.none_or] at hv
  exact holds_factsOf e hk hname hv hsettled hmakes

/-- A host where one name cannot be read yet, another one holds an object, and names hold
the given values. -/
def Host.before (pending object : String) (constants : List (String × Value)) : Host :=
  { Host.bare constants with
    read := fun done name =>
      if name = pending then .pending
      else if name = object then .holds (.object 0)
      else (Host.bare constants).read done name }

/-- The given values may be known there. -/
theorem Host.before_keeps {pending object : String} {constants : List (String × Value)}
    (hobject : (constants.lookup object).or (globalValue? object) = none) :
    (Host.before pending object constants).Keeps
      (.of (constants.map fun (name, v) => (.root name, v)) []) := by
  have hread : ∀ done name v, (constants.lookup name).or (globalValue? name) = some v →
      (Host.before pending object constants).read done name = .pending ∨
        (Host.before pending object constants).read done name = .holds (.plain v) := by
    intro done name v hv
    by_cases hpending : name = pending
    · exact .inl (if_pos hpending)
    · have hne : name ≠ object := by
        rintro rfl
        rw [hobject] at hv
        cases hv
      right
      simp [before, bare, hpending, hne, hv]
  constructor
  · intro done name v hv
    simp only [evaluate, lookup?_constants, Associations.isShadowed, Associations.shadowed_of] at hv
    exact hread done name v hv
  · intro done later name d hd keys v hv
    rw [lookup?_constants] at hv
    simp only [Option.ite_none_right_eq_some] at hv
    obtain ⟨rfl, hv⟩ := hv
    rcases hread done name v (by rw [hv, Option.some_or]) with hpending | hholds
    · rw [hd] at hpending
      cases hpending
    · rw [hd] at hholds
      cases hholds
      rfl

/-- The value `{ ...s, a: true, [k]: { c: null }, list: [, "y", ...s, 2], get d() {}, k }`. -/
def mixture : Expr := .object
  [.spread (.ident "s"), .pair (.ident "a") (.literal (.bool true)),
    .pair (.computed (.ident "k")) (.object [.pair (.ident "c") (.literal .null)]),
    .pair (.ident "list") (.array [.absent, .literal (.string "y" "\"y\""), .spread (.ident "s"),
      .literal (.number (.ofNat 2) "2")]),
    .method .get false (.ident "d")
      (.block ⟨.getter, none, false, false⟩ ⟨80, 90⟩ [] (.mk ⟨88, 90⟩ [])),
    .shorthand "k" .absent]

/-- Where `k` is known to be `"b"` and `s` holds an object, the value can be evaluated, and
what it comes to has `null` under `b` and `c`, `"y"` as the second element of its list,
and `"b"` under `k`. -/
theorem mixture_holds :
    let known : Associations := .of [(.root "k", .string "b")] []
    let h := Host.before "x" "s" [("k", .string "b")]
    h.Keeps known ∧ h.Withholds "x" ∧ ∃ m, mixture.Makes h [] m [] ∧
      m.Holds h [.name "b", .name "c"] .null ∧ m.Holds h [.name "list", .index 1] (.string "y") ∧
      m.Holds h [.name "k"] (.string "b") := by
  intro known h
  have hk : h.Keeps known := Host.before_keeps (by decide +kernel)
  have hx : h.Withholds "x" := fun done => rfl
  have hnew : ∀ entry ∈ known.entries, entry.1.binding ≠ "x" := by decide +kernel
  have hexec : mixture.exec h [] = (some (.object 0), []) := rfl
  obtain ⟨m, hmakes⟩ := mixture.exists_makes hexec
  have hparts : ∀ keys v, (bind known (.mk (.ident "x") mixture)).lookup? ⟨"x", keys⟩ = some v →
      mixture.isSettled known (.root "x") keys = true → m.Holds h keys v :=
    fun keys v hv hsettled => holds_of_bind hk hx hnew hv hsettled hmakes
  refine ⟨hk, hx, m, hmakes, hparts _ _ ?_ ?_, hparts _ _ ?_ ?_, hparts _ _ ?_ ?_⟩
  all_goals decide +kernel

/-- **A property may be replaced.** What is recorded of `x.a` for `{ a: true, a: false }` is
`true`, and the program reads `false`. -/
theorem exists_replaced_property : ¬ ∀ (h : Host) (known : Associations) (name : String)
    (e : Expr) (keys : List Segment) (v : Value) (done done' : List Action) (m : Made),
      h.Keeps known → h.Withholds name → (∀ entry ∈ known.entries, entry.1.binding ≠ name) →
      (bind known (.mk (.ident name) e)).lookup? ⟨name, keys⟩ = some v →
      e.Makes h done m done' → m.read h done' keys = some (.plain v) := by
  intro hall
  let e : Expr := .object [.pair (.ident "a") (.literal (.bool true)),
    .pair (.ident "a") (.literal (.bool false))]
  let h := Host.before "x" "s" []
  have hmakes : e.Makes h [] (.object [("a", some (.datum (.plain (.bool false)))),
      ("a", some (.datum (.plain (.bool true))))]) [] := by
    simp only [e, Expr.Makes, PropertiesMake, Key.MayBe]
    refine ⟨_, rfl, some "a", [], _, [], [("a", some (.datum (.plain (.bool false))))],
      ⟨rfl, rfl⟩, ⟨_, rfl, rfl⟩, ?_, rfl⟩
    exact ⟨some "a", [], _, [], [], ⟨rfl, rfl⟩, ⟨_, rfl, rfl⟩, ⟨rfl, rfl⟩, rfl⟩
  have hread := hall h .empty "x" e [.name "a"] (.bool true) [] [] _
    (Host.before_keeps (by decide +kernel)) (fun _ => rfl) (by decide +kernel) (by decide +kernel)
    hmakes
  simp [Made.read, Segment.key] at hread

end DeadBranch
