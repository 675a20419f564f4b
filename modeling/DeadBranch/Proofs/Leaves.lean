/-
# The leaves of an initial value

An initial value that is built from primitive literals, objects and arrays alone is a
tree whose leaves are the literals. A leaf is reached by the keys on the way to it, as
texts: those of properties as they are written, and for an element of an array its
index. What such a value says about a constant are its leaves, in the order of the
source and nothing else (`factsOf_eq_leaves`), whatever else is known.

A chain of members, `x.a["b"][0]`, reads a part of a constant by keys that are written
in other ways. But different spellings of a key come to the same segment, and
different keys to different ones, so the chain has the value of the first leaf with the
same keys (`evaluate_chain_of_bind`).

Key definitions: `Key.written?`, `Leaf`, `Expr.leaves`, `Expr.isData`, `Expr.chain?`.
Key theorems: `factsOf_eq_leaves`, `evaluate_chain`, `evaluate_chain_of_bind`.
-/
import DeadBranch.Proofs.Keys
import DeadBranch.Proofs.Lookups

namespace DeadBranch

/-! ### Leaves -/

/-- The text of a key that is written out. A computed key is if it is a literal. -/
def Key.written? : Key → Option String
  | .ident name => if Text.isIdentifier name then some name else none
  | .computed (.literal value) => value.value?.map (·.toText)
  | key => key.text?

/-- A primitive value inside another value, with the keys that lead to it. -/
structure Leaf where
  keys : List String
  value : Value

/-- The leaf as one of the value around. -/
def Leaf.under (key : String) (l : Leaf) : Leaf := ⟨key :: l.keys, l.value⟩

mutual

/-- The leaves of an initial value, in the order of the source. -/
def Expr.leaves : Expr → List Leaf
  | .literal value => (value.value?.map (Leaf.mk [])).toList
  | .paren inner => inner.leaves
  | .object properties => propertyLeaves properties
  | .array elements => elementLeaves 0 elements
  | _ => []

/-- The leaves of properties. Only what is given for a key that is written out has
leaves. -/
def propertyLeaves : List Property → List Leaf
  | [] => []
  | .pair key value :: rest =>
    (match key.written? with
      | some k => value.leaves.map (·.under k)
      | none => []) ++ propertyLeaves rest
  | _ :: rest => propertyLeaves rest

/-- The leaves of elements from an index on, up to the first spread. -/
def elementLeaves (i : Nat) : List Expr → List Leaf
  | [] => []
  | element :: rest =>
    if element.isSpread then []
    else element.leaves.map (·.under (Segment.index i).key) ++ elementLeaves (i + 1) rest

end

mutual

/-- Is an initial value built from primitive literals, parentheses, objects and arrays
alone? Objects have keys that are written out, and may have spreads, methods and
accessors; arrays may have holes and spreads, and no more elements than an array can
have. -/
def Expr.isData : Expr → Bool
  | .literal value => value.value?.isSome
  | .paren inner => inner.isData
  | .object properties => propertiesData properties
  | .array elements => decide (elements.length ≤ Segment.indexLimit) && elementsData elements
  | _ => false

/-- Are all properties such? -/
def propertiesData : List Property → Bool
  | [] => true
  | .pair key value :: rest => key.written?.isSome && value.isData && propertiesData rest
  | .spread _ :: rest | .method _ _ _ _ :: rest => propertiesData rest
  | _ => false

/-- Are all elements such, or left out, or spreads? -/
def elementsData : List Expr → Bool
  | [] => true
  | element :: rest =>
    (element.isAbsent || element.isSpread || element.isData) && elementsData rest

end

/-! ### The facts of an initial value are its leaves -/

/-- What a leaf says about the constant, or the part of it, that the path leads to. -/
def Leaf.fact (path : Path) (l : Leaf) : Fact := ⟨path.join (l.keys.map .ofKey), l.value, false⟩

theorem Leaf.fact_under (path : Path) (key : String) (l : Leaf) :
    (l.under key).fact path = l.fact (path.child (.ofKey key)) := by
  simp [fact, under, Path.join_cons]

/-- A key that is written out is the key that counts. -/
theorem Key.segment?_of_written {key : Key} {k : String} (h : key.written? = some k)
    (known : Associations) : key.segment? known = some (.ofKey k) := by
  cases key with
  | ident name =>
    simp only [written?, Option.ite_none_right_eq_some, Option.some.injEq] at h
    obtain ⟨hname, rfl⟩ := h
    rw [Key.segment?, Segment.ofKey_of_isIdentifier hname]
  | string value raw | number value raw | bigint value raw =>
    obtain rfl := Option.some.inj h
    rfl
  | computed e =>
    cases e with
    | literal value =>
      simp only [written?, Option.map_eq_some_iff] at h
      obtain ⟨v, hv, rfl⟩ := h
      simp [Key.segment?, evaluate, hv, Segment.ofValue]
    | _ => cases h
  | privateName name => cases h

mutual

/-- **What data says are its leaves**, in the order of the source, whatever is known. -/
theorem factsOf_eq_leaves : ∀ (e : Expr), e.isData = true → ∀ (known : Associations) (path : Path),
    factsOf known path e = e.leaves.map (·.fact path)
  | .literal value, _, known, path => by
    cases hv : value.value? <;>
      simp [factsOf, Expr.leaves, stated, hv, Leaf.fact, Path.join]
  | .paren inner, hdata, known, path => by
    simp only [Expr.isData] at hdata
    simp only [factsOf, Expr.leaves]
    exact factsOf_eq_leaves inner hdata known path
  | .object properties, hdata, known, path => by
    simp only [Expr.isData] at hdata
    simp only [factsOf, Expr.leaves]
    exact factsOfProperties_eq_leaves properties hdata known path
  | .array elements, hdata, known, path => by
    simp only [Expr.isData, Bool.and_eq_true, decide_eq_true_eq] at hdata
    simp only [factsOf, Expr.leaves]
    exact factsOfElements_eq_leaves elements hdata.2 0 (by omega) known path
  | .absent, hdata, _, _ | .ident _, hdata, _, _ | .unary _ _, hdata, _, _
  | .binary _ _ _, hdata, _, _ | .cond _ _ _, hdata, _, _ | .assign _ _ _, hdata, _, _
  | .member _ _, hdata, _, _ | .index _ _, hdata, _, _ | .spread _, hdata, _, _
  | .arrayPattern _, hdata, _, _ | .objectPattern _, hdata, _, _ | .withDefault _ _, hdata, _, _
  | .closure _, hdata, _, _ | .classExpr _ _ _, hdata, _, _ | .other _ _, hdata, _, _ => by
    simp [Expr.isData] at hdata

theorem factsOfProperties_eq_leaves : ∀ (ps : List Property), propertiesData ps = true →
    ∀ (known : Associations) (path : Path),
      factsOfProperties known path ps = (propertyLeaves ps).map (·.fact path)
  | [], _, _, _ => by simp [factsOfProperties, propertyLeaves]
  | .pair key value :: rest, hdata, known, path => by
    simp only [propertiesData, Bool.and_eq_true] at hdata
    obtain ⟨⟨hkey, hvalue⟩, hrest⟩ := hdata
    obtain ⟨k, hk⟩ := Option.isSome_iff_exists.mp hkey
    have hfacts := factsOf_eq_leaves value hvalue known (path.child (.ofKey k))
    simp only [factsOfProperties, Key.segment?_of_written hk, propertyLeaves, hk, List.map_append,
      List.map_map, factsOfProperties_eq_leaves rest hrest]
    rw [hfacts]
    congr 1
    exact List.map_congr_left fun l _ => (l.fact_under path k).symm
  | .spread _ :: rest, hdata, known, path | .method _ _ _ _ :: rest, hdata, known, path => by
    simp only [propertiesData] at hdata
    simp only [factsOfProperties, propertyLeaves]
    exact factsOfProperties_eq_leaves rest hdata known path
  | .shorthand _ _ :: _, hdata, _, _ | .field _ _ _ :: _, hdata, _, _
  | .staticBlock _ :: _, hdata, _, _ | .empty :: _, hdata, _, _ => by
    simp [propertiesData] at hdata

theorem factsOfElements_eq_leaves : ∀ (es : List Expr), elementsData es = true →
    ∀ i, i + es.length ≤ Segment.indexLimit → ∀ (known : Associations) (path : Path),
      factsOfElements known path i es = (elementLeaves i es).map (·.fact path)
  | [], _, _, _, _, _ => by simp [factsOfElements, elementLeaves]
  | element :: rest, hdata, i, hi, known, path => by
    simp only [elementsData, Bool.and_eq_true, Bool.or_eq_true] at hdata
    simp only [List.length_cons] at hi
    simp only [factsOfElements, elementLeaves]
    split
    · simp
    · next hspread =>
      -- a hole has no facts and no leaves
      have helement : factsOf known (path.child (.index i)) element =
          element.leaves.map (·.fact (path.child (.index i))) := by
        rcases hdata.1 with (habsent | hspread') | hdata
        · cases element <;> simp_all [Expr.isAbsent, factsOf, Expr.leaves]
        · exact absurd hspread' hspread
        · exact factsOf_eq_leaves element hdata known _
      have hkey : Segment.ofKey (Segment.index i).key = .index i :=
        Segment.ofKey_key_index (by omega)
      simp only [List.map_append, List.map_map,
        factsOfElements_eq_leaves rest hdata.2 (i + 1) (by omega)]
      rw [helement]
      congr 1
      exact List.map_congr_left fun l _ => by rw [Function.comp_apply, Leaf.fact_under, hkey]

end

/-- Of the leaves with the same keys the first one counts. -/
theorem firstValue?_leaves (path : Path) (keys : List String) (leaves : List Leaf) :
    firstValue? (leaves.map (·.fact path)) (path.join (keys.map .ofKey)) =
      (leaves.find? (·.keys = keys)).map (·.value) := by
  have hkeys : ∀ l : Leaf, (l.fact path).path = path.join (keys.map .ofKey) ↔ l.keys = keys := by
    intro l
    have hinj : Function.Injective (List.map Segment.ofKey) :=
      List.map_injective_iff.mpr fun _ _ => Segment.ofKey_inj.mp
    exact Path.join_inj.trans hinj.eq_iff
  simp only [firstValue?, List.find?_map, Option.map_map, Function.comp_def, hkeys]
  rfl

/-! ### Chains of members -/

/-- The name that a chain of members starts from and its keys, if these are names or
literals. -/
def Expr.chain? : Expr → Option (String × List String)
  | .ident name => some (name, [])
  | .member base name => do
    let (start, keys) ← base.chain?
    if Text.isIdentifier name then some (start, keys ++ [name]) else none
  | .index base (.literal value) => do
    let (start, keys) ← base.chain?
    let v ← value.value?
    return (start, keys ++ [v.toText])
  | _ => none

theorem chain?_member {base : Expr} {name start : String} {keys : List String} :
    (Expr.member base name).chain? = some (start, keys) ↔
      ∃ before, base.chain? = some (start, before) ∧ Text.isIdentifier name = true ∧
        keys = before ++ [name] := by
  simp only [Expr.chain?, Option.bind_eq_bind, Option.bind_eq_some_iff,
    Option.ite_none_right_eq_some, Option.some.injEq, Prod.mk.injEq, Prod.exists]
  constructor
  · rintro ⟨_, before, hbase, hname, rfl, rfl⟩
    exact ⟨before, hbase, hname, rfl⟩
  · rintro ⟨before, hbase, hname, rfl⟩
    exact ⟨start, before, hbase, hname, rfl, rfl⟩

theorem exists_of_chain?_index {base key : Expr} {start : String} {keys : List String}
    (h : (Expr.index base key).chain? = some (start, keys)) :
    ∃ before value v, base.chain? = some (start, before) ∧ key = .literal value ∧
      value.value? = some v ∧ keys = before ++ [v.toText] := by
  cases key with
  | literal value =>
    simp only [Expr.chain?, Option.bind_eq_bind, Option.bind_eq_some_iff, Prod.exists] at h
    obtain ⟨_, before, hbase, v, hv, h⟩ := h
    obtain ⟨rfl, rfl⟩ := Prod.mk.inj (Option.some.inj h)
    exact ⟨before, value, v, hbase, rfl, hv, rfl⟩
  | _ => simp [Expr.chain?] at h

section Chain

variable {known : Associations} {start : String}

/-- A chain leads to the part of the name that its keys say. -/
theorem staticPath_chain (hread : known.isShadowed start = false) :
    ∀ {e : Expr} {keys : List String}, e.chain? = some (start, keys) →
      staticPath known e = some ((Path.root start).join (keys.map .ofKey))
  | .ident name, keys, h => by
    simp only [Expr.chain?, Option.some.injEq, Prod.mk.injEq] at h
    obtain ⟨rfl, rfl⟩ := h
    simp [staticPath, hread, Path.join, Path.root]
  | .member base name, keys, h => by
    obtain ⟨before, hbase, hname, rfl⟩ := chain?_member.mp h
    simp [staticPath, staticPath_chain hread hbase, Path.join_child,
      Segment.ofKey_of_isIdentifier hname]
  | .index base key, keys, h => by
    obtain ⟨before, value, v, hbase, rfl, hv, rfl⟩ := exists_of_chain?_index h
    simp [staticPath, staticPath_chain hread hbase, evaluate, hv, Path.join_child, Segment.ofValue]
  | .absent, _, h | .literal _, _, h | .paren _, _, h | .unary _ _, _, h | .binary _ _ _, _, h
  | .cond _ _ _, _, h | .assign _ _ _, _, h | .array _, _, h | .object _, _, h | .spread _, _, h
  | .arrayPattern _, _, h | .objectPattern _, _, h | .withDefault _ _, _, h | .closure _, _, h
  | .classExpr _ _ _, _, h | .other _ _, _, h => by simp [Expr.chain?] at h

/-- A chain from a name without a fixed value has the value that is recorded for the
part it leads to. -/
theorem evaluate_chain (hread : known.isShadowed start = false) (hfixed : globalValue? start = none)
    {e : Expr} {keys : List String} (h : e.chain? = some (start, keys)) :
    evaluate known e = known.lookup? ((Path.root start).join (keys.map .ofKey)) := by
  have hpath := staticPath_chain hread h
  cases e with
  | ident name =>
    simp only [Expr.chain?, Option.some.injEq, Prod.mk.injEq] at h
    obtain ⟨rfl, rfl⟩ := h
    simp [evaluate, hread, hfixed, Path.join, Path.root]
  | member base name => rw [evaluate_member, hpath, Option.bind_some]
  | index base key => rw [evaluate_index, hpath, Option.bind_some]
  | _ => simp [Expr.chain?] at h

end Chain

/-- **A chain of members reads the first leaf with its keys.** If a constant is bound to
data, nothing is recorded about its name before, and the name may be read and has no
fixed value, then a chain of members from the name has the value of the first leaf, in
the order of the source, that the same keys lead to, and no value if there is none. -/
theorem evaluate_chain_of_bind {known : Associations} {name : String} {e chain : Expr}
    {keys : List String} (hdata : e.isData = true)
    (hnew : ∀ entry ∈ known.entries, entry.1.binding ≠ name)
    (hread : known.isShadowed name = false) (hfixed : globalValue? name = none)
    (hchain : chain.chain? = some (name, keys)) :
    evaluate (bind known (.mk (.ident name) e)) chain =
      (e.leaves.find? (·.keys = keys)).map (·.value) := by
  have hread' : (bind known (.mk (.ident name) e)).isShadowed name = false := by
    rw [bind, isShadowed_learn, hread]
  have hnone : known.lookup? ((Path.root name).join (keys.map .ofKey)) = none := by
    refine (lookup?_eq_none_iff known).mpr fun entry hentry hpath => ?_
    exact hnew entry hentry (by rw [hpath]; rfl)
  rw [evaluate_chain hread' hfixed hchain, bind, lookup?_learn, hnone, Option.none_or,
    Declarator.facts, factsOf_eq_leaves e hdata, firstValue?_leaves]

/-- The value `{ on: true, list: [, (null), ...rest, 9], "on": false, 7: { [true]: "x" },
...rest }`. -/
def layered : Expr := .object
  [.pair (.ident "on") (.literal (.bool true)),
    .pair (.ident "list") (.array [.absent, .paren (.literal .null), .spread (.ident "rest"),
      .literal (.number (.ofNat 9) "9")]),
    .pair (.string "on" "\"on\"") (.literal (.bool false)),
    .pair (.number (.ofNat 7) "7")
      (.object [.pair (.computed (.literal (.bool true))) (.literal (.string "x" "\"x\""))]),
    .spread (.ident "rest")]

/-- The values `[null]`, `{ 0: null }`, `{ "0": null }`, `{ [0]: null }` and
`{ ["0"]: null }`. -/
def nullAtZero : List Expr :=
  .array [.literal .null] ::
    [.number (.ofNat 0) "0", .string "0" "\"0\"", .computed (.literal (.number (.ofNat 0) "0")),
      .computed (.literal (.string "0" "\"0\""))].map fun key =>
        .object [.pair key (.literal .null)]

/-- The first of two leaves with the same keys counts, an element behind a spread does
not, and all spellings of the key `0` meet. -/
theorem layered_chains :
    let known : Associations := .of [(.root "y", .null)] ["z"]
    let x : Expr := .ident "x"
    let bound (e : Expr) := bind known (.mk x e)
    layered.isData = true ∧ (∀ e ∈ nullAtZero, e.isData = true) ∧
      evaluate (bound layered) (.member x "on") = some (.bool true) ∧
      evaluate (bound layered) (.index (.index x (.literal (.number (.ofNat 7) "7")))
        (.literal (.string "true" "'true'"))) = some (.string "x") ∧
      evaluate (bound layered) (.index (.member x "list") (.literal (.number (.ofNat 3) "3"))) =
        none ∧
      ∀ e ∈ nullAtZero, ∀ key ∈ [Literal.number (.ofNat 0) "0", .string "0" "'0'"],
        evaluate (bound e) (.index x (.literal key)) = some .null := by
  intro known x bound
  have hdata : layered.isData = true := by decide +kernel
  have hzero : ∀ e ∈ nullAtZero, e.isData = true := by decide +kernel
  have hnew : ∀ entry ∈ known.entries, entry.1.binding ≠ "x" := by decide +kernel
  have hreads : ∀ (e chain : Expr) (keys : List String), e.isData = true →
      chain.chain? = some ("x", keys) →
      evaluate (bound e) chain = (e.leaves.find? (·.keys = keys)).map (·.value) :=
    fun _ _ _ h => evaluate_chain_of_bind h hnew (by decide +kernel) (by decide +kernel)
  refine ⟨hdata, hzero, (hreads _ _ ["on"] hdata ?_).trans ?_,
    (hreads _ _ ["7", "true"] hdata ?_).trans ?_, (hreads _ _ ["list", "3"] hdata ?_).trans ?_, ?_⟩
  iterate 6 decide +kernel
  intro e he key hkey
  refine (hreads e _ ["0"] (hzero e he) ?_).trans ?_
  · revert key
    decide +kernel
  · revert e
    decide +kernel

end DeadBranch
