/-
# Objects as they are made

An initial value with objects and arrays in it comes to something when the program
runs: the properties of an object are evaluated one after the other, and each replaces
what an earlier one with the same key defined. A spread copies members that the text
does not tell, and the key of a property may not be known before the program runs, so
`Expr.Makes` relates an initial value to all that it may come to. A run that ends comes
to something (`Expr.exists_makes`).

Key definitions: `Made`, `Made.read`, `Expr.Makes`.
Key theorems: `Made.Holds.append`, `Expr.exists_makes`.
-/
import DeadBranch.Proofs.Keys
import DeadBranch.Proofs.SideEffects

namespace DeadBranch

/-! ### Making objects -/

/-- What an initial value comes to: a datum, or a new object with its members, the one
that was defined last in front. Of an accessor it is not told what reading it gives. -/
inductive Made where
  | datum (d : Datum)
  | object (members : List (String × Option Made))

/-- Reads a part of something that was made. -/
def Made.read (h : Host) (done : List Action) : Made → List Segment → Option Datum
  | .datum d, keys => keys.foldlM (h.member done) d
  | .object _, [] => none
  | .object members, s :: keys =>
    match members.lookup s.key with
    | some (some m) => m.read h done keys
    | _ => none

/-- Whenever a part is read, it is the value. -/
def Made.Holds (h : Host) (m : Made) (keys : List Segment) (v : Value) : Prop :=
  ∀ done, m.read h done keys = some (.plain v)

section Holds

variable {h : Host} {m : Made} {later own : List (String × Option Made)} {s : Segment}
  {keys : List Segment} {v : Value}

theorem Made.Holds.of_lookup (hm : m.Holds h keys v) (hlater : later.lookup s.key = none)
    (hown : own.lookup s.key = some (some m)) :
    (Made.object (later ++ own)).Holds h (s :: keys) v := by
  intro done
  simp only [read, List.lookup_append, hlater, hown, Option.none_or]
  exact hm done

/-- What was defined last counts. -/
theorem Made.Holds.append (hlater : (Made.object later).Holds h (s :: keys) v)
    (own : List (String × Option Made)) : (Made.object (later ++ own)).Holds h (s :: keys) v := by
  intro done
  have hread := hlater done
  simp only [read, List.lookup_append] at hread ⊢
  cases hm : later.lookup s.key with
  | none => simp [hm] at hread
  | some content =>
    rw [hm] at hread
    exact hread

end Holds

/-- Does a value with this key become the prototype of the object, and no member? -/
def Key.setsPrototype : Key → Bool
  | .ident name | .string name _ => name == "__proto__"
  | _ => false

/-- A datum may be taken for this key. What is no value may be taken for any text, or
for a key that is no text, and the program may act to find it. -/
def Datum.MayBeKey (k : Option String) (done done' : List Action) : Datum → Prop
  | .plain v => k = some v.toText ∧ done' = done
  | .object _ | .exotic _ => done <+: done'

/-- The key of a property may come to this one. -/
def Key.MayBe (h : Host) (done : List Action) (k : Option String) (done' : List Action) :
    Key → Prop
  | .computed e => ∃ d done₁, e.exec h done = (some d, done₁) ∧ d.MayBeKey k done₁ done'
  | key => k = key.text? ∧ done' = done

/-- The member that is defined under a key, if the key is a text. -/
def defined (k : Option String) (content : Option Made) : List (String × Option Made) :=
  (k.map (·, content)).toList

/-- What a method defines; of an accessor nothing is told. -/
def Role.content (f : Nat) : Role → Option Made
  | .get | .set => none
  | .plain | .constructor => some (.datum (.object f))

/-- Elements from an index on, as members. -/
def placed (i : Nat) (items : List Made) : List (String × Option Made) :=
  items.mapIdx fun j m => ((Segment.index (i + j)).key, some m)

mutual

/-- Evaluated after the actions `done`, an initial value may come to `m`, with the actions
`done'` performed by then. -/
def Expr.Makes (h : Host) : Expr → List Action → Made → List Action → Prop
  | .paren inner, done, m, done' => inner.Makes h done m done'
  | .object properties, done, m, done' =>
    ∃ members, m = .object members ∧ PropertiesMake h properties done members done'
  | .array elements, done, m, done' =>
    ∃ members, m = .object members ∧ ElementsMake h 0 elements done members done'
  | e, done, m, done' => ∃ d, m = .datum d ∧ e.exec h done = (some d, done')

/-- Properties may define these members. A spread may copy anything, and what stands in no
object defines nothing. -/
def PropertiesMake (h : Host) :
    List Property → List Action → List (String × Option Made) → List Action → Prop
  | [], done, members, done' => members = [] ∧ done' = done
  | .pair key value :: rest, done, members, done' =>
    ∃ k done₁ m done₂ later, key.MayBe h done k done₁ ∧ value.Makes h done₁ m done₂ ∧
      PropertiesMake h rest done₂ later done' ∧
      members = later ++ if key.setsPrototype then [] else defined k (some m)
  | .shorthand name .absent :: rest, done, members, done' =>
    ∃ d later, h.read done name = .holds d ∧ PropertiesMake h rest done later done' ∧
      members = later ++ defined name (some (.datum d))
  | .spread operand :: rest, done, members, done' =>
    ∃ d done₁ done₂ copied later, operand.exec h done = (some d, done₁) ∧ done₁ <+: done₂ ∧
      PropertiesMake h rest done₂ later done' ∧ members = later ++ copied
  | .method role _ key _ :: rest, done, members, done' =>
    ∃ k done₁ f later, key.MayBe h done k done₁ ∧ PropertiesMake h rest done₁ later done' ∧
      members = later ++ defined k (role.content f)
  | p :: rest, done, members, done' =>
    ∃ done₁, p.exec h done = (some (), done₁) ∧ PropertiesMake h rest done₁ members done'

/-- Elements from an index on may define these members. A spread may give any number of
any elements. -/
def ElementsMake (h : Host) (i : Nat) :
    List Expr → List Action → List (String × Option Made) → List Action → Prop
  | [], done, members, done' => members = [] ∧ done' = done
  | element :: rest, done, members, done' =>
    if element.isAbsent then ElementsMake h (i + 1) rest done members done'
    else if element.isSpread then
      ∃ d done₁ done₂ items later, element.exec h done = (some d, done₁) ∧ done₁ <+: done₂ ∧
        ElementsMake h (i + items.length) rest done₂ later done' ∧
        members = later ++ placed i items
    else
      ∃ m done₁ later, element.Makes h done m done₁ ∧
        ElementsMake h (i + 1) rest done₁ later done' ∧ members = later ++ placed i [m]

end

/-- A name with a fallback defines nothing. -/
theorem propertiesMake_fallback {h : Host} {name : String} {e : Expr} (he : e ≠ .absent)
    {rest : List Property} {done done' : List Action} {members : List (String × Option Made)} :
    PropertiesMake h (.shorthand name e :: rest) done members done' ↔
      ∃ done₁, (Property.shorthand name e).exec h done = (some (), done₁) ∧
        PropertiesMake h rest done₁ members done' := by
  cases e <;> first | exact absurd rfl he | simp only [PropertiesMake]

/-! ### Whatever is executed comes to something -/

section Executed

variable {h : Host}

theorem Execution.exists_of_bind {α β : Type} {m : Execution α} {f : α → Execution β}
    {done done' : List Action} {b : β} (hm : (m >>= f) done = (some b, done')) :
    ∃ a done₁, m done = (some a, done₁) ∧ f a done₁ = (some b, done') := by
  rcases hr : m done with ⟨_ | a, done₁⟩
  · rw [Execution.bind_none hr] at hm
    cases hm
  · rw [Execution.bind_some hr] at hm
    exact ⟨a, done₁, rfl, hm⟩

theorem read_of_execName {name : String} {done done' : List Action} {d : Datum}
    (hexec : execName h name done = (some d, done')) :
    h.read done name = .holds d ∧ done' = done := by
  simp only [execName, Execution.ask, Prod.mk.injEq] at hexec
  cases hread : h.read done name <;> simp_all

theorem Key.exists_mayBe {key : Key} {done done' : List Action}
    (hexec : key.exec h done = (some (), done')) : ∃ k, key.MayBe h done k done' := by
  cases key with
  | computed e =>
    simp only [Key.exec] at hexec
    obtain ⟨d, done₁, he, hpure⟩ := Execution.exists_of_bind hexec
    cases hpure
    cases d with
    | plain v => exact ⟨some v.toText, _, _, he, rfl, rfl⟩
    | object id | exotic id => exact ⟨none, _, _, he, List.prefix_rfl⟩
  | ident _ | string _ _ | number _ _ | bigint _ _ | privateName _ =>
    simp only [Key.exec] at hexec
    cases hexec
    exact ⟨_, rfl, rfl⟩

mutual

/-- An initial value that can be executed comes to something. -/
theorem Expr.exists_makes : ∀ (e : Expr) {done done' : List Action} {d : Datum},
    e.exec h done = (some d, done') → ∃ m, e.Makes h done m done'
  | .paren inner, done, done', d, hexec => by
    simp only [Expr.exec] at hexec
    simp only [Expr.Makes]
    exact inner.exists_makes hexec
  | .object properties, done, done', d, hexec => by
    simp only [Expr.exec] at hexec
    obtain ⟨_, done₁, hproperties, hfresh⟩ := Execution.exists_of_bind hexec
    cases hfresh
    obtain ⟨members, hmake⟩ := exists_propertiesMake properties hproperties
    simp only [Expr.Makes]
    exact ⟨_, members, rfl, hmake⟩
  | .array elements, done, done', d, hexec => by
    simp only [Expr.exec] at hexec
    obtain ⟨_, done₁, helements, hfresh⟩ := Execution.exists_of_bind hexec
    cases hfresh
    obtain ⟨members, hmake⟩ := exists_elementsMake elements 0 helements
    simp only [Expr.Makes]
    exact ⟨_, members, rfl, hmake⟩
  | .absent, _, _, d, hexec | .literal _, _, _, d, hexec | .ident _, _, _, d, hexec
  | .unary _ _, _, _, d, hexec | .binary _ _ _, _, _, d, hexec | .cond _ _ _, _, _, d, hexec
  | .assign _ _ _, _, _, d, hexec | .member _ _, _, _, d, hexec | .index _ _, _, _, d, hexec
  | .spread _, _, _, d, hexec | .arrayPattern _, _, _, d, hexec | .objectPattern _, _, _, d, hexec
  | .withDefault _ _, _, _, d, hexec | .closure _, _, _, d, hexec
  | .classExpr _ _ _, _, _, d, hexec | .other _ _, _, _, d, hexec => by
    simp only [Expr.Makes]
    exact ⟨_, d, rfl, hexec⟩

theorem exists_propertiesMake : ∀ (ps : List Property) {done done' : List Action},
    propertiesExec h ps done = (some (), done') → ∃ members, PropertiesMake h ps done members done'
  | [], done, done', hexec => by
    simp only [propertiesExec] at hexec
    cases hexec
    exact ⟨[], by simp [PropertiesMake]⟩
  | .pair key value :: rest, done, done', hexec => by
    simp only [propertiesExec, Property.exec] at hexec
    obtain ⟨_, done₁, hp, hexec⟩ := Execution.exists_of_bind hexec
    obtain ⟨_, done₂, hkey, hp⟩ := Execution.exists_of_bind hp
    obtain ⟨d, done₃, hvalue, hp⟩ := Execution.exists_of_bind hp
    cases hp
    obtain ⟨k, hk⟩ := Key.exists_mayBe hkey
    obtain ⟨m, hm⟩ := value.exists_makes hvalue
    obtain ⟨later, hrest⟩ := exists_propertiesMake rest hexec
    simp only [PropertiesMake]
    exact ⟨_, k, done₂, m, _, later, hk, hm, hrest, rfl⟩
  | .shorthand name e :: rest, done, done', hexec => by
    simp only [propertiesExec] at hexec
    obtain ⟨_, done₁, hp, hexec⟩ := Execution.exists_of_bind hexec
    obtain ⟨later, hrest⟩ := exists_propertiesMake rest hexec
    by_cases he : e = .absent
    · subst he
      simp only [Property.exec] at hp
      obtain ⟨d, done₂, hread, hp⟩ := Execution.exists_of_bind hp
      cases hp
      obtain ⟨hread, rfl⟩ := read_of_execName hread
      simp only [PropertiesMake]
      exact ⟨_, d, later, hread, hrest, rfl⟩
    · exact ⟨later, (propertiesMake_fallback he).mpr ⟨done₁, hp, hrest⟩⟩
  | .spread operand :: rest, done, done', hexec => by
    simp only [propertiesExec, Property.exec] at hexec
    obtain ⟨_, done₁, hp, hexec⟩ := Execution.exists_of_bind hexec
    obtain ⟨d, done₂, hoperand, hp⟩ := Execution.exists_of_bind hp
    cases hp
    obtain ⟨later, hrest⟩ := exists_propertiesMake rest hexec
    simp only [PropertiesMake]
    exact ⟨_, d, _, _, [], later, hoperand, List.prefix_rfl, hrest, rfl⟩
  | .method role _ key _ :: rest, done, done', hexec => by
    simp only [propertiesExec, Property.exec] at hexec
    obtain ⟨_, done₁, hkey, hexec⟩ := Execution.exists_of_bind hexec
    obtain ⟨k, hk⟩ := Key.exists_mayBe hkey
    obtain ⟨later, hrest⟩ := exists_propertiesMake rest hexec
    simp only [PropertiesMake]
    exact ⟨_, k, done₁, 0, later, hk, hrest, rfl⟩
  | .field _ _ _ :: rest, done, done', hexec | .staticBlock _ :: rest, done, done', hexec
  | .empty :: rest, done, done', hexec => by
    simp only [propertiesExec] at hexec
    obtain ⟨_, done₁, hp, hexec⟩ := Execution.exists_of_bind hexec
    obtain ⟨later, hrest⟩ := exists_propertiesMake rest hexec
    simp only [PropertiesMake]
    exact ⟨later, done₁, hp, hrest⟩

theorem exists_elementsMake : ∀ (es : List Expr) (i : Nat) {done done' : List Action}
    {ds : List Datum}, exprsExec h es done = (some ds, done') →
      ∃ members, ElementsMake h i es done members done'
  | [], i, done, done', ds, hexec => by
    simp only [exprsExec] at hexec
    cases hexec
    exact ⟨[], by simp [ElementsMake]⟩
  | element :: rest, i, done, done', ds, hexec => by
    simp only [exprsExec] at hexec
    obtain ⟨d, done₁, helement, hexec⟩ := Execution.exists_of_bind hexec
    obtain ⟨ds', done₂, hrest, hpure⟩ := Execution.exists_of_bind hexec
    cases hpure
    simp only [ElementsMake]
    split
    · next habsent =>
      have hdone : done₁ = done := by
        cases element <;> simp [Expr.isAbsent] at habsent
        exact (congrArg Prod.snd helement).symm
      exact exists_elementsMake rest (i + 1) (hdone ▸ hrest)
    · split
      · obtain ⟨later, hlater⟩ := exists_elementsMake rest i hrest
        exact ⟨_, d, _, _, [], later, helement, List.prefix_rfl, hlater, rfl⟩
      · obtain ⟨m, hm⟩ := element.exists_makes helement
        obtain ⟨later, hlater⟩ := exists_elementsMake rest (i + 1) hrest
        exact ⟨_, m, done₁, later, hm, hlater, rfl⟩

end

end Executed

end DeadBranch
