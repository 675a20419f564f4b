/-
# Equalities and orders agree with each other

Equality with conversion is symmetric and is equality without conversion between values of
one type, whatever the conversions between types are. Comparing two values the other way
round gives the reverse outcome, so that `<` and `>`, and `<=` and `>=`, are each other's
mirror images and never both of `<` and `>` hold.

Texts are compared by their 16-bit units, but kept as characters. The units of a text can be
read back (`Text.ofUnits_units`), so texts are equal exactly if their units are, and the
dictionary order of the units is a total order of the texts. It is another order than that by
characters.

Key definitions: `Value.equalsAs`, `Text.ofUnits`, `BinaryOp.Holds`.
Key theorems: `Number.compare_swap`, `Value.looseEquals_eq`, `Value.compare_swap`,
`Text.ofUnits_units`, `Text.compareUnits_eq_lt_iff`, `BinaryOp.comparisons_coherent`.
-/
import DeadBranch.Value.Operator
import Mathlib.Order.Compare

namespace DeadBranch

/-! ### Numbers -/

namespace Number

/-- Comparing the other way round gives the reverse outcome. -/
theorem compare_swap (x y : Number) : x.compare y = (y.compare x).map Ordering.swap := by
  cases x with
  | nan => cases y <;> rfl
  | infinity a =>
    cases y with
    | nan => rfl
    | infinity b => cases a <;> cases b <;> rfl
    | finite b y => cases a <;> rfl
  | finite a x =>
    cases y with
    | nan => rfl
    | infinity b => cases b <;> rfl
    | finite b y => exact congrArg some Std.OrientedCmp.eq_swap

theorem equals_comm (x y : Number) : x.equals y = y.equals x := by
  rw [equals, equals, compare_swap]
  rcases y.compare x with - | (- | - | -) <;> rfl

end Number

/-! ### Equality -/

namespace Value

/-- Equality as numbers, given how values convert to numbers: but `undefined` and `null` equal
each other and nothing else, and two texts are compared as texts. -/
def equalsAs (toNumber : Value → Number) (a b : Value) : Bool :=
  if a.isNullish || b.isNullish then a.isNullish && b.isNullish
  else
    match a, b with
    | string s, string t => s == t
    | _, _ => (toNumber a).equals (toNumber b)

theorem equals_ofNat_toNat : ∀ b c : Bool,
    (Number.ofNat b.toNat).equals (.ofNat c.toNat) = (b == c) := by
  decide +kernel

/-- Equality with conversion, in one step: all else than texts is compared as numbers. -/
theorem looseEquals_eq (a b : Value) : a.looseEquals b = equalsAs toNumber a b := by
  cases a <;> cases b
  case string.number s n | string.bool s b =>
    simp only [looseEquals, toNumber]
    exact Number.equals_comm _ _
  case bool.bool b c =>
    simp only [looseEquals]
    exact (equals_ofNat_toNat b c).symm
  all_goals
    simp only [looseEquals]
    rfl

theorem looseEquals_comm (a b : Value) : a.looseEquals b = b.looseEquals a := by
  rw [looseEquals_eq, looseEquals_eq]
  unfold equalsAs
  rw [Bool.or_comm, Bool.and_comm]
  split
  · rfl
  · cases a <;> cases b <;> first | exact Number.equals_comm _ _ | exact Bool.beq_comm

/-- Between values of one type nothing is converted. -/
theorem looseEquals_of_typeName_eq {a b : Value} (h : a.typeName = b.typeName) :
    a.looseEquals b = a.strictEquals b := by
  cases a <;> cases b
  all_goals first | (simp [typeName] at h; done) | simp only [looseEquals, strictEquals]

theorem typeName_eq_of_strictEquals {a b : Value} (h : a.strictEquals b = true) :
    a.typeName = b.typeName := by
  cases a <;> cases b <;> first | rfl | cases h

end Value

/-! ### Texts as units -/

namespace Text

/-- The characters that units spell: a unit of the first half of the surrogates begins a
pair. -/
def ofUnits : List Nat → List Char
  | [] => []
  | [u] => [Char.ofNat u]
  | u :: v :: us =>
    if 0xd800 ≤ u ∧ u < 0xdc00 then
      Char.ofNat (0x10000 + (u - 0xd800) * 0x400 + (v - 0xdc00)) :: ofUnits us
    else Char.ofNat u :: ofUnits (v :: us)

theorem ofUnits_cons {u : Nat} (h : ¬ (0xd800 ≤ u ∧ u < 0xdc00)) (us : List Nat) :
    ofUnits (u :: us) = Char.ofNat u :: ofUnits us := by
  cases us with
  | nil => rfl
  | cons v us => rw [ofUnits, if_neg h]

/-- The units of a character come first. -/
theorem ofUnits_unitsOf_append (c : Char) (us : List Nat) :
    ofUnits (unitsOf c ++ us) = c :: ofUnits us := by
  have hvalid : c.toNat < 0xd800 ∨ 0xdfff < c.toNat ∧ c.toNat < 0x110000 := c.valid
  unfold unitsOf
  split
  · rw [List.singleton_append, ofUnits_cons (by omega), Char.ofNat_toNat]
  · next hlarge =>
    have hhigh : (c.toNat - 0x10000) / 0x400 < 0x400 := by omega
    have hsum : 0x10000 + (0xd800 + (c.toNat - 0x10000) / 0x400 - 0xd800) * 0x400 +
        (0xdc00 + (c.toNat - 0x10000) % 0x400 - 0xdc00) = c.toNat := by omega
    rw [List.cons_append, List.singleton_append, ofUnits, if_pos (by omega), hsum, Char.ofNat_toNat]

/-- **The units of a text spell it.** -/
theorem ofUnits_units (s : String) : ofUnits (units s) = s.toList := by
  unfold units
  induction s.toList with
  | nil => rfl
  | cons c cs ih => rw [List.flatMap_cons, ofUnits_unitsOf_append, ih]

theorem units_inj {s t : String} : units s = units t ↔ s = t := by
  refine ⟨fun h => ?_, congrArg units⟩
  rw [← String.toList_inj, ← ofUnits_units, h, ofUnits_units]

theorem compareUnits_swap (s t : String) : compareUnits s t = (compareUnits t s).swap := by
  unfold compareUnits
  exact Std.OrientedCmp.eq_swap

theorem compareUnits_eq_eq_iff {s t : String} : compareUnits s t = .eq ↔ s = t := by
  rw [compareUnits, Std.LawfulEqCmp.compare_eq_iff_eq, units_inj]

/-- The order is the dictionary order of the units. -/
theorem compareUnits_eq_lt_iff {s t : String} :
    compareUnits s t = .lt ↔ List.Lex (· < ·) (units s) (units t) := by
  unfold compareUnits
  generalize units s = us
  generalize units t = vs
  induction us generalizing vs with
  | nil =>
    cases vs with
    | nil => simp [List.compareLex_nil_nil]
    | cons v vs => simp [List.compareLex_nil_cons]
  | cons u us ih =>
    cases vs with
    | nil => simp [List.compareLex_cons_nil]
    | cons v vs =>
      rw [List.compareLex_cons_cons, Ordering.then_eq_lt, Nat.compare_eq_lt, Nat.compare_eq_eq,
        ih, List.cons_lex_cons_iff]

/-- A character outside the basic plane comes before the last ones inside it. -/
example : compareUnits (String.singleton (Char.ofNat 0x1f600)) "\uffff" = .lt ∧
    "\uffff" < String.singleton (Char.ofNat 0x1f600) := by decide

theorem compareUnits_trans {r s t : String} (h : compareUnits r s = .lt)
    (h' : compareUnits s t = .lt) : compareUnits r t = .lt := by
  unfold compareUnits at *
  exact Std.TransCmp.lt_trans h h'

end Text

namespace Value

/-- Comparing the other way round gives the reverse outcome. -/
theorem compare_swap (a b : Value) : a.compare b = (b.compare a).map Ordering.swap := by
  cases a <;> cases b
  case string.string s t => exact congrArg some (Text.compareUnits_swap s t)
  all_goals
    simp only [compare]
    exact Number.compare_swap _ _

end Value

/-! ### Operators -/

namespace BinaryOp

/-- The operator gives `true`. -/
def Holds (op : BinaryOp) (a b : Value) : Prop := op.apply a b = some (.bool true)

instance (op : BinaryOp) (a b : Value) : Decidable (op.Holds a b) :=
  inferInstanceAs (Decidable (op.apply a b = some (.bool true)))

section Applied

variable (a b : Value)

theorem apply_looseEq : looseEq.apply a b = some (.bool (a.looseEquals b)) := rfl

theorem apply_strictEq : strictEq.apply a b = some (.bool (a.strictEquals b)) := rfl

theorem apply_lt : lt.apply a b = some (.bool (((a.compare b).map (· == .lt)).getD false)) := rfl

theorem apply_le : le.apply a b = some (.bool (((a.compare b).map (· != .gt)).getD false)) := rfl

theorem apply_gt : gt.apply a b = some (.bool (((a.compare b).map (· == .gt)).getD false)) := rfl

theorem apply_ge : ge.apply a b = some (.bool (((a.compare b).map (· != .lt)).getD false)) := rfl

end Applied

theorem apply_lt_eq (a b : Value) : lt.apply a b = gt.apply b a := by
  rw [apply_lt, apply_gt, a.compare_swap b]
  rcases b.compare a with - | (- | - | -) <;> rfl

theorem apply_le_eq (a b : Value) : le.apply a b = ge.apply b a := by
  rw [apply_le, apply_ge, a.compare_swap b]
  rcases b.compare a with - | (- | - | -) <;> rfl

theorem not_lt_and_gt (a b : Value) : ¬ (lt.Holds a b ∧ gt.Holds a b) := by
  rw [Holds, Holds, apply_lt, apply_gt]
  rcases a.compare b with - | (- | - | -) <;> simp

theorem looseEq_of_strictEq {a b : Value} (h : strictEq.Holds a b) : looseEq.Holds a b := by
  simp only [Holds, apply_strictEq, apply_looseEq, Option.some_inj, Value.bool.injEq] at h ⊢
  rw [Value.looseEquals_of_typeName_eq (Value.typeName_eq_of_strictEquals h), h]

section Strings

variable {s t : String}

theorem lt_string_iff : lt.Holds (.string s) (.string t) ↔ Text.compareUnits s t = .lt := by
  simp [Holds, apply_lt, Value.compare]

theorem gt_string_iff : gt.Holds (.string s) (.string t) ↔ Text.compareUnits s t = .gt := by
  simp [Holds, apply_gt, Value.compare]

theorem strictEq_string_iff : strictEq.Holds (.string s) (.string t) ↔ s = t := by
  simp [Holds, apply_strictEq, Value.strictEquals]

/-- Of two texts, one comes first or they are the same. -/
theorem string_trichotomy (s t : String) :
    (lt.Holds (.string s) (.string t) ∨ strictEq.Holds (.string s) (.string t) ∨
      gt.Holds (.string s) (.string t)) ∧
    ¬ (lt.Holds (.string s) (.string t) ∧ strictEq.Holds (.string s) (.string t)) ∧
    ¬ (strictEq.Holds (.string s) (.string t) ∧ gt.Holds (.string s) (.string t)) := by
  rw [lt_string_iff, gt_string_iff, strictEq_string_iff, ← Text.compareUnits_eq_eq_iff]
  rcases Text.compareUnits s t with - | - | - <;> simp

end Strings

/-- **Equalities and orders are coherent.** `==` is symmetric and holds where `===` does; `<`
and `<=` are `>` and `>=` the other way round, and `<` and `>` exclude each other. Of two
texts exactly one of `<`, `===` and `>` holds, `<` is transitive on them, and it is the
dictionary order of their 16-bit units, which spell the texts. -/
theorem comparisons_coherent :
    (∀ a b : Value, looseEq.apply a b = looseEq.apply b a) ∧
    (∀ a b : Value, strictEq.Holds a b → looseEq.Holds a b) ∧
    (∀ a b : Value, lt.apply a b = gt.apply b a ∧ le.apply a b = ge.apply b a) ∧
    (∀ a b : Value, ¬ (lt.Holds a b ∧ gt.Holds a b)) ∧
    (∀ s t : String,
      (lt.Holds (.string s) (.string t) ∨ strictEq.Holds (.string s) (.string t) ∨
        gt.Holds (.string s) (.string t)) ∧
      ¬ (lt.Holds (.string s) (.string t) ∧ strictEq.Holds (.string s) (.string t)) ∧
      ¬ (strictEq.Holds (.string s) (.string t) ∧ gt.Holds (.string s) (.string t))) ∧
    (∀ r s t : String, lt.Holds (.string r) (.string s) → lt.Holds (.string s) (.string t) →
      lt.Holds (.string r) (.string t)) ∧
    ∀ s t : String,
      (lt.Holds (.string s) (.string t) ↔ List.Lex (· < ·) (Text.units s) (Text.units t)) ∧
      Text.ofUnits (Text.units s) = s.toList := by
  refine ⟨fun a b => ?_, fun a b => looseEq_of_strictEq,
    fun a b => ⟨apply_lt_eq a b, apply_le_eq a b⟩, not_lt_and_gt, string_trichotomy,
    fun r s t h h' => ?_, fun s t => ⟨?_, Text.ofUnits_units s⟩⟩
  · simp only [apply, a.looseEquals_comm b]
  · rw [lt_string_iff] at h h' ⊢
    exact Text.compareUnits_trans h h'
  · rw [lt_string_iff, Text.compareUnits_eq_lt_iff]

/-- The two zeros are equal in both ways, and a character outside the basic plane comes before
the last character inside it through one between them. -/
theorem zeros_and_astral_coherent :
    looseEq.Holds (.number .zero) (.number (Number.neg .zero)) ∧
    lt.Holds (.string (String.singleton (Char.ofNat 0x1f600))) (.string "\uffff") := by
  obtain ⟨-, hequal, -, -, -, htrans, -⟩ := comparisons_coherent
  exact ⟨hequal _ _ (by decide +kernel),
    htrans _ "\ufffd" _ (by decide +kernel) (by decide +kernel)⟩

end BinaryOp
end DeadBranch
