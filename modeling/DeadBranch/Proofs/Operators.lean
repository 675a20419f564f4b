/-
# The operators of the language

What the operators give on primitive values in the language, apart from the tables that are used
where values are known (`UnaryOp.apply`, `BinaryOp.apply`). A text converts to a number as the
grammar of the language says (`Numeral.number`), equality with conversion compares numbers unless
both operands are texts or one is `null` or `undefined`, and the four comparisons all go back to
one, "less than", which is undecided where an operand converts to the NaN.

The tables convert a text by reading it, and a few texts are read as another number than they
convert to. Where an operator converts none of those, the tables give what the language gives
(`UnaryOp.apply_eq_value`, `BinaryOp.apply_eq_value`). Apart from converting texts both sides
compute with the same numbers, words and units of texts; in particular the language leaves it open
how exactly `**` is rounded, and `Number.pow` stands for it here.

Key definitions: `Value.numeric`, `Value.isMisread`, `UnaryOp.value`, `BinaryOp.value`,
`UnaryOp.isClear`, `BinaryOp.isClear`.
Key theorems: `UnaryOp.apply_eq_value`, `BinaryOp.apply_eq_value`.
-/
import DeadBranch.Proofs.Comparisons
import DeadBranch.Proofs.Conversion

namespace DeadBranch

/-! ### Conversions and comparisons -/

namespace Value

/-- The number that it converts to. -/
def numeric : Value → Number
  | number n => n
  | string s => Numeral.number s
  | bool b => .ofNat b.toNat
  | undefined => .nan
  | null => .zero

/-- Is it a text? -/
def isText : Value → Bool
  | string _ => true
  | _ => false

/-- Is it a text that is read as another number than it converts to? -/
def isMisread (v : Value) : Bool := v.toNumber != v.numeric

/-- Does it come before another value? Nothing comes before or after the NaN. -/
def lessThan? : Value → Value → Option Bool
  | string s, string t => some (Text.compareUnits s t == .lt)
  | v, w => (v.numeric.compare w.numeric).map (· == .lt)

theorem toNumber_eq_numeric {v : Value} (h : v.isMisread = false) : v.toNumber = v.numeric := by
  simpa [isMisread] using h

/-- Only texts are misread, and only those where reading goes astray. -/
theorem isMisread_iff {v : Value} :
    v.isMisread ↔ ∃ s, v = string s ∧ Number.ofText s ≠ Numeral.number s := by
  cases v with
  | string s => simp [isMisread, toNumber, numeric]
  | number _ | bool _ | undefined | null => simp [isMisread, toNumber, numeric]

end Value

/-! ### Operators -/

namespace UnaryOp

/-- What the operator gives on a value. -/
def value : UnaryOp → Value → Option Value
  | plus, v => some (.number v.numeric)
  | minus, v => some (.number v.numeric.neg)
  | complement, v => some (.number (.ofInt (~~~v.numeric.toInt32).toInt))
  | not, v => some (.bool !v.truthy)
  | void, _ => some .undefined
  | typeof, v => some (.string v.typeName)
  | delete, _ => none

/-- Does the operator convert its operand to a number? -/
def wantsNumber : UnaryOp → Bool
  | plus | minus | complement => true
  | _ => false

/-- Does the operator convert no misread text? -/
def isClear (op : UnaryOp) (v : Value) : Bool := !(op.wantsNumber && v.isMisread)

/-- **The table of operators with one operand** gives what the language gives, unless a misread
text is converted. -/
theorem apply_eq_value {op : UnaryOp} {v : Value} (h : op.isClear v) : op.apply v = op.value v := by
  cases hop : op.wantsNumber with
  | false =>
    cases op with
    | plus | minus | complement => cases hop
    | not | void | typeof | delete => rfl
  | true =>
    have hv : v.toNumber = v.numeric :=
      Value.toNumber_eq_numeric (by simpa [isClear, hop] using h)
    cases op <;> simp only [apply, value, Value.toInt32, hv]

end UnaryOp

namespace BinaryOp

/-- What the operators that work on two numbers compute. -/
def onNumbers? : BinaryOp → Option (Number → Number → Number)
  | sub => some .sub
  | mul => some .mul
  | div => some .div
  | rem => some .rem
  | pow => some .pow
  | bitAnd => some fun m n => .ofInt (m.toInt32 &&& n.toInt32).toInt
  | bitOr => some fun m n => .ofInt (m.toInt32 ||| n.toInt32).toInt
  | bitXor => some fun m n => .ofInt (m.toInt32 ^^^ n.toInt32).toInt
  | shiftLeft => some fun m n => .ofInt (m.toInt32 <<< (n.toUInt32 % 32).toInt32).toInt
  | shiftRight => some fun m n => .ofInt (m.toInt32 >>> (n.toUInt32 % 32).toInt32).toInt
  | shiftRightUnsigned => some fun m n => .ofNat (m.toUInt32 >>> (n.toUInt32 % 32)).toNat
  | _ => none

/-- What the operator gives on two values. -/
def value (op : BinaryOp) (v w : Value) : Option Value :=
  match op with
  | add =>
    if v.isText || w.isText then some (.string (v.toText ++ w.toText))
    else some (.number (v.numeric.add w.numeric))
  | looseEq => some (.bool (Value.equalsAs Value.numeric v w))
  | looseNe => some (.bool !(Value.equalsAs Value.numeric v w))
  | strictEq => some (.bool (v.strictEquals w))
  | strictNe => some (.bool !(v.strictEquals w))
  | lt => some (.bool (v.lessThan? w == some true))
  | gt => some (.bool (w.lessThan? v == some true))
  | le => some (.bool (w.lessThan? v == some false))
  | ge => some (.bool (v.lessThan? w == some false))
  | and => some (if v.truthy then w else v)
  | or => some (if v.truthy then v else w)
  | coalesce => some (if v.isNullish then w else v)
  | op => op.onNumbers?.map fun f => .number (f v.numeric w.numeric)

/-- Does the operator convert these operands to numbers? -/
def wantsNumbers (op : BinaryOp) (v w : Value) : Bool :=
  match op with
  | add => !(v.isText || w.isText)
  | looseEq | looseNe => !(v.isNullish || w.isNullish || v.isText && w.isText)
  | lt | le | gt | ge => !(v.isText && w.isText)
  | op => op.onNumbers?.isSome

/-- Does the operator convert no misread text? -/
def isClear (op : BinaryOp) (v w : Value) : Bool :=
  !(op.wantsNumbers v w && (v.isMisread || w.isMisread))

section Agreement

variable {v w : Value}

theorem toNumber_eq_numeric {op : BinaryOp} (h : op.isClear v w) (hop : op.wantsNumbers v w) :
    v.toNumber = v.numeric ∧ w.toNumber = w.numeric := by
  rw [isClear, hop, Bool.true_and, Bool.not_eq_true', Bool.or_eq_false_iff] at h
  exact ⟨Value.toNumber_eq_numeric h.1, Value.toNumber_eq_numeric h.2⟩

/-- As soon as an operand is a text nothing is converted to a number. -/
theorem applyAdd_eq (v w : Value) : applyAdd v w =
    if v.isText || w.isText then .string (v.toText ++ w.toText)
    else .number (v.toNumber.add w.toNumber) := by
  cases v <;> cases w <;> rfl

theorem looseEquals_eq_equalsAs (h : looseEq.isClear v w) :
    v.looseEquals w = Value.equalsAs Value.numeric v w := by
  rw [Value.looseEquals_eq]
  cases hop : looseEq.wantsNumbers v w with
  | true =>
    obtain ⟨hv, hw⟩ := toNumber_eq_numeric h hop
    unfold Value.equalsAs
    rw [hv, hw]
  | false =>
    simp only [wantsNumbers, Bool.not_eq_false', Bool.or_eq_true, Bool.and_eq_true] at hop
    rcases hop with hnullish | ⟨hv, hw⟩
    · have hnullish : (v.isNullish || w.isNullish) = true := by simpa using hnullish
      unfold Value.equalsAs
      rw [if_pos hnullish, if_pos hnullish]
    · cases v <;> cases hv
      cases w <;> cases hw
      rfl

theorem lessThan?_eq (h : lt.isClear v w) : v.lessThan? w = (v.compare w).map (· == .lt) := by
  cases hop : lt.wantsNumbers v w with
  | true =>
    obtain ⟨hv, hw⟩ := toNumber_eq_numeric h hop
    cases v <;> cases w
    case string.string s t => cases hop
    all_goals simp only [Value.lessThan?, Value.compare, hv, hw]
  | false =>
    simp only [wantsNumbers, Bool.not_eq_false', Bool.and_eq_true] at hop
    obtain ⟨hv, hw⟩ := hop
    cases v <;> cases hv
    cases w <;> cases hw
    rfl

theorem isClear_lt_swap (h : lt.isClear v w) : lt.isClear w v := by
  rw [isClear, wantsNumbers] at h ⊢
  rwa [Bool.and_comm w.isText, Bool.or_comm w.isMisread]

/-- The other way round, in terms of the same comparison. -/
theorem lessThan?_swap_eq (h : lt.isClear v w) :
    w.lessThan? v = (v.compare w).map (· == .gt) := by
  rw [lessThan?_eq (isClear_lt_swap h), Value.compare_swap]
  rcases v.compare w with - | (- | - | -) <;> rfl

end Agreement

/-- **The table of operators with two operands** gives what the language gives, unless a misread
text is converted. -/
theorem apply_eq_value {op : BinaryOp} {v w : Value} (h : op.isClear v w) :
    op.apply v w = op.value v w := by
  cases op with
  | add =>
    simp only [apply, value, applyAdd_eq]
    split
    · rfl
    · next htext =>
      obtain ⟨hv, hw⟩ := toNumber_eq_numeric h (by simpa [wantsNumbers] using htext)
      rw [hv, hw]
  | looseEq | looseNe => simp only [apply, value, looseEquals_eq_equalsAs h]
  | lt | ge =>
    simp only [apply, value, lessThan?_eq h]
    rcases v.compare w with - | (- | - | -) <;> rfl
  | gt | le =>
    simp only [apply, value, lessThan?_swap_eq h]
    rcases v.compare w with - | (- | - | -) <;> rfl
  | strictEq | strictNe | and | or | coalesce | hasKey | instanceof => rfl
  | _ =>
    obtain ⟨hv, hw⟩ := toNumber_eq_numeric h rfl
    simp only [apply, value, onNumbers?, Option.map_some, Value.toInt32, Value.toUInt32, hv, hw]

/-- A next-line control keeps `12` from being a numeral, but not from being read as one. -/
example : looseEq.apply (.string "12\u0085") (.number (.ofNat 12)) = some (.bool true) ∧
    looseEq.value (.string "12\u0085") (.number (.ofNat 12)) = some (.bool false) := by
  decide +kernel

end BinaryOp
end DeadBranch
