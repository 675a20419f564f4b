/-
# Operators on primitive values

Applying an operator to values that are known. The outcome is unknown only for
the operators whose result depends on more than the values of their operands:
`delete`, `in` and `instanceof`.

Key definitions: `UnaryOp`, `BinaryOp`, `UnaryOp.apply`, `BinaryOp.apply`.
-/
import DeadBranch.Value.Basic

namespace DeadBranch

/-- The operators with one operand that yield a value. -/
inductive UnaryOp where
  | plus | minus | complement | not | void | typeof | delete
deriving DecidableEq, Repr

/-- The operators with two operands. -/
inductive BinaryOp where
  | add | sub | mul | div | rem | pow
  | bitAnd | bitOr | bitXor | shiftLeft | shiftRight | shiftRightUnsigned
  | looseEq | looseNe | strictEq | strictNe
  | lt | le | gt | ge
  | and | or | coalesce
  | hasKey | instanceof
deriving DecidableEq, Repr

namespace UnaryOp

/-- How the operator is written. -/
def text : UnaryOp → String
  | plus => "+" | minus => "-" | complement => "~" | not => "!"
  | void => "void" | typeof => "typeof" | delete => "delete"

/-- All of them. -/
def all : List UnaryOp := [plus, minus, complement, not, void, typeof, delete]

/-- The operator that is written so. -/
def ofText? (s : String) : Option UnaryOp := all.find? (·.text = s)

/-- The value of the operator on a value. -/
def apply : UnaryOp → Value → Option Value
  | plus, v => some (.number v.toNumber)
  | minus, v => some (.number v.toNumber.neg)
  | complement, v => some (.number (.ofInt (~~~v.toInt32).toInt))
  | not, v => some (.bool !v.truthy)
  | void, _ => some .undefined
  | typeof, v => some (.string v.typeName)
  | delete, _ => none

end UnaryOp

namespace BinaryOp

/-- How the operator is written. -/
def text : BinaryOp → String
  | add => "+" | sub => "-" | mul => "*" | div => "/" | rem => "%" | pow => "**"
  | bitAnd => "&" | bitOr => "|" | bitXor => "^"
  | shiftLeft => "<<" | shiftRight => ">>" | shiftRightUnsigned => ">>>"
  | looseEq => "==" | looseNe => "!=" | strictEq => "===" | strictNe => "!=="
  | lt => "<" | le => "<=" | gt => ">" | ge => ">="
  | and => "&&" | or => "||" | coalesce => "??"
  | hasKey => "in" | instanceof => "instanceof"

/-- All of them. -/
def all : List BinaryOp := [
  add, sub, mul, div, rem, pow, bitAnd, bitOr, bitXor, shiftLeft, shiftRight, shiftRightUnsigned,
  looseEq, looseNe, strictEq, strictNe, lt, le, gt, ge, and, or, coalesce, hasKey, instanceof]

/-- The operator that is written so. -/
def ofText? (s : String) : Option BinaryOp := all.find? (·.text = s)

/-- `+` joins texts as soon as one operand is a text. -/
def applyAdd : Value → Value → Value
  | .string s, v => .string (s ++ v.toText)
  | v, .string s => .string (v.toText ++ s)
  | v, w => .number (v.toNumber.add w.toNumber)

/-- The value of the operator on two values. -/
def apply (op : BinaryOp) (v w : Value) : Option Value :=
  let number (f : Number → Number → Number) := some (Value.number (f v.toNumber w.toNumber))
  let words (f : Int32 → Int32 → Int32) :=
    some (Value.number (.ofInt (f v.toInt32 w.toInt32).toInt))
  let count := w.toUInt32 % 32
  let relation (accept : Ordering → Bool) :=
    some (Value.bool (((v.compare w).map accept).getD false))
  match op with
  | add => some (applyAdd v w)
  | sub => number .sub
  | mul => number .mul
  | div => number .div
  | rem => number .rem
  | pow => number .pow
  | bitAnd => words (· &&& ·)
  | bitOr => words (· ||| ·)
  | bitXor => words (· ^^^ ·)
  | shiftLeft => some (.number (.ofInt (v.toInt32 <<< count.toInt32).toInt))
  | shiftRight => some (.number (.ofInt (v.toInt32 >>> count.toInt32).toInt))
  | shiftRightUnsigned => some (.number (.ofNat (v.toUInt32 >>> count).toNat))
  | looseEq => some (.bool (v.looseEquals w))
  | looseNe => some (.bool !(v.looseEquals w))
  | strictEq => some (.bool (v.strictEquals w))
  | strictNe => some (.bool !(v.strictEquals w))
  | lt => relation (· == .lt)
  | le => relation (· != .gt)
  | gt => relation (· == .gt)
  | ge => relation (· != .lt)
  | and => some (if v.truthy then w else v)
  | or => some (if v.truthy then v else w)
  | coalesce => some (if v.isNullish then w else v)
  | hasKey | instanceof => none

end BinaryOp
end DeadBranch
