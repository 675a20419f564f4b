/-
# Primitive values

The values that are known before the program runs, with the conversions and
comparisons that JavaScript defines on them. A value that is not known is not
one of them: where the outcome may be unknown the type is `Option Value`.

Key definitions: `Value`, `Value.truthy`, `Value.toNumber`, `Value.toText`,
`Value.strictEquals`, `Value.looseEquals`, `Value.compare`.
-/
import DeadBranch.Number.Text
import DeadBranch.Text.Quoted
import DeadBranch.Text.Units

namespace DeadBranch

/-- A primitive value. -/
inductive Value where
  | number (n : Number)
  | string (s : String)
  | bool (b : Bool)
  | undefined
  | null
deriving DecidableEq, Inhabited

namespace Value

/-- Does it count as true in a test? -/
def truthy : Value → Bool
  | number n => !(n.isNaN || n.isZero)
  | string s => !s.isEmpty
  | bool b => b
  | undefined | null => false

/-- Is it `undefined` or `null`? -/
def isNullish : Value → Bool
  | undefined | null => true
  | _ => false

/-- Is it `true` or `false`? -/
def isBool : Value → Bool
  | bool _ => true
  | _ => false

/-- The name of its type, as `typeof` gives it. -/
def typeName : Value → String
  | number _ => "number"
  | string _ => "string"
  | bool _ => "boolean"
  | undefined => "undefined"
  | null => "object"

/-- Its conversion to a number. -/
def toNumber : Value → Number
  | number n => n
  | string s => Number.ofText s
  | bool b => Number.ofNat b.toNat
  | undefined => .nan
  | null => .zero

/-- Its conversion to a text. -/
def toText : Value → String
  | number n => n.toText
  | string s => s
  | bool b => if b then "true" else "false"
  | undefined => "undefined"
  | null => "null"

/-- Its conversion to a signed 32-bit word. -/
def toInt32 (v : Value) : Int32 := v.toNumber.toInt32

/-- Its conversion to an unsigned 32-bit word. -/
def toUInt32 (v : Value) : UInt32 := v.toNumber.toUInt32

/-- Equality without conversion: values of different types differ. -/
def strictEquals : Value → Value → Bool
  | number a, number b => a.equals b
  | string a, string b => a == b
  | bool a, bool b => a == b
  | undefined, undefined => true
  | null, null => true
  | _, _ => false

/-- Equality with conversion: `undefined` and `null` equal each other, a text is
compared with a number as a number, a boolean counts as its number, and all else
differs. -/
def looseEquals : Value → Value → Bool
  | undefined, undefined | undefined, null | null, undefined | null, null => true
  | v@(number _), w@(number _) | v@(string _), w@(string _) | v@(bool _), w@(bool _) =>
    v.strictEquals w
  | number n, string s | string s, number n => n.equals (Number.ofText s)
  | v@(bool _), w => looseEquals (number v.toNumber) w
  | v, w@(bool _) => looseEquals v (number w.toNumber)
  | _, _ => false
termination_by v w => v.isBool.toNat + w.isBool.toNat
decreasing_by all_goals simp [isBool]

/-- Order: two texts by their units, all else as numbers; nothing compares
with what converts to a NaN. -/
def compare : Value → Value → Option Ordering
  | string a, string b => some (Text.compareUnits a b)
  | a, b => a.toNumber.compare b.toNumber

/-- The value as a message shows it: texts in quotes. -/
def display : Value → String
  | string s => Text.quote s
  | v => v.toText

end Value
end DeadBranch
