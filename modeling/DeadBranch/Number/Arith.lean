/-
# Arithmetic on binary64 numbers

Each operation is exact on counts of units and rounds once, so the result is
the number nearest to the true one. Signs of zero follow the usual rules: a
sum of opposite numbers is `+0`, a product or a quotient takes the sign of its
operands together, a remainder the sign of the dividend.

The power is the exception: it has no short exact definition, so it is the
power function of the machine, with the two cases in which JavaScript asks
for a NaN taken out in front.

Key definitions: `Number.add`, `Number.mul`, `Number.div`, `Number.rem`,
`Number.remEuclid`, `Number.pow`, `Number.compare`, `Number.toUInt32`,
`Number.toBits`.
-/
import DeadBranch.Number.Basic

namespace DeadBranch
namespace Number

/-- Sum. Of two zeros only two negative ones give a negative zero. -/
def add : Number → Number → Number
  | nan, _ => nan
  | _, nan => nan
  | infinity a, infinity b => if a = b then infinity a else nan
  | infinity a, _ => infinity a
  | _, infinity b => infinity b
  | finite a x, finite b y =>
    let sum := signed a x + signed b y
    if sum = 0 then ofUnits (a && b) 0 1 else ofUnits (sum < 0) sum.natAbs 1

/-- Difference. -/
def sub (x y : Number) : Number := add x y.neg

/-- Product. -/
def mul : Number → Number → Number
  | nan, _ => nan
  | _, nan => nan
  | infinity a, infinity b => infinity (a ^^ b)
  | infinity a, finite b y => if y.units = 0 then nan else infinity (a ^^ b)
  | finite a x, infinity b => if x.units = 0 then nan else infinity (a ^^ b)
  | finite a x, finite b y => ofUnits (a ^^ b) (x.units * y.units) one

/-- Quotient. -/
def div : Number → Number → Number
  | nan, _ => nan
  | _, nan => nan
  | infinity _, infinity _ => nan
  | infinity a, finite b _ => infinity (a ^^ b)
  | finite a _, infinity b => ofUnits (a ^^ b) 0 1
  | finite a x, finite b y =>
    if y.units = 0 then (if x.units = 0 then nan else infinity (a ^^ b))
    else ofUnits (a ^^ b) (x.units * one) y.units

/-- Remainder of the division that goes toward zero; it has the sign of the
dividend. -/
def rem : Number → Number → Number
  | nan, _ => nan
  | _, nan => nan
  | infinity _, _ => nan
  | finite a x, infinity _ => finite a x
  | finite a x, finite _ y => if y.units = 0 then nan else ofUnits a (x.units % y.units) 1

/-- Numerical order; nothing compares with a NaN, and the zeros are equal. -/
def compare : Number → Number → Option Ordering
  | nan, _ => none
  | _, nan => none
  | infinity a, infinity b => some (Ord.compare b a)
  | infinity a, _ => some (if a then .lt else .gt)
  | _, infinity b => some (if b then .gt else .lt)
  | finite a x, finite b y =>
    some (Ord.compare (signed a x) (signed b y))

/-- Numerical equality: a NaN equals nothing, and the zeros are equal. -/
def equals (x y : Number) : Bool := x.compare y == some .eq

/-- The number without what is behind its point. -/
def trunc : Number → Number
  | finite negative size => ofUnits negative (size.units / one * one) 1
  | x => x

/-- The number without its sign. -/
def abs : Number → Number
  | nan => nan
  | infinity _ => infinity false
  | finite _ size => finite false size

/-- The remainder that is not negative: to a negative one the size of the
divisor is added. -/
def remEuclid (x y : Number) : Number :=
  let remainder := x.rem y
  if remainder.compare zero = some .lt then remainder.add y.abs else remainder

/-- The word next to a number on the side of zero. What is beyond the words
becomes the nearer end of them, and a NaN zero. -/
def saturate : Number → UInt32
  | nan => 0
  | infinity negative => if negative then 0 else 0xffffffff
  | finite negative size =>
    if negative then 0 else UInt32.ofNat (min (size.units / one) 0xffffffff)

/-- The whole part modulo `2 ^ 32`; zero where there is no whole part. -/
def toUInt32 (x : Number) : UInt32 :=
  if x.isNaN || x.isInfinite then 0
  else (x.trunc.remEuclid (ofNat 0x100000000)).saturate

/-- The whole part modulo `2 ^ 32`, read as a signed word. -/
def toInt32 (x : Number) : Int32 := x.toUInt32.toInt32

/-- The sign bit, the exponent field and the fraction field, packed. -/
def toBits : Number → UInt64
  | nan => 0x7ff8000000000000
  | infinity negative => pack negative 2047 0
  | finite negative size =>
    let s := slack size.units
    if size.units < twoTo 52 then pack negative 0 size.units
    else pack negative (s + 1) (size.units / twoTo s - twoTo 52)
where
  pack (negative : Bool) (exponent fraction : Nat) : UInt64 :=
    UInt64.ofNat ((if negative then twoTo 63 else 0) + exponent * twoTo 52 + fraction)

/-- The number whose packed fields these are. -/
def ofBits (bits : UInt64) : Number :=
  let negative := bits.toNat / twoTo 63 == 1
  let exponent := bits.toNat / twoTo 52 % 2048
  let fraction := bits.toNat % twoTo 52
  if exponent = 2047 then (if fraction = 0 then infinity negative else nan)
  else if exponent = 0 then ofUnits negative fraction 1
  else ofUnits negative ((twoTo 52 + fraction) * twoTo (exponent - 1)) 1

/-- Power. A NaN exponent gives a NaN whatever the base, and so does an
infinite exponent over a base of size one. -/
def pow (base exponent : Number) : Number :=
  if exponent.isNaN || (exponent.isInfinite && (base.equals (ofInt 1) || base.equals (ofInt (-1))))
  then nan
  else ofBits (Float.pow (Float.ofBits base.toBits) (Float.ofBits exponent.toBits)).toBits

end Number
end DeadBranch
