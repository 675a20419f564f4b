/-
# Decimals and binary64 numbers

A `Decimal` is `digits * 10 ^ exponent`. Reading one rounds it once to the
nearest number. Writing a number takes the fewest digits that read back as the
number, and among decimals of that many digits the one nearest to it.

The search for the shortest decimal looks, for 1, 2, … 17 digits, at the two
neighbours of the number on the grid of decimals with that many digits: if any
decimal on the grid reads back, so does one of these two.

Key definitions: `Decimal`, `Decimal.toNumber`, `Number.shortest`.
-/
import DeadBranch.Number.Arith

namespace DeadBranch

/-- The decimal `digits * 10 ^ exponent`. -/
structure Decimal where
  digits : Nat
  exponent : Int
deriving DecidableEq, Repr, Inhabited

/-- How many decimal digits a natural number is written with; zero has one. -/
def decimalLength (n : Nat) : Nat := (Nat.toDigits 10 n).length

namespace Decimal

/-- The number nearest to a decimal.

Exponents far outside the range of binary64 are decided from the number of
digits alone, which bounds the powers of ten that are formed. -/
def toNumber (negative : Bool) (d : Decimal) : Number :=
  let reach := (decimalLength d.digits : Int) + d.exponent
  if d.digits = 0 ∨ reach < -330 then Number.ofUnits negative 0 1
  else if 310 < reach then .infinity negative
  else if 0 ≤ d.exponent then
    Number.ofUnits negative (d.digits * tenTo d.exponent.toNat * Number.one) 1
  else Number.ofUnits negative (d.digits * Number.one) (tenTo d.exponent.natAbs)

/-- The same decimal without zeros at the end of its digits. -/
def trim (d : Decimal) : Decimal :=
  let rec go : Nat → Nat → Int → Decimal
    | 0, n, e => ⟨n, e⟩
    | fuel + 1, n, e => if n % 10 = 0 ∧ n ≠ 0 then go fuel (n / 10) (e + 1) else ⟨n, e⟩
  go (decimalLength d.digits) d.digits d.exponent

end Decimal

namespace Magnitude

/-- The least `p` with the number below `10 ^ p`. -/
def decimalPlace (size : Magnitude) : Int :=
  if Number.one ≤ size.units then decimalLength (size.units / Number.one)
  else 1 - decimalLength (Number.one / size.units)

/-- The number on the grid of multiples of `10 ^ exponent`, as the quotient of
two counts. -/
def scaled (size : Magnitude) (exponent : Int) : Nat × Nat :=
  if 0 ≤ exponent then (size.units, Number.one * tenTo exponent.toNat)
  else (size.units * tenTo exponent.natAbs, Number.one)

/-- The decimal with `count` digits nearest to the number among those that
read back as it, if one does; of two equally near ones the larger. -/
def decimalOf? (size : Magnitude) (count : Nat) : Option Decimal :=
  let exponent := size.decimalPlace - count
  let (num, den) := size.scaled exponent
  let below : Decimal := ⟨num / den, exponent⟩
  let above : Decimal := ⟨num / den + 1, exponent⟩
  let readsBack (d : Decimal) := d.toNumber false = .finite false size
  if readsBack below ∧ (2 * (num % den) < den ∨ ¬ readsBack above) then some below
  else if readsBack above then some above
  else none

/-- The fewest digits that read back as the number; seventeen always do. -/
def shortest (size : Magnitude) : Decimal :=
  ((List.range 17).findSome? fun k => size.decimalOf? (k + 1)).getD ⟨0, 0⟩ |>.trim

end Magnitude
end DeadBranch
