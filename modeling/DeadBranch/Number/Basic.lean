/-
# Binary64 numbers as exact counts

Every finite binary64 number is a whole multiple of `2 ^ -1074`, the smallest
positive one. So a finite number is kept as a sign and the count of such
units, its `Magnitude`, and arithmetic on it is arithmetic on `Nat` followed
by one rounding, `snap`, to the nearest magnitude, where a tie goes to the even
neighbour. Nothing here touches the machine's floating point.

Not covered: the payload of a NaN. There is one NaN.

Key definitions: `Magnitude`, `Number`, `nearest`, `snap`, `Number.ofUnits`.
Key theorems: `nearest_le`, `snap_onGrid`.
-/

namespace DeadBranch

/-- Two to a power. -/
def twoTo (k : Nat) : Nat := Nat.pow 2 k

/-- Ten to a power. -/
def tenTo (k : Nat) : Nat := Nat.pow 10 k

/-- `num / den` rounded to a whole number; a half goes to the even
neighbour. -/
def nearest (num den : Nat) : Nat :=
  let quotient := num / den
  let twice := 2 * (num % den)
  if twice < den then quotient
  else if den < twice then quotient + 1
  else quotient + quotient % 2

/-- How many low bits of a count of size `n` are lost to a 53-bit
significand. -/
def slack (n : Nat) : Nat := n.log2 - 52

/-- `num / den` rounded to a count that 53 significant bits can hold. -/
def snap (num den : Nat) : Nat :=
  let s := slack (num / den)
  nearest num (den * twoTo s) * twoTo s

/-- The first count past the largest finite magnitude. -/
def Magnitude.limit : Nat := twoTo 2098

/-- The size of a finite binary64 number, counted in units of `2 ^ -1074`. -/
structure Magnitude where
  /-- The count itself. -/
  units : Nat
  /-- It is below the range that rounds to infinity. -/
  bounded : units < Magnitude.limit
  /-- It has at most 53 significant bits. -/
  onGrid : twoTo (slack units) ∣ units
deriving DecidableEq

/-- A binary64 number. Both zeros are present; all NaNs are one. -/
inductive Number where
  | nan
  | infinity (negative : Bool)
  | finite (negative : Bool) (size : Magnitude)
deriving DecidableEq

theorem nearest_le (num den : Nat) : nearest num den ≤ num / den + 1 := by
  unfold nearest
  dsimp only
  split
  · omega
  · split <;> omega

theorem twoTo_pos (k : Nat) : 0 < twoTo k := Nat.two_pow_pos k

theorem twoTo_add (j k : Nat) : twoTo (j + k) = twoTo j * twoTo k := Nat.pow_add 2 j k

theorem twoTo_dvd {j k : Nat} (h : j ≤ k) : twoTo j ∣ twoTo k := Nat.pow_dvd_pow 2 h

theorem lt_twoTo_slack (n : Nat) : n < twoTo (slack n + 53) := by
  have h : n.log2 + 1 ≤ slack n + 53 := by unfold slack; omega
  exact Nat.lt_of_lt_of_le Nat.lt_log2_self (Nat.pow_le_pow_right (by decide) h)

/-- A count of at most 53 bits, shifted, is on the grid. -/
theorem shifted_onGrid (m s : Nat) (h : m ≤ twoTo 53) :
    twoTo (slack (m * twoTo s)) ∣ m * twoTo s := by
  rcases Nat.lt_or_ge m (twoTo 53) with hm | hm
  · have hs : slack (m * twoTo s) ≤ s := by
      by_cases h0 : m * twoTo s = 0
      · simp [slack, h0]
      · have hlt : m * twoTo s < twoTo (53 + s) := by
          rw [twoTo_add]
          exact Nat.mul_lt_mul_of_pos_right hm (twoTo_pos s)
        have := (Nat.log2_lt h0).mpr hlt
        unfold slack
        omega
    exact Nat.dvd_trans (twoTo_dvd hs) (Nat.dvd_mul_left ..)
  · have he : m = twoTo 53 := Nat.le_antisymm h hm
    rw [he, ← twoTo_add]
    have hl : (twoTo (53 + s)).log2 = 53 + s := Nat.log2_two_pow
    refine twoTo_dvd ?_
    unfold slack
    omega

/-- **Rounding lands on a magnitude.** What `snap` gives has at most 53
significant bits. -/
theorem snap_onGrid (num den : Nat) : twoTo (slack (snap num den)) ∣ snap num den := by
  unfold snap
  refine shifted_onGrid _ _ (Nat.le_trans (nearest_le ..) ?_)
  rw [← Nat.div_div_eq_div_mul]
  have h := lt_twoTo_slack (num / den)
  rw [twoTo_add, Nat.mul_comm] at h
  exact (Nat.div_lt_iff_lt_mul (twoTo_pos _)).mpr h

namespace Number

/-- The number nearest to `num / den` units, with the given sign; too large a
size is an infinity. -/
def ofUnits (negative : Bool) (num den : Nat) : Number :=
  if h : snap num den < Magnitude.limit then
    finite negative ⟨snap num den, h, snap_onGrid num den⟩
  else infinity negative

/-- The units in one. -/
def one : Nat := twoTo 1074

/-- The number nearest to a whole number. -/
def ofNat (n : Nat) : Number := ofUnits false (n * one) 1

/-- The number nearest to a whole number; zero is the positive zero. -/
def ofInt (n : Int) : Number := ofUnits (n < 0) (n.natAbs * one) 1

/-- Positive zero. -/
def zero : Number := ofNat 0

instance : Inhabited Number := ⟨zero⟩

/-- Is it the NaN? -/
def isNaN : Number → Bool
  | nan => true
  | _ => false

/-- Is it an infinity? -/
def isInfinite : Number → Bool
  | infinity _ => true
  | _ => false

/-- Is it one of the zeros? -/
def isZero : Number → Bool
  | finite _ size => size.units == 0
  | _ => false

/-- The number with the other sign. -/
def neg : Number → Number
  | nan => nan
  | infinity negative => infinity !negative
  | finite negative size => finite (!negative) size

/-- A size with a sign, as a count of units on either side of zero. -/
def signed (negative : Bool) (size : Magnitude) : Int :=
  if negative then -size.units else size.units

end Number
end DeadBranch
