/-
# What rounding to 53 bits gives

`snap` rounds a quotient of counts to a count that 53 significant bits can hold. `RoundsTo`
says on the rational numbers which count that is: the nearest one, and of two equally near
ones the one whose significand is even. Nothing of how `snap` computes enters it, and it has
exactly one solution, so `snap` depends on the quotient alone, keeps the order, and gives a
count back that is nearer than any other.

Two different counts of 53 bits are never very near: they differ by at least one part in
`2 ^ 53` of either.

Key definitions: `OnGrid`, `RoundsTo`, `Number.ofRat`.
Key theorems: `roundsTo_snap`, `RoundsTo.unique`, `RoundsTo.mono`, `RoundsTo.between`,
`le_mul_abs_sub_of_onGrid`.
-/
import DeadBranch.Number.Basic
import Mathlib.Algebra.Order.Field.Rat
import Mathlib.Tactic.FieldSimp
import Mathlib.Tactic.Linarith
import Mathlib.Tactic.Positivity
import Mathlib.Tactic.Ring

namespace DeadBranch

/-- Has it at most 53 significant bits? -/
def OnGrid (n : Nat) : Prop := twoTo (slack n) ∣ n

/-- Rounding to 53 significant bits: the nearest count, and of two equally near ones the
one with an even significand. -/
structure RoundsTo (x : ℚ) (m : Nat) : Prop where
  onGrid : OnGrid m
  nearest : ∀ n, OnGrid n → |x - m| ≤ |x - n|
  even : ∀ n, OnGrid n → n ≠ m → |x - n| = |x - m| → 2 * twoTo (slack m) ∣ m

/-! ### The bits that are lost -/

theorem cast_twoTo (k : Nat) : (twoTo k : ℚ) = 2 ^ k := Nat.cast_pow 2 k

theorem twoTo_le_twoTo {j k : Nat} (h : j ≤ k) : twoTo j ≤ twoTo k :=
  Nat.pow_le_pow_right (by decide) h

theorem twoTo_lt_twoTo {j k : Nat} (h : j < k) : twoTo j < twoTo k :=
  Nat.pow_lt_pow_right (by decide) h

theorem slack_le_iff {n s : Nat} : slack n ≤ s ↔ n < twoTo (s + 53) := by
  by_cases hn : n = 0
  · simp [hn, slack, twoTo_pos]
  · have h : n.log2 < s + 53 ↔ n < twoTo (s + 53) := Nat.log2_lt hn
    rw [← h, slack]
    omega

theorem slack_le_slack {m n : Nat} (h : m ≤ n) : slack m ≤ slack n :=
  slack_le_iff.mpr (Nat.lt_of_le_of_lt h (lt_twoTo_slack n))

theorem lt_slack_iff {n s : Nat} : s < slack n ↔ twoTo (s + 53) ≤ n := by
  rw [← Nat.not_le, slack_le_iff, Nat.not_lt]

theorem onGrid_of_lt {n : Nat} (h : n < twoTo 53) : OnGrid n := by
  have hslack : slack n = 0 := Nat.le_zero.mp (slack_le_iff.mpr h)
  rw [OnGrid, hslack]
  exact Nat.one_dvd n

/-- A count on the grid is a multiple of each smaller power of two that is lost. -/
theorem OnGrid.dvd {n s : Nat} (h : OnGrid n) (hs : s ≤ slack n) : twoTo s ∣ n :=
  Nat.dvd_trans (twoTo_dvd hs) h

/-- The next multiple after a count on the grid is on the grid. -/
theorem OnGrid.add {n : Nat} (h : OnGrid n) : OnGrid (n + twoTo (slack n)) := by
  obtain ⟨k, hk⟩ := h
  have hlt : k < twoTo 53 := by
    have hn := lt_twoTo_slack n
    rw [twoTo_add] at hn
    exact Nat.lt_of_mul_lt_mul_left (hk.symm.trans_lt hn)
  have hadd : n + twoTo (slack n) = (k + 1) * twoTo (slack n) := by
    rw [Nat.succ_mul, Nat.mul_comm k, ← hk]
  rw [hadd]
  exact shifted_onGrid (k + 1) (slack n) hlt

/-! ### Rounding to whole numbers -/

section Nearest

variable {num den : Nat}

theorem nearest_spec (num : Nat) (hden : 0 < den) :
    2 * num ≤ 2 * (nearest num den * den) + den ∧ 2 * (nearest num den * den) ≤ 2 * num + den ∧
      (nearest num den % 2 = 1 → 2 * num < 2 * (nearest num den * den) + den ∧
        2 * (nearest num den * den) < 2 * num + den) := by
  have hdiv : num / den * den + num % den = num := Nat.div_add_mod' num den
  have hmod : num % den < den := Nat.mod_lt num hden
  have hsucc : (num / den + 1) * den = num / den * den + den := Nat.succ_mul _ _
  unfold nearest
  dsimp only
  split
  · omega
  · split
    · omega
    · rcases Nat.mod_two_eq_zero_or_one (num / den) with h | h
      · rw [h, Nat.add_zero]
        omega
      · rw [h]
        omega

theorem abs_sub_nearest_le (num : Nat) (hden : 0 < den) :
    |(num / den : ℚ) - nearest num den| ≤ 1 / 2 := by
  obtain ⟨hle, hge, -⟩ := nearest_spec num hden
  have hden' : (0 : ℚ) < den := Nat.cast_pos.mpr hden
  have hle' : (2 * num : ℚ) ≤ 2 * (nearest num den * den) + den := by exact_mod_cast hle
  have hge' : (2 * (nearest num den * den) : ℚ) ≤ 2 * num + den := by exact_mod_cast hge
  have hnum : (num : ℚ) = num / den * den := by field_simp
  rw [abs_le]
  constructor <;> nlinarith

/-- Only an even number is half a unit away. -/
theorem even_nearest (hden : 0 < den) (h : |(num / den : ℚ) - nearest num den| = 1 / 2) :
    nearest num den % 2 = 0 := by
  obtain ⟨-, -, hodd⟩ := nearest_spec num hden
  by_contra hne
  obtain ⟨hle, hge⟩ := hodd (by omega)
  have hden' : (0 : ℚ) < den := Nat.cast_pos.mpr hden
  have hle' : (2 * num : ℚ) < 2 * (nearest num den * den) + den := by exact_mod_cast hle
  have hge' : (2 * (nearest num den * den) : ℚ) < 2 * num + den := by exact_mod_cast hge
  have hnum : (num : ℚ) = num / den * den := by field_simp
  have hlt : |(num / den : ℚ) - nearest num den| < 1 / 2 := by
    rw [abs_lt]
    constructor <;> nlinarith
  linarith

end Nearest

/-- Different whole numbers are a unit apart. -/
theorem half_le_abs_sub {x : ℚ} {r k : Nat} (h : |x - r| ≤ 1 / 2) (hne : k ≠ r) :
    1 / 2 ≤ |x - k| := by
  have hone : (1 : ℚ) ≤ |(k : ℚ) - r| := by
    have hint : (1 : Int) ≤ |(k : Int) - r| := Int.one_le_abs (by omega)
    exact_mod_cast hint
  have htriangle : |(k : ℚ) - r| ≤ |x - r| + |x - k| := by
    have := abs_sub_le (k : ℚ) x r
    rw [abs_sub_comm (k : ℚ) x] at this
    linarith
  linarith

/-! ### Rounding to counts of 53 bits -/

section Snap

variable {num den : Nat}

/-- On the grid of the multiples of the power of two that is lost, rounding is rounding to
a whole number. -/
theorem abs_sub_snap (hden : 0 < den) (k : Nat) :
    let lost := twoTo (slack (num / den))
    |(num / den : ℚ) - (k * lost : Nat)| = |(num / (den * lost : Nat) : ℚ) - k| * lost := by
  intro lost
  have hden' : (den : ℚ) ≠ 0 := (Nat.cast_pos.mpr hden).ne'
  have hlost : (0 : ℚ) < lost := Nat.cast_pos.mpr (twoTo_pos _)
  have hscale : (num / den : ℚ) - (k * lost : Nat) = (num / (den * lost : Nat) - k) * lost := by
    push_cast
    field_simp
  rw [hscale, abs_mul, abs_of_pos hlost]

/-- A count on the grid that is no multiple of the power that is lost lies below all counts
from which that power is lost. -/
theorem exists_mul_of_onGrid (num : Nat) (hden : 0 < den) {n : Nat} (hn : OnGrid n) :
    let lost := twoTo (slack (num / den))
    (∃ k, n = k * lost) ∨ n < twoTo 52 * lost ∧ (twoTo 52 * lost : Nat) ≤ (num / den : ℚ) := by
  intro lost
  by_cases hs : slack (num / den) ≤ slack n
  · obtain ⟨k, hk⟩ := hn.dvd hs
    exact .inl ⟨k, hk.trans (Nat.mul_comm _ _)⟩
  · right
    obtain ⟨s, hs'⟩ : ∃ s, slack (num / den) = s + 1 := ⟨slack (num / den) - 1, by omega⟩
    have hpower : twoTo 52 * lost = twoTo (s + 53) := by
      rw [← twoTo_add, hs']
      congr 1
      omega
    refine ⟨?_, ?_⟩
    · rw [hpower]
      exact slack_le_iff.mp (by omega)
    · rw [hpower, le_div_iff₀ (Nat.cast_pos.mpr hden), ← Nat.cast_mul, Nat.cast_le]
      exact (Nat.le_div_iff_mul_le hden).mp (lt_slack_iff.mp (by omega))

theorem snap_eq_mul (num den : Nat) : snap num den =
    nearest num (den * twoTo (slack (num / den))) * twoTo (slack (num / den)) := rfl

/-- What `snap` gives is the nearest multiple of the power that is lost. -/
theorem abs_sub_snap_le_mul (num : Nat) (hden : 0 < den) (k : Nat) :
    |(num / den : ℚ) - snap num den| ≤
      |(num / den : ℚ) - (k * twoTo (slack (num / den)) : Nat)| := by
  have hpos : 0 < den * twoTo (slack (num / den)) := Nat.mul_pos hden (twoTo_pos _)
  have hnear := abs_sub_nearest_le num hpos
  rw [snap_eq_mul, abs_sub_snap hden, abs_sub_snap hden]
  refine mul_le_mul_of_nonneg_right ?_ (Nat.cast_nonneg _)
  by_cases hk : k = nearest num (den * twoTo (slack (num / den)))
  · rw [hk]
  · exact hnear.trans (half_le_abs_sub hnear hk)

/-- Counts below the binade are farther away. -/
theorem abs_sub_snap_lt (hden : 0 < den) {n : Nat}
    (hn : n < twoTo 52 * twoTo (slack (num / den)))
    (hle : (twoTo 52 * twoTo (slack (num / den)) : Nat) ≤ (num / den : ℚ)) :
    |(num / den : ℚ) - snap num den| < |(num / den : ℚ) - n| := by
  have hbinade := abs_sub_snap_le_mul num hden (twoTo 52)
  have hn' : (n : ℚ) < (twoTo 52 * twoTo (slack (num / den)) : Nat) := Nat.cast_lt.mpr hn
  rw [abs_of_nonneg (sub_nonneg.mpr hle)] at hbinade
  rw [abs_of_pos (by linarith : (0 : ℚ) < num / den - n)]
  linarith

theorem even_snap (hden : 0 < den) {k : Nat}
    (hne : k * twoTo (slack (num / den)) ≠ snap num den)
    (htie : |(num / den : ℚ) - (k * twoTo (slack (num / den)) : Nat)| =
      |(num / den : ℚ) - snap num den|) :
    2 * twoTo (slack (num / den)) ∣ snap num den := by
  have hpos : 0 < den * twoTo (slack (num / den)) := Nat.mul_pos hden (twoTo_pos _)
  have hnear := abs_sub_nearest_le num hpos
  have hlost : (twoTo (slack (num / den)) : ℚ) ≠ 0 := (Nat.cast_pos.mpr (twoTo_pos _)).ne'
  rw [snap_eq_mul] at hne htie ⊢
  rw [abs_sub_snap hden, abs_sub_snap hden] at htie
  have htie' := mul_right_cancel₀ hlost htie
  have hk : k ≠ nearest num (den * twoTo (slack (num / den))) := fun h => hne (by rw [h])
  have hhalf := half_le_abs_sub hnear hk
  have heven := even_nearest hpos (hnear.antisymm (htie' ▸ hhalf))
  exact Nat.mul_dvd_mul (Nat.dvd_of_mod_eq_zero heven) (Nat.dvd_refl _)

/-- Rounding reaches the next binade at most. -/
theorem snap_le_twoTo (num den : Nat) : snap num den ≤ twoTo (slack (num / den) + 53) := by
  rw [snap_eq_mul, Nat.add_comm, twoTo_add]
  refine Nat.mul_le_mul_right _ (Nat.le_trans (nearest_le ..) ?_)
  rw [← Nat.div_div_eq_div_mul]
  have hlt := lt_twoTo_slack (num / den)
  rw [twoTo_add, Nat.mul_comm] at hlt
  exact (Nat.div_lt_iff_lt_mul (twoTo_pos _)).mpr hlt

/-- A multiple of the power that is lost has an even significand also where rounding has
reached the next binade. -/
theorem two_mul_slack_snap_dvd (h : 2 * twoTo (slack (num / den)) ∣ snap num den) :
    2 * twoTo (slack (snap num den)) ∣ snap num den := by
  by_cases hs : slack (snap num den) ≤ slack (num / den)
  · exact Nat.dvd_trans (Nat.mul_dvd_mul_left 2 (twoTo_dvd hs)) h
  · have hlower := lt_slack_iff.mp (Nat.lt_of_not_le hs)
    have hsnap : snap num den = twoTo (slack (num / den) + 53) :=
      Nat.le_antisymm (snap_le_twoTo num den) hlower
    have hslack : slack (snap num den) ≤ slack (num / den) + 1 := by
      rw [slack_le_iff, hsnap]
      exact twoTo_lt_twoTo (by omega)
    have hdouble : 2 * twoTo (slack (snap num den)) = twoTo (slack (snap num den) + 1) :=
      (Nat.pow_succ').symm
    rw [hdouble]
    refine Nat.dvd_trans (twoTo_dvd ?_) hsnap.symm.dvd
    omega

/-- **`snap` rounds.** It gives the nearest count of 53 bits, and of two equally near ones
the one with an even significand. -/
theorem roundsTo_snap (num : Nat) (hden : 0 < den) : RoundsTo (num / den) (snap num den) where
  onGrid := snap_onGrid num den
  nearest n hn := by
    rcases exists_mul_of_onGrid num hden hn with ⟨k, rfl⟩ | ⟨hlt, hle⟩
    · exact abs_sub_snap_le_mul num hden k
    · exact (abs_sub_snap_lt hden hlt hle).le
  even n hn hne htie := by
    rcases exists_mul_of_onGrid num hden hn with ⟨k, rfl⟩ | ⟨hlt, hle⟩
    · exact two_mul_slack_snap_dvd (even_snap hden hne htie)
    · exact absurd htie.symm (abs_sub_snap_lt hden hlt hle).ne

end Snap

/-! ### What rounding depends on -/

section Middle

variable {x a b : ℚ}

/-- Beyond the middle of two numbers the higher one is the nearer one. -/
theorem add_le_two_mul_of_abs_le (hab : b < a) (h : |x - a| ≤ |x - b|) : a + b ≤ 2 * x := by
  have hsq : (x - a) ^ 2 ≤ (x - b) ^ 2 := sq_le_sq.mpr h
  nlinarith

theorem two_mul_le_add_of_abs_le (hab : b < a) (h : |x - b| ≤ |x - a|) : 2 * x ≤ a + b := by
  have hsq : (x - b) ^ 2 ≤ (x - a) ^ 2 := sq_le_sq.mpr h
  nlinarith

end Middle

namespace RoundsTo

variable {x y : ℚ} {m n : Nat}

/-- Of two equally near counts only one has an even significand: else there is a count
between them. -/
theorem not_lt (hm : RoundsTo x m) (hn : RoundsTo x n) : ¬ m < n := by
  intro hlt
  have htie : |x - n| = |x - m| := (hn.nearest m hm.onGrid).antisymm (hm.nearest n hn.onGrid)
  have hdvd : 2 * twoTo (slack m) ∣ n :=
    Nat.dvd_trans (Nat.mul_dvd_mul_left 2 (twoTo_dvd (slack_le_slack hlt.le)))
      (hn.even m hm.onGrid hlt.ne htie.symm)
  have hgap : 2 * twoTo (slack m) ≤ n - m :=
    Nat.le_of_dvd (by omega) (Nat.dvd_sub hdvd (hm.even n hn.onGrid hlt.ne' htie))
  have hpos := twoTo_pos (slack m)
  have hmiddle : (n + m : ℚ) ≤ 2 * x := add_le_two_mul_of_abs_le (Nat.cast_lt.mpr hlt) htie.le
  have hnext : 2 * x ≤ (m + twoTo (slack m) : Nat) + (m : ℚ) :=
    two_mul_le_add_of_abs_le (Nat.cast_lt.mpr (by omega)) (hm.nearest _ hm.onGrid.add)
  have hle : (n : ℚ) ≤ (m + twoTo (slack m) : Nat) := by linarith
  rw [Nat.cast_le] at hle
  omega

/-- Rounding has one result. -/
theorem unique (hm : RoundsTo x m) (hn : RoundsTo x n) : m = n :=
  Nat.le_antisymm (Nat.le_of_not_lt (hn.not_lt hm)) (Nat.le_of_not_lt (hm.not_lt hn))

/-- Rounding keeps the order. -/
theorem mono (hm : RoundsTo x m) (hn : RoundsTo y n) (h : x ≤ y) : m ≤ n := by
  rcases h.eq_or_lt with rfl | hlt
  · exact (hm.unique hn).le
  · by_contra hnot
    have hcast : (n : ℚ) < m := Nat.cast_lt.mpr (Nat.lt_of_not_le hnot)
    have hx := add_le_two_mul_of_abs_le hcast (hm.nearest n hn.onGrid)
    have hy := two_mul_le_add_of_abs_le hcast (hn.nearest m hm.onGrid)
    linarith

/-- A count that is nearer than all others is the result. -/
theorem of_near (hm : OnGrid m) (h : ∀ n, OnGrid n → n ≠ m → |x - m| < |x - n|) :
    RoundsTo x m where
  onGrid := hm
  nearest n hn := by
    rcases eq_or_ne n m with rfl | hne
    · rfl
    · exact (h n hn hne).le
  even n hn hne htie := absurd htie (h n hn hne).ne'

theorem self (hm : OnGrid m) : RoundsTo m m := by
  refine of_near hm fun n _ hne => ?_
  rw [sub_self, abs_zero, abs_pos, sub_ne_zero]
  exact_mod_cast hne.symm

end RoundsTo

theorem exists_roundsTo {x : ℚ} (hx : 0 ≤ x) : ∃ m, RoundsTo x m := by
  have h := roundsTo_snap x.num.toNat x.den_pos
  rw [← Int.cast_natCast, Int.toNat_of_nonneg (Rat.num_nonneg.mpr hx), Rat.num_div_den] at h
  exact ⟨_, h⟩

/-- Between a number and what it is rounded to, all is rounded to the same. -/
theorem RoundsTo.between {x y : ℚ} {m : Nat} (h : RoundsTo x m) (hy : 0 ≤ y)
    (hxy : x ≤ y ∧ y ≤ m ∨ m ≤ y ∧ y ≤ x) : RoundsTo y m := by
  obtain ⟨n, hn⟩ := exists_roundsTo hy
  have hself := RoundsTo.self h.onGrid
  obtain rfl : m = n := by
    rcases hxy with ⟨hlow, hhigh⟩ | ⟨hlow, hhigh⟩
    · exact Nat.le_antisymm (h.mono hn hlow) (hn.mono hself hhigh)
    · exact Nat.le_antisymm (hself.mono hn hlow) (hn.mono h hhigh)
  exact hn

theorem snap_of_onGrid {n : Nat} (h : OnGrid n) : snap n 1 = n := by
  have hsnap := roundsTo_snap n Nat.one_pos
  rw [Nat.cast_one, div_one] at hsnap
  exact hsnap.unique (.self h)

/-- Different counts differ by at least one part in `2 ^ 53`. -/
theorem le_mul_abs_sub_of_onGrid {m n : Nat} (hm : OnGrid m) (hn : OnGrid n) (hne : n ≠ m) :
    (m : ℚ) ≤ 2 ^ 53 * |(m : ℚ) - n| := by
  suffices h : m ≤ twoTo 53 * ((m : Int) - n).natAbs by
    have hcast : (m : ℚ) ≤ (twoTo 53 * ((m : Int) - n).natAbs : Nat) := Nat.cast_le.mpr h
    rwa [Nat.cast_mul, cast_twoTo, Nat.cast_natAbs, Int.cast_abs, Int.cast_sub, Int.cast_natCast,
      Int.cast_natCast] at hcast
  by_cases hs : slack m ≤ slack n
  · -- both are multiples of the power that `m` loses
    have hdvd : (twoTo (slack m) : Int) ∣ (m : Int) - n :=
      Int.dvd_sub (Int.natCast_dvd_natCast.mpr hm) (Int.natCast_dvd_natCast.mpr (hn.dvd hs))
    have hgap : twoTo (slack m) ≤ ((m : Int) - n).natAbs :=
      Nat.le_of_dvd (by omega) (Int.natCast_dvd.mp hdvd)
    have hlt := lt_twoTo_slack m
    rw [twoTo_add, Nat.mul_comm] at hlt
    exact hlt.le.trans (Nat.mul_le_mul_left _ hgap)
  · -- `n` lies below the binade of `m`
    have hlow := lt_slack_iff.mp (Nat.lt_of_not_le hs)
    have hlt := lt_twoTo_slack n
    have hstep : twoTo (slack n) ≤ twoTo (slack n + 53) - n :=
      Nat.le_of_dvd (by omega) (Nat.dvd_sub (twoTo_dvd (by omega)) hn)
    have hnat : ((m : Int) - n).natAbs = m - n := by omega
    rw [hnat]
    have hgap : m - twoTo (slack n + 53) + twoTo (slack n) ≤ m - n := by omega
    refine Nat.le_trans ?_ (Nat.mul_le_mul_left _ hgap)
    rw [Nat.mul_add, Nat.mul_comm (twoTo 53) (twoTo (slack n)), ← twoTo_add]
    have hone : m - twoTo (slack n + 53) ≤ twoTo 53 * (m - twoTo (slack n + 53)) :=
      Nat.le_mul_of_pos_left _ (twoTo_pos 53)
    omega

/-- Rounding depends on the quotient alone. -/
theorem snap_eq_snap {num den num' den' : Nat} (hden : 0 < den) (hden' : 0 < den')
    (h : (num / den : ℚ) = num' / den') : snap num den = snap num' den' := by
  have hsnap := roundsTo_snap num hden
  rw [h] at hsnap
  exact hsnap.unique (roundsTo_snap num' hden')

/-! ### Numbers -/

theorem Magnitude.units_inj {a b : Magnitude} : a.units = b.units ↔ a = b := by
  constructor
  · rcases a with ⟨units, hlimit, hgrid⟩
    rcases b with ⟨units', hlimit', hgrid'⟩
    rintro rfl
    rfl
  · rintro rfl
    rfl

namespace Number

theorem one_pos : 0 < one := twoTo_pos 1074

theorem ofUnits_eq_finite_iff {negative : Bool} {num den : Nat} {size : Magnitude} :
    ofUnits negative num den = finite negative size ↔ snap num den = size.units := by
  unfold ofUnits
  split
  · simp [← Magnitude.units_inj]
  · next h =>
    simp only [reduceCtorEq, false_iff]
    intro heq
    exact h (heq ▸ size.bounded)

theorem ofUnits_eq_ofUnits {negative : Bool} {num den num' den' : Nat}
    (h : snap num den = snap num' den') :
    ofUnits negative num den = ofUnits negative num' den' := by
  simp only [ofUnits, h]

/-- The number nearest to a rational number that is not negative, with a sign of its own. -/
def ofRat (negative : Bool) (x : ℚ) : Number := ofUnits negative (x.num.toNat * one) x.den

theorem ofRat_div (negative : Bool) (num : Nat) {den : Nat} (hden : 0 < den) :
    ofRat negative (num / den) = ofUnits negative (num * one) den := by
  refine ofUnits_eq_ofUnits (snap_eq_snap (Rat.den_pos _) hden ?_)
  have hnum : (0 : Int) ≤ (num / den : ℚ).num := Rat.num_nonneg.mpr (by positivity)
  rw [Nat.cast_mul, Nat.cast_mul, ← Int.cast_natCast (Int.toNat _), Int.toNat_of_nonneg hnum,
    mul_div_right_comm, Rat.num_div_den, mul_div_right_comm]

theorem roundsTo_num_den {x : ℚ} (hx : 0 ≤ x) :
    RoundsTo (x * one) (snap (x.num.toNat * one) x.den) := by
  have hround := roundsTo_snap (x.num.toNat * one) x.den_pos
  rwa [Nat.cast_mul, ← Int.cast_natCast (Int.toNat _), Int.toNat_of_nonneg (Rat.num_nonneg.mpr hx),
    mul_div_right_comm, Rat.num_div_den] at hround

theorem ofRat_eq_finite_iff {negative : Bool} {x : ℚ} (hx : 0 ≤ x) {size : Magnitude} :
    ofRat negative x = finite negative size ↔ RoundsTo (x * one) size.units := by
  have hround := roundsTo_num_den hx
  rw [ofRat, ofUnits_eq_finite_iff]
  constructor
  · intro h
    rwa [h] at hround
  · exact hround.unique

end Number
end DeadBranch
