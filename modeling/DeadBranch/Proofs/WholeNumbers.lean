/-
# Arithmetic on whole numbers

A whole number is rounded to 53 significant bits. A factor that is a power of two changes
nothing in a rounding, and less than a unit behind it only where a half was rounded down
(`snap_mul_add_eq_iff`). Products and sums of whole numbers are exact results that are then
rounded (`Number.mul_ofNat`, `Number.add_ofNat`), and from `2 ^ 1024` on they are infinite.

Key definitions: `TiesDown`, `Number.IsRounded`.
Key theorems: `snap_mul_add_eq_iff`, `Number.ofNat_cases`, `Number.mul_ofNat`,
`Number.add_ofNat`, `Number.isRounded_iff`.
-/
import DeadBranch.Number.Arith
import DeadBranch.Proofs.Rounding

namespace DeadBranch

/-! ### Rounding a multiple of a power of two -/

/-- Does it lie half way between two counts of 53 bits of which the lower one has the even
significand? -/
def TiesDown (n : Nat) : Prop :=
  2 * (n % twoTo (slack n)) = twoTo (slack n) ∧ n / twoTo (slack n) % 2 = 0

instance : DecidablePred TiesDown := fun n =>
  inferInstanceAs (Decidable (2 * (n % twoTo (slack n)) = twoTo (slack n) ∧
    n / twoTo (slack n) % 2 = 0))

/-- Less than a unit more changes a rounding only where a half was rounded down. -/
theorem nearest_mul_add_eq_iff {n den c extra : Nat} (heven : 2 ∣ den) (hextra : extra < c) :
    nearest (n * c + extra) (den * c) = nearest n den ↔
      ¬ ((2 * (n % den) = den ∧ n / den % 2 = 0) ∧ 0 < extra) := by
  have hc : 0 < c := by omega
  have hdiv : (n * c + extra) / (den * c) = n / den := by
    rw [Nat.mul_comm den, ← Nat.div_div_eq_div_mul, Nat.mul_comm n, Nat.mul_add_div hc,
      Nat.div_eq_of_lt hextra, Nat.add_zero]
  have hmod : (n * c + extra) % (den * c) = n % den * c + extra := by
    have hwhole := Nat.div_add_mod' (n * c + extra) (den * c)
    have hpart : n * c = n / den * (den * c) + n % den * c := by
      rw [← Nat.mul_assoc, ← Nat.add_mul, Nat.div_add_mod']
    rw [hdiv] at hwhole
    omega
  unfold nearest
  dsimp only
  rw [hdiv, hmod]
  rcases Nat.lt_trichotomy (2 * (n % den)) den with hlt | heq | hgt
  · -- a unit below the half is still left
    have hroom : (2 * (n % den) + 2) * c ≤ den * c := Nat.mul_le_mul_right c (by omega)
    rw [Nat.add_mul, Nat.mul_assoc] at hroom
    rw [if_pos (by omega), if_pos hlt]
    simp only [true_iff]
    omega
  · have hhalf : 2 * (n % den * c) = den * c := by rw [← Nat.mul_assoc, heq]
    rcases Nat.eq_zero_or_pos extra with rfl | hpos
    · rw [if_neg (by omega), if_neg (by omega), if_neg (by omega), if_neg (by omega)]
      simp
    · rw [if_neg (by omega), if_pos (by omega), if_neg (by omega), if_neg (by omega)]
      omega
  · have hbeyond : den * c < 2 * (n % den) * c := Nat.mul_lt_mul_of_pos_right hgt hc
    rw [Nat.mul_assoc] at hbeyond
    rw [if_neg (by omega), if_pos (by omega), if_neg (by omega), if_pos hgt]
    simp only [true_iff]
    omega

theorem slack_mul_add {n j extra : Nat} (hn : twoTo 53 ≤ n) (hextra : extra < twoTo j) :
    slack (n * twoTo j + extra) = slack n + j := by
  obtain ⟨s, hs⟩ : ∃ s, slack n = s + 1 := Nat.exists_eq_succ_of_ne_zero (lt_slack_iff.mpr hn).ne'
  have hlow : twoTo (s + 53) ≤ n := lt_slack_iff.mp (by omega)
  refine Nat.le_antisymm (slack_le_iff.mpr ?_) ?_
  · calc n * twoTo j + extra < (n + 1) * twoTo j := by rw [Nat.succ_mul]; omega
      _ ≤ twoTo (slack n + 53) * twoTo j := Nat.mul_le_mul_right _ (lt_twoTo_slack n)
      _ = twoTo (slack n + j + 53) := by rw [← twoTo_add]; congr 1; omega
  · have hlt : s + j < slack (n * twoTo j + extra) := by
      rw [lt_slack_iff]
      calc twoTo (s + j + 53) = twoTo (s + 53) * twoTo j := by rw [← twoTo_add]; congr 1; omega
        _ ≤ n * twoTo j := Nat.mul_le_mul_right _ hlow
        _ ≤ n * twoTo j + extra := Nat.le_add_right _ _
    omega

/-- **When digits are lost.** Behind a value of more than 53 bits, less than a unit more is
rounded away unless the value was half way and went down. -/
theorem snap_mul_add_eq_iff {n j extra : Nat} (hn : twoTo 53 ≤ n) (hextra : extra < twoTo j) :
    snap (n * twoTo j + extra) 1 = snap n 1 * twoTo j ↔ ¬ (TiesDown n ∧ 0 < extra) := by
  have heven : 2 ∣ twoTo (slack n) := twoTo_dvd (j := 1) (lt_slack_iff.mpr hn)
  rw [snap_eq_mul, snap_eq_mul, Nat.div_one, Nat.div_one, Nat.one_mul, Nat.one_mul,
    slack_mul_add hn hextra, twoTo_add, Nat.mul_assoc, TiesDown,
    ← nearest_mul_add_eq_iff heven hextra]
  exact Nat.mul_right_cancel_iff (Nat.mul_pos (twoTo_pos _) (twoTo_pos _))

theorem not_tiesDown_of_onGrid {n : Nat} (h : OnGrid n) : ¬ TiesDown n := by
  rintro ⟨hhalf, -⟩
  have hpos := twoTo_pos (slack n)
  rw [Nat.mod_eq_zero_of_dvd h] at hhalf
  omega

theorem snap_mul_twoTo (n j : Nat) : snap (n * twoTo j) 1 = snap n 1 * twoTo j := by
  rcases Nat.lt_or_ge n (twoTo 53) with hn | hn
  · rw [snap_of_onGrid (onGrid_of_lt hn), snap_of_onGrid (shifted_onGrid n j hn.le)]
  · exact (snap_mul_add_eq_iff hn (twoTo_pos j)).mpr fun h => Nat.lt_irrefl 0 h.2

theorem snap_twoTo (k : Nat) : snap (twoTo k) 1 = twoTo k := by
  have hone : snap 1 1 = 1 := snap_of_onGrid (onGrid_of_lt (by decide))
  have hpower := snap_mul_twoTo 1 k
  rwa [hone, Nat.one_mul] at hpower

theorem snap_le_snap {m n : Nat} (h : m ≤ n) : snap m 1 ≤ snap n 1 := by
  have hm := roundsTo_snap m Nat.one_pos
  have hn := roundsTo_snap n Nat.one_pos
  rw [Nat.cast_one, div_one] at hm hn
  exact hm.mono hn (Nat.cast_le.mpr h)

theorem snap_lt_of_lt {n k : Nat} (h : n < twoTo k) : snap n 1 < twoTo (k + 1) := by
  calc snap n 1 ≤ snap (twoTo k) 1 := snap_le_snap h.le
    _ = twoTo k := snap_twoTo k
    _ < twoTo (k + 1) := twoTo_lt_twoTo (Nat.lt_succ_self k)

theorem snap_snap (n : Nat) : snap (snap n 1) 1 = snap n 1 := snap_of_onGrid (snap_onGrid n 1)

/-! ### Arithmetic on whole numbers -/

namespace Number

theorem limit_eq : Magnitude.limit = twoTo 1024 * one := by
  rw [Magnitude.limit, one, ← twoTo_add]

/-- A whole number is rounded to 53 significant bits, and is infinite from `2 ^ 1024` on. -/
theorem ofNat_cases (n : Nat) :
    (∃ size, ofNat n = finite false size ∧ size.units = snap n 1 * one ∧ snap n 1 < twoTo 1024) ∨
      ofNat n = infinity false ∧ twoTo 1024 ≤ snap n 1 := by
  have hsnap : snap (n * one) 1 = snap n 1 * one := snap_mul_twoTo n 1074
  rcases Nat.lt_or_ge (snap n 1) (twoTo 1024) with h | h
  · have hlimit : snap (n * one) 1 < Magnitude.limit := by
      rw [hsnap, limit_eq]
      exact Nat.mul_lt_mul_of_pos_right h one_pos
    exact .inl ⟨⟨_, hlimit, snap_onGrid _ _⟩, by rw [ofNat, ofUnits, dif_pos hlimit], hsnap, h⟩
  · have hlimit : Magnitude.limit ≤ snap (n * one) 1 := by
      rw [hsnap, limit_eq]
      exact Nat.mul_le_mul_right one h
    exact .inr ⟨by rw [ofNat, ofUnits, dif_neg (Nat.not_lt.mpr hlimit)], h⟩

theorem ofNat_eq_infinity {n : Nat} (h : twoTo 1024 ≤ snap n 1) : ofNat n = infinity false := by
  rcases ofNat_cases n with ⟨size, -, -, hlt⟩ | ⟨hn, -⟩
  · omega
  · exact hn

theorem ofNat_eq_ofNat {m n : Nat} (h : snap m 1 = snap n 1) : ofNat m = ofNat n := by
  refine ofUnits_eq_ofUnits ?_
  rw [one, snap_mul_twoTo, snap_mul_twoTo, h]

theorem ofNat_inj_of_lt {m n : Nat} (hm : snap m 1 < twoTo 1024) :
    ofNat m = ofNat n ↔ snap m 1 = snap n 1 := by
  refine ⟨fun h => ?_, ofNat_eq_ofNat⟩
  rcases ofNat_cases m with ⟨size, hsize, hunits, -⟩ | ⟨-, hlimit⟩
  · rw [h] at hsize
    rw [ofNat, ofUnits_eq_finite_iff, hunits, one, snap_mul_twoTo] at hsize
    exact (Nat.mul_right_cancel (twoTo_pos 1074) hsize).symm
  · omega

theorem exists_ofNat_of_lt {n : Nat} (h : n < twoTo 53) :
    ∃ size, ofNat n = finite false size ∧ size.units = n * one := by
  have hsnap : snap n 1 = n := snap_of_onGrid (onGrid_of_lt h)
  rcases ofNat_cases n with ⟨size, hsize, hunits, -⟩ | ⟨-, hlimit⟩
  · exact ⟨size, hsize, by rw [hunits, hsnap]⟩
  · have hle : twoTo 53 ≤ twoTo 1024 := twoTo_le_twoTo (by decide)
    omega

/-- A product of whole numbers is exact and then rounded. -/
theorem mul_ofNat (m : Nat) {n : Nat} (hpos : 0 < n) (hn : n < twoTo 53) :
    (ofNat m).mul (ofNat n) = ofNat (snap m 1 * n) := by
  obtain ⟨size, hsize, hunits⟩ := exists_ofNat_of_lt hn
  rcases ofNat_cases m with ⟨size', hsize', hunits', -⟩ | ⟨hm, hlimit⟩
  · rw [hsize, hsize']
    refine ofUnits_eq_ofUnits (snap_eq_snap one_pos Nat.one_pos ?_)
    have hone : (one : ℚ) ≠ 0 := (Nat.cast_pos.mpr one_pos).ne'
    rw [hunits, hunits']
    push_cast
    field_simp
  · have hne : size.units ≠ 0 := hunits ▸ (Nat.mul_pos hpos one_pos).ne'
    rw [hm, hsize, ofNat_eq_infinity]
    · exact if_neg hne
    · calc twoTo 1024 ≤ snap (snap m 1) 1 := by rwa [snap_snap]
        _ ≤ snap (snap m 1 * n) 1 := snap_le_snap (Nat.le_mul_of_pos_right _ hpos)

/-- A sum of whole numbers is exact and then rounded. -/
theorem add_ofNat (m : Nat) {n : Nat} (hn : n < twoTo 53) :
    (ofNat m).add (ofNat n) = ofNat (snap m 1 + n) := by
  obtain ⟨size, hsize, hunits⟩ := exists_ofNat_of_lt hn
  rcases ofNat_cases m with ⟨size', hsize', hunits', -⟩ | ⟨hm, hlimit⟩
  · have hsum : signed false size' + signed false size = ((snap m 1 + n) * one : Nat) := by
      rw [Nat.add_mul, ← hunits, ← hunits']
      rfl
    rw [hsize, hsize']
    simp only [add, hsum]
    split
    · next h => rw [ofNat, Int.natCast_eq_zero.mp h]; rfl
    · rw [decide_eq_false (Int.not_lt.mpr (Int.natCast_nonneg _)), Int.natAbs_natCast]
      rfl
  · rw [hm, hsize, ofNat_eq_infinity]
    · rfl
    · calc twoTo 1024 ≤ snap (snap m 1) 1 := by rwa [snap_snap]
        _ ≤ snap (snap m 1 + n) 1 := snap_le_snap (Nat.le_add_right _ _)

/-- The number is a whole number rounded once to 53 significant bits. -/
def IsRounded (x : Number) (n : Nat) : Prop :=
  ∃ size m, x = finite false size ∧ size.units = m * one ∧ RoundsTo n m

theorem isRounded_iff {x : Number} {n : Nat} :
    x.IsRounded n ↔ x = ofNat n ∧ snap n 1 < twoTo 1024 := by
  have hround := roundsTo_snap n Nat.one_pos
  rw [Nat.cast_one, div_one] at hround
  rcases ofNat_cases n with ⟨size, hsize, hunits, hlt⟩ | ⟨hn, hlimit⟩
  · rw [hsize, and_iff_left hlt]
    constructor
    · rintro ⟨size', m, rfl, hm, hround'⟩
      rw [← hround.unique hround', ← hunits, Magnitude.units_inj] at hm
      rw [hm]
    · rintro rfl
      exact ⟨size, _, rfl, hunits, hround⟩
  · refine iff_of_false ?_ fun h => absurd hlimit (Nat.not_le.mpr h.2)
    rintro ⟨size', m, -, hm, hround'⟩
    have hbounded := size'.bounded
    rw [hm, ← hround.unique hround', limit_eq] at hbounded
    exact absurd (Nat.lt_of_mul_lt_mul_right hbounded) (Nat.not_lt.mpr hlimit)

end Number

end DeadBranch
