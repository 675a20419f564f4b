/-
# The shortest decimal reads back

A decimal is the rational number `digits * 10 ^ exponent`, and reading it rounds that number
once, however many digits and however large an exponent it is written with
(`Decimal.toNumber_eq_ofRat`). So decimals of the same value are read alike.

The search for the shortest decimal of a number looks, for each count of digits, at the two
neighbours of the number on the grid of the decimals with that many digits. If any decimal of
the grid reads back, so does one of them, since what lies between a decimal and the number
that it is read as is read as the same number. Seventeen digits are enough: their grid is
finer than the numbers, which differ by one part in `2 ^ 53` at least. So the search always
ends with a decimal that reads back (`Magnitude.toNumber_shortest`), and no decimal of fewer
digits does (`Magnitude.decimalLength_shortest_le`).

Key definitions: `Decimal.value`, `Magnitude.value`.
Key theorems: `Decimal.toNumber_eq_ofRat`, `Magnitude.toNumber_shortest`,
`Magnitude.decimalLength_shortest_le`.
-/
import DeadBranch.Number.Decimal
import DeadBranch.Proofs.Rounding
import Mathlib.Algebra.Order.Field.Power

namespace DeadBranch

theorem tenTo_pos (k : Nat) : 0 < tenTo k := Nat.pow_pos (by decide)

theorem cast_tenTo (k : Nat) : (tenTo k : ℚ) = 10 ^ k := Nat.cast_pow 10 k

theorem ten_zpow_pos (k : Int) : (0 : ℚ) < 10 ^ k := zpow_pos (by norm_num) k

theorem ten_pow_mul_zpow (k : Nat) (e : Int) : ((10 ^ k : Nat) : ℚ) * 10 ^ e = 10 ^ (k + e) := by
  rw [Nat.cast_pow, Nat.cast_ofNat, zpow_add₀ (by norm_num), zpow_natCast]

/-! ### How many digits there are -/

section Length

variable {n : Nat}

theorem decimalLength_pos (n : Nat) : 0 < decimalLength n := Nat.length_toDigits_pos

theorem decimalLength_le_iff {k : Nat} (hk : 0 < k) : decimalLength n ≤ k ↔ n < 10 ^ k :=
  Nat.length_toDigits_le_iff (by decide) hk

theorem lt_pow_decimalLength (n : Nat) : n < 10 ^ decimalLength n :=
  (decimalLength_le_iff (decimalLength_pos n)).mp le_rfl

theorem pow_le_of_lt_decimalLength {k : Nat} (hn : n ≠ 0) (h : k < decimalLength n) :
    10 ^ k ≤ n := by
  rcases Nat.eq_zero_or_pos k with rfl | hk
  · rw [Nat.pow_zero]
    omega
  · rw [← Nat.not_lt, ← decimalLength_le_iff hk]
    omega

end Length

namespace Decimal

/-- The rational number that a decimal is. -/
def value (d : Decimal) : ℚ := d.digits * 10 ^ d.exponent

theorem value_nonneg (d : Decimal) : 0 ≤ d.value :=
  mul_nonneg (Nat.cast_nonneg _) (ten_zpow_pos _).le

end Decimal

/-! ### Reading a decimal -/

theorem RoundsTo.zero {x : ℚ} (hx : 0 ≤ x) (h : 2 * x < 1) : RoundsTo x 0 := by
  refine .of_near (onGrid_of_lt (twoTo_pos 53)) fun n _ hn => ?_
  have hone : (1 : ℚ) ≤ n := Nat.one_le_cast.mpr (Nat.one_le_iff_ne_zero.mpr hn)
  rw [Nat.cast_zero, sub_zero, abs_of_nonneg hx, abs_sub_comm, abs_of_pos (by linarith)]
  linarith

namespace Number

theorem cast_one_units : (one : ℚ) = 2 ^ 1074 := cast_twoTo 1074

theorem cast_one_pos : (0 : ℚ) < one := Nat.cast_pos.mpr one_pos

theorem ofUnits_zero (negative : Bool) :
    ∃ size, ofUnits negative 0 1 = finite negative size ∧ size.units = 0 := by
  have hsnap : snap 0 1 = 0 := snap_of_onGrid (onGrid_of_lt (twoTo_pos 53))
  have hlimit : snap 0 1 < Magnitude.limit := hsnap ▸ twoTo_pos 2098
  exact ⟨⟨snap 0 1, hlimit, snap_onGrid 0 1⟩, by rw [ofUnits, dif_pos hlimit], hsnap⟩

/-- What is below half a unit is read as zero. -/
theorem ofRat_eq_zero {negative : Bool} {x : ℚ} (hx : 0 ≤ x) (h : 2 * (x * one) < 1) :
    ofRat negative x = ofUnits negative 0 1 := by
  obtain ⟨size, hsize, hunits⟩ := ofUnits_zero negative
  rw [hsize, ofRat_eq_finite_iff hx, hunits]
  exact .zero (mul_nonneg hx cast_one_pos.le) h

/-- From `2 ^ 1024` on all is read as infinite. -/
theorem ofRat_eq_infinity {negative : Bool} {x : ℚ} (h : (2 : ℚ) ^ 1024 ≤ x) :
    ofRat negative x = infinity negative := by
  have hx : 0 ≤ x := le_trans (by positivity) h
  have hlimit : RoundsTo Magnitude.limit Magnitude.limit := by
    have hgrid := shifted_onGrid 1 2098 (twoTo_pos 53)
    rw [Nat.one_mul] at hgrid
    exact .self hgrid
  have hle : (Magnitude.limit : ℚ) ≤ x * one := by
    rw [Magnitude.limit, cast_twoTo, cast_one_units, show 2098 = 1024 + 1074 by rfl, pow_add]
    exact mul_le_mul_of_nonneg_right h (by positivity)
  rw [ofRat, ofUnits, dif_neg (Nat.not_lt.mpr (hlimit.mono (roundsTo_num_den hx) hle))]

end Number

namespace Decimal

/-- **Reading is rounded once.** A decimal is read as the number nearest to its value. -/
theorem toNumber_eq_ofRat (negative : Bool) (d : Decimal) :
    d.toNumber negative = .ofRat negative d.value := by
  unfold toNumber
  dsimp only
  split
  · next h =>
    refine (Number.ofRat_eq_zero d.value_nonneg ?_).symm
    rcases h with hzero | hreach
    · rw [value, hzero, Nat.cast_zero, zero_mul, zero_mul, mul_zero]
      exact zero_lt_one
    · -- the value is below the power of ten that its digits reach
      have hvalue : d.value < 10 ^ (-331 : Int) := by
        calc d.value < (10 ^ decimalLength d.digits : Nat) * 10 ^ d.exponent :=
              mul_lt_mul_of_pos_right (Nat.cast_lt.mpr (lt_pow_decimalLength _)) (ten_zpow_pos _)
          _ = 10 ^ (decimalLength d.digits + d.exponent) := ten_pow_mul_zpow _ _
          _ ≤ 10 ^ (-331 : Int) := zpow_le_zpow_right₀ (by norm_num) (by omega)
      have hpower : twoTo 1075 < tenTo 331 := by decide +kernel
      have hpower' : (2 : ℚ) ^ 1075 < 10 ^ 331 := by
        rw [← cast_twoTo, ← cast_tenTo]
        exact Nat.cast_lt.mpr hpower
      calc 2 * (d.value * Number.one) < 2 * (10 ^ (-331 : Int) * Number.one) := by
            have := mul_lt_mul_of_pos_right hvalue Number.cast_one_pos
            linarith
        _ = 2 ^ 1075 / 10 ^ 331 := by
            rw [Number.cast_one_units, zpow_neg, zpow_ofNat, pow_succ _ 1074, div_eq_mul_inv]
            generalize (2 : ℚ) ^ 1074 = two
            generalize ((10 : ℚ) ^ 331)⁻¹ = tenth
            ring
        _ < 1 := (div_lt_one (by positivity)).mpr hpower'
  · next h =>
    rw [not_or] at h
    split
    · next hreach =>
      refine (Number.ofRat_eq_infinity ?_).symm
      have hpower : twoTo 1024 ≤ tenTo 310 := by decide +kernel
      have hlength := decimalLength_pos d.digits
      have hdigits : 10 ^ (decimalLength d.digits - 1) ≤ d.digits :=
        pow_le_of_lt_decimalLength h.1 (by omega)
      calc (2 : ℚ) ^ 1024 ≤ 10 ^ 310 := by
            rw [← cast_twoTo, ← cast_tenTo]
            exact Nat.cast_le.mpr hpower
        _ ≤ 10 ^ ((decimalLength d.digits - 1 : Nat) + d.exponent) := by
            rw [← zpow_natCast]
            exact zpow_le_zpow_right₀ (by norm_num) (by omega)
        _ = (10 ^ (decimalLength d.digits - 1) : Nat) * 10 ^ d.exponent := by
            rw [ten_pow_mul_zpow]
        _ ≤ d.value := mul_le_mul_of_nonneg_right (Nat.cast_le.mpr hdigits) (ten_zpow_pos _).le
    · split
      · next hexponent =>
        rw [← Number.ofRat_div _ _ Nat.one_pos, value]
        lift d.exponent to Nat using hexponent with e
        rw [Int.toNat_natCast, Nat.cast_mul, cast_tenTo, Nat.cast_one, div_one, zpow_natCast]
      · next hexponent =>
        have hneg : d.exponent = -(d.exponent.natAbs : Int) := by omega
        rw [← Number.ofRat_div _ _ (tenTo_pos _), value, cast_tenTo]
        congr 1
        conv_lhs => rw [div_eq_mul_inv, ← zpow_natCast, ← zpow_neg, ← hneg]

end Decimal

namespace Magnitude

variable {size : Magnitude} {x y : ℚ}

/-- The rational number that a size is. -/
def value (size : Magnitude) : ℚ := size.units / Number.one

/-- Is the size what a rational number is rounded to? -/
def Reads (size : Magnitude) (x : ℚ) : Prop := RoundsTo (x * Number.one) size.units

theorem value_mul_one (size : Magnitude) : size.value * Number.one = size.units :=
  div_mul_cancel₀ _ Number.cast_one_pos.ne'

/-- What lies between a number and a size that it is read as is read as the same size. -/
theorem Reads.between (h : size.Reads x) (hy : 0 ≤ y)
    (hxy : x ≤ y ∧ y ≤ size.value ∨ size.value ≤ y ∧ y ≤ x) : size.Reads y := by
  have hone := Number.cast_one_pos.le
  refine RoundsTo.between h (mul_nonneg hy hone) ?_
  rw [← size.value_mul_one]
  rcases hxy with ⟨hlow, hhigh⟩ | ⟨hlow, hhigh⟩
  · exact .inl ⟨mul_le_mul_of_nonneg_right hlow hone, mul_le_mul_of_nonneg_right hhigh hone⟩
  · exact .inr ⟨mul_le_mul_of_nonneg_right hlow hone, mul_le_mul_of_nonneg_right hhigh hone⟩

/-- What is off by less than one part in `2 ^ 54` is read as the size. -/
theorem reads_of_near (h : 2 ^ 54 * |x - size.value| < size.value) : size.Reads x := by
  have hone := Number.cast_one_pos
  refine .of_near size.onGrid fun n hn hne => ?_
  have hgap := le_mul_abs_sub_of_onGrid size.onGrid hn hne
  have herror : |x * Number.one - size.units| = |x - size.value| * Number.one := by
    rw [← size.value_mul_one, ← sub_mul, abs_mul, abs_of_pos hone]
  have hnear : 2 ^ 54 * |x * Number.one - size.units| < size.units := by
    have hscaled := mul_lt_mul_of_pos_right h hone
    rwa [mul_assoc, ← herror, size.value_mul_one] at hscaled
  have htriangle : |(size.units : ℚ) - n| ≤
      |x * Number.one - size.units| + |x * Number.one - n| := by
    rw [abs_sub_comm (x * Number.one) (size.units : ℚ)]
    exact abs_sub_le _ _ _
  linarith

end Magnitude

/-- A decimal is read as a size according to its value alone. -/
theorem Decimal.toNumber_eq_finite_iff {negative : Bool} {d : Decimal} {size : Magnitude} :
    d.toNumber negative = .finite negative size ↔ size.Reads d.value := by
  rw [toNumber_eq_ofRat, Number.ofRat_eq_finite_iff d.value_nonneg, Magnitude.Reads]

/-! ### The grid of the decimals with so many digits -/

namespace Magnitude

variable {size : Magnitude}

theorem scaled_spec (size : Magnitude) (e : Int) : 0 < (size.scaled e).2 ∧
    ((size.scaled e).1 / (size.scaled e).2 : ℚ) = size.value / 10 ^ e := by
  unfold scaled value
  split
  · next he =>
    lift e to Nat using he
    refine ⟨Nat.mul_pos Number.one_pos (tenTo_pos _), ?_⟩
    rw [Int.toNat_natCast, Nat.cast_mul, cast_tenTo, zpow_natCast, div_div]
  · next he =>
    have hneg : e = -(e.natAbs : Int) := by omega
    dsimp only
    refine ⟨Number.one_pos, ?_⟩
    conv_rhs => rw [hneg, zpow_neg, zpow_natCast, div_inv_eq_mul]
    rw [Nat.cast_mul, cast_tenTo, div_mul_eq_mul_div]

/-- No power of ten but one divides a power of two. -/
theorem ten_pow_not_dvd_twoTo {j k : Nat} (hk : 0 < k) : ¬ 10 ^ k ∣ twoTo j := by
  intro h
  have hfive : 5 ∣ twoTo j :=
    Nat.dvd_trans (Nat.dvd_trans (by decide : 5 ∣ 10 ^ 1) (Nat.pow_dvd_pow 10 hk)) h
  have hcoprime : Nat.Coprime 5 (twoTo j) := Nat.Coprime.pow_right j (by decide)
  exact absurd (hcoprime.eq_one_of_dvd hfive) (by decide)

/-- The place of the first digit: the number is below that power of ten, and not below the
one before. -/
theorem value_bounds (hsize : size.units ≠ 0) :
    (10 : ℚ) ^ (size.decimalPlace - 1) ≤ size.value ∧ size.value < 10 ^ size.decimalPlace := by
  have hone := Number.cast_one_pos
  have hunits : (0 : ℚ) < size.units := Nat.cast_pos.mpr (Nat.pos_of_ne_zero hsize)
  unfold decimalPlace value
  split
  · next hle =>
    have hquotient : size.units / Number.one ≠ 0 := (Nat.div_pos hle Number.one_pos).ne'
    have hlength := decimalLength_pos (size.units / Number.one)
    have hlow := pow_le_of_lt_decimalLength (k := decimalLength (size.units / Number.one) - 1)
      hquotient (by omega)
    have hhigh := lt_pow_decimalLength (size.units / Number.one)
    generalize decimalLength (size.units / Number.one) = length at *
    rw [Nat.le_div_iff_mul_le Number.one_pos] at hlow
    rw [Nat.div_lt_iff_lt_mul Number.one_pos] at hhigh
    have hcast : ((length : Int) - 1) = (length - 1 : Nat) := by omega
    rw [hcast, zpow_natCast, zpow_natCast, le_div_iff₀ hone, div_lt_iff₀ hone]
    exact ⟨by exact_mod_cast hlow, by exact_mod_cast hhigh⟩
  · next hlt =>
    have hle : size.units ≤ Number.one := by omega
    have hquotient : Number.one / size.units ≠ 0 := (Nat.div_pos hle (by omega)).ne'
    have hlength := decimalLength_pos (Number.one / size.units)
    have hlow := pow_le_of_lt_decimalLength (k := decimalLength (Number.one / size.units) - 1)
      hquotient (by omega)
    have hhigh := lt_pow_decimalLength (Number.one / size.units)
    generalize decimalLength (Number.one / size.units) = length at *
    rw [Nat.le_div_iff_mul_le (by omega)] at hlow
    rw [Nat.div_lt_iff_lt_mul (by omega)] at hhigh
    have hne : 10 ^ (length - 1) * size.units ≠ Number.one := by
      intro heq
      rcases Nat.eq_zero_or_pos (length - 1) with hzero | hpos
      · rw [hzero, Nat.pow_zero, Nat.one_mul] at heq
        omega
      · exact ten_pow_not_dvd_twoTo hpos (heq ▸ Nat.dvd_mul_right _ _)
    have hlow' : 10 ^ (length - 1) * size.units < Number.one := by omega
    have hfirst : ((1 : Int) - length) - 1 = -(length : Int) := by omega
    have hplace : (1 : Int) - length = -((length - 1 : Nat) : Int) := by omega
    rw [hfirst, hplace, zpow_neg, zpow_neg, zpow_natCast, zpow_natCast]
    constructor
    · rw [le_div_iff₀ hone, inv_mul_le_iff₀ (by positivity)]
      exact_mod_cast hhigh.le
    · rw [div_lt_iff₀ hone, lt_inv_mul_iff₀ (by positivity)]
      exact_mod_cast hlow'

/-- The decimal below or at the number on a grid. -/
theorem floor_bounds (size : Magnitude) (e : Int) :
    let below := (size.scaled e).1 / (size.scaled e).2
    below * (10 : ℚ) ^ e ≤ size.value ∧ size.value < (below + 1) * 10 ^ e := by
  intro below
  obtain ⟨hden, hscaled⟩ := size.scaled_spec e
  have hden' : (0 : ℚ) < (size.scaled e).2 := Nat.cast_pos.mpr hden
  rw [← le_div_iff₀ (ten_zpow_pos e), ← div_lt_iff₀ (ten_zpow_pos e), ← hscaled,
    le_div_iff₀ hden', div_lt_iff₀ hden']
  constructor
  · exact_mod_cast Nat.div_mul_le_self _ _
  · exact_mod_cast Nat.lt_mul_of_div_lt (Nat.lt_succ_self _) hden

end Magnitude

/-! ### The neighbours of a number on a grid -/

namespace Magnitude

variable {size : Magnitude} {count : Nat}

/-- What is found is one of the two neighbours on the grid, and reads back. -/
theorem of_decimalOf?_eq_some {d : Decimal} (h : size.decimalOf? count = some d) :
    let e := size.decimalPlace - count
    d.toNumber false = .finite false size ∧ d.exponent = e ∧
      (d.digits = (size.scaled e).1 / (size.scaled e).2 ∨
        d.digits = (size.scaled e).1 / (size.scaled e).2 + 1) := by
  unfold decimalOf? at h
  dsimp only at h
  split at h
  · next hbelow =>
    obtain rfl := Option.some.inj h
    exact ⟨hbelow.1, rfl, .inl rfl⟩
  · split at h
    · next habove =>
      obtain rfl := Option.some.inj h
      exact ⟨habove, rfl, .inr rfl⟩
    · cases h

/-- Of the two neighbours on a grid, the one that lies between the number and a point of the
grid that reads back reads back too. -/
theorem Reads.neighbour {k floor : Nat} {grid : ℚ} (h : size.Reads (k * grid)) (hgrid : 0 < grid)
    (hbelow : floor * grid ≤ size.value) (habove : size.value < (floor + 1) * grid) :
    size.Reads (floor * grid) ∨ size.Reads ((floor + 1 : Nat) * grid) := by
  rcases Nat.lt_or_ge floor k with hk | hk
  · right
    have hk' : ((floor + 1 : Nat) : ℚ) ≤ k := Nat.cast_le.mpr hk
    refine h.between (by positivity) (.inr ⟨?_, mul_le_mul_of_nonneg_right hk' hgrid.le⟩)
    exact_mod_cast habove.le
  · left
    have hk' : (k : ℚ) ≤ floor := Nat.cast_le.mpr hk
    exact h.between (by positivity) (.inl ⟨mul_le_mul_of_nonneg_right hk' hgrid.le, hbelow⟩)

/-- If a decimal on the grid reads back, one is found. -/
theorem isSome_decimalOf? {k : Nat} (h : size.Reads (k * 10 ^ (size.decimalPlace - count))) :
    (size.decimalOf? count).isSome := by
  obtain ⟨hbelow, habove⟩ := size.floor_bounds (size.decimalPlace - count)
  have hreads := h.neighbour (ten_zpow_pos _) hbelow habove
  unfold decimalOf?
  dsimp only
  split
  · rfl
  · next hnot =>
    split
    · rfl
    · next habove' =>
      rw [Decimal.toNumber_eq_finite_iff] at habove'
      have hbelow' := hreads.resolve_right habove'
      refine absurd ⟨Decimal.toNumber_eq_finite_iff.mpr hbelow', .inr ?_⟩ hnot
      rwa [Decimal.toNumber_eq_finite_iff]

/-- Seventeen digits are enough: the grid is finer than the numbers. -/
theorem isSome_decimalOf?_seventeen (hsize : size.units ≠ 0) : (size.decimalOf? 17).isSome := by
  obtain ⟨hden, hscaled⟩ := size.scaled_spec (size.decimalPlace - (17 : Nat))
  have hnear := abs_sub_nearest_le (size.scaled (size.decimalPlace - (17 : Nat))).1 hden
  have hgrid := ten_zpow_pos (size.decimalPlace - (17 : Nat))
  -- the grid is one part in `10 ^ 16` of the number, or less
  have hfine : (10 : ℚ) ^ (size.decimalPlace - (17 : Nat)) * 10 ^ 16 ≤ size.value := by
    have hfirst := (value_bounds hsize).1
    have hplace : size.decimalPlace - 1 = size.decimalPlace - (17 : Nat) + (16 : Nat) := by
      push_cast
      ring
    rw [hplace, zpow_add₀ (by norm_num), zpow_natCast] at hfirst
    exact hfirst
  rw [hscaled] at hnear
  refine isSome_decimalOf? (k := nearest (size.scaled (size.decimalPlace - (17 : Nat))).1
    (size.scaled (size.decimalPlace - (17 : Nat))).2) (reads_of_near ?_)
  generalize nearest (size.scaled (size.decimalPlace - (17 : Nat))).1
    (size.scaled (size.decimalPlace - (17 : Nat))).2 = k at *
  generalize (10 : ℚ) ^ (size.decimalPlace - (17 : Nat)) = grid at *
  have herror : |k * grid - size.value| = |size.value / grid - k| * grid := by
    rw [← abs_of_pos hgrid, ← abs_mul, abs_of_pos hgrid, sub_mul, div_mul_cancel₀ _ hgrid.ne',
      abs_sub_comm]
  have hhalf : |size.value / grid - k| * grid ≤ 1 / 2 * grid :=
    mul_le_mul_of_nonneg_right hnear hgrid.le
  rw [herror]
  linarith

end Magnitude

/-! ### Zeros at the end -/

namespace Decimal

theorem trim_go_spec (fuel : Nat) : ∀ (n : Nat) (e : Int),
    ∃ t : Nat, n = (trim.go fuel n e).digits * 10 ^ t ∧ (trim.go fuel n e).exponent = e + t ∧
      (n ≠ 0 → n < 10 ^ fuel → (trim.go fuel n e).digits % 10 ≠ 0) := by
  induction fuel with
  | zero =>
    intro n e
    refine ⟨0, by simp [trim.go], by simp [trim.go], fun hn hlt => ?_⟩
    rw [Nat.pow_zero] at hlt
    omega
  | succ fuel ih =>
    intro n e
    unfold trim.go
    split
    · next h =>
      obtain ⟨t, hdigits, hexponent, hlast⟩ := ih (n / 10) (e + 1)
      refine ⟨t + 1, ?_, ?_, fun hn hlt => hlast (by omega) ?_⟩
      · rw [Nat.pow_succ, ← Nat.mul_assoc, ← hdigits]
        omega
      · rw [hexponent]
        push_cast
        ring
      · rw [Nat.pow_succ] at hlt
        omega
    · next h => exact ⟨0, by simp, by simp, fun hn _ => by simpa [hn] using h⟩

theorem trim_spec (d : Decimal) : ∃ t : Nat, d.digits = d.trim.digits * 10 ^ t ∧
    d.trim.exponent = d.exponent + t ∧ (d.digits ≠ 0 → d.trim.digits % 10 ≠ 0) := by
  obtain ⟨t, hdigits, hexponent, hlast⟩ := trim_go_spec (decimalLength d.digits) d.digits d.exponent
  exact ⟨t, hdigits, hexponent, fun hd => hlast hd (lt_pow_decimalLength _)⟩

theorem value_trim (d : Decimal) : d.trim.value = d.value := by
  obtain ⟨t, hdigits, hexponent, -⟩ := d.trim_spec
  rw [value, value, hexponent, hdigits, zpow_add₀ (by norm_num), zpow_natCast]
  push_cast
  ring

/-- Without zeros at its end a number up to a power of ten has no more digits than the
numbers below it. -/
theorem decimalLength_trim_le {d : Decimal} {count : Nat} (hcount : 0 < count) (hd : d.digits ≠ 0)
    (hle : d.digits ≤ 10 ^ count) : decimalLength d.trim.digits ≤ count := by
  obtain ⟨t, hdigits, -, hlast⟩ := d.trim_spec
  rw [decimalLength_le_iff hcount]
  have hpos : 0 < 10 ^ t := Nat.pow_pos (by decide)
  have htrim : d.trim.digits ≤ 10 ^ count := by
    refine Nat.le_trans ?_ hle
    conv_rhs => rw [hdigits]
    exact Nat.le_mul_of_pos_right _ hpos
  refine Nat.lt_of_le_of_ne htrim fun heq => hlast hd ?_
  obtain ⟨j, rfl⟩ : ∃ j, count = j + 1 := Nat.exists_eq_succ_of_ne_zero hcount.ne'
  rw [heq, Nat.pow_succ, Nat.mul_mod_left]

end Decimal

/-! ### The shortest decimal -/

namespace Magnitude

variable {size : Magnitude} {count : Nat}

theorem digits_of_decimalOf? (hsize : size.units ≠ 0) (hcount : 0 < count) {d : Decimal}
    (h : size.decimalOf? count = some d) : d.digits ≠ 0 ∧ d.digits ≤ 10 ^ count := by
  obtain ⟨-, -, hdigits⟩ := of_decimalOf?_eq_some h
  obtain ⟨hbelow, habove⟩ := size.floor_bounds (size.decimalPlace - count)
  obtain ⟨hfirst, hlast⟩ := value_bounds hsize
  have hgrid := ten_zpow_pos (size.decimalPlace - count)
  have hplace : (10 : ℚ) ^ size.decimalPlace =
      (10 ^ count : Nat) * 10 ^ (size.decimalPlace - count) := by
    rw [ten_pow_mul_zpow, add_sub_cancel]
  have hgrid_le : (10 : ℚ) ^ (size.decimalPlace - count) ≤ size.value :=
    le_trans (zpow_le_zpow_right₀ (by norm_num) (by omega)) hfirst
  generalize (size.scaled (size.decimalPlace - count)).1 /
    (size.scaled (size.decimalPlace - count)).2 = floor at *
  rw [hplace] at hlast
  generalize (10 : ℚ) ^ (size.decimalPlace - count) = grid at *
  have hone : 1 ≤ floor := by
    have hlt : (1 : ℚ) * grid < (floor + 1) * grid := by linarith
    have hcast := lt_of_mul_lt_mul_right hlt hgrid.le
    exact_mod_cast (by linarith : (0 : ℚ) < floor)
  have hfloor : floor < 10 ^ count := by
    have hlt : (floor : ℚ) * grid < (10 ^ count : Nat) * grid := by linarith
    exact_mod_cast lt_of_mul_lt_mul_right hlt hgrid.le
  omega

/-- The search ends with the least count of digits for which a decimal is found. -/
theorem exists_count (hsize : size.units ≠ 0) : ∃ count d, 0 < count ∧ count ≤ 17 ∧
    size.decimalOf? count = some d ∧ size.shortest = d.trim ∧
    ∀ j, 0 < j → (size.decimalOf? j).isSome → count ≤ j := by
  obtain ⟨d₀, hd₀⟩ := Option.isSome_iff_exists.mp (isSome_decimalOf?_seventeen hsize)
  have hfound : ((List.range 17).findSome? fun k => size.decimalOf? (k + 1)).isSome := by
    rw [List.isSome_findSome?, List.any_eq_true]
    exact ⟨16, by decide, by rw [hd₀]; rfl⟩
  obtain ⟨d, hd⟩ := Option.isSome_iff_exists.mp hfound
  obtain ⟨before, k, after, hrange, hk, hnone⟩ := List.findSome?_eq_some_iff.mp hd
  have hmem : k ∈ List.range 17 := hrange ▸ List.mem_append_right _ List.mem_cons_self
  have hsorted := List.pairwise_lt_range (n := 17)
  rw [hrange, List.pairwise_append, List.pairwise_cons] at hsorted
  rw [List.mem_range] at hmem
  refine ⟨k + 1, d, by omega, by omega, hk, by rw [shortest, hd]; rfl, fun j hj hsome => ?_⟩
  by_contra hlt
  have hj' : j - 1 ∈ List.range 17 := List.mem_range.mpr (by omega)
  rw [hrange, List.mem_append, List.mem_cons] at hj'
  rcases hj' with hbefore | heq | hafter
  · have hj_none := hnone _ hbefore
    rw [Nat.sub_add_cancel hj] at hj_none
    rw [hj_none] at hsome
    cases hsome
  · omega
  · have := hsorted.2.1.1 _ hafter
    omega

/-- **The shortest decimal reads back.** -/
theorem toNumber_shortest (hsize : size.units ≠ 0) (negative : Bool) :
    size.shortest.toNumber negative = .finite negative size := by
  obtain ⟨count, d, -, -, hd, hshortest, -⟩ := exists_count hsize
  have hreads := (of_decimalOf?_eq_some hd).1
  rw [Decimal.toNumber_eq_finite_iff] at hreads ⊢
  rwa [hshortest, d.value_trim]

theorem digits_shortest (hsize : size.units ≠ 0) : size.shortest.digits ≠ 0 := by
  obtain ⟨count, d, hcount, -, hd, hshortest, -⟩ := exists_count hsize
  obtain ⟨hdigits, -⟩ := digits_of_decimalOf? hsize hcount hd
  obtain ⟨t, -, -, hlast⟩ := d.trim_spec
  rw [hshortest]
  intro hzero
  exact hlast hdigits (by rw [hzero])

/-- **No decimal of fewer digits reads back.** A decimal on a finer grid than that of its
count lies below the power of ten before the number, which then reads back itself. -/
theorem decimalLength_shortest_le (hsize : size.units ≠ 0) {d : Decimal}
    (h : d.toNumber false = .finite false size) :
    decimalLength size.shortest.digits ≤ decimalLength d.digits := by
  obtain ⟨count, found, hcount, -, hfound, hshortest, hleast⟩ := exists_count hsize
  obtain ⟨hdigits, hle⟩ := digits_of_decimalOf? hsize hcount hfound
  have hlength := decimalLength_pos d.digits
  rw [hshortest]
  refine (Decimal.decimalLength_trim_le hcount hdigits hle).trans (hleast _ hlength ?_)
  rw [Decimal.toNumber_eq_finite_iff] at h
  rcases lt_or_ge d.exponent (size.decimalPlace - decimalLength d.digits) with hlt | hge
  · -- the power of ten lies between the decimal and the number
    have hpower : ((10 ^ (decimalLength d.digits - 1) : Nat) : ℚ) *
        10 ^ (size.decimalPlace - decimalLength d.digits) = 10 ^ (size.decimalPlace - 1) := by
      have hexponent : ((decimalLength d.digits - 1 : Nat) : Int) +
          (size.decimalPlace - decimalLength d.digits) = size.decimalPlace - 1 := by omega
      rw [ten_pow_mul_zpow, hexponent]
    refine isSome_decimalOf? (k := 10 ^ (decimalLength d.digits - 1)) ?_
    rw [hpower]
    refine h.between (ten_zpow_pos _).le (.inl ⟨?_, (value_bounds hsize).1⟩)
    calc d.value ≤ (10 ^ decimalLength d.digits : Nat) * 10 ^ d.exponent :=
          mul_le_mul_of_nonneg_right (Nat.cast_le.mpr (lt_pow_decimalLength _).le)
            (ten_zpow_pos _).le
      _ = 10 ^ (decimalLength d.digits + d.exponent) := ten_pow_mul_zpow _ _
      _ ≤ 10 ^ (size.decimalPlace - 1) := zpow_le_zpow_right₀ (by norm_num) (by omega)
  · -- the decimal is on the grid
    obtain ⟨t, ht⟩ : ∃ t : Nat, d.exponent = t + (size.decimalPlace - decimalLength d.digits) :=
      ⟨(d.exponent - (size.decimalPlace - decimalLength d.digits)).toNat, by omega⟩
    refine isSome_decimalOf? (k := d.digits * 10 ^ t) ?_
    rw [Decimal.value, ht, zpow_add₀ (by norm_num), zpow_natCast] at h
    rwa [Nat.cast_mul, Nat.cast_pow, Nat.cast_ofNat, mul_assoc]

end Magnitude

end DeadBranch
