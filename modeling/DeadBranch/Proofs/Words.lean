/-
# 32-bit words are residues

A number becomes a word by four steps on numbers: what is behind the point is cut off, the
Euclidean remainder by `2 ^ 32` is taken, the outcome is made a word, and for a signed word
the bits are read anew. Each step rounds, and none of them loses anything: cutting off leaves
no more significant bits, and from there on all numbers are whole and below `2 ^ 53`. So the
word is the residue of the integer part (`Number.toUInt32_of_value?`), however large the
number is, and the signed word the residue around zero.

The operators on bits see their operands only as words, and what they give is a word again,
which converting it leaves as it is.

Key definitions: `integerPart`, `Number.IsInt32`, `Number.IsUInt32`.
Key theorems: `Number.trunc_finite`, `Number.remEuclid_whole`, `Number.toUInt32_of_value?`,
`Number.toInt32_of_value?`, `Number.isInt32_ofInt`, `words_are_residues`.
-/
import DeadBranch.Proofs.PropertyKeys
import DeadBranch.Value.Operator
import Mathlib.Data.Rat.Floor

namespace DeadBranch

/-! ### Integer parts -/

/-- The whole number next to a rational number on the side of zero. -/
def integerPart (x : ℚ) : ℤ := if x < 0 then ⌈x⌉ else ⌊x⌋

theorem integerPart_intCast (z : ℤ) : integerPart z = z := by
  unfold integerPart
  split
  · exact Int.ceil_intCast z
  · exact Int.floor_intCast z

theorem integerPart_natCast (n : Nat) : integerPart n = n := by
  have h := integerPart_intCast n
  rwa [Int.cast_natCast] at h

theorem integerPart_neg {x : ℚ} (hx : 0 ≤ x) : integerPart (-x) = -⌊x⌋ := by
  unfold integerPart
  split
  · exact Int.ceil_neg
  · have hzero : x = 0 := by linarith
    rw [hzero, neg_zero, Int.floor_zero, neg_zero]

/-! ### Exact steps -/

/-- Cutting off the low bits leaves no more significant ones. -/
theorem OnGrid.cut {n : Nat} (h : OnGrid n) (k : Nat) : OnGrid (n / twoTo k * twoTo k) := by
  rcases Nat.le_total (n / twoTo k) (twoTo 53) with hle | hge
  · exact shifted_onGrid _ k hle
  · -- the bits that are cut off were lost before
    have hlarge : twoTo (k + 53) ≤ n := by
      rw [Nat.add_comm, twoTo_add]
      exact (Nat.le_div_iff_mul_le (twoTo_pos k)).mp hge
    rw [Nat.div_mul_cancel (h.dvd (lt_slack_iff.mpr hlarge).le)]
    exact h

namespace Number

variable {negative : Bool} {size : Magnitude}

/-- A whole number of at most 53 bits is kept as it is, with either sign. -/
theorem exists_ofUnits_of_lt (negative : Bool) {n : Nat} (h : n < twoTo 53) :
    ∃ size, ofUnits negative (n * one) 1 = finite negative size ∧ size.units = n * one := by
  obtain ⟨size, hsize, hunits⟩ := exists_ofNat_of_lt h
  rw [ofNat, ofUnits_eq_finite_iff] at hsize
  exact ⟨size, ofUnits_eq_finite_iff.mpr hsize, hunits⟩

/-- Cutting off what is behind the point is exact. -/
theorem trunc_finite (negative : Bool) (size : Magnitude) :
    ∃ whole, (finite negative size).trunc = finite negative whole ∧
      whole.units = size.units / one * one := by
  have hgrid : OnGrid (size.units / one * one) := OnGrid.cut size.onGrid 1074
  have hlt : size.units / one * one < Magnitude.limit :=
    (Nat.div_mul_le_self _ _).trans_lt size.bounded
  exact ⟨⟨_, hlt, hgrid⟩, ofUnits_eq_finite_iff.mpr (snap_of_onGrid hgrid), rfl⟩

/-- A remainder of whole numbers is exact. -/
theorem rem_whole (negative : Bool) {x y : Magnitude} {m n : Nat} (hx : x.units = m * one)
    (hy : y.units = n * one) (hpos : 0 < n) (hn : n < twoTo 53) : ∃ rest,
    (finite negative x).rem (finite false y) = finite negative rest ∧ rest.units = m % n * one := by
  have hne : y.units ≠ 0 := hy ▸ (Nat.mul_pos hpos one_pos).ne'
  rw [rem, if_neg hne, hx, hy, Nat.mul_mod_mul_right]
  exact exists_ofUnits_of_lt negative ((Nat.mod_lt m hpos).trans hn)

theorem compare_zero_eq_lt_iff : (finite negative size).compare zero = some .lt ↔
    negative = true ∧ size.units ≠ 0 := by
  obtain ⟨origin, horigin, hunits⟩ := exists_ofNat_of_lt (twoTo_pos 53)
  rw [Nat.zero_mul] at hunits
  have hzero : signed false origin = 0 := congrArg Int.ofNat hunits
  rw [zero, horigin, compare, hzero, Option.some.injEq, Int.compare_eq_lt]
  cases negative with
  | false => simp [signed]
  | true => simp [signed, Nat.pos_iff_ne_zero]

/-- A whole number less a smaller one is exact. -/
theorem add_whole_of_lt {x y : Magnitude} {m n : Nat} (hx : x.units = m * one)
    (hy : y.units = n * one) (hlt : m < n) (hn : n < twoTo 53) : ∃ size,
    (finite true x).add (finite false y) = finite false size ∧ size.units = (n - m) * one := by
  have hsum : signed true x + signed false y = ((n - m) * one : Nat) := by
    rw [Nat.sub_mul, ← hx, ← hy, Nat.cast_sub]
    · simp only [signed, if_true, Bool.false_eq_true, if_false]
      omega
    · rw [hx, hy]
      exact Nat.mul_le_mul_right one hlt.le
  have hpositive : (n - m) * one ≠ 0 := (Nat.mul_pos (Nat.sub_pos_of_lt hlt) one_pos).ne'
  obtain ⟨size, hsize, hunits⟩ := exists_ofUnits_of_lt false ((Nat.sub_le n m).trans_lt hn)
  refine ⟨size, ?_, hunits⟩
  rw [add, hsum, if_neg (by exact_mod_cast hpositive),
    decide_eq_false (Int.not_lt.mpr (Int.natCast_nonneg _)), Int.natAbs_natCast, hsize]

/-- A Euclidean remainder of whole numbers is exact, and the residue of the dividend. -/
theorem remEuclid_whole (negative : Bool) {x y : Magnitude} {m n : Nat} (hx : x.units = m * one)
    (hy : y.units = n * one) (hpos : 0 < n) (hn : n < twoTo 53) : ∃ sign rest, ∃ r : Nat,
    (finite negative x).remEuclid (finite false y) = finite sign rest ∧ rest.units = r * one ∧
      (sign = true → r = 0) ∧ (r : ℤ) = (if negative then -(m : ℤ) else m) % n := by
  obtain ⟨rest, hrest, hunits⟩ := rem_whole negative hx hy hpos hn
  have hmod : m % n < n := Nat.mod_lt m hpos
  have hdvd : (n : ℤ) ∣ m ↔ m % n = 0 := by
    rw [Int.natCast_dvd_natCast, Nat.dvd_iff_mod_eq_zero]
  have hzero : rest.units = 0 ↔ m % n = 0 := by
    rw [hunits, Nat.mul_eq_zero]
    exact or_iff_left one_pos.ne'
  unfold remEuclid
  dsimp only
  rw [hrest]
  by_cases hlt : (finite negative rest).compare zero = some .lt
  · -- a negative remainder is taken up once
    obtain ⟨rfl, hne⟩ := compare_zero_eq_lt_iff.mp hlt
    rw [Ne, hzero] at hne
    obtain ⟨size, hsize, hunits'⟩ := add_whole_of_lt hunits hy hmod hn
    refine ⟨false, size, n - m % n, ?_, hunits', fun h => absurd h Bool.false_ne_true, ?_⟩
    · rw [if_pos hlt, abs, hsize]
    · rw [if_pos rfl, Int.neg_emod, if_neg fun h => hne (hdvd.mp h), Nat.cast_sub hmod.le]
      rfl
  · rw [if_neg hlt]
    rw [compare_zero_eq_lt_iff, not_and, not_not, hzero] at hlt
    refine ⟨negative, rest, m % n, rfl, hunits, hlt, ?_⟩
    cases negative with
    | false => rfl
    | true => rw [if_pos rfl, Int.neg_emod, if_pos (hdvd.mpr (hlt rfl)), hlt rfl, Nat.cast_zero]

/-- A whole number among the words becomes that word. -/
theorem toNat_saturate {r : Nat} (hunits : size.units = r * one) (hsign : negative = true → r = 0)
    (hr : r < 2 ^ 32) : (finite negative size).saturate.toNat = r := by
  cases negative with
  | false =>
    rw [saturate, if_neg Bool.false_ne_true, hunits, Nat.mul_div_cancel _ one_pos,
      Nat.min_eq_left (by omega), UInt32.toNat_ofNat', Nat.mod_eq_of_lt hr]
  | true =>
    rw [hsign rfl]
    rfl

/-! ### Words of numbers -/

theorem toNat_toUInt32_finite (negative : Bool) (size : Magnitude) :
    ((finite negative size).toUInt32.toNat : ℤ) =
      (if negative then -((size.units / one : Nat) : ℤ) else (size.units / one : Nat)) %
        2 ^ 32 := by
  have hbound : 0x100000000 < twoTo 53 := by decide
  have hpower : ((0x100000000 : Nat) : ℤ) = 2 ^ 32 := by decide
  obtain ⟨whole, hwhole, hunits⟩ := trunc_finite negative size
  obtain ⟨modulus, hmodulus, hunits'⟩ := exists_ofNat_of_lt hbound
  obtain ⟨sign, rest, r, hrest, hr, hsign, hresidue⟩ :=
    remEuclid_whole negative hunits hunits' (by decide) hbound
  have hlt : r < 2 ^ 32 := by
    have := Int.emod_lt_of_pos (if negative then -((size.units / one : Nat) : ℤ)
      else (size.units / one : Nat)) (show (0 : ℤ) < (0x100000000 : Nat) by decide)
    omega
  have hfinite : ((finite negative size).isNaN || (finite negative size).isInfinite) = false := rfl
  rw [toUInt32, hfinite, if_neg Bool.false_ne_true, hwhole, hmodulus, hrest,
    toNat_saturate hr hsign hlt, hresidue, hpower]

theorem integerPart_of_value? {x : ℚ} (h : (finite negative size).value? = some x) :
    integerPart x =
      if negative then -((size.units / one : Nat) : ℤ) else (size.units / one : Nat) := by
  have hfloor : ⌊(size.units / one : ℚ)⌋ = (size.units / one : Nat) :=
    Rat.floor_natCast_div_natCast _ _
  have hnonneg : (0 : ℚ) ≤ size.units / one :=
    div_nonneg (Nat.cast_nonneg _) (Nat.cast_nonneg _)
  rw [value?, Option.some.injEq] at h
  rw [← h]
  cases negative with
  | false =>
    rw [signed, if_neg Bool.false_ne_true, if_neg Bool.false_ne_true, Int.cast_natCast,
      integerPart, if_neg (not_lt.mpr hnonneg), hfloor]
  | true =>
    rw [signed, if_pos rfl, if_pos rfl, Int.cast_neg, Int.cast_natCast, neg_div,
      integerPart_neg hnonneg, hfloor]

/-- **A word is a residue.** The word of a number is its integer part modulo `2 ^ 32`. -/
theorem toUInt32_of_value? {n : Number} {x : ℚ} (h : n.value? = some x) :
    (n.toUInt32.toNat : ℤ) = integerPart x % 2 ^ 32 := by
  cases n with
  | nan => cases h
  | infinity negative => cases h
  | finite negative size => rw [toNat_toUInt32_finite, integerPart_of_value? h]

theorem toInt_toInt32 (n : Number) : n.toInt32.toInt = (n.toUInt32.toNat : ℤ).bmod (2 ^ 32) := by
  rw [toInt32, Int32.toInt, UInt32.toBitVec_toInt32, BitVec.toInt_eq_toNat_bmod]
  rfl

/-- The signed word of a number is its integer part modulo `2 ^ 32`, around zero. -/
theorem toInt32_of_value? {n : Number} {x : ℚ} (h : n.value? = some x) :
    n.toInt32.toInt = (integerPart x).bmod (2 ^ 32) := by
  rw [toInt_toInt32, toUInt32_of_value? h]
  exact Int.emod_bmod (integerPart x) (2 ^ 32)

theorem toUInt32_of_value?_eq_none {n : Number} (h : n.value? = none) : n.toUInt32 = 0 := by
  cases n with
  | nan => rfl
  | infinity negative => rfl
  | finite negative size => cases h

/-! ### Numbers of words -/

theorem value?_ofInt {z : ℤ} (h : z.natAbs < twoTo 53) : (ofInt z).value? = some (z : ℚ) := by
  obtain ⟨size, hsize, hunits⟩ := exists_ofUnits_of_lt (z < 0) h
  have hsigned : signed (z < 0) size = z * one := by
    unfold signed
    rw [hunits]
    push_cast
    split
    · next hz =>
      rw [abs_of_neg (by simpa using hz)]
      ring
    · next hz => rw [abs_of_nonneg (by simpa using hz)]
  rw [ofInt, hsize, value?, hsigned]
  push_cast
  rw [mul_div_cancel_right₀ _ cast_one_pos.ne']

theorem value?_ofNat {n : Nat} (h : n < twoTo 53) : (ofNat n).value? = some (n : ℚ) := by
  obtain ⟨size, hsize, hunits⟩ := exists_ofNat_of_lt h
  exact value?_eq_natCast_iff.mpr ⟨false, size, hsize, hunits, fun h => absurd h Bool.false_ne_true⟩

/-- The number is that of a signed word: whole, among the signed words, and its conversion is
the word again. -/
def IsInt32 (n : Number) : Prop :=
  ∃ z : ℤ, -2 ^ 31 ≤ z ∧ z < 2 ^ 31 ∧ n.value? = some (z : ℚ) ∧ n = .ofInt z ∧ n.toInt32.toInt = z

/-- The number is that of an unsigned word. -/
def IsUInt32 (n : Number) : Prop :=
  ∃ k : Nat, k < 2 ^ 32 ∧ n.value? = some (k : ℚ) ∧ n = .ofNat k ∧ n.toUInt32.toNat = k

theorem isInt32_ofInt (w : Int32) : (ofInt w.toInt).IsInt32 := by
  have hlow := w.le_toInt
  have hhigh := w.toInt_lt
  have hbound : 2 ^ 32 < twoTo 53 := by decide
  have hvalue : (ofInt w.toInt).value? = some (w.toInt : ℚ) := value?_ofInt (by omega)
  refine ⟨w.toInt, hlow, hhigh, hvalue, rfl, ?_⟩
  rw [toInt32_of_value? hvalue, integerPart_intCast]
  exact Int.bmod_eq_of_le_mul_two (by omega) (by omega)

theorem isUInt32_ofNat (w : UInt32) : (ofNat w.toNat).IsUInt32 := by
  have hlt : w.toNat < 2 ^ 32 := w.toNat_lt
  have hbound : 2 ^ 32 < twoTo 53 := by decide
  have hvalue : (ofNat w.toNat).value? = some (w.toNat : ℚ) := value?_ofNat (hlt.trans hbound)
  refine ⟨w.toNat, hlt, hvalue, rfl, ?_⟩
  have hword := toUInt32_of_value? hvalue
  rw [integerPart_natCast] at hword
  omega

end Number

/-! ### Operators on words -/

namespace BinaryOp

/-- The operators that give a signed word. -/
def givingInt32 : List BinaryOp := [bitAnd, bitOr, bitXor, shiftLeft, shiftRight]

/-- The operators on the bits of two words. -/
def bitwise : List BinaryOp := [bitAnd, bitOr, bitXor]

/-- The operators that move the bits of a word. -/
def shifts : List BinaryOp := [shiftLeft, shiftRight, shiftRightUnsigned]

theorem isInt32_of_mem {op : BinaryOp} (h : op ∈ givingInt32) (v w : Value) :
    ∃ n, op.apply v w = some (.number n) ∧ n.IsInt32 := by
  simp only [givingInt32, List.mem_cons, List.not_mem_nil, or_false] at h
  rcases h with rfl | rfl | rfl | rfl | rfl
  all_goals exact ⟨_, rfl, Number.isInt32_ofInt _⟩

theorem apply_congr_of_mem_bitwise {op : BinaryOp} (h : op ∈ bitwise) {v v' w w' : Value}
    (hv : v.toUInt32 = v'.toUInt32) (hw : w.toUInt32 = w'.toUInt32) :
    op.apply v w = op.apply v' w' := by
  have hv' : v.toInt32 = v'.toInt32 := congrArg UInt32.toInt32 hv
  have hw' : w.toInt32 = w'.toInt32 := congrArg UInt32.toInt32 hw
  simp only [bitwise, List.mem_cons, List.not_mem_nil, or_false] at h
  rcases h with rfl | rfl | rfl
  all_goals simp only [apply, hv', hw']

theorem apply_congr_of_mem_shifts {op : BinaryOp} (h : op ∈ shifts) {v v' w w' : Value}
    (hv : v.toUInt32 = v'.toUInt32) (hw : w.toUInt32 % 32 = w'.toUInt32 % 32) :
    op.apply v w = op.apply v' w' := by
  have hv' : v.toInt32 = v'.toInt32 := congrArg UInt32.toInt32 hv
  simp only [shifts, List.mem_cons, List.not_mem_nil, or_false] at h
  rcases h with rfl | rfl | rfl
  all_goals simp only [apply, hv, hv', hw]

end BinaryOp

/-- **32-bit words are residues.** The word of a value is the integer part of its number
modulo `2 ^ 32`, and the signed word the same around zero; both are zero where the number is
not finite. What the operators on bits give is a word, which converting it leaves as it is,
and they see their operands only through these residues, a shift its count modulo 32. -/
theorem words_are_residues :
    (∀ (v : Value) (x : ℚ), v.toNumber.value? = some x →
      (v.toUInt32.toNat : ℤ) = integerPart x % 2 ^ 32 ∧
        v.toInt32.toInt % 2 ^ 32 = integerPart x % 2 ^ 32 ∧
        -2 ^ 31 ≤ v.toInt32.toInt ∧ v.toInt32.toInt < 2 ^ 31) ∧
    (∀ v : Value, v.toNumber.value? = none → v.toUInt32 = 0 ∧ v.toInt32 = 0) ∧
    (∀ v : Value, ∃ n, UnaryOp.complement.apply v = some (.number n) ∧ n.IsInt32) ∧
    (∀ op ∈ BinaryOp.givingInt32, ∀ v w : Value, ∃ n, op.apply v w = some (.number n) ∧ n.IsInt32) ∧
    (∀ v w : Value, ∃ n, BinaryOp.shiftRightUnsigned.apply v w = some (.number n) ∧ n.IsUInt32) ∧
    ∀ v v' : Value, v.toUInt32 = v'.toUInt32 →
      UnaryOp.complement.apply v = UnaryOp.complement.apply v' ∧
      ∀ w w' : Value,
        (w.toUInt32 = w'.toUInt32 →
          ∀ op ∈ BinaryOp.bitwise, op.apply v w = op.apply v' w') ∧
        (w.toUInt32 % 32 = w'.toUInt32 % 32 →
          ∀ op ∈ BinaryOp.shifts, op.apply v w = op.apply v' w') := by
  refine ⟨fun v x h => ⟨Number.toUInt32_of_value? h, ?_, v.toInt32.le_toInt, v.toInt32.toInt_lt⟩,
    fun v h => ?_, fun v => ⟨_, rfl, Number.isInt32_ofInt _⟩,
    fun op hop => BinaryOp.isInt32_of_mem hop, fun v w => ⟨_, rfl, Number.isUInt32_ofNat _⟩,
    fun v v' hv => ⟨?_, fun w w' => ⟨fun hw op hop => ?_, fun hw op hop => ?_⟩⟩⟩
  · rw [Value.toInt32, Number.toInt32_of_value? h]
    exact Int.bmod_emod
  · have hword : v.toUInt32 = 0 := Number.toUInt32_of_value?_eq_none h
    exact ⟨hword, congrArg UInt32.toInt32 hword⟩
  · have hv' : v.toInt32 = v'.toInt32 := congrArg UInt32.toInt32 hv
    simp only [UnaryOp.apply, hv']
  · exact BinaryOp.apply_congr_of_mem_bitwise hop hv hw
  · exact BinaryOp.apply_congr_of_mem_shifts hop hv hw

/-- A negative number beyond the words: `-2 ^ 33 - 5` is `-5` as a signed word, and moving it
by 33 is moving `-5` by one. -/
theorem beyondWords_residue :
    let v := Value.number (.ofInt (-2 ^ 33 - 5))
    v.toNumber.value? = some ((-2 ^ 33 - 5 : ℤ) : ℚ) ∧
      (v.toUInt32.toNat : ℤ) = 2 ^ 32 - 5 ∧ v.toInt32.toInt % 2 ^ 32 = 2 ^ 32 - 5 ∧
      (Value.undefined.toUInt32 = 0 ∧ Value.undefined.toInt32 = 0) ∧
      BinaryOp.shiftLeft.apply v (.number (.ofNat 33)) =
        BinaryOp.shiftLeft.apply (.number (.ofInt (-5))) (.number (.ofNat 1)) := by
  intro v
  obtain ⟨hfinite, hother, -, -, -, hresidue⟩ := words_are_residues
  have hvalue : v.toNumber.value? = some ((-2 ^ 33 - 5 : ℤ) : ℚ) :=
    Number.value?_ofInt (by decide)
  obtain ⟨hword, hsigned, -, -⟩ := hfinite v _ hvalue
  rw [integerPart_intCast] at hword hsigned
  refine ⟨hvalue, hword, hsigned, hother .undefined rfl, ?_⟩
  have hv : v.toUInt32 = (Value.number (.ofInt (-5))).toUInt32 := by decide +kernel
  have hcount : (Value.number (.ofNat 33)).toUInt32 % 32 =
      (Value.number (.ofNat 1)).toUInt32 % 32 := by decide +kernel
  exact ((hresidue v _ hv).2 _ _).2 hcount .shiftLeft (by decide)

end DeadBranch
