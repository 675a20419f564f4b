/-
# Keys that are array indices

A key is kept as an index if it is the numeral of one: digits without a sign, with no zero in
front of others, and a value below the limit (`Numeral.IsNumeralOf`, `Segment.ofKey_eq_index_iff`).
Any other key is kept as a name, so a segment stands for one key.

The key of a number is its text. A whole number below `2 ^ 53` is written as its numeral
(`Magnitude.toText_of_whole`): its shortest digits stand for a whole number, since their grid
is no finer than that, and whole numbers below `2 ^ 53` are read as themselves. So the key of
a number is an index exactly if the number is whole, not negative and below the limit, where
the negative zero counts as zero (`Segment.ofValue_eq_index_iff`).

Key definitions: `Numeral.IsNumeralOf`, `Number.value?`.
Key theorems: `Segment.ofKey_eq_index_iff`, `Magnitude.toText_of_whole`,
`Segment.ofValue_eq_index_iff`, `Segment.keys_canonical`.
-/
import DeadBranch.Path
import DeadBranch.Proofs.NumberTexts
import DeadBranch.Proofs.WholeNumbers

namespace DeadBranch

namespace Numeral

/-! ### Numerals -/

/-- The numeral of a number: digits without a sign, and no zero in front of others. -/
structure IsNumeralOf (cs : List Char) (i : Nat) : Prop where
  digits : Digits cs
  no_zero : cs.head? = some '0' → cs = ['0']
  value : decimalValue cs = i

theorem digit_lt {c : Char} (h : isDigit c) : c.toNat - '0'.toNat < 10 := by
  rw [isDigit_iff] at h
  simp only [Char.reduceToNat]
  omega

theorem digitChar_sub {c : Char} (h : isDigit c) : (c.toNat - '0'.toNat).digitChar = c := by
  rw [← Char.toNat_inj, Nat.toNat_digitChar_of_lt_ten (digit_lt h)]
  rw [isDigit_iff] at h
  simp only [Char.reduceToNat]
  omega

/-- A digit behind the digits of a number. -/
theorem toDigits_concat {n : Nat} (hn : n ≠ 0) {c : Char} (hc : isDigit c) :
    Nat.toDigits 10 n ++ [c] = Nat.toDigits 10 (n * 10 + (c.toNat - '0'.toNat)) := by
  rw [Nat.mul_comm,
    ← Nat.toDigits_append_toDigits (by decide) (Nat.pos_of_ne_zero hn) (digit_lt hc),
    Nat.toDigits_of_lt_base (digit_lt hc), digitChar_sub hc]

/-- Digits without a zero in front are those of their value. -/
theorem eq_toDigits_of_digits {cs : List Char} (h : Digits cs)
    (hzero : cs.head? = some '0' → cs = ['0']) : cs = Nat.toDigits 10 (decimalValue cs) := by
  induction cs using List.reverseRecOn with
  | nil => exact absurd rfl h.ne_nil
  | append_singleton cs c ih =>
    have hc : isDigit c := h.digits c (by simp)
    rw [decimalValue_concat]
    rcases eq_or_ne cs [] with rfl | hne
    · rw [show decimalValue [] = 0 from rfl, Nat.zero_mul, Nat.zero_add,
        Nat.toDigits_of_lt_base (digit_lt hc), digitChar_sub hc, List.nil_append]
    · have hhead : cs.head? ≠ some '0' := by
        intro hhead
        have hall := hzero (by rw [List.head?_append_of_ne_nil _ hne, hhead])
        have hlength := congrArg List.length hall
        simp only [List.length_append, List.length_singleton] at hlength
        exact hne (List.length_eq_zero_iff.mp (by omega))
      have hcs := ih ⟨hne, fun c hc => h.digits c (List.mem_append_left _ hc)⟩
        fun hhead' => absurd hhead' hhead
      have hvalue : decimalValue cs ≠ 0 := by
        intro hvalue
        rw [hvalue, Nat.toDigits_zero] at hcs
        exact hhead (by rw [hcs]; rfl)
      rw [← toDigits_concat hvalue hc, ← hcs]

/-- A number has one numeral. -/
theorem isNumeralOf_iff {cs : List Char} {i : Nat} :
    IsNumeralOf cs i ↔ cs = Nat.toDigits 10 i := by
  constructor
  · rintro ⟨hdigits, hzero, rfl⟩
    exact eq_toDigits_of_digits hdigits hzero
  · rintro rfl
    refine ⟨digits_toDigits i, fun hhead => ?_, decimalValue_toDigits i⟩
    rcases Nat.eq_zero_or_pos i with rfl | hpos
    · rw [Nat.toDigits_zero]
    · exact absurd hhead (head_toDigits_ne hpos.ne')

theorem toDigits_mul_pow {n : Nat} (hn : n ≠ 0) (e : Nat) :
    Nat.toDigits 10 (n * 10 ^ e) = Nat.toDigits 10 n ++ List.replicate e '0' := by
  induction e with
  | zero => simp
  | succ e ih =>
    have hne : n * 10 ^ e ≠ 0 := Nat.mul_ne_zero hn (Nat.pow_pos (by decide)).ne'
    have hconcat := toDigits_concat hne (by decide : isDigit '0')
    rw [ih, Nat.sub_self, Nat.add_zero, Nat.mul_assoc, ← Nat.pow_succ] at hconcat
    rw [← hconcat, List.append_assoc, ← List.replicate_succ']

end Numeral

/-! ### The text of a whole number -/

theorem Decimal.layout_of_whole {n e : Nat} (hn : n ≠ 0)
    (hlength : decimalLength (n * 10 ^ e) ≤ 21) :
    layout ⟨n, e⟩ = Nat.toDigits 10 (n * 10 ^ e) := by
  rw [decimalLength, Numeral.toDigits_mul_pow hn, List.length_append, List.length_replicate]
    at hlength
  unfold layout
  dsimp only
  rw [if_pos (by omega), Numeral.toDigits_mul_pow hn, add_sub_cancel_right, Int.toNat_natCast]

namespace Magnitude

variable {size : Magnitude} {i : Nat}

/-- Whole numbers below `2 ^ 53` are read as themselves. -/
theorem Reads.eq_of_whole {v : Nat} (h : size.Reads v) (hunits : size.units = i * Number.one)
    (hi : i < twoTo 53) : v = i := by
  have hgrid : ∀ n ≤ twoTo 53, RoundsTo (n * Number.one : Nat) (n * Number.one) := fun n hn =>
    .self (shifted_onGrid n 1074 hn)
  rw [Reads, hunits, ← Nat.cast_mul] at h
  rcases Nat.lt_or_ge v (twoTo 53) with hv | hv
  · exact Nat.mul_right_cancel Number.one_pos ((hgrid v hv.le).unique h)
  · have hle := (hgrid (twoTo 53) le_rfl).mono h (Nat.cast_le.mpr (Nat.mul_le_mul_right _ hv))
    have := Nat.le_of_mul_le_mul_right hle Number.one_pos
    omega

/-- The shortest digits of a whole number below `2 ^ 53` stand for the number itself. -/
theorem shortest_of_whole (hunits : size.units = i * Number.one) (hpos : 0 < i)
    (hi : i < twoTo 53) : ∃ n e : Nat, size.shortest = ⟨n, e⟩ ∧ n ≠ 0 ∧ n * 10 ^ e = i := by
  have hsize : size.units ≠ 0 := hunits ▸ (Nat.mul_pos hpos Number.one_pos).ne'
  have hvalue : size.value = i := by
    rw [value, hunits, Nat.cast_mul, mul_div_cancel_right₀ _ Number.cast_one_pos.ne']
  have hplace : size.decimalPlace = decimalLength i := by
    rw [decimalPlace, hunits, if_pos (Nat.le_mul_of_pos_left _ hpos),
      Nat.mul_div_cancel _ Number.one_pos]
  obtain ⟨count, d, -, -, hd, hshortest, hleast⟩ := exists_count hsize
  obtain ⟨hreads, hexponent, -⟩ := of_decimalOf?_eq_some hd
  -- the number itself is on the grid of its own count of digits
  have hcount : count ≤ decimalLength i := by
    refine hleast _ (decimalLength_pos i) (isSome_decimalOf? (k := i) ?_)
    rw [hplace, sub_self, zpow_zero, mul_one, ← hvalue, Reads, value_mul_one]
    exact .self size.onGrid
  obtain ⟨t, hdigits, hexponent', -⟩ := d.trim_spec
  obtain ⟨e, he⟩ : ∃ e : Nat, d.trim.exponent = e := ⟨d.trim.exponent.toNat, by omega⟩
  have heq : d.trim.digits * 10 ^ e = i := by
    refine Reads.eq_of_whole ?_ hunits hi
    have hread : size.Reads d.trim.value := by
      rw [d.value_trim]
      exact Decimal.toNumber_eq_finite_iff.mp hreads
    rw [Decimal.value, he, zpow_natCast] at hread
    exact_mod_cast hread
  refine ⟨d.trim.digits, e, ?_, ?_, heq⟩
  · rw [hshortest, ← he]
  · rintro hzero
    rw [hzero, Nat.zero_mul] at heq
    omega

/-- A whole number below `2 ^ 53` is written as its numeral. -/
theorem toText_of_whole (hunits : size.units = i * Number.one) (hpos : 0 < i)
    (hi : i < twoTo 53) : size.toText = String.ofList (Nat.toDigits 10 i) := by
  obtain ⟨n, e, hshortest, hn, heq⟩ := shortest_of_whole hunits hpos hi
  have hbound : twoTo 53 < 10 ^ 16 := by decide
  have hlength : decimalLength i ≤ 21 :=
    ((decimalLength_le_iff (by decide)).mpr (hi.trans hbound)).trans (by decide)
  rw [toText_eq, hshortest, Decimal.layout_of_whole hn (heq ▸ hlength), heq]

end Magnitude

/-! ### Keys -/

namespace Number

/-- The rational number that a finite number is. -/
def value? : Number → Option ℚ
  | finite negative size => some (signed negative size / one)
  | _ => none

/-- The numbers with the value of a whole number: the whole number itself, and the negative
zero with it. -/
theorem value?_eq_natCast_iff {n : Number} {i : Nat} : n.value? = some (i : ℚ) ↔
    ∃ negative size, n = finite negative size ∧ size.units = i * one ∧
      (negative = true → i = 0) := by
  have hone := cast_one_pos
  cases n with
  | nan => simp [value?]
  | infinity negative => simp [value?]
  | finite negative size =>
    have hsigned : (finite negative size).value? = some (i : ℚ) ↔
        signed negative size = (i * one : Nat) := by
      rw [value?, Option.some_inj, div_eq_iff hone.ne']
      exact_mod_cast Iff.rfl
    rw [hsigned]
    constructor
    · intro h
      refine ⟨negative, size, rfl, ?_⟩
      cases negative
      · exact ⟨Int.ofNat.inj h, fun hneg => by cases hneg⟩
      · have hunits : -(size.units : Int) = (i * one : Nat) := h
        have hzero : i * one = 0 := by omega
        exact ⟨by omega, fun _ => (Nat.mul_eq_zero.mp hzero).resolve_right one_pos.ne'⟩
    · rintro ⟨negative', size', heq, hunits, hneg⟩
      cases heq
      cases negative
      · exact congrArg Int.ofNat hunits
      · obtain rfl := hneg rfl
        rw [Nat.zero_mul] at hunits
        rw [signed, hunits, Nat.zero_mul]
        rfl

/-- Below `2 ^ 53`, a number is written as the numeral of a whole number exactly if it has
its value. -/
theorem toText_eq_toDigits_iff {n : Number} {i : Nat} (hi : i < twoTo 53) :
    n.toText = String.ofList (Nat.toDigits 10 i) ↔ n.value? = some (i : ℚ) := by
  have hwritten : ∀ {n : Number}, n.value? = some (i : ℚ) →
      n.toText = String.ofList (Nat.toDigits 10 i) := by
    intro n hn
    obtain ⟨negative, size, rfl, hunits, hneg⟩ := value?_eq_natCast_iff.mp hn
    rcases Nat.eq_zero_or_pos i with rfl | hpos
    · rw [Nat.zero_mul] at hunits
      rw [toText, if_pos hunits, Nat.toDigits_zero]
    · have hne : size.units ≠ 0 := hunits ▸ (Nat.mul_pos hpos one_pos).ne'
      have hpositive : negative = false := by
        rw [← Bool.not_eq_true]
        exact fun hnegative => hpos.ne' (hneg hnegative)
      rw [toText, if_neg hne, hpositive, if_neg Bool.false_ne_true,
        Magnitude.toText_of_whole hunits hpos hi]
  refine ⟨fun h => ?_, hwritten⟩
  -- the whole number itself has the same text
  obtain ⟨size, hsize, hunits⟩ := exists_ofNat_of_lt hi
  have hvalue : (ofNat i).value? = some (i : ℚ) :=
    value?_eq_natCast_iff.mpr ⟨false, size, hsize, hunits, fun h => absurd h Bool.false_ne_true⟩
  rcases toText_eq_toText_iff.mp (h.trans (hwritten hvalue).symm) with heq | ⟨hn, hzero⟩
  · rw [heq, hvalue]
  · rw [hsize] at hzero
    have hi0 : i = 0 := by
      have hunits0 : size.units = 0 := by simpa [isZero] using hzero
      rw [hunits0] at hunits
      exact (Nat.mul_eq_zero.mp hunits.symm).resolve_right one_pos.ne'
    cases n with
    | nan => cases hn
    | infinity negative => cases hn
    | finite negative size' =>
      refine value?_eq_natCast_iff.mpr ⟨negative, size', rfl, ?_, fun _ => hi0⟩
      rw [hi0, Nat.zero_mul]
      simpa [isZero] using hn

end Number

namespace Segment

theorem indexLimit_lt : indexLimit < twoTo 53 := by decide

/-- A key is an index exactly if it is the numeral of one. -/
theorem ofKey_eq_index_iff {key : String} {i : Nat} :
    ofKey key = index i ↔ Numeral.IsNumeralOf key.toList i ∧ i < indexLimit := by
  rw [Numeral.isNumeralOf_iff]
  constructor
  · intro h
    simp only [ofKey] at h
    split at h
    · next hkey =>
      obtain rfl := index.inj h
      exact ⟨String.ofList_injective (by rw [String.ofList_toList]; exact hkey.1), hkey.2⟩
    · cases h
  · rintro ⟨hkey, hlimit⟩
    have hkey' : key = (index i).key := by
      rw [Segment.key, ← hkey, String.ofList_toList]
    rw [hkey', ofKey_key_index hlimit]

theorem ofKey_eq_name {key : String} (h : ∀ i, ofKey key ≠ index i) : ofKey key = name key := by
  simp only [ofKey] at h ⊢
  split
  · next hkey => exact absurd (if_pos hkey) (h _)
  · rfl

/-- The key of a number is an index exactly if the number has the value of one. -/
theorem ofValue_eq_index_iff {n : Number} {i : Nat} :
    ofValue (.number n) = index i ↔ n.value? = some (i : ℚ) ∧ i < indexLimit := by
  rw [ofValue, Value.toText, ofKey_eq_index_iff, Numeral.isNumeralOf_iff]
  refine and_congr_left fun hi => ?_
  rw [← Number.toText_eq_toDigits_iff (hi.trans indexLimit_lt), ← String.toList_inj,
    String.toList_ofList]

/-- **Keys are canonical.** A key is an index exactly if it is the numeral, without a sign or
zeros in front, of a number below `2 ^ 32 - 1`, and else its own name, so different keys have
different segments. The key of a number is an index exactly if the number has the value of
one, as the negative zero has, and else the name that is its text. -/
theorem keys_canonical :
    (∀ (key : String) (i : Nat),
      ofKey key = index i ↔ Numeral.IsNumeralOf key.toList i ∧ i < 2 ^ 32 - 1) ∧
    (∀ key : String, (∀ i < 2 ^ 32 - 1, ¬ Numeral.IsNumeralOf key.toList i) →
      ofKey key = name key) ∧
    (∀ j k : String, ofKey j = ofKey k ↔ j = k) ∧
    (∀ (n : Number) (i : Nat),
      ofValue (.number n) = index i ↔ n.value? = some (i : ℚ) ∧ i < 2 ^ 32 - 1) ∧
    ∀ n : Number, (∀ i < 2 ^ 32 - 1, n.value? ≠ some ((i : Nat) : ℚ)) →
      ofValue (.number n) = name n.toText := by
  refine ⟨fun key i => ofKey_eq_index_iff, fun key h => ?_, fun j k => ofKey_inj,
    fun n i => ofValue_eq_index_iff, fun n h => ?_⟩
  · exact ofKey_eq_name fun i hi => h i (ofKey_eq_index_iff.mp hi).2 (ofKey_eq_index_iff.mp hi).1
  · refine ofKey_eq_name fun i hi => ?_
    obtain ⟨hvalue, hlimit⟩ := ofValue_eq_index_iff.mp hi
    exact h i hlimit hvalue

/-- Zeros in front make a key a name, and so does the first number past the indices. -/
theorem zerosBefore_and_limit_are_names : ofKey "007" = name "007" ∧
    ofValue (.number (.ofNat (2 ^ 32 - 1))) = name "4294967295" := by
  obtain ⟨-, hkey, -, -, hnumber⟩ := keys_canonical
  have htext : (Number.ofNat (2 ^ 32 - 1)).toText = "4294967295" := by decide +kernel
  refine ⟨hkey "007" fun i _ h => absurd (h.no_zero rfl) (by decide), ?_⟩
  rw [← htext]
  refine hnumber _ fun i hi hvalue => ?_
  rw [← Number.toText_eq_toDigits_iff (hi.trans (by decide)), htext] at hvalue
  have hi' : i = 4294967295 := by
    rw [← decimalValue_toDigits i, ← String.toList_ofList (l := Nat.toDigits 10 i), ← hvalue]
    rfl
  omega

end Segment
end DeadBranch
