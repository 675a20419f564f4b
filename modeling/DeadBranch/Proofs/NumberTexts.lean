/-
# The text of a number says the number

The layout of a decimal's digits, with zeros at the end, with the point inside, with zeros in
front or with an exponent, stands for exactly the value of the decimal in each of the four
forms (`denotes_layout`). Since the digits that are laid out are those of a decimal that reads
back, a text of a number is read as the number (`Number.ofText_toText`), and only the two
zeros share a text.

Key theorems: `Numeral.denotes_layout`, `Number.ofText_toText`, `Number.toText_reads_back`.
-/
import DeadBranch.Proofs.Decimals
import DeadBranch.Proofs.Keys

namespace DeadBranch

/-! ### The four layouts -/

theorem Magnitude.toText_eq (size : Magnitude) :
    size.toText = String.ofList size.shortest.layout := rfl

namespace Numeral

theorem isDigit_of_mem_toDigits {n : Nat} {c : Char} (h : c ∈ Nat.toDigits 10 n) : isDigit c := by
  rw [isDigit_iff]
  exact Char.isDigit_iff_toNat.mp (Nat.isDigit_of_mem_toDigits (by decide) (by decide) h)

theorem digits_toDigits (n : Nat) : Digits (Nat.toDigits 10 n) :=
  ⟨Nat.toDigits_ne_nil, fun _ => isDigit_of_mem_toDigits⟩

theorem isDigit_of_mem_replicate {n : Nat} {c : Char} (h : c ∈ List.replicate n '0') :
    isDigit c := by
  rw [List.eq_of_mem_replicate h]
  decide

theorem decimalValue_replicate (n : Nat) : decimalValue (List.replicate n '0') = 0 := by
  induction n with
  | zero => rfl
  | succ n ih =>
    rw [List.replicate_succ', decimalValue_append, ih, Nat.zero_mul, Nat.zero_add]
    rfl

theorem scale_exponent (e : Int) :
    Scale ('e' :: (if e < 0 then '-' else '+') :: Nat.toDigits 10 e.natAbs) e := by
  have hdigits := digits_toDigits e.natAbs
  have hvalue := decimalValue_toDigits e.natAbs
  generalize Nat.toDigits 10 e.natAbs = cs at *
  by_cases h : e < 0
  · obtain rfl : e = -(decimalValue cs : Int) := by omega
    rw [if_pos h]
    exact .minus (.inl rfl) hdigits
  · obtain rfl : e = (decimalValue cs : Int) := by omega
    rw [if_neg h]
    exact .plus (.inl rfl) hdigits

section Layouts

variable {cs : List Char}

/-- Digits with zeros at the end. -/
theorem denotes_padded (h : Digits cs) (n : Nat) :
    Denotes (cs ++ List.replicate n '0') (decimalValue cs * 10 ^ (n : Int)) := by
  have hwhole : Digits (cs ++ List.replicate n '0') := by
    refine ⟨by simp [h.ne_nil], ?_⟩
    rw [List.forall_mem_append]
    exact ⟨h.digits, fun _ => isDigit_of_mem_replicate⟩
  have hdenotes := Denotes.whole hwhole .absent
  rw [decimalValue_append, decimalValue_replicate, List.length_replicate, List.append_nil,
    zpow_zero, mul_one, Nat.add_zero, Nat.cast_mul, Nat.cast_pow, Nat.cast_ofNat] at hdenotes
  rwa [zpow_natCast]

/-- Digits cut in two by a point. -/
theorem denotes_pointed (h : Digits cs) {k : Nat} (hk : 0 < k) {x : List Char} {e : Int}
    (hx : Scale x e) : Denotes (cs.take k ++ '.' :: (cs.drop k ++ x))
      (decimalValue cs * 10 ^ (e - (cs.length - k : Nat))) := by
  have htake : Digits (cs.take k) := by
    refine ⟨?_, fun c hc => h.digits c (List.mem_of_mem_take hc)⟩
    rw [Ne, List.take_eq_nil_iff]
    rintro (hzero | hnil)
    · omega
    · exact h.ne_nil hnil
  have hdrop : ∀ c ∈ cs.drop k, isDigit c := fun c hc => h.digits c (List.mem_of_mem_drop hc)
  have happend := decimalValue_append (cs.take k) (cs.drop k)
  rw [List.take_append_drop, List.length_drop] at happend
  have hvalue : (decimalValue cs * 10 ^ (e - (cs.length - k : Nat)) : ℚ) =
      (decimalValue (cs.take k) + decimalValue (cs.drop k) / 10 ^ (cs.length - k)) * 10 ^ e := by
    rw [happend, zpow_sub₀ (by norm_num), zpow_natCast]
    push_cast
    field_simp
  have hdenotes := Denotes.point htake hdrop hx
  rwa [List.length_drop, ← hvalue] at hdenotes

/-- Digits after a point and zeros. -/
theorem denotes_zeros_before (h : Digits cs) (n : Nat) :
    Denotes ('0' :: '.' :: (List.replicate n '0' ++ cs))
      (decimalValue cs * 10 ^ (-(n + cs.length : Nat) : Int)) := by
  have hzero : Digits ['0'] := ⟨by simp, by simpa using (by decide : isDigit '0' = true)⟩
  have hfraction : ∀ c ∈ List.replicate n '0' ++ cs, isDigit c := by
    rw [List.forall_mem_append]
    exact ⟨fun _ => isDigit_of_mem_replicate, h.digits⟩
  have hdenotes := Denotes.point hzero hfraction .absent
  rw [decimalValue_append, decimalValue_replicate, List.length_append, List.length_replicate,
    Nat.zero_mul, Nat.zero_add, zpow_zero, mul_one, List.append_nil,
    show decimalValue ['0'] = 0 from rfl, Nat.cast_zero, zero_add] at hdenotes
  rwa [zpow_neg, zpow_natCast, ← div_eq_mul_inv]

end Layouts

/-- **Every layout is exact.** -/
theorem denotes_layout (d : Decimal) : Denotes d.layout d.value := by
  have hdigits := digits_toDigits d.digits
  have hvalue : decimalValue (Nat.toDigits 10 d.digits) = d.digits := decimalValue_toDigits _
  rcases d with ⟨n, e⟩
  unfold Decimal.layout Decimal.value
  dsimp only at *
  generalize Nat.toDigits 10 n = cs at *
  subst hvalue
  split
  · next h =>
    have hexponent : e = ((e + cs.length - cs.length).toNat : Int) := by omega
    conv => arg 2; rw [hexponent]
    exact denotes_padded hdigits _
  · split
    · next h =>
      have hexponent : e = 0 - ((cs.length - (e + cs.length).toNat : Nat) : Int) := by omega
      have hdenotes := denotes_pointed hdigits (k := (e + cs.length).toNat) (by omega) .absent
      rwa [← hexponent, List.append_nil] at hdenotes
    · split
      · next h =>
        have hexponent : e = (-((-(e + cs.length)).toNat + cs.length : Nat) : Int) := by omega
        have hdenotes := denotes_zeros_before hdigits (-(e + cs.length)).toNat
        rwa [← hexponent] at hdenotes
      · have hscale := scale_exponent (e + cs.length - 1)
        split
        · next hone =>
          have hexponent : e + cs.length - 1 = e := by omega
          have hdenotes := Denotes.whole hdigits hscale
          rwa [hexponent] at hdenotes ⊢
        · have hpos : 0 < cs.length := List.length_pos_of_ne_nil hdigits.ne_nil
          have hexponent : e + cs.length - 1 - (cs.length - 1 : Nat) = e := by omega
          have hdenotes := denotes_pointed hdigits Nat.one_pos hscale
          rw [hexponent] at hdenotes
          rwa [List.append_assoc, List.cons_append]

/-- The first digit of a number that is not zero is not zero. -/
theorem head_toDigits_ne {n : Nat} (hn : n ≠ 0) : (Nat.toDigits 10 n).head? ≠ some '0' := by
  induction n using Nat.strongRecOn with
  | ind n ih =>
    rw [Nat.toDigits_eq_if (by decide)]
    split
    · next hlt =>
      have hdigit : ∀ m < 10, m ≠ 0 → [m.digitChar].head? ≠ some '0' := by decide
      exact hdigit n hlt hn
    · next hge =>
      rw [List.head?_append_of_ne_nil _ Nat.toDigits_ne_nil]
      exact ih (n / 10) (by omega) (by omega)

end Numeral

/-! ### Writing and reading -/

/-- A layout is read as the number nearest to the decimal. -/
theorem Decimal.ofText_layout (d : Decimal) :
    Number.ofText (String.ofList d.layout) = .ofRat false d.value := by
  have hdenotes := Numeral.denotes_layout d
  rw [Numeral.ofText_ofList (.bare hdenotes.plain),
    hdenotes.ofDecimalText? hdenotes.plain.splitSign, Option.getD_some]

namespace Magnitude

variable {size : Magnitude}

theorem ofText_toText (hsize : size.units ≠ 0) :
    Number.ofText size.toText = .finite false size := by
  rw [toText_eq, Decimal.ofText_layout, ← Decimal.toNumber_eq_ofRat, toNumber_shortest hsize]

theorem ofText_minus_toText (hsize : size.units ≠ 0) :
    Number.ofText ("-" ++ size.toText) = .finite true size := by
  have hdenotes := Numeral.denotes_layout size.shortest
  have htext : "-" ++ size.toText = String.ofList ('-' :: size.shortest.layout) := by
    rw [toText_eq, ← List.singleton_append, String.ofList_append]
  rw [htext, Numeral.ofText_ofList (.minus hdenotes.plain),
    hdenotes.ofDecimalText? rfl, Option.getD_some, ← Decimal.toNumber_eq_ofRat,
    toNumber_shortest hsize]

end Magnitude

namespace Number

/-- **A number is read back from its text.** Both zeros are read as the positive one. -/
theorem ofText_toText (n : Number) : ofText n.toText = if n.isZero then zero else n := by
  cases n with
  | nan => decide +kernel
  | infinity negative => cases negative <;> decide +kernel
  | finite negative size =>
    by_cases hsize : size.units = 0
    · have hzero : ofText "0" = zero := by decide +kernel
      simpa [toText, isZero, hsize] using hzero
    · cases negative
      · simpa [toText, isZero, hsize] using Magnitude.ofText_toText hsize
      · simpa [toText, isZero, hsize] using Magnitude.ofText_minus_toText hsize

/-- Only the zeros share their text. -/
theorem toText_eq_toText_iff {m n : Number} :
    m.toText = n.toText ↔ m = n ∨ m.isZero = true ∧ n.isZero = true := by
  have hzero : zero.isZero = true := by decide +kernel
  constructor
  · intro h
    have hread := congrArg ofText h
    rw [ofText_toText, ofText_toText] at hread
    by_cases hm : m.isZero = true <;> by_cases hn : n.isZero = true
    · exact .inr ⟨hm, hn⟩
    · rw [if_pos hm, if_neg hn] at hread
      exact absurd (hread ▸ hzero) hn
    · rw [if_neg hm, if_pos hn] at hread
      exact absurd (hread ▸ hzero) hm
    · rw [if_neg hm, if_neg hn] at hread
      exact .inl hread
  · have htext : ∀ k : Number, k.isZero = true → k.toText = "0" := by
      intro k hk
      cases k with
      | nan => cases hk
      | infinity negative => cases hk
      | finite negative size => exact if_pos (by simpa [isZero] using hk)
    rintro (rfl | ⟨hm, hn⟩)
    · rfl
    · rw [htext m hm, htext n hn]

/-- **Writing is exact and reads back.** The text of a positive number is a decimal that
stands for the value of its shortest digits, which begin with no zero and read back, as no
fewer digits do; the layout of any digits stands for their value, and is read as the number
nearest to it. So a number is read back from its text, and only the zeros share one. -/
theorem toText_reads_back :
    (∀ size : Magnitude, size.units ≠ 0 →
      Numeral.Denotes size.toText.toList size.shortest.value ∧
      (Nat.toDigits 10 size.shortest.digits).head? ≠ some '0' ∧
      size.shortest.toNumber false = finite false size ∧
      ∀ d : Decimal, d.toNumber false = finite false size →
        decimalLength size.shortest.digits ≤ decimalLength d.digits) ∧
    (∀ d : Decimal, Numeral.Denotes d.layout d.value ∧
      ofText (String.ofList d.layout) = ofRat false d.value) ∧
    (∀ n : Number, ofText n.toText = if n.isZero then zero else n) ∧
    ∀ m n : Number, m.toText = n.toText ↔ m = n ∨ m.isZero = true ∧ n.isZero = true := by
  refine ⟨fun size hsize => ⟨?_, ?_, ?_, fun d => ?_⟩, fun d => ⟨?_, d.ofText_layout⟩,
    ofText_toText, fun m n => toText_eq_toText_iff⟩
  · rw [Magnitude.toText_eq, String.toList_ofList]
    exact Numeral.denotes_layout _
  · exact Numeral.head_toDigits_ne (Magnitude.digits_shortest hsize)
  · exact Magnitude.toNumber_shortest hsize false
  · exact Magnitude.decimalLength_shortest_le hsize
  · exact Numeral.denotes_layout d

/-- The smallest positive number. -/
def smallest : Magnitude := ⟨1, by decide +kernel, by decide⟩

/-- The smallest positive number is written with the one digit `5`, which reads back, as `3`
would do with the same exponent. -/
theorem smallest_reads_back : smallest.units ≠ 0 ∧ smallest.toText = "5e-324" ∧
    Numeral.Denotes "5e-324".toList smallest.shortest.value ∧
    Decimal.toNumber false ⟨3, -324⟩ = finite false smallest ∧
    decimalLength smallest.shortest.digits ≤ decimalLength 3 := by
  have hunits : smallest.units ≠ 0 := by decide
  have htext : smallest.toText = "5e-324" := by decide +kernel
  have hthree : Decimal.toNumber false ⟨3, -324⟩ = finite false smallest := by decide +kernel
  obtain ⟨hdenotes, -, -, hleast⟩ := toText_reads_back.1 smallest hunits
  exact ⟨hunits, htext, htext ▸ hdenotes, hthree, hleast ⟨3, -324⟩ hthree⟩

end Number
end DeadBranch
