/-
# Digits of a radix are rounded as they are read

The digits after `0x`, `0o` and `0b` are read from the left: what is read so far is
multiplied by the radix, the next digit is added, and each time the result is rounded.

The radix is a power of two, so multiplying never rounds, and once the value has more than
53 bits a further digit is too small to change it. So digits count up to the one with which
the value first needs more than 53 bits (`Overrun`), and those after it are read as zeros.
Reading gives the value of all digits rounded once, unless the value at that point lies half
way between two numbers and goes down to the even one, and a digit after it is not zero
(`ofText_isRounded_iff`): then the value of all digits lies beyond the half.

Key definitions: `digitsValue`, `keepDigit`, `Overrun`.
Key theorems: `Number.ofRadixDigits_eq_ofNat`, `Overrun.snap_eq_iff`, `ofText_isRounded_iff`.
-/
import DeadBranch.Proofs.Numerals
import DeadBranch.Proofs.WholeNumbers
import Mathlib.Data.List.Induction

namespace DeadBranch

/-! ### Digits -/

/-- The value of a row of digits of a radix. -/
def digitsValue (radix : Nat) (cs : List Char) : Nat :=
  cs.foldl (fun n c => n * radix + (digitValue? radix c).getD 0) 0

/-- One more digit, which counts as zero behind a value of more than 53 bits. -/
def keepDigit (radix n : Nat) (c : Char) : Nat :=
  n * radix + if n < twoTo 53 then (digitValue? radix c).getD 0 else 0

/-- The digits up to the one with which their value first needs more than 53 bits, and those
after it. -/
structure Overrun (radix : Nat) (cs front rest : List Char) : Prop where
  eq_append : cs = front ++ rest
  le_value : twoTo 53 ≤ digitsValue radix front
  value_lt : digitsValue radix front.dropLast < twoTo 53

section Digits

variable {radix : Nat} {cs : List Char}

theorem digitsValue_concat (radix : Nat) (cs : List Char) (c : Char) :
    digitsValue radix (cs ++ [c]) =
      digitsValue radix cs * radix + (digitValue? radix c).getD 0 := by
  simp [digitsValue]

theorem getD_digitValue?_lt (hradix : 0 < radix) (c : Char) :
    (digitValue? radix c).getD 0 < radix := by
  cases h : digitValue? radix c with
  | none => exact hradix
  | some d => exact lt_of_digitValue? h

theorem digitsValue_append (radix : Nat) (front rest : List Char) :
    digitsValue radix (front ++ rest) =
      digitsValue radix front * radix ^ rest.length + digitsValue radix rest := by
  induction rest using List.reverseRecOn with
  | nil => simp [digitsValue]
  | append_singleton rest c ih =>
    rw [← List.append_assoc, digitsValue_concat, ih, digitsValue_concat, List.length_append,
      List.length_singleton, Nat.pow_succ]
    ring

theorem digitsValue_lt (hradix : 0 < radix) (cs : List Char) :
    digitsValue radix cs < radix ^ cs.length := by
  induction cs using List.reverseRecOn with
  | nil => simp [digitsValue]
  | append_singleton cs c ih =>
    have hdigit := getD_digitValue?_lt hradix c
    have hmul : (digitsValue radix cs + 1) * radix ≤ radix ^ cs.length * radix :=
      Nat.mul_le_mul_right _ ih
    rw [Nat.succ_mul] at hmul
    rw [digitsValue_concat, List.length_append, List.length_singleton, Nat.pow_succ]
    omega

/-- While 53 bits are enough all digits count. -/
theorem foldl_keepDigit_of_lt (hradix : 0 < radix) (h : digitsValue radix cs < twoTo 53) :
    cs.foldl (keepDigit radix) 0 = digitsValue radix cs := by
  induction cs using List.reverseRecOn with
  | nil => rfl
  | append_singleton cs c ih =>
    rw [digitsValue_concat] at h
    have hle : digitsValue radix cs ≤ digitsValue radix cs * radix :=
      Nat.le_mul_of_pos_right _ hradix
    have hlt : digitsValue radix cs < twoTo 53 := by omega
    rw [List.foldl_append, ih hlt, List.foldl_cons, List.foldl_nil, keepDigit, if_pos hlt,
      digitsValue_concat]

/-- Afterwards no digit counts. -/
theorem foldl_keepDigit_of_le (hradix : 0 < radix) (rest : List Char) :
    ∀ {n : Nat}, twoTo 53 ≤ n → rest.foldl (keepDigit radix) n = n * radix ^ rest.length := by
  induction rest with
  | nil => simp
  | cons c rest ih =>
    intro n hn
    have hle : n ≤ n * radix := Nat.le_mul_of_pos_right _ hradix
    rw [List.foldl_cons, keepDigit, if_neg (Nat.not_lt.mpr hn), Nat.add_zero, ih (hn.trans hle),
      List.length_cons, Nat.pow_succ']
    ring

theorem Overrun.foldl_keepDigit {front rest : List Char} (hradix : 0 < radix)
    (h : Overrun radix cs front rest) :
    cs.foldl (keepDigit radix) 0 = digitsValue radix front * radix ^ rest.length := by
  have hne : front ≠ [] := by
    rintro rfl
    exact absurd h.le_value (Nat.not_le.mpr (twoTo_pos 53))
  have hfront : front.foldl (keepDigit radix) 0 = digitsValue radix front := by
    rw [← List.dropLast_append_getLast hne, List.foldl_append,
      foldl_keepDigit_of_lt hradix h.value_lt, List.foldl_cons, List.foldl_nil, keepDigit,
      if_pos h.value_lt, digitsValue_concat]
  rw [h.eq_append, List.foldl_append, hfront, foldl_keepDigit_of_le hradix rest h.le_value]

theorem exists_overrun (h : twoTo 53 ≤ digitsValue radix cs) :
    ∃ front rest, Overrun radix cs front rest := by
  induction cs using List.reverseRecOn with
  | nil => exact absurd h (Nat.not_le.mpr (twoTo_pos 53))
  | append_singleton cs c ih =>
    rcases Nat.lt_or_ge (digitsValue radix cs) (twoTo 53) with hlt | hge
    · exact ⟨cs ++ [c], [], by simp, h, by rwa [List.dropLast_concat]⟩
    · obtain ⟨front, rest, hover⟩ := ih hge
      refine ⟨front, rest ++ [c], ?_, hover.le_value, hover.value_lt⟩
      rw [hover.eq_append, List.append_assoc]

/-- The digits that are read as zeros make the value smaller. -/
theorem Overrun.value_le {front rest : List Char} (h : Overrun radix cs front rest) :
    digitsValue radix front * radix ^ rest.length ≤ digitsValue radix cs := by
  rw [h.eq_append, digitsValue_append]
  exact Nat.le_add_right _ _

end Digits

/-! ### Reading -/

/-- Each radix is a power of two. -/
theorem twoTo_of_mem_radixes {mark : Char} {radix : Nat}
    (hmark : (mark, radix) ∈ Numeral.radixes) : ∃ k, radix = twoTo k ∧ radix ≤ 16 := by
  have hradixes : ∀ entry ∈ Numeral.radixes, ∃ k ∈ [4, 3, 1], entry.2 = twoTo k ∧ entry.2 ≤ 16 := by
    decide
  obtain ⟨k, -, hradix⟩ := hradixes _ hmark
  exact ⟨k, hradix⟩

namespace Number

/-- One digit is read: it counts, or it is rounded away. -/
theorem mul_add_digit {k radix d : Nat} {c : Char} (hradix : radix = twoTo k) (hle : radix ≤ 16)
    (hd : digitValue? radix c = some d) (n : Nat) :
    ((ofNat n).mul (ofNat radix)).add (ofNat d) = ofNat (keepDigit radix n c) := by
  have hbound : 16 < twoTo 53 := by decide
  have hdr : d < radix := lt_of_digitValue? hd
  rw [mul_ofNat n (by omega) (by omega), add_ofNat _ (by omega), keepDigit, hd]
  subst hradix
  rw [snap_mul_twoTo, snap_snap]
  rcases Nat.lt_or_ge n (twoTo 53) with hn | hn
  · rw [snap_of_onGrid (onGrid_of_lt hn), if_pos hn]
    rfl
  · have hlarge : twoTo 53 ≤ snap n 1 := by
      calc twoTo 53 = snap (twoTo 53) 1 := (snap_twoTo 53).symm
        _ ≤ snap n 1 := snap_le_snap hn
    rw [if_neg (Nat.not_lt.mpr hn), Nat.add_zero]
    refine ofNat_eq_ofNat ?_
    rw [(snap_mul_add_eq_iff hlarge hdr).mpr fun h => not_tiesDown_of_onGrid (snap_onGrid n 1) h.1,
      snap_snap, snap_mul_twoTo]

/-- All digits are read. -/
theorem ofRadixDigits_eq_ofNat {k radix : Nat} {cs : List Char} (hradix : radix = twoTo k)
    (hle : radix ≤ 16) (hne : cs ≠ []) (hcs : ∀ c ∈ cs, (digitValue? radix c).isSome) :
    ofRadixDigits radix cs = ofNat (cs.foldl (keepDigit radix) 0) := by
  have hloop : ∀ (cs : List Char) (n : Nat), (∀ c ∈ cs, (digitValue? radix c).isSome) →
      cs.foldlM (fun (x : Number) c => (digitValue? radix c).map fun d =>
        (x.mul (ofNat radix)).add (ofNat d)) (ofNat n) =
      some (ofNat (cs.foldl (keepDigit radix) n)) := by
    intro cs
    induction cs with
    | nil => intro n _; rfl
    | cons c cs ih =>
      intro n hcs
      rw [List.forall_mem_cons] at hcs
      obtain ⟨d, hd⟩ := Option.isSome_iff_exists.mp hcs.1
      rw [List.foldlM_cons, hd, List.foldl_cons, ← ih _ hcs.2, ← mul_add_digit hradix hle hd n]
      rfl
  rw [ofRadixDigits, if_neg (by simpa using hne), zero, hloop cs 0 hcs, Option.getD_some]

theorem ofText_of_radix {mark : Char} {radix : Nat} (hmark : (mark, radix) ∈ Numeral.radixes)
    {s : String} {cs : List Char} (hs : Text.trim s.toList = '0' :: mark :: cs) :
    ofText s = ofRadixDigits radix cs := by
  unfold ofText
  rw [hs]
  simp only [Numeral.radixes, List.mem_cons, Prod.mk.injEq, List.not_mem_nil, or_false] at hmark
  rcases hmark with ⟨rfl, rfl⟩ | ⟨rfl, rfl⟩ | ⟨rfl, rfl⟩ | ⟨rfl, rfl⟩ | ⟨rfl, rfl⟩ | ⟨rfl, rfl⟩
  all_goals rfl

end Number

/-- What is read is the value of all digits rounded once if nothing more than a half that
went down stands before digits that are not zero. -/
theorem Overrun.snap_eq_iff {k radix : Nat} {cs front rest : List Char} (hradix : radix = twoTo k)
    (h : Overrun radix cs front rest) :
    snap (digitsValue radix front * radix ^ rest.length) 1 = snap (digitsValue radix cs) 1 ↔
      (TiesDown (digitsValue radix front) → digitsValue radix rest = 0) := by
  have hpower : radix ^ rest.length = twoTo (k * rest.length) := by
    rw [hradix]
    exact (Nat.pow_mul 2 k rest.length).symm
  have hrest : digitsValue radix rest < twoTo (k * rest.length) := by
    rw [← hpower]
    exact digitsValue_lt (hradix ▸ twoTo_pos k) rest
  rw [h.eq_append, digitsValue_append, hpower, snap_mul_twoTo, eq_comm,
    snap_mul_add_eq_iff h.le_value hrest, not_and, Nat.not_lt, Nat.le_zero]

/-- **Digits are rounded once, or a half is lost.** Behind the digit with which the value
first needs more than 53 bits, digits are read as zeros. So the number read is the value of
all digits rounded once exactly if that does no harm: unless the value at that digit is half
way and goes down, or only zeros follow. -/
theorem ofText_isRounded_iff {mark : Char} {radix : Nat} (hmark : (mark, radix) ∈ Numeral.radixes)
    {s : String} {cs : List Char} (hs : Text.trim s.toList = '0' :: mark :: cs) (hne : cs ≠ [])
    (hcs : ∀ c ∈ cs, (digitValue? radix c).isSome) (hlimit : digitsValue radix cs < twoTo 1023) :
    ((Number.ofText s).IsRounded (digitsValue radix cs) ↔
      ∀ front rest, Overrun radix cs front rest → TiesDown (digitsValue radix front) →
        digitsValue radix rest = 0) ∧
    ∀ front rest, Overrun radix cs front rest →
      (Number.ofText s).IsRounded (digitsValue radix front * radix ^ rest.length) := by
  obtain ⟨k, hradix, hle⟩ := twoTo_of_mem_radixes hmark
  have hpos : 0 < radix := hradix ▸ twoTo_pos k
  have hread : Number.ofText s = .ofNat (cs.foldl (keepDigit radix) 0) := by
    rw [Number.ofText_of_radix hmark hs, Number.ofRadixDigits_eq_ofNat hradix hle hne hcs]
  have hkept : ∀ front rest, Overrun radix cs front rest →
      (Number.ofText s).IsRounded (digitsValue radix front * radix ^ rest.length) := by
    intro front rest h
    rw [Number.isRounded_iff, hread, h.foldl_keepDigit hpos]
    exact ⟨rfl, snap_lt_of_lt (h.value_le.trans_lt hlimit)⟩
  refine ⟨?_, hkept⟩
  rw [Number.isRounded_iff, and_iff_left (snap_lt_of_lt hlimit)]
  constructor
  · intro h front rest hover
    rw [(Number.isRounded_iff.mp (hkept front rest hover)).1,
      Number.ofNat_inj_of_lt (Number.isRounded_iff.mp (hkept front rest hover)).2,
      hover.snap_eq_iff hradix] at h
    exact h
  · intro h
    rcases Nat.lt_or_ge (digitsValue radix cs) (twoTo 53) with hlt | hge
    · rw [hread, foldl_keepDigit_of_lt hpos hlt]
    · obtain ⟨front, rest, hover⟩ := exists_overrun hge
      rw [(Number.isRounded_iff.mp (hkept front rest hover)).1]
      exact Number.ofNat_eq_ofNat ((hover.snap_eq_iff hradix).mpr (h front rest hover))

/-- Eighteen digits `f`, of which four are lost, are read as their value rounded once. -/
theorem allOnes_isRounded :
    Text.trim " 0xffffffffffffffffff".toList = '0' :: 'x' :: List.replicate 18 'f' ∧
      (Number.ofText " 0xffffffffffffffffff").IsRounded
        (digitsValue 16 (List.replicate 18 'f')) := by
  have htrim : Text.trim " 0xffffffffffffffffff".toList = '0' :: 'x' :: List.replicate 18 'f' := by
    decide +kernel
  have hties : ∀ n < 19, ¬ TiesDown (digitsValue 16 ((List.replicate 18 'f').take n)) := by
    decide +kernel
  have hdigits : ∀ c ∈ List.replicate 18 'f', (digitValue? 16 c).isSome :=
    List.all_eq_true.mp (by decide +kernel)
  refine ⟨htrim, (ofText_isRounded_iff (by decide) htrim (by decide) hdigits
    (by decide +kernel)).1.mpr fun front rest hover htie => ?_⟩
  have hfront : front = (List.replicate 18 'f').take front.length := by
    rw [hover.eq_append, List.take_left]
  have hlength : front.length < 19 := by
    have := congrArg List.length hover.eq_append
    simp only [List.length_replicate, List.length_append] at this
    omega
  exact absurd (hfront ▸ htie) (hties _ hlength)

/-- With the digit `1` the value `2 ^ 53 + 1` lies half way and goes down; the digit `8` after
it, which makes it `2 ^ 57 + 24`, is lost, so that `2 ^ 57` is read and not `2 ^ 57 + 32`. -/
theorem exists_lost_half : ∃ cs : List Char, '0' :: 'x' :: cs = "0x200000000000018".toList ∧
    (∀ c ∈ cs, (digitValue? 16 c).isSome) ∧ digitsValue 16 cs = 2 ^ 57 + 24 ∧
    RoundsTo (2 ^ 57 + 24 : Nat) (2 ^ 57 + 32) ∧
    Number.ofText "0x200000000000018" = .ofNat (2 ^ 57) ∧
    ¬ (Number.ofText "0x200000000000018").IsRounded (digitsValue 16 cs) := by
  refine ⟨"200000000000018".toList, by decide, List.all_eq_true.mp (by decide +kernel),
    by decide +kernel, ?_, by decide +kernel, fun h => ?_⟩
  · have hround := roundsTo_snap (2 ^ 57 + 24) Nat.one_pos
    rwa [Nat.cast_one, div_one] at hround
  · exact absurd (Number.isRounded_iff.mp h).1 (by decide +kernel)

end DeadBranch
