/-
# Reading UTF-8 undoes writing it

The bytes of a character are a first byte and further ones in the ranges that the
first one allows, and together they give the number of the character. The ranges
rule out exactly what is no character and what is written with more bytes than
needed (`spells_iff`). So bytes are read as a text exactly if they are the UTF-8
form of it (`decode_eq_ok_iff`).

Key definitions: `Utf8.Fits`, `Utf8.number`, `Utf8.Spells`.
Key theorems: `Utf8.spells_iff`, `Utf8.decodeFrom_spelled`, `Utf8.decode_eq_ok_iff`.
-/
import DeadBranch.Text.Utf8

namespace DeadBranch
namespace Utf8

/-- The bytes lie in the ranges, one in each. -/
def Fits : List (UInt8 × UInt8) → List UInt8 → Prop
  | [], [] => True
  | (low, high) :: ranges, b :: bytes => (low ≤ b ∧ b ≤ high) ∧ Fits ranges bytes
  | _, _ => False

/-- The number that further bytes make of the number so far. -/
def number (value : Nat) (bytes : List UInt8) : Nat :=
  bytes.foldl (fun n b => n * 64 + b.toNat % 64) value

/-- The bytes are read as the character. -/
def Spells (c : Char) : List UInt8 → Prop
  | [] => False
  | b :: bytes => ∃ n ranges, lead b = some (n, ranges) ∧ Fits ranges bytes ∧
    c = Char.ofNat (number n bytes)

theorem eq_nil_of_fits {bytes : List UInt8} (h : Fits [] bytes) : bytes = [] := by
  cases bytes with
  | nil => rfl
  | cons b rest => exact h.elim

theorem exists_of_fits {range : UInt8 × UInt8} {ranges : List (UInt8 × UInt8)} {bytes : List UInt8}
    (h : Fits (range :: ranges) bytes) :
    ∃ b rest, bytes = b :: rest ∧ range.1.toNat ≤ b.toNat ∧ b.toNat ≤ range.2.toNat ∧
      Fits ranges rest := by
  cases bytes with
  | nil => exact h.elim
  | cons b rest =>
    exact ⟨b, rest, rfl, UInt8.le_iff_toNat_le.mp h.1.1, UInt8.le_iff_toNat_le.mp h.1.2, h.2⟩

/-! ### Bytes that are read as a character -/

/-- What the first byte says, in numbers. -/
theorem lead_eq (b : UInt8) : lead b =
    if b.toNat < 0x80 then some (b.toNat, [])
    else if b.toNat < 0xc2 then none
    else if b.toNat < 0xe0 then some (b.toNat - 0xc0, [(0x80, 0xbf)])
    else if b.toNat < 0xf0 then
      some (b.toNat - 0xe0, [if b.toNat = 0xe0 then (0xa0, 0xbf)
        else if b.toNat = 0xed then (0x80, 0x9f) else (0x80, 0xbf), (0x80, 0xbf)])
    else if b.toNat < 0xf5 then
      some (b.toNat - 0xf0, [if b.toNat = 0xf0 then (0x90, 0xbf)
        else if b.toNat = 0xf4 then (0x80, 0x8f) else (0x80, 0xbf), (0x80, 0xbf), (0x80, 0xbf)])
    else none := by
  simp only [lead, UInt8.lt_iff_toNat_lt, ← UInt8.toNat_inj, UInt8.reduceToNat]

theorem val_ofNat {n : Nat} (h : n.isValidChar) : (Char.ofNat n).val.toNat = n := by
  have hc : Char.ofNat n = Char.ofNatAux n h := dif_pos h
  rw [hc]
  rfl

theorem byte_eq {b : UInt8} {n : Nat} (h : b.toNat = n) : UInt8.ofNat n = b := by
  rw [← h, UInt8.ofNat_toNat]

/-- The range for the second byte, which depends on the first. -/
theorem second_bounds_iff {first p q : Nat} {low high b : UInt8} (hpq : p ≠ q)
    (hlow : 0x80 ≤ low.toNat) (hhigh : high.toNat ≤ 0xbf) {range : UInt8 × UInt8}
    (hrange : range =
      if first = p then (low, 0xbf) else if first = q then (0x80, high) else (0x80, 0xbf)) :
    range.1.toNat ≤ b.toNat ∧ b.toNat ≤ range.2.toNat ↔
      0x80 ≤ b.toNat ∧ b.toNat ≤ 0xbf ∧ (first = p → low.toNat ≤ b.toNat) ∧
        (first = q → b.toNat ≤ high.toNat) := by
  by_cases hp : first = p
  · rw [if_pos hp] at hrange
    simp only [hrange, UInt8.reduceToNat]
    omega
  by_cases hq : first = q
  · rw [if_neg hp, if_pos hq] at hrange
    simp only [hrange, UInt8.reduceToNat]
    omega
  · rw [if_neg hp, if_neg hq] at hrange
    simp only [hrange, UInt8.reduceToNat]
    omega

theorem encodeChar_two {b t : UInt8} {n : Nat} (hb : 0xc2 ≤ b.toNat ∧ b.toNat < 0xe0)
    (ht : 0x80 ≤ t.toNat ∧ t.toNat ≤ 0xbf) (hn : n = (b.toNat - 0xc0) * 64 + t.toNat % 64) :
    String.utf8EncodeChar (Char.ofNat n) = [b, t] := by
  have hvalid : n.isValidChar := .inl (by omega)
  simp only [String.utf8EncodeChar, val_ofNat hvalid]
  rw [if_neg (by omega), if_pos (by omega), byte_eq (b := b) (by omega),
    byte_eq (b := t) (by omega)]

theorem encodeChar_three {b t u : UInt8} {n : Nat} (hb : 0xe0 ≤ b.toNat ∧ b.toNat < 0xf0)
    (ht : 0x80 ≤ t.toNat ∧ t.toNat ≤ 0xbf ∧ (b.toNat = 0xe0 → 0xa0 ≤ t.toNat) ∧
      (b.toNat = 0xed → t.toNat ≤ 0x9f))
    (hu : 0x80 ≤ u.toNat ∧ u.toNat ≤ 0xbf)
    (hn : n = ((b.toNat - 0xe0) * 64 + t.toNat % 64) * 64 + u.toNat % 64) :
    String.utf8EncodeChar (Char.ofNat n) = [b, t, u] := by
  -- the surrogates are what the last condition on the second byte leaves out
  have hvalid : n.isValidChar := by
    unfold Nat.isValidChar
    omega
  simp only [String.utf8EncodeChar, val_ofNat hvalid]
  rw [if_neg (by omega), if_neg (by omega), if_pos (by omega), byte_eq (b := b) (by omega),
    byte_eq (b := t) (by omega), byte_eq (b := u) (by omega)]

theorem encodeChar_four {b t u w : UInt8} {n : Nat} (hb : 0xf0 ≤ b.toNat ∧ b.toNat < 0xf5)
    (ht : 0x80 ≤ t.toNat ∧ t.toNat ≤ 0xbf ∧ (b.toNat = 0xf0 → 0x90 ≤ t.toNat) ∧
      (b.toNat = 0xf4 → t.toNat ≤ 0x8f))
    (hu : 0x80 ≤ u.toNat ∧ u.toNat ≤ 0xbf) (hw : 0x80 ≤ w.toNat ∧ w.toNat ≤ 0xbf)
    (hn : n = (((b.toNat - 0xf0) * 64 + t.toNat % 64) * 64 + u.toNat % 64) * 64 + w.toNat % 64) :
    String.utf8EncodeChar (Char.ofNat n) = [b, t, u, w] := by
  have hvalid : n.isValidChar := by
    unfold Nat.isValidChar
    omega
  simp only [String.utf8EncodeChar, val_ofNat hvalid]
  rw [if_neg (by omega), if_neg (by omega), if_neg (by omega), byte_eq (b := b) (by omega),
    byte_eq (b := t) (by omega), byte_eq (b := u) (by omega), byte_eq (b := w) (by omega)]

theorem encodeChar_of_spells {c : Char} {bytes : List UInt8} (h : Spells c bytes) :
    bytes = String.utf8EncodeChar c := by
  cases bytes with
  | nil => exact h.elim
  | cons b bytes =>
    obtain ⟨n, ranges, hlead, hfits, rfl⟩ := h
    rw [lead_eq] at hlead
    -- by the first byte there are one, no, two, three, four or no bytes
    split at hlead
    · obtain ⟨rfl, rfl⟩ := Prod.mk.inj (Option.some.inj hlead)
      obtain rfl := eq_nil_of_fits hfits
      have hval : (Char.ofNat b.toNat).val.toNat = b.toNat := val_ofNat (.inl (by omega))
      simp only [String.utf8EncodeChar, number, List.foldl_nil, hval]
      rw [if_pos (by omega), UInt8.ofNat_toNat]
    split at hlead
    · exact nomatch hlead
    split at hlead
    · obtain ⟨rfl, rfl⟩ := Prod.mk.inj (Option.some.inj hlead)
      obtain ⟨t, _, rfl, ht, ht', hfits⟩ := exists_of_fits hfits
      obtain rfl := eq_nil_of_fits hfits
      exact (encodeChar_two (by omega) ⟨ht, ht'⟩ rfl).symm
    split at hlead
    · obtain ⟨rfl, rfl⟩ := Prod.mk.inj (Option.some.inj hlead)
      obtain ⟨t, _, rfl, ht, ht', hfits⟩ := exists_of_fits hfits
      obtain ⟨u, _, rfl, hu, hu', hfits⟩ := exists_of_fits hfits
      obtain rfl := eq_nil_of_fits hfits
      have hsecond := (second_bounds_iff (by decide) (by decide) (by decide) rfl).mp ⟨ht, ht'⟩
      exact (encodeChar_three (by omega) hsecond ⟨hu, hu'⟩ rfl).symm
    split at hlead
    · obtain ⟨rfl, rfl⟩ := Prod.mk.inj (Option.some.inj hlead)
      obtain ⟨t, _, rfl, ht, ht', hfits⟩ := exists_of_fits hfits
      obtain ⟨u, _, rfl, hu, hu', hfits⟩ := exists_of_fits hfits
      obtain ⟨w, _, rfl, hw, hw', hfits⟩ := exists_of_fits hfits
      obtain rfl := eq_nil_of_fits hfits
      have hsecond := (second_bounds_iff (by decide) (by decide) (by decide) rfl).mp ⟨ht, ht'⟩
      exact (encodeChar_four (by omega) hsecond ⟨hu, hu'⟩ ⟨hw, hw'⟩ rfl).symm
    · exact nomatch hlead

/-! ### The bytes of a character -/

theorem toNat_byte {n : Nat} (h : n < 256) : (UInt8.ofNat n).toNat = n := by
  rw [UInt8.toNat_ofNat']
  omega

theorem fits_cons {range : UInt8 × UInt8} {ranges : List (UInt8 × UInt8)} {b : UInt8}
    {bytes : List UInt8} (hb : range.1.toNat ≤ b.toNat ∧ b.toNat ≤ range.2.toNat)
    (h : Fits ranges bytes) : Fits (range :: ranges) (b :: bytes) :=
  ⟨⟨UInt8.le_iff_toNat_le.mpr hb.1, UInt8.le_iff_toNat_le.mpr hb.2⟩, h⟩

/-- A further byte, which holds six bits of a number. -/
theorem fits_low {n : Nat} {ranges : List (UInt8 × UInt8)} {bytes : List UInt8}
    (h : Fits ranges bytes) :
    Fits ((0x80, 0xbf) :: ranges) (UInt8.ofNat (n % 64 + 128) :: bytes) := by
  refine fits_cons ?_ h
  rw [toNat_byte (by omega)]
  simp only [UInt8.reduceToNat]
  omega

theorem number_cons (value n : Nat) (bytes : List UInt8) :
    number value (UInt8.ofNat (n % 64 + 128) :: bytes) = number (value * 64 + n % 64) bytes := by
  rw [number, List.foldl_cons, toNat_byte (by omega), number]
  congr 1
  omega

theorem spells_encodeChar (c : Char) : Spells c (String.utf8EncodeChar c) := by
  have hvalid : c.val.toNat < 0xd800 ∨ 0xdfff < c.val.toNat ∧ c.val.toNat < 0x110000 := c.valid
  have hc : Char.ofNat c.val.toNat = c := Char.ofNat_toNat c
  unfold String.utf8EncodeChar
  generalize c.val.toNat = n at *
  dsimp only
  -- the number needs one, two, three or four bytes
  split
  · have hb : (UInt8.ofNat n).toNat = n := toNat_byte (by omega)
    have hlead := lead_eq (UInt8.ofNat n)
    rw [hb, if_pos (by omega)] at hlead
    exact ⟨n, [], hlead, trivial, hc.symm⟩
  split
  · have hb : (UInt8.ofNat (n / 64 % 32 + 192)).toNat = n / 64 + 192 := by
      rw [toNat_byte (by omega)]
      omega
    have hlead := lead_eq (UInt8.ofNat (n / 64 % 32 + 192))
    rw [hb, if_neg (by omega), if_neg (by omega), if_pos (by omega)] at hlead
    refine ⟨_, _, hlead, fits_low trivial, ?_⟩
    rw [number_cons, number, List.foldl_nil, ← hc]
    congr 1
    omega
  split
  · have hb : (UInt8.ofNat (n / 4096 % 16 + 224)).toNat = n / 4096 + 224 := by
      rw [toNat_byte (by omega)]
      omega
    have hlead := lead_eq (UInt8.ofNat (n / 4096 % 16 + 224))
    rw [hb, if_neg (by omega), if_neg (by omega), if_neg (by omega), if_pos (by omega)] at hlead
    have hsecond : (UInt8.ofNat (n / 64 % 64 + 128)).toNat = n / 64 % 64 + 128 :=
      toNat_byte (by omega)
    refine ⟨_, _, hlead,
      fits_cons ((second_bounds_iff (by decide) (by decide) (by decide) rfl).mpr ?_)
        (fits_low trivial), ?_⟩
    · simp only [UInt8.reduceToNat, hsecond]
      omega
    · rw [number_cons, number_cons, number, List.foldl_nil, ← hc]
      congr 1
      omega
  · have hb : (UInt8.ofNat (n / 262144 % 8 + 240)).toNat = n / 262144 + 240 := by
      rw [toNat_byte (by omega)]
      omega
    have hlead := lead_eq (UInt8.ofNat (n / 262144 % 8 + 240))
    rw [hb, if_neg (by omega), if_neg (by omega), if_neg (by omega), if_neg (by omega),
      if_pos (by omega)] at hlead
    have hsecond : (UInt8.ofNat (n / 4096 % 64 + 128)).toNat = n / 4096 % 64 + 128 :=
      toNat_byte (by omega)
    refine ⟨_, _, hlead,
      fits_cons ((second_bounds_iff (by decide) (by decide) (by decide) rfl).mpr ?_)
        (fits_low (fits_low trivial)), ?_⟩
    · simp only [UInt8.reduceToNat, hsecond]
      omega
    · rw [number_cons, number_cons, number_cons, number, List.foldl_nil, ← hc]
      congr 1
      omega

/-- **The bytes that are read as a character are its UTF-8 form.** -/
theorem spells_iff {c : Char} {bytes : List UInt8} :
    Spells c bytes ↔ bytes = String.utf8EncodeChar c := by
  refine ⟨encodeChar_of_spells, ?_⟩
  rintro rfl
  exact spells_encodeChar c

/-! ### Texts -/

/-- The rest of a character is read byte by byte. -/
theorem decodeFrom_fits {ranges : List (UInt8 × UInt8)} :
    ∀ {bytes : List UInt8}, Fits ranges bytes → ranges ≠ [] → ∀ (start seen value : Nat) rest,
      decodeFrom start seen value ranges (bytes ++ rest) =
        (decodeFrom (start + seen + bytes.length) 0 0 [] rest).map
          (Char.ofNat (number value bytes) :: ·) := by
  induction ranges with
  | nil => intro _ _ hne; exact absurd rfl hne
  | cons range ranges ih =>
    intro bytes hfits _ start seen value rest
    cases bytes with
    | nil => exact hfits.elim
    | cons b bytes =>
      obtain ⟨hb, hfits⟩ := hfits
      rw [List.cons_append, decodeFrom, if_pos hb]
      cases ranges with
      | nil =>
        obtain rfl := eq_nil_of_fits hfits
        rfl
      | cons next later =>
        have hrest := ih hfits (List.cons_ne_nil next later) start (seen + 1)
          (value * 64 + b.toNat % 64) rest
        simp only [List.isEmpty_cons, Bool.false_eq_true, ↓reduceIte, hrest, List.length_cons]
        congr 2
        omega

/-- A character is read from the bytes that spell it. -/
theorem decodeFrom_spelled {c : Char} {bytes : List UInt8} (h : Spells c bytes) (start : Nat)
    (rest : List UInt8) : decodeFrom start 0 0 [] (bytes ++ rest) =
      (decodeFrom (start + bytes.length) 0 0 [] rest).map (c :: ·) := by
  cases bytes with
  | nil => exact h.elim
  | cons b bytes =>
    obtain ⟨n, ranges, hlead, hfits, rfl⟩ := h
    rw [List.cons_append, decodeFrom]
    cases ranges with
    | nil =>
      obtain rfl := eq_nil_of_fits hfits
      simp only [hlead]
      rfl
    | cons range ranges =>
      simp only [hlead]
      rw [decodeFrom_fits hfits (List.cons_ne_nil range ranges), List.length_cons,
        Nat.add_assoc start, Nat.add_comm 1]

theorem exists_of_decodeFrom_ranges {ranges : List (UInt8 × UInt8)} :
    ∀ {bytes : List UInt8} {start seen value : Nat} {cs : List Char}, ranges ≠ [] →
      decodeFrom start seen value ranges bytes = .ok cs →
      ∃ front rest, bytes = front ++ rest ∧ Fits ranges front := by
  induction ranges with
  | nil => intro _ _ _ _ _ hne; exact absurd rfl hne
  | cons range ranges ih =>
    intro bytes start seen value cs _ hok
    cases bytes with
    | nil => exact nomatch hok
    | cons b bytes =>
      rw [decodeFrom] at hok
      split at hok
      · rename_i hb
        cases ranges with
        | nil => exact ⟨[b], bytes, rfl, hb, trivial⟩
        | cons next later =>
          obtain ⟨front, rest, rfl, hfits⟩ := ih (List.cons_ne_nil next later) hok
          exact ⟨b :: front, rest, rfl, hb, hfits⟩
      · exact nomatch hok

/-- Bytes that are read as a text begin with the bytes of a character. -/
theorem exists_of_decodeFrom {start : Nat} {b : UInt8} {bytes : List UInt8} {cs : List Char}
    (hok : decodeFrom start 0 0 [] (b :: bytes) = .ok cs) :
    ∃ c front rest, b :: bytes = front ++ rest ∧ Spells c front := by
  rw [decodeFrom] at hok
  cases hlead : lead b with
  | none =>
    rw [hlead] at hok
    exact nomatch hok
  | some found =>
    obtain ⟨n, ranges⟩ := found
    cases ranges with
    | nil => exact ⟨_, [b], bytes, rfl, n, [], hlead, trivial, rfl⟩
    | cons range ranges =>
      rw [hlead] at hok
      obtain ⟨front, rest, rfl, hfits⟩ :=
        exists_of_decodeFrom_ranges (List.cons_ne_nil range ranges) hok
      exact ⟨_, b :: front, rest, rfl, n, range :: ranges, hlead, hfits, rfl⟩

theorem decodeFrom_encoded (cs : List Char) : ∀ start,
    decodeFrom start 0 0 [] (cs.flatMap String.utf8EncodeChar) = .ok cs := by
  induction cs with
  | nil => intro start; rfl
  | cons c cs ih =>
    intro start
    rw [List.flatMap_cons, decodeFrom_spelled (spells_encodeChar c), ih]
    rfl

/-- The induction is on the number of bytes: each step reads a whole character. -/
theorem encoded_of_decodeFrom {bytes : List UInt8} {start : Nat} {cs : List Char}
    (hok : decodeFrom start 0 0 [] bytes = .ok cs) : cs.flatMap String.utf8EncodeChar = bytes := by
  induction hn : bytes.length using Nat.strongRecOn generalizing bytes start cs with
  | ind n ih =>
    cases bytes with
    | nil =>
      cases hok
      rfl
    | cons b bytes =>
      obtain ⟨c, front, rest, hsplit, hspells⟩ := exists_of_decodeFrom hok
      rw [hsplit] at hok hn ⊢
      rw [decodeFrom_spelled hspells] at hok
      have hpos : front.length ≠ 0 := by
        rintro hzero
        rw [List.eq_nil_of_length_eq_zero hzero] at hspells
        exact hspells
      cases hrest : decodeFrom (start + front.length) 0 0 [] rest with
      | error fault =>
        rw [hrest] at hok
        exact nomatch hok
      | ok later =>
        rw [hrest] at hok
        cases hok
        rw [List.length_append] at hn
        rw [List.flatMap_cons, ih rest.length (by omega) hrest rfl, spells_iff.mp hspells]

theorem encode_eq (s : String) : encode s = s.toList.flatMap String.utf8EncodeChar := by
  have h : s.toByteArray = s.toList.utf8Encode := by
    rw [← String.toByteArray_ofList, String.ofList_toList]
  rw [encode, String.toUTF8_eq_toByteArray, h]
  exact List.toList_data_toByteArray ..

/-- **Bytes are read as a text exactly if they are its UTF-8 form.** -/
theorem decode_eq_ok_iff {bytes : List UInt8} {s : String} :
    decode bytes = .ok s ↔ encode s = bytes := by
  rw [encode_eq, decode]
  constructor
  · intro h
    cases hcs : decodeFrom 0 0 0 [] bytes with
    | error fault =>
      rw [hcs] at h
      exact nomatch h
    | ok cs =>
      rw [hcs] at h
      cases h
      rw [String.toList_ofList]
      exact encoded_of_decodeFrom hcs
  · rintro rfl
    rw [decodeFrom_encoded]
    exact congrArg Except.ok String.ofList_toList

end Utf8
end DeadBranch
