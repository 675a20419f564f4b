/-
# Segments and the texts of keys

A property key is a text. A segment keeps the key of an array index as a number and
any other key as the text itself, so a segment tells the key it was made from
(`Segment.key_ofKey`), and keys meet in one segment exactly if they are the same text
(`Segment.ofKey_inj`). Two ways to a segment do not go through the text of the key: an
element of an array has its index, and a name that is written as such is kept as it
is. Both come to the segment of the key: for indices below the limit
(`Segment.ofKey_key_index`), and for names since none begins with a digit
(`Segment.ofKey_of_isIdentifier`).

Key definitions: `Key.text?`, `Text.isIdentifier`.
Key theorems: `Segment.key_ofKey`, `Segment.ofKey_inj`, `Segment.ofKey_key_index`,
`Segment.ofKey_of_isIdentifier`.
-/
import DeadBranch.Bind
import DeadBranch.Proofs.Objects
import DeadBranch.Text.Name

namespace DeadBranch

/-! ### Numerals -/

/-- The numeral of a number stands for the number. -/
theorem decimalValue_toDigits (n : Nat) : decimalValue (Nat.toDigits 10 n) = n := by
  calc decimalValue (Nat.toDigits 10 n)
      = Nat.ofDigitChars 10 (Nat.toDigits 10 n) 0 := by
        simp only [decimalValue, Nat.ofDigitChars_eq_foldl, Nat.mul_comm]
    _ = n := Nat.ofDigitChars_ten_toDigits

theorem toDigits_inj {m n : Nat} : Nat.toDigits 10 m = Nat.toDigits 10 n ↔ m = n := by
  refine ⟨fun h => ?_, congrArg _⟩
  rw [← decimalValue_toDigits m, h, decimalValue_toDigits]

/-! ### Keys and segments -/

namespace Segment

/-- A segment keeps its key. -/
@[simp] theorem key_ofKey (key : String) : (ofKey key).key = key := by
  simp only [ofKey]
  split
  · next h => exact h.1.symm
  · rfl

theorem ofKey_inj {j k : String} : ofKey j = ofKey k ↔ j = k := by
  refine ⟨fun h => ?_, congrArg _⟩
  rw [← key_ofKey j, h, key_ofKey]

theorem key_index_inj {i j : Nat} : (index i).key = (index j).key ↔ i = j := by
  simp only [key, String.ofList_inj, toDigits_inj]

/-- The index of an element is the segment of its key. -/
theorem ofKey_key_index {i : Nat} (h : i < indexLimit) : ofKey (index i).key = index i := by
  simp [ofKey, key, decimalValue_toDigits, h]

end Segment

/-- The text of a key that is not computed. -/
def Key.text? : Key → Option String
  | .ident name => some name
  | .string value _ => some value
  | .number value _ => some value.toText
  | .bigint value _ => some (String.ofList (Nat.toDigits 10 value))
  | .computed _ | .privateName _ => none

/-- The segment for such a key keeps its text. -/
theorem Key.text?_of_segment? {key : Key} {known : Associations} {s : Segment}
    (hkey : ∀ e, key ≠ .computed e) (hs : key.segment? known = some s) :
    key.text? = some s.key := by
  cases key with
  | ident name =>
    obtain rfl := Option.some.inj hs
    rfl
  | string value raw | number value raw | bigint value raw =>
    obtain rfl := Option.some.inj hs
    exact congrArg some (Segment.key_ofKey _).symm
  | computed e => exact absurd rfl (hkey e)
  | privateName name => cases hs

/-! ### Names -/

/-- Is the text a name as it is written in a program? -/
def Text.isIdentifier (s : String) : Bool :=
  match s.toList with
  | [] => false
  | c :: cs => isNameStart c && cs.all isNamePart

theorem Text.not_isDigit_of_isNameStart {c : Char} (h : isNameStart c = true) :
    c.isDigit = false := by
  rw [Bool.eq_false_iff]
  intro hdigit
  have hlow : 48 ≤ c.toNat ∧ c.toNat ≤ 57 := Char.isDigit_iff_toNat.mp hdigit
  have hsmall : c.toNat < 128 := by omega
  simp only [isNameStart, hsmall, if_true, Bool.or_eq_true, beq_iff_eq] at h
  rcases h with (h | rfl) | rfl
  · change (decide (c.val ≥ 65 ∧ c.val ≤ 90) ||
      (decide (c.val ≥ 97) && decide (c.val ≤ 122))) = true at h
    simp only [Bool.or_eq_true, Bool.and_eq_true, decide_eq_true_eq, ge_iff_le,
      UInt32.le_iff_toNat_le] at h
    change 65 ≤ c.toNat ∧ c.toNat ≤ 90 ∨ 97 ≤ c.toNat ∧ c.toNat ≤ 122 at h
    omega
  · simp at hlow
  · simp at hlow

/-- A name is no numeral. -/
theorem Segment.ofKey_of_isIdentifier {name : String} (h : Text.isIdentifier name = true) :
    ofKey name = .name name := by
  simp only [ofKey]
  refine if_neg fun hnumeral => ?_
  obtain ⟨c, cs, hname⟩ : ∃ c cs, name.toList = c :: cs := by
    cases hlist : name.toList with
    | nil => simp [Text.isIdentifier, hlist] at h
    | cons c cs => exact ⟨c, cs, rfl⟩
  have hstart : Text.isNameStart c = true := by
    simp only [Text.isIdentifier, hname, Bool.and_eq_true] at h
    exact h.1
  have hdigit : c.isDigit = true := by
    have hlist : c :: cs = Nat.toDigits 10 (decimalValue name.toList) := by
      rw [← hname, ← String.toList_ofList (l := Nat.toDigits 10 _), ← hnumeral.1]
    have hmem : c ∈ Nat.toDigits 10 (decimalValue name.toList) := hlist ▸ List.mem_cons_self
    exact Nat.isDigit_of_mem_toDigits (by decide) (by decide) hmem
  simp [Text.not_isDigit_of_isNameStart hstart] at hdigit

end DeadBranch
