/-
# Which texts are numerals

A text is a numeral if, apart from blanks at its ends, it is empty, a row of digits of
radix sixteen, eight or two after `0x`, `0o` or `0b`, or a decimal or `Infinity` with or
without a sign. The grammar (`Literal`) says how numerals are put together, and nothing of
how they are read.

Reading a text gives something else than the NaN exactly if the text is a numeral
(`ofText_ne_nan_iff`), where the blanks are the white space and line ends of the language
and one more character: the next-line control U+0085 has the Unicode property
`White_Space` but is no white space of the language.

Key definitions: `Digits`, `Exponent`, `Plain`, `Literal`, `Numeric`, `isSpace`.
Key theorems: `isSome_ofDecimalText?`, `ofRadixDigits_ne_nan_iff`, `literal_trim_iff`,
`ofText_ne_nan_iff`.
-/
import DeadBranch.Number.Text
import Mathlib.Data.List.TakeWhile

namespace DeadBranch
namespace Numeral

/-! ### The grammar -/

/-- White space: tab, vertical tab, form feed, the byte-order mark and the space
separators of Unicode. -/
def spaces : List Nat :=
  [0x9, 0xb, 0xc, 0xfeff, 0x20, 0xa0, 0x1680, 0x2000, 0x2001, 0x2002, 0x2003, 0x2004, 0x2005,
    0x2006, 0x2007, 0x2008, 0x2009, 0x200a, 0x202f, 0x205f, 0x3000]

/-- Line ends: line feed, carriage return, line separator and paragraph separator. -/
def lineEnds : List Nat := [0xa, 0xd, 0x2028, 0x2029]

/-- White space or a line end. -/
def isSpace (c : Char) : Bool := (spaces ++ lineEnds).contains c.toNat

/-- The next-line control, U+0085. -/
def isNextLine (c : Char) : Bool := c.toNat == 0x85

/-- One or more decimal digits. -/
structure Digits (cs : List Char) : Prop where
  ne_nil : cs ≠ []
  digits : ∀ c ∈ cs, isDigit c

/-- A text of some form, with or without a sign in front. -/
inductive Signed (form : List Char → Prop) : List Char → Prop
  | bare {cs : List Char} (h : form cs) : Signed form cs
  | plus {cs : List Char} (h : form cs) : Signed form ('+' :: cs)
  | minus {cs : List Char} (h : form cs) : Signed form ('-' :: cs)

/-- The exponent of a decimal, if there is one. -/
inductive Exponent : List Char → Prop
  | absent : Exponent []
  | marked {c : Char} {cs : List Char} (hc : c = 'e' ∨ c = 'E') (h : Signed Digits cs) :
    Exponent (c :: cs)

/-- A decimal without a sign. -/
inductive Plain : List Char → Prop
  /-- As in `12` and `12e3`. -/
  | whole {w x : List Char} (hw : Digits w) (hx : Exponent x) : Plain (w ++ x)
  /-- As in `12.` and `12.5e3`. -/
  | point {w f x : List Char} (hw : Digits w) (hf : ∀ c ∈ f, isDigit c) (hx : Exponent x) :
    Plain (w ++ '.' :: (f ++ x))
  /-- As in `.5` and `.5e3`. -/
  | fraction {f x : List Char} (hf : Digits f) (hx : Exponent x) : Plain ('.' :: (f ++ x))

/-- The digits that a mark after `0` announces. -/
def radixDigit? (mark : Char) : Option (Char → Bool) :=
  if mark = 'x' ∨ mark = 'X' then
    some fun c => isDigit c || ('a' ≤ c && c ≤ 'f') || ('A' ≤ c && c ≤ 'F')
  else if mark = 'o' ∨ mark = 'O' then some fun c => '0' ≤ c && c ≤ '7'
  else if mark = 'b' ∨ mark = 'B' then some fun c => c == '0' || c == '1'
  else none

/-- A numeral without blanks. -/
inductive Literal : List Char → Prop
  | nothing : Literal []
  | radix {mark : Char} {isDigitOf : Char → Bool} {cs : List Char}
    (hmark : radixDigit? mark = some isDigitOf) (hcs : cs ≠ []) (h : ∀ c ∈ cs, isDigitOf c) :
    Literal ('0' :: mark :: cs)
  | infinity {cs : List Char} (h : Signed (· = "Infinity".toList) cs) : Literal cs
  | decimal {cs : List Char} (h : Signed Plain cs) : Literal cs

/-- A numeral with blanks at its ends. -/
def Numeric (isBlank : Char → Bool) (cs : List Char) : Prop :=
  ∃ before literal after, cs = before ++ literal ++ after ∧ Literal literal ∧
    (∀ c ∈ before, isBlank c) ∧ ∀ c ∈ after, isBlank c

/-! ### Characters -/

theorem isDigit_iff (c : Char) : isDigit c ↔ 48 ≤ c.toNat ∧ c.toNat ≤ 57 := by
  simp only [isDigit, Bool.and_eq_true, decide_eq_true_eq]
  exact Iff.rfl

theorem char_le_iff (c d : Char) : c ≤ d ↔ c.toNat ≤ d.toNat := Iff.rfl

theorem isBlank_eq (c : Char) : Text.isBlank c = (isSpace c || isNextLine c) := by
  rw [Bool.eq_iff_iff]
  simp only [Text.isBlank, Ranges.contains, Text.blanks, List.any_cons, List.any_nil,
    Bool.or_false, Bool.or_eq_true, Bool.and_eq_true, decide_eq_true_eq, isSpace, spaces, lineEnds,
    List.cons_append, List.nil_append, List.contains_iff_mem, List.mem_cons, List.not_mem_nil,
    or_false, isNextLine, beq_iff_eq]
  omega

/-- Is it a character of ASCII that is printed, other than a space? -/
def isVisible (c : Char) : Bool := 33 ≤ c.toNat && c.toNat ≤ 126

theorem isVisible_iff (c : Char) : isVisible c ↔ 33 ≤ c.toNat ∧ c.toNat ≤ 126 := by
  simp [isVisible]

theorem isBlank_of_isSpace {c : Char} (h : isSpace c) : Text.isBlank c := by
  rw [isBlank_eq, h, Bool.true_or]

theorem not_isNextLine_of_isSpace {c : Char} (h : isSpace c) : isNextLine c = false := by
  have hspaces : ∀ n ∈ spaces ++ lineEnds, (n == 0x85) = false := by decide
  exact hspaces c.toNat (List.contains_iff_mem.mp h)

theorem not_isNextLine_of_isVisible {c : Char} (h : isVisible c) : isNextLine c = false := by
  rw [isVisible_iff] at h
  rw [isNextLine, beq_eq_false_iff_ne]
  omega

theorem not_isBlank_of_isVisible {c : Char} (h : isVisible c) : Text.isBlank c = false := by
  have hspaces : ∀ n ∈ spaces ++ lineEnds, n < 33 ∨ 126 < n := by decide
  have hspace : isSpace c = false := by
    rw [isSpace, ← Bool.not_eq_true, List.contains_iff_mem]
    intro hmem
    have houtside := hspaces c.toNat hmem
    rw [isVisible_iff] at h
    omega
  rw [isBlank_eq, hspace, not_isNextLine_of_isVisible h, Bool.or_false]

/-! ### Signs and exponents -/

section Sign

variable {form : List Char → Prop} {cs : List Char}

theorem splitSign_of_head (h : ∀ c ∈ cs.head?, c ≠ '+' ∧ c ≠ '-') :
    Number.splitSign cs = (false, cs) := by
  unfold Number.splitSign
  split
  · simp at h
  · simp at h
  · rfl

/-- A form that does not begin with a sign is looked for after the sign. -/
theorem signed_iff (hform : ∀ cs, form cs → ∀ c ∈ cs.head?, c ≠ '+' ∧ c ≠ '-') :
    Signed form cs ↔ form (Number.splitSign cs).2 := by
  constructor
  · intro h
    cases h with
    | bare h => rw [splitSign_of_head (hform cs h)]; exact h
    | plus h => exact h
    | minus h => exact h
  · unfold Number.splitSign
    split
    · exact .minus
    · exact .plus
    · exact .bare

end Sign

theorem Digits.head_append {w : List Char} (h : Digits w) (r : List Char) :
    ∀ c ∈ (w ++ r).head?, isDigit c := by
  cases w with
  | nil => exact absurd rfl h.ne_nil
  | cons c w => simpa using h.digits c List.mem_cons_self

theorem ne_sign_of_isDigit {c : Char} (h : isDigit c) : c ≠ '+' ∧ c ≠ '-' := by
  constructor <;> (rintro rfl; exact absurd h (by decide))

theorem digits_iff (cs : List Char) : Digits cs ↔ cs ≠ [] ∧ cs.all isDigit := by
  rw [List.all_eq_true]
  exact ⟨fun h => ⟨h.ne_nil, h.digits⟩, fun h => ⟨h.1, h.2⟩⟩

theorem isSome_exponentPart? (cs : List Char) :
    (Number.exponentPart? cs).isSome ↔ Exponent cs := by
  cases cs with
  | nil => simp [Number.exponentPart?, Exponent.absent]
  | cons c cs =>
    have hdigits : Signed Digits cs ↔ Digits (Number.splitSign cs).2 :=
      signed_iff fun cs h c hc => ne_sign_of_isDigit (h.digits c (List.mem_of_mem_head? hc))
    have hexponent : Exponent (c :: cs) ↔ (c = 'e' ∨ c = 'E') ∧ Signed Digits cs := by
      constructor
      · rintro (_ | ⟨hc, h⟩)
        exact ⟨hc, h⟩
      · rintro ⟨hc, h⟩
        exact .marked hc h
    rw [hexponent, hdigits, digits_iff, Number.exponentPart?]
    split
    simp_all

/-! ### Decimals -/

theorem Exponent.head {cs : List Char} (h : Exponent cs) :
    ∀ c ∈ cs.head?, isDigit c = false ∧ c ≠ '.' := by
  cases h with
  | absent => simp
  | marked hc h =>
    rcases hc with rfl | rfl
    · simpa using (by decide : isDigit 'e' = false)
    · simpa using (by decide : isDigit 'E' = false)

/-- A row of digits ends where no digit follows. -/
theorem span_digits {w r : List Char} (hw : ∀ c ∈ w, isDigit c)
    (hr : ∀ c ∈ r.head?, isDigit c = false) :
    (w ++ r).takeWhile isDigit = w ∧ (w ++ r).dropWhile isDigit = r := by
  rw [List.takeWhile_append_of_pos hw, List.dropWhile_append_of_pos hw]
  cases r with
  | nil => simp
  | cons c r => simp [hr c rfl]

theorem Plain.head {cs : List Char} (h : Plain cs) : ∀ c ∈ cs.head?, isDigit c ∨ c = '.' := by
  cases h with
  | whole hw hx => exact fun c hc => .inl (hw.head_append _ c hc)
  | point hw hf hx => exact fun c hc => .inl (hw.head_append _ c hc)
  | fraction hf hx => simp

theorem signed_plain_iff (cs : List Char) : Signed Plain cs ↔ Plain (Number.splitSign cs).2 := by
  refine signed_iff fun cs h c hc => ?_
  rcases h.head c hc with hdigit | rfl
  · exact ne_sign_of_isDigit hdigit
  · decide

/-- The parts that a decimal is read in: the digits before the point, those after it
and the rest. -/
def decimalParts (cs : List Char) : List Char × List Char × List Char :=
  (cs.takeWhile isDigit,
    match cs.dropWhile isDigit with
    | '.' :: cs => (cs.takeWhile isDigit, cs.dropWhile isDigit)
    | cs => ([], cs))

theorem decimalParts_point {w : List Char} (hw : ∀ c ∈ w, isDigit c) (r : List Char) :
    decimalParts (w ++ '.' :: r) = (w, r.takeWhile isDigit, r.dropWhile isDigit) := by
  have hpoint : ∀ c ∈ ('.' :: r).head?, isDigit c = false := by
    simpa using (by decide : isDigit '.' = false)
  obtain ⟨htake, hdrop⟩ := span_digits hw hpoint
  rw [decimalParts, htake, hdrop]
  rfl

theorem decimalParts_of_head {w r : List Char} (hw : ∀ c ∈ w, isDigit c)
    (hr : ∀ c ∈ r.head?, isDigit c = false ∧ c ≠ '.') : decimalParts (w ++ r) = (w, [], r) := by
  obtain ⟨htake, hdrop⟩ := span_digits hw fun c hc => (hr c hc).1
  rw [decimalParts, htake, hdrop]
  split
  · simp at hr
  · rfl

/-- A text is a decimal if there is a digit before or after the point and the rest is an
exponent. -/
theorem plain_iff (cs : List Char) : Plain cs ↔
    ((decimalParts cs).1 ≠ [] ∨ (decimalParts cs).2.1 ≠ []) ∧ Exponent (decimalParts cs).2.2 := by
  constructor
  · intro h
    cases h with
    | whole hw hx =>
      rw [decimalParts_of_head hw.digits hx.head]
      exact ⟨.inl hw.ne_nil, hx⟩
    | @point w f x hw hf hx =>
      obtain ⟨-, hdrop⟩ := span_digits hf fun c hc => (hx.head c hc).1
      rw [decimalParts_point hw.digits, hdrop]
      exact ⟨.inl hw.ne_nil, hx⟩
    | @fraction f x hf hx =>
      obtain ⟨htake, hdrop⟩ := span_digits hf.digits fun c hc => (hx.head c hc).1
      have hparts := decimalParts_point (w := []) (by simp) (f ++ x)
      rw [List.nil_append] at hparts
      rw [hparts, htake, hdrop]
      exact ⟨.inr hf.ne_nil, hx⟩
  · have hw : ∀ c ∈ cs.takeWhile isDigit, isDigit c := fun c => List.mem_takeWhile_imp
    have hcs := List.takeWhile_append_dropWhile (p := isDigit) (l := cs)
    rintro ⟨hdigit, hexponent⟩
    by_cases hpoint : ∃ r, cs.dropWhile isDigit = '.' :: r
    · obtain ⟨r, hr⟩ := hpoint
      have hf : ∀ c ∈ r.takeWhile isDigit, isDigit c := fun c => List.mem_takeWhile_imp
      rw [hr] at hcs
      rw [← hcs, decimalParts_point hw] at hdigit hexponent
      rw [← hcs, ← List.takeWhile_append_dropWhile (p := isDigit) (l := r)]
      by_cases hempty : cs.takeWhile isDigit = []
      · rw [hempty]
        exact .fraction ⟨by simpa [hempty] using hdigit, hf⟩ hexponent
      · exact .point ⟨hempty, hw⟩ hf hexponent
    · have hparts : decimalParts cs = (cs.takeWhile isDigit, [], cs.dropWhile isDigit) := by
        rw [decimalParts]
        split
        · next r hr => exact absurd ⟨r, hr⟩ hpoint
        · rfl
      rw [hparts] at hdigit hexponent
      rw [← hcs]
      exact .whole ⟨by simpa using hdigit, hw⟩ hexponent

theorem ofDecimalText?_eq (cs : List Char) :
    let parts := decimalParts (Number.splitSign cs).2
    Number.ofDecimalText? cs =
      if parts.1.isEmpty && parts.2.1.isEmpty then none
      else (Number.exponentPart? parts.2.2).map fun exponent =>
        Decimal.toNumber (Number.splitSign cs).1
          ⟨decimalValue (parts.1 ++ parts.2.1), exponent - parts.2.1.length⟩ := rfl

theorem isSome_ofDecimalText? (cs : List Char) :
    (Number.ofDecimalText? cs).isSome ↔ Signed Plain cs := by
  rw [signed_plain_iff, plain_iff, ← isSome_exponentPart?, ofDecimalText?_eq]
  generalize decimalParts (Number.splitSign cs).2 = parts
  have hempty : (parts.1.isEmpty && parts.2.1.isEmpty) = true ↔
      ¬ (parts.1 ≠ [] ∨ parts.2.1 ≠ []) := by simp
  split
  · next h => simp [hempty.mp h]
  · next h =>
    rw [hempty, not_not] at h
    simp [h]

/-! ### Numbers that are read -/

end Numeral

namespace Number

theorem ofUnits_ne_nan (negative : Bool) (num den : Nat) : ofUnits negative num den ≠ nan := by
  unfold ofUnits
  split <;> simp

theorem add_finite_ne_nan {x : Number} (hx : x ≠ nan) (negative : Bool) (size : Magnitude) :
    x.add (finite negative size) ≠ nan := by
  cases x with
  | nan => exact absurd rfl hx
  | infinity a => simp [add]
  | finite a y =>
    simp only [add]
    split <;> exact ofUnits_ne_nan _ _ _

theorem mul_finite_ne_nan {x : Number} (hx : x ≠ nan) (negative : Bool) {size : Magnitude}
    (hsize : size.units ≠ 0) : x.mul (finite negative size) ≠ nan := by
  cases x with
  | nan => exact absurd rfl hx
  | infinity a => simp [mul, hsize]
  | finite a y => exact ofUnits_ne_nan _ _ _

/-- Small whole numbers are finite, and only zero is zero. -/
theorem ofNat_eq_finite {n : Nat} (h : n ≤ 16) :
    ∃ size, ofNat n = finite false size ∧ (size.units = 0 → n = 0) := by
  have hsnap : ∀ m : Fin 17, snap (m * one) 1 < Magnitude.limit ∧
      (snap (m * one) 1 = 0 → m.val = 0) := by decide +kernel
  obtain ⟨hlimit, hzero⟩ := hsnap ⟨n, by omega⟩
  exact ⟨⟨snap (n * one) 1, hlimit, snap_onGrid _ _⟩, by rw [ofNat, ofUnits, dif_pos hlimit], hzero⟩

end Number

theorem Decimal.toNumber_ne_nan (negative : Bool) (d : Decimal) : d.toNumber negative ≠ .nan := by
  unfold Decimal.toNumber
  dsimp only
  split
  · exact Number.ofUnits_ne_nan _ _ _
  · split
    · simp
    · split <;> exact Number.ofUnits_ne_nan _ _ _

theorem lt_of_digitValue? {radix d : Nat} {c : Char} (h : digitValue? radix c = some d) :
    d < radix := by
  simpa using (Option.filter_eq_some_iff.mp h).2

namespace Numeral

/-- A row of digits of a radix is read as a number. -/
theorem ofRadixDigits_ne_nan_iff {radix : Nat} (hradix : 0 < radix) (hle : radix ≤ 16)
    (cs : List Char) : Number.ofRadixDigits radix cs ≠ .nan ↔
      cs ≠ [] ∧ ∀ c ∈ cs, (digitValue? radix c).isSome := by
  obtain ⟨size, hsize, hunits⟩ := Number.ofNat_eq_finite hle
  have hsize_ne : size.units ≠ 0 := fun h => hradix.ne' (hunits h)
  let step (n : Number) (c : Char) : Option Number :=
    (digitValue? radix c).map fun d => (n.mul (.ofNat radix)).add (.ofNat d)
  -- what is read so far is not the NaN
  have hloop : ∀ (cs : List Char) (n : Number), n ≠ .nan →
      ((cs.foldlM step n).getD .nan ≠ .nan ↔ ∀ c ∈ cs, (digitValue? radix c).isSome) := by
    intro cs
    induction cs with
    | nil => intro n hn; simpa using hn
    | cons c cs ih =>
      intro n hn
      rw [List.foldlM_cons, List.forall_mem_cons]
      cases hd : digitValue? radix c with
      | none => simp [step, hd]
      | some d =>
        have hd16 : d ≤ 16 := (lt_of_digitValue? hd).le.trans hle
        obtain ⟨size', hsize', -⟩ := Number.ofNat_eq_finite hd16
        have hnext : (n.mul (.ofNat radix)).add (.ofNat d) ≠ .nan := by
          rw [hsize, hsize']
          exact Number.add_finite_ne_nan (Number.mul_finite_ne_nan hn _ hsize_ne) _ _
        simpa [step, hd] using ih _ hnext
  have hzero : Number.zero ≠ .nan := by
    rw [Number.zero, Number.ofNat]
    exact Number.ofUnits_ne_nan _ _ _
  cases cs with
  | nil => simp [Number.ofRadixDigits]
  | cons c cs => simpa [Number.ofRadixDigits] using hloop (c :: cs) .zero hzero

theorem isSome_digitValue? (radix : Nat) (c : Char) : (digitValue? radix c).isSome ↔
    (48 ≤ c.toNat ∧ c.toNat ≤ 57 ∧ c.toNat < 48 + radix) ∨
      (97 ≤ c.toNat ∧ c.toNat ≤ 102 ∧ c.toNat < 87 + radix) ∨
      (65 ≤ c.toNat ∧ c.toNat ≤ 70 ∧ c.toNat < 55 + radix) := by
  have hfilter : ∀ n, ((some n).filter (· < radix)).isSome ↔ n < radix := by
    intro n
    simp [Option.isSome_filter]
  simp only [digitValue?, isDigit_iff, Bool.and_eq_true, decide_eq_true_eq, char_le_iff,
    Char.reduceToNat]
  split
  · rw [hfilter]
    omega
  · split
    · rw [hfilter]
      omega
    · split
      · rw [hfilter]
        omega
      · simp only [Option.filter_none, Option.isSome_none, Bool.false_eq_true, false_iff]
        omega

/-- The marks, each with its radix. -/
def radixes : List (Char × Nat) := [('x', 16), ('X', 16), ('o', 8), ('O', 8), ('b', 2), ('B', 2)]

/-- What a mark announces are the digits of its radix. -/
theorem radixDigit?_of_mem {mark : Char} {radix : Nat} (h : (mark, radix) ∈ radixes) :
    ∃ isDigitOf, radixDigit? mark = some isDigitOf ∧
      ∀ c, isDigitOf c ↔ (digitValue? radix c).isSome := by
  have hhex : ∀ c, (isDigit c || ('a' ≤ c && c ≤ 'f') || ('A' ≤ c && c ≤ 'F')) = true ↔
      (digitValue? 16 c).isSome := by
    intro c
    simp only [isSome_digitValue?, Bool.or_eq_true, isDigit_iff, Bool.and_eq_true,
      decide_eq_true_eq, char_le_iff, Char.reduceToNat]
    omega
  have hoctal : ∀ c, ('0' ≤ c && c ≤ '7') = true ↔ (digitValue? 8 c).isSome := by
    intro c
    simp only [isSome_digitValue?, Bool.and_eq_true, decide_eq_true_eq, char_le_iff,
      Char.reduceToNat]
    omega
  have hbinary : ∀ c, (c == '0' || c == '1') = true ↔ (digitValue? 2 c).isSome := by
    intro c
    simp only [isSome_digitValue?, Bool.or_eq_true, beq_iff_eq, ← Char.toNat_inj,
      Char.reduceToNat]
    omega
  simp only [radixes, List.mem_cons, Prod.mk.injEq, List.not_mem_nil, or_false] at h
  rcases h with ⟨rfl, rfl⟩ | ⟨rfl, rfl⟩ | ⟨rfl, rfl⟩ | ⟨rfl, rfl⟩ | ⟨rfl, rfl⟩ | ⟨rfl, rfl⟩
  · exact ⟨_, rfl, hhex⟩
  · exact ⟨_, rfl, hhex⟩
  · exact ⟨_, rfl, hoctal⟩
  · exact ⟨_, rfl, hoctal⟩
  · exact ⟨_, rfl, hbinary⟩
  · exact ⟨_, rfl, hbinary⟩

theorem mem_radixes_of_radixDigit? {mark : Char} {isDigitOf : Char → Bool}
    (h : radixDigit? mark = some isDigitOf) : ∃ radix, (mark, radix) ∈ radixes := by
  unfold radixDigit? at h
  split at h
  · next hmark => exact ⟨16, by rcases hmark with rfl | rfl <;> decide⟩
  · split at h
    · next hmark => exact ⟨8, by rcases hmark with rfl | rfl <;> decide⟩
    · split at h
      · next hmark => exact ⟨2, by rcases hmark with rfl | rfl <;> decide⟩
      · cases h

/-! ### Numerals -/

/-- The characters of a decimal. -/
def isDecimalChar (c : Char) : Bool := isDigit c || ['.', 'e', 'E', '+', '-'].contains c

theorem isDecimalChar_of_isDigit {c : Char} (h : isDigit c) : isDecimalChar c := by
  simp [isDecimalChar, h]

theorem radixDigit?_of_isDecimalChar {c : Char} (h : isDecimalChar c) : radixDigit? c = none := by
  unfold radixDigit?
  rw [if_neg, if_neg, if_neg]
  all_goals
    rintro (rfl | rfl) <;> exact absurd h (by decide)

theorem isVisible_of_isDecimalChar {c : Char} (h : isDecimalChar c) : isVisible c := by
  simp only [isDecimalChar, Bool.or_eq_true, isDigit_iff, List.contains_iff_mem, List.mem_cons,
    List.not_mem_nil, or_false] at h
  rcases h with h | rfl | rfl | rfl | rfl | rfl
  · rw [isVisible_iff]
    omega
  all_goals decide

theorem Signed.forall_mem {form : List Char → Prop} {good : Char → Prop} (hplus : good '+')
    (hminus : good '-') (h : ∀ cs, form cs → ∀ c ∈ cs, good c) {cs : List Char}
    (hs : Signed form cs) : ∀ c ∈ cs, good c := by
  cases hs with
  | bare hf => exact h _ hf
  | plus hf => exact List.forall_mem_cons.mpr ⟨hplus, h _ hf⟩
  | minus hf => exact List.forall_mem_cons.mpr ⟨hminus, h _ hf⟩

theorem Exponent.forall_mem {cs : List Char} (h : Exponent cs) : ∀ c ∈ cs, isDecimalChar c := by
  cases h with
  | absent => simp
  | marked hc h =>
    rw [List.forall_mem_cons]
    refine ⟨by rcases hc with rfl | rfl <;> decide, ?_⟩
    exact Signed.forall_mem (by decide) (by decide)
      (fun cs h c hc => isDecimalChar_of_isDigit (h.digits c hc)) h

theorem Plain.forall_mem {cs : List Char} (h : Plain cs) : ∀ c ∈ cs, isDecimalChar c := by
  have hpoint : isDecimalChar '.' := by decide
  cases h with
  | whole hw hx =>
    rw [List.forall_mem_append]
    exact ⟨fun c hc => isDecimalChar_of_isDigit (hw.digits c hc), hx.forall_mem⟩
  | point hw hf hx =>
    rw [List.forall_mem_append, List.forall_mem_cons, List.forall_mem_append]
    exact ⟨fun c hc => isDecimalChar_of_isDigit (hw.digits c hc), hpoint,
      fun c hc => isDecimalChar_of_isDigit (hf c hc), hx.forall_mem⟩
  | fraction hf hx =>
    rw [List.forall_mem_cons, List.forall_mem_append]
    exact ⟨hpoint, fun c hc => isDecimalChar_of_isDigit (hf.digits c hc), hx.forall_mem⟩

theorem isVisible_of_radixDigit? {mark : Char} {isDigitOf : Char → Bool}
    (h : radixDigit? mark = some isDigitOf) :
    isVisible mark ∧ ∀ c, isDigitOf c → isVisible c := by
  obtain ⟨radix, hmem⟩ := mem_radixes_of_radixDigit? h
  obtain ⟨isDigitOf', h', hdigit⟩ := radixDigit?_of_mem hmem
  obtain rfl : isDigitOf = isDigitOf' := Option.some.inj (h.symm.trans h')
  refine ⟨(by decide : ∀ entry ∈ radixes, isVisible entry.1) _ hmem, fun c hc => ?_⟩
  rw [hdigit, isSome_digitValue?] at hc
  rw [isVisible_iff]
  omega

/-- All characters of a numeral are visible. -/
theorem Literal.forall_mem {cs : List Char} (h : Literal cs) : ∀ c ∈ cs, isVisible c := by
  cases h with
  | nothing => simp
  | radix hmark hcs h =>
    obtain ⟨hvisible, hdigits⟩ := isVisible_of_radixDigit? hmark
    rw [List.forall_mem_cons, List.forall_mem_cons]
    exact ⟨by decide, hvisible, fun c hc => hdigits c (h c hc)⟩
  | infinity h =>
    have hinfinity : ∀ c ∈ "Infinity".toList, isVisible c := List.all_eq_true.mp rfl
    exact h.forall_mem (by decide) (by decide) fun cs hcs => hcs ▸ hinfinity
  | decimal h =>
    exact h.forall_mem (by decide) (by decide)
      fun cs h c hc => isVisible_of_isDecimalChar (h.forall_mem c hc)

/-- After `0` and a mark come one or more digits of the radix. -/
theorem literal_radix_iff {mark : Char} {radix : Nat} (h : (mark, radix) ∈ radixes)
    (cs : List Char) : Literal ('0' :: mark :: cs) ↔
      cs ≠ [] ∧ ∀ c ∈ cs, (digitValue? radix c).isSome := by
  obtain ⟨isDigitOf, hmark, hdigit⟩ := radixDigit?_of_mem h
  simp only [← hdigit]
  constructor
  · intro hl
    cases hl with
    | radix hmark' hcs hdigits =>
      obtain rfl := Option.some.inj (hmark.symm.trans hmark')
      exact ⟨hcs, hdigits⟩
    | infinity hinfinity =>
      cases hinfinity with
      | bare heq => simp at heq
    | decimal hdecimal =>
      cases hdecimal with
      | bare hplain =>
        have hchar : isDecimalChar mark := hplain.forall_mem mark (by simp)
        simp [radixDigit?_of_isDecimalChar hchar] at hmark
  · rintro ⟨hcs, hdigits⟩
    exact .radix hmark hcs hdigits

/-- Any other text is a decimal or `Infinity`, with or without a sign. -/
theorem literal_iff_of_ne {cs : List Char} (hnil : cs ≠ [])
    (hradix : ∀ mark radix rest, (mark, radix) ∈ radixes → cs ≠ '0' :: mark :: rest) :
    Literal cs ↔ Signed (· = "Infinity".toList) cs ∨ Signed Plain cs := by
  constructor
  · intro h
    cases h with
    | nothing => exact absurd rfl hnil
    | radix hmark hcs h =>
      obtain ⟨radix, hmem⟩ := mem_radixes_of_radixDigit? hmark
      exact absurd rfl (hradix _ radix _ hmem)
    | infinity h => exact .inl h
    | decimal h => exact .inr h
  · rintro (h | h)
    · exact .infinity h
    · exact .decimal h

theorem ofRadixDigits_ne_nan_iff_literal {mark : Char} {radix : Nat}
    (h : (mark, radix) ∈ radixes) (cs : List Char) :
    Number.ofRadixDigits radix cs ≠ .nan ↔ Literal ('0' :: mark :: cs) := by
  have hbounds : ∀ entry ∈ radixes, 0 < entry.2 ∧ entry.2 ≤ 16 := by decide
  obtain ⟨hpos, hle⟩ := hbounds _ h
  rw [ofRadixDigits_ne_nan_iff hpos hle, literal_radix_iff h]

theorem getD_ofDecimalText?_ne_nan_iff (cs : List Char) :
    (Number.ofDecimalText? cs).getD .nan ≠ .nan ↔ Signed Plain cs := by
  have hsome : ∀ n, Number.ofDecimalText? cs = some n → n ≠ .nan := by
    intro n hn
    rw [ofDecimalText?_eq] at hn
    split at hn
    · cases hn
    · obtain ⟨exponent, -, rfl⟩ := Option.map_eq_some_iff.mp hn
      exact Decimal.toNumber_ne_nan _ _
  rw [← isSome_ofDecimalText?]
  cases hcs : Number.ofDecimalText? cs with
  | none => simp
  | some n => simpa using hsome n hcs

theorem signed_infinity_iff (cs : List Char) :
    Signed (· = "Infinity".toList) cs ↔ (Number.splitSign cs).2 = "Infinity".toList := by
  refine signed_iff fun cs h c hc => ?_
  subst h
  obtain rfl : 'I' = c := Option.some.inj hc
  decide

/-- Of a text without its blanks, a number is read exactly if it is a numeral. -/
theorem ofText_ne_nan_iff_literal (s : String) :
    Number.ofText s ≠ .nan ↔ Literal (Text.trim s.toList) := by
  unfold Number.ofText
  split
  · next h =>
    rw [h]
    refine iff_of_true ?_ .nothing
    rw [Number.zero, Number.ofNat]
    exact Number.ofUnits_ne_nan _ _ _
  · next digits h => rw [h]; exact ofRadixDigits_ne_nan_iff_literal (by decide) digits
  · next digits h => rw [h]; exact ofRadixDigits_ne_nan_iff_literal (by decide) digits
  · next digits h => rw [h]; exact ofRadixDigits_ne_nan_iff_literal (by decide) digits
  · next digits h => rw [h]; exact ofRadixDigits_ne_nan_iff_literal (by decide) digits
  · next digits h => rw [h]; exact ofRadixDigits_ne_nan_iff_literal (by decide) digits
  · next digits h => rw [h]; exact ofRadixDigits_ne_nan_iff_literal (by decide) digits
  · next hnil hx hX ho hO hb hB =>
    have hradix : ∀ mark radix rest, (mark, radix) ∈ radixes →
        Text.trim s.toList ≠ '0' :: mark :: rest := by
      intro mark radix rest hmem
      simp only [radixes, List.mem_cons, Prod.mk.injEq, List.not_mem_nil, or_false] at hmem
      rcases hmem with ⟨rfl, -⟩ | ⟨rfl, -⟩ | ⟨rfl, -⟩ | ⟨rfl, -⟩ | ⟨rfl, -⟩ | ⟨rfl, -⟩
      · exact hx rest
      · exact hX rest
      · exact ho rest
      · exact hO rest
      · exact hb rest
      · exact hB rest
    rw [literal_iff_of_ne hnil hradix, signed_infinity_iff, ← getD_ofDecimalText?_ne_nan_iff]
    rcases Number.splitSign (Text.trim s.toList) with ⟨negative, bare⟩
    dsimp only
    by_cases hbare : bare = "Infinity".toList
    · rw [if_pos hbare]
      exact iff_of_true (fun h => by cases h) (.inl hbare)
    · rw [if_neg hbare, or_iff_right hbare]

/-! ### Blanks at the ends -/

theorem dropWhile_of_forall_not {isBlank : Char → Bool} {cs : List Char}
    (h : ∀ c ∈ cs, isBlank c = false) : cs.dropWhile isBlank = cs := by
  cases cs with
  | nil => rfl
  | cons c cs => simp [h c List.mem_cons_self]

/-- A text is what is left of it with the blanks at its ends. -/
theorem exists_trim (cs : List Char) : ∃ before after, cs = before ++ Text.trim cs ++ after ∧
    (∀ c ∈ before, Text.isBlank c) ∧ ∀ c ∈ after, Text.isBlank c := by
  let rest := cs.dropWhile Text.isBlank
  have hbefore : cs = cs.takeWhile Text.isBlank ++ rest := List.takeWhile_append_dropWhile.symm
  have hafter : rest = Text.trim cs ++ (rest.reverse.takeWhile Text.isBlank).reverse := by
    rw [Text.trim, ← List.reverse_append, List.takeWhile_append_dropWhile, List.reverse_reverse]
  refine ⟨cs.takeWhile Text.isBlank, (rest.reverse.takeWhile Text.isBlank).reverse, ?_,
    fun c => List.mem_takeWhile_imp, fun c hc => ?_⟩
  · rw [List.append_assoc, ← hafter]
    exact hbefore
  · exact List.mem_takeWhile_imp (List.mem_reverse.mp hc)

theorem trim_append {before middle after : List Char} (hbefore : ∀ c ∈ before, Text.isBlank c)
    (hmiddle : ∀ c ∈ middle, Text.isBlank c = false) (hafter : ∀ c ∈ after, Text.isBlank c) :
    Text.trim (before ++ middle ++ after) = middle := by
  have hreverse : middle.reverse.dropWhile Text.isBlank = middle.reverse :=
    dropWhile_of_forall_not fun c hc => hmiddle c (List.mem_reverse.mp hc)
  have hafter' : ∀ c ∈ after.reverse, Text.isBlank c :=
    fun c hc => hafter c (List.mem_reverse.mp hc)
  rw [Text.trim, List.append_assoc, List.dropWhile_append_of_pos hbefore]
  cases middle with
  | nil => simp [List.dropWhile_eq_nil_iff.mpr hafter]
  | cons c middle =>
    rw [List.cons_append, List.dropWhile_cons_of_neg (by simp [hmiddle c List.mem_cons_self]),
      ← List.cons_append, List.reverse_append, List.dropWhile_append_of_pos hafter', hreverse,
      List.reverse_reverse]

/-- What is left of a text is a numeral if the text is one with blanks at its ends: no blank
stands inside a numeral. -/
theorem literal_trim_iff (cs : List Char) :
    Literal (Text.trim cs) ↔ Numeric Text.isBlank cs := by
  constructor
  · intro h
    obtain ⟨before, after, heq, hbefore, hafter⟩ := exists_trim cs
    exact ⟨before, _, after, heq, h, hbefore, hafter⟩
  · rintro ⟨before, literal, after, rfl, h, hbefore, hafter⟩
    rwa [trim_append hbefore (fun c hc => not_isBlank_of_isVisible (h.forall_mem c hc)) hafter]

/-- With the white space of the language alone, the numerals are those without a next-line
control, which can only stand at the ends. -/
theorem numeric_isSpace_iff (cs : List Char) :
    Numeric isSpace cs ↔ Numeric Text.isBlank cs ∧ ∀ c ∈ cs, isNextLine c = false := by
  constructor
  · rintro ⟨before, literal, after, rfl, h, hbefore, hafter⟩
    refine ⟨⟨before, literal, after, rfl, h, ?_, ?_⟩, ?_⟩
    · exact fun c hc => isBlank_of_isSpace (hbefore c hc)
    · exact fun c hc => isBlank_of_isSpace (hafter c hc)
    · rw [List.forall_mem_append, List.forall_mem_append]
      exact ⟨⟨fun c hc => not_isNextLine_of_isSpace (hbefore c hc),
        fun c hc => not_isNextLine_of_isVisible (h.forall_mem c hc)⟩,
        fun c hc => not_isNextLine_of_isSpace (hafter c hc)⟩
  · rintro ⟨⟨before, literal, after, rfl, h, hbefore, hafter⟩, hnone⟩
    rw [List.forall_mem_append, List.forall_mem_append] at hnone
    obtain ⟨⟨hnone_before, -⟩, hnone_after⟩ := hnone
    have hspace : ∀ c, Text.isBlank c → isNextLine c = false → isSpace c := by
      intro c hblank hnone
      rwa [isBlank_eq, hnone, Bool.or_false] at hblank
    exact ⟨before, literal, after, rfl, h, fun c hc => hspace c (hbefore c hc) (hnone_before c hc),
      fun c hc => hspace c (hafter c hc) (hnone_after c hc)⟩

/-- A number is read of exactly the numerals with white space, line ends and next-line
controls at their ends, so of the numerals of the language and of those that a next-line
control at an end keeps from being one. -/
theorem ofText_ne_nan_iff (s : String) :
    (Number.ofText s ≠ .nan ↔ Numeric (fun c => isSpace c || isNextLine c) s.toList) ∧
      (Numeric isSpace s.toList ↔
        Number.ofText s ≠ .nan ∧ ∀ c ∈ s.toList, isNextLine c = false) := by
  have hblank : Text.isBlank = fun c => isSpace c || isNextLine c := funext isBlank_eq
  have hread : Number.ofText s ≠ .nan ↔ Numeric Text.isBlank s.toList :=
    (ofText_ne_nan_iff_literal s).trans (literal_trim_iff s.toList)
  constructor
  · rw [hread, hblank]
  · rw [numeric_isSpace_iff, hread]

/-- A next-line control by itself is read as zero, and is no numeral of the language. -/
theorem exists_read_not_numeric :
    ∃ s : String, Number.ofText s = .zero ∧ ¬ Numeric isSpace s.toList := by
  refine ⟨"\u0085", rfl, fun h => ?_⟩
  have hnone := ((numeric_isSpace_iff _).mp h).2 '\u0085' (by decide)
  exact absurd hnone (by decide)

end Numeral
end DeadBranch
