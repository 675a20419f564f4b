/-
# The number that a text converts to

The language says by a grammar which number a text converts to. Apart from white space and
line ends at its ends, the text is a numeral, which stands for zero, for an infinity or for a
rational number, and that number is rounded once (`Stands`); a text of any other form converts
to the NaN (`Converts`). Nothing of how texts are read here enters into this, and every text
converts to exactly one number, which `number` computes (`converts_iff`). The language would
allow decimal digits after the twentieth to be dropped; here all of them count.

`Number.ofText` reads most texts as the number they convert to. The exceptions are given by
`ofText_ne_number_iff`: a numeral with a next-line control at one of its ends, which converts
to the NaN, and digits of another radix that lose a half while they are read.

Key definitions: `Number.IsNearest`, `Numeral.Stands`, `Numeral.Converts`, `Numeral.number`.
Key theorems: `Number.isNearest_iff`, `Numeral.converts_iff`, `Numeral.ofText_ne_number_iff`.
-/
import DeadBranch.Proofs.Decimals
import DeadBranch.Proofs.RadixDigits

namespace DeadBranch

/-! ### Rounding once -/

namespace Number

/-- The number with a sign that is nearest to a rational number without one; the infinite one
if rounding leaves the range. -/
inductive IsNearest (negative : Bool) (x : ℚ) : Number → Prop
  | finite {size : Magnitude} (h : RoundsTo (x * one) size.units) :
    IsNearest negative x (.finite negative size)
  | infinity {m : Nat} (h : RoundsTo (x * one) m) (hlimit : Magnitude.limit ≤ m) :
    IsNearest negative x (.infinity negative)

theorem isNearest_iff {negative : Bool} {x : ℚ} (hx : 0 ≤ x) {n : Number} :
    n.IsNearest negative x ↔ n = ofRat negative x := by
  have hround := roundsTo_num_den hx
  constructor
  · intro h
    cases h with
    | finite h => exact ((ofRat_eq_finite_iff hx).mpr h).symm
    | infinity h hlimit =>
      rw [ofRat, ofUnits, dif_neg (Nat.not_lt.mpr (h.unique hround ▸ hlimit))]
  · intro h
    rw [h, ofRat, ofUnits]
    split
    · exact .finite hround
    · next hlimit => exact .infinity hround (Nat.not_lt.mp hlimit)

theorem isNearest_ofRat (negative : Bool) {x : ℚ} (hx : 0 ≤ x) :
    (ofRat negative x).IsNearest negative x :=
  (isNearest_iff hx).mpr rfl

theorem ofRat_natCast (n : Nat) : ofRat false n = ofNat n := by
  have hdiv := ofRat_div false n Nat.one_pos
  rwa [Nat.cast_one, div_one] at hdiv

/-- A smaller and a larger number are rounded alike if the bits that are kept are the same, or
if both leave the range. -/
theorem ofNat_eq_ofNat_iff_of_le {m n : Nat} (h : m ≤ n) :
    ofNat m = ofNat n ↔ snap m 1 = snap n 1 ∨ ofNat m = infinity false := by
  rcases ofNat_cases m with ⟨size, hm, -, hlt⟩ | ⟨hm, hlimit⟩
  · rw [ofNat_inj_of_lt hlt, or_iff_left]
    rw [hm]
    exact Number.noConfusion
  · have hn : ofNat n = infinity false := ofNat_eq_infinity (hlimit.trans (snap_le_snap h))
    exact iff_of_true (hm.trans hn.symm) (.inr hm)

end Number

theorem Overrun.ne_nil {radix : Nat} {cs front rest : List Char}
    (h : Overrun radix cs front rest) : cs ≠ [] := by
  rintro rfl
  obtain ⟨rfl, rfl⟩ := List.append_eq_nil_iff.mp h.eq_append.symm
  exact absurd h.le_value (Nat.not_le.mpr (twoTo_pos 53))

namespace Numeral

/-! ### Numerals and what they stand for -/

/-- A sign in front of a numeral, and whether it is the negative one. -/
inductive Sign : Bool → List Char → Prop
  | absent : Sign false []
  | plus : Sign false ['+']
  | minus : Sign true ['-']

/-- A numeral without blanks, with the number that it stands for. -/
inductive Stands : List Char → Number → Prop
  | nothing : Stands [] .zero
  | radix {mark : Char} {radix : Nat} {cs : List Char} {n : Number}
    (hmark : (mark, radix) ∈ radixes) (hcs : cs ≠ [])
    (h : ∀ c ∈ cs, (digitValue? radix c).isSome) (hn : n.IsNearest false (digitsValue radix cs)) :
    Stands ('0' :: mark :: cs) n
  | infinity {negative : Bool} {sign : List Char} (hsign : Sign negative sign) :
    Stands (sign ++ "Infinity".toList) (.infinity negative)
  | decimal {negative : Bool} {sign cs : List Char} {x : ℚ} {n : Number}
    (hsign : Sign negative sign) (h : Denotes cs x) (hn : n.IsNearest negative x) :
    Stands (sign ++ cs) n

/-- The text converts to the number. -/
inductive Converts (s : String) : Number → Prop
  | numeral {before literal after : List Char} {n : Number}
    (hs : s.toList = before ++ literal ++ after) (hbefore : ∀ c ∈ before, isSpace c)
    (hafter : ∀ c ∈ after, isSpace c) (h : Stands literal n) : Converts s n
  | other (h : ¬ Numeric isSpace s.toList) : Converts s .nan

/-- The digits of a numeral of another radix, with the radix. -/
def radixDigits? : List Char → Option (Nat × List Char)
  | '0' :: mark :: cs => do
    let radix ← radixes.lookup mark
    if cs ≠ [] ∧ cs.all fun c => (digitValue? radix c).isSome then some (radix, cs) else none
  | _ => none

/-- The number that a text converts to. -/
def number (s : String) : Number :=
  if s.toList.any isNextLine then .nan
  else
    match radixDigits? (Text.trim s.toList) with
    | some (radix, cs) => .ofNat (digitsValue radix cs)
    | none => Number.ofText s

/-! ### Every numeral stands for one number -/

theorem exists_scale {cs : List Char} (h : Exponent cs) : ∃ e, Scale cs e := by
  cases h with
  | absent => exact ⟨0, .absent⟩
  | marked hc h =>
    cases h with
    | bare h => exact ⟨_, .bare hc h⟩
    | plus h => exact ⟨_, .plus hc h⟩
    | minus h => exact ⟨_, .minus hc h⟩

theorem exists_denotes {cs : List Char} (h : Plain cs) : ∃ x, Denotes cs x := by
  cases h with
  | whole hw hx =>
    obtain ⟨e, he⟩ := exists_scale hx
    exact ⟨_, .whole hw he⟩
  | point hw hf hx =>
    obtain ⟨e, he⟩ := exists_scale hx
    exact ⟨_, .point hw hf he⟩
  | fraction hf hx =>
    obtain ⟨e, he⟩ := exists_scale hx
    exact ⟨_, .fraction hf he⟩

theorem Denotes.nonneg {cs : List Char} {x : ℚ} (h : Denotes cs x) : 0 ≤ x := by
  cases h <;> positivity

theorem signed_of_sign {form : List Char → Prop} {negative : Bool} {sign cs : List Char}
    (hsign : Sign negative sign) (h : form cs) : Signed form (sign ++ cs) := by
  cases hsign with
  | absent => exact .bare h
  | plus => exact .plus h
  | minus => exact .minus h

theorem exists_sign {form : List Char → Prop} {cs : List Char} (h : Signed form cs) :
    ∃ negative sign bare, Sign negative sign ∧ form bare ∧ cs = sign ++ bare := by
  cases h with
  | bare h => exact ⟨_, _, _, .absent, h, rfl⟩
  | plus h => exact ⟨_, _, _, .plus, h, rfl⟩
  | minus h => exact ⟨_, _, _, .minus, h, rfl⟩

theorem Sign.splitSign {negative : Bool} {sign cs : List Char} (h : Sign negative sign)
    (hcs : Number.splitSign cs = (false, cs)) : Number.splitSign (sign ++ cs) = (negative, cs) := by
  cases h with
  | absent => exact hcs
  | plus => rfl
  | minus => rfl

theorem Stands.literal {cs : List Char} {n : Number} (h : Stands cs n) : Literal cs := by
  cases h with
  | nothing => exact .nothing
  | radix hmark hcs h => exact (literal_radix_iff hmark _).mpr ⟨hcs, h⟩
  | infinity hsign => exact .infinity (signed_of_sign hsign rfl)
  | decimal hsign h => exact .decimal (signed_of_sign hsign h.plain)

theorem exists_stands {cs : List Char} (h : Literal cs) : ∃ n, Stands cs n := by
  cases h with
  | nothing => exact ⟨_, .nothing⟩
  | @radix mark isDigitOf cs hmark hcs h =>
    obtain ⟨radix, hmem⟩ := mem_radixes_of_radixDigit? hmark
    have hdigits := (literal_radix_iff hmem cs).mp (.radix hmark hcs h)
    exact ⟨_, .radix hmem hcs hdigits.2 (Number.isNearest_ofRat false (Nat.cast_nonneg _))⟩
  | infinity h =>
    obtain ⟨negative, sign, bare, hsign, rfl, rfl⟩ := exists_sign h
    exact ⟨_, .infinity hsign⟩
  | decimal h =>
    obtain ⟨negative, sign, bare, hsign, hplain, rfl⟩ := exists_sign h
    obtain ⟨x, hx⟩ := exists_denotes hplain
    exact ⟨_, .decimal hsign hx (Number.isNearest_ofRat negative hx.nonneg)⟩

/-! ### The number that is computed -/

theorem radixDigits?_eq_some_iff {cs digits : List Char} {radix : Nat} :
    radixDigits? cs = some (radix, digits) ↔
      ∃ mark, (mark, radix) ∈ radixes ∧ cs = '0' :: mark :: digits ∧ digits ≠ [] ∧
        ∀ c ∈ digits, (digitValue? radix c).isSome := by
  have hlookup : ∀ mark, radixes.lookup mark = some radix ↔ (mark, radix) ∈ radixes := by
    refine fun mark => ⟨fun h => ?_, fun h => ?_⟩
    · obtain ⟨before, after, heq, -⟩ := List.lookup_eq_some_iff.mp h
      rw [heq]
      exact List.mem_append_right _ List.mem_cons_self
    · simp only [radixes, List.mem_cons, Prod.mk.injEq, List.not_mem_nil, or_false] at h
      rcases h with ⟨rfl, rfl⟩ | ⟨rfl, rfl⟩ | ⟨rfl, rfl⟩ | ⟨rfl, rfl⟩ | ⟨rfl, rfl⟩ | ⟨rfl, rfl⟩
      all_goals rfl
  unfold radixDigits?
  split
  · next mark cs =>
    simp only [Option.bind_eq_bind, Option.bind_eq_some_iff, List.cons.injEq, true_and,
      Option.ite_none_right_eq_some, List.all_eq_true, Option.some.injEq, Prod.mk.injEq]
    constructor
    · rintro ⟨radix', hradix, ⟨hne, hall⟩, rfl, rfl⟩
      exact ⟨mark, (hlookup mark).mp hradix, ⟨rfl, rfl⟩, hne, hall⟩
    · rintro ⟨mark', hmark, ⟨rfl, rfl⟩, hne, hall⟩
      exact ⟨radix, (hlookup mark).mpr hmark, ⟨hne, hall⟩, rfl, rfl⟩
  · next hform =>
    refine iff_of_false (by simp) ?_
    rintro ⟨mark, -, rfl, -⟩
    exact hform mark digits rfl

theorem radixDigits?_eq_none {cs : List Char}
    (h : ∀ mark rest, cs = '0' :: mark :: rest → radixDigit? mark = none) :
    radixDigits? cs = none := by
  rw [Option.eq_none_iff_forall_ne_some]
  rintro ⟨radix, digits⟩ hsome
  obtain ⟨mark, hmark, rfl, -⟩ := radixDigits?_eq_some_iff.mp hsome
  obtain ⟨isDigitOf, hdigit, -⟩ := radixDigit?_of_mem hmark
  cases (h mark digits rfl).symm.trans hdigit

theorem number_of_isNextLine {s : String} {c : Char} (hc : c ∈ s.toList) (h : isNextLine c) :
    number s = .nan :=
  if_pos (List.any_eq_true.mpr ⟨c, hc, h⟩)

section Unbroken

variable {s : String} (hs : ∀ c ∈ s.toList, isNextLine c = false)

include hs

theorem number_eq :
    number s = match radixDigits? (Text.trim s.toList) with
      | some (radix, cs) => .ofNat (digitsValue radix cs)
      | none => Number.ofText s := by
  have hnone : s.toList.any isNextLine = false := by simpa using hs
  rw [number, hnone, if_neg Bool.false_ne_true]

/-- What is left of a text without its blanks decides. -/
theorem number_of_stands {n : Number} (h : Stands (Text.trim s.toList) n) : number s = n := by
  rw [number_eq hs]
  generalize hcs : Text.trim s.toList = cs at h
  cases h with
  | nothing =>
    rw [radixDigits?_eq_none (by simp)]
    unfold Number.ofText
    rw [hcs]
  | @radix mark radix digits n hmark hne hdigits hn =>
    rw [radixDigits?_eq_some_iff.mpr ⟨mark, hmark, rfl, hne, hdigits⟩,
      (Number.isNearest_iff (Nat.cast_nonneg _)).mp hn, Number.ofRat_natCast]
  | @infinity negative sign hsign =>
    have hmark : ∀ mark rest, sign ++ "Infinity".toList = '0' :: mark :: rest →
        radixDigit? mark = none := by
      intro mark rest heq
      cases hsign <;> cases heq
    have hread : Number.ofText s = .infinity negative := by
      rw [ofText_of_unmarked hcs (by simp) hmark, hsign.splitSign rfl]
      exact if_pos rfl
    rw [radixDigits?_eq_none hmark]
    exact hread
  | @decimal negative sign cs x n hsign h hn =>
    have hsigned : Signed Plain (sign ++ cs) := signed_of_sign hsign h.plain
    have hchars : ∀ c ∈ sign ++ cs, isDecimalChar c :=
      hsigned.forall_mem (by decide) (by decide) fun cs h => h.forall_mem
    have hmark : radixDigits? (sign ++ cs) = none := by
      refine radixDigits?_eq_none fun mark rest heq => ?_
      exact radixDigit?_of_isDecimalChar (hchars mark (by simp [heq]))
    have hread : Number.ofText s = .ofRat negative x := by
      rw [ofText_of_signed_plain hcs hsigned, h.ofDecimalText? (hsign.splitSign h.plain.splitSign),
        Option.getD_some]
    rw [hmark, (Number.isNearest_iff h.nonneg).mp hn]
    exact hread

theorem number_of_not_numeric (h : ¬ Numeric isSpace s.toList) : number s = .nan := by
  have hliteral : ¬ Literal (Text.trim s.toList) := by
    rw [literal_trim_iff]
    exact fun hnumeric => h ((numeric_isSpace_iff _).mpr ⟨hnumeric, hs⟩)
  have hread : Number.ofText s = .nan := by
    by_contra hne
    exact hliteral ((ofText_ne_nan_iff_literal s).mp hne)
  rw [number_eq hs]
  split
  · next radix cs hsome =>
    obtain ⟨mark, hmark, heq, hne, hdigits⟩ := radixDigits?_eq_some_iff.mp hsome
    exact absurd (heq ▸ (literal_radix_iff hmark cs).mpr ⟨hne, hdigits⟩) hliteral
  · exact hread

end Unbroken

/-- **Every text converts to one number**, the one that is computed. -/
theorem converts_iff {s : String} {n : Number} : Converts s n ↔ n = number s := by
  have hnumber : ∀ {n}, Converts s n → number s = n := by
    intro n h
    cases h with
    | @numeral before literal after n heq hbefore hafter h =>
      have hnumeric : Numeric isSpace s.toList :=
        ⟨before, literal, after, heq, h.literal, hbefore, hafter⟩
      have htrim : Text.trim s.toList = literal := by
        rw [heq]
        exact trim_append (fun c hc => isBlank_of_isSpace (hbefore c hc))
          (fun c hc => not_isBlank_of_isVisible (h.literal.forall_mem c hc))
          fun c hc => isBlank_of_isSpace (hafter c hc)
      exact number_of_stands ((numeric_isSpace_iff _).mp hnumeric).2 (htrim ▸ h)
    | other h =>
      by_cases hs : ∀ c ∈ s.toList, isNextLine c = false
      · exact number_of_not_numeric hs h
      · simp only [not_forall, Bool.not_eq_false] at hs
        obtain ⟨c, hc, hline⟩ := hs
        exact number_of_isNextLine hc hline
  refine ⟨fun h => (hnumber h).symm, fun h => ?_⟩
  by_cases hnumeric : Numeric isSpace s.toList
  · obtain ⟨before, literal, after, heq, hliteral, hbefore, hafter⟩ := hnumeric
    obtain ⟨m, hm⟩ := exists_stands hliteral
    have hconverts : Converts s m := .numeral heq hbefore hafter hm
    rwa [h, hnumber hconverts]
  · have hconverts : Converts s .nan := .other hnumeric
    rwa [h, hnumber hconverts]

/-! ### Texts that are read as another number -/

theorem ofText_ne_nan_iff_numeric (s : String) :
    Number.ofText s ≠ .nan ↔ Numeric (fun c => isSpace c || isNextLine c) s.toList := by
  have hblank : Text.isBlank = fun c => isSpace c || isNextLine c := funext isBlank_eq
  rw [ofText_ne_nan_iff_literal, literal_trim_iff, hblank]

/-- Digits of a radix that do not fit into 53 bits, read and rounded once. -/
theorem ofText_eq_ofNat_iff {mark : Char} {radix : Nat} (hmark : (mark, radix) ∈ radixes)
    {s : String} {cs front rest : List Char} (hs : Text.trim s.toList = '0' :: mark :: cs)
    (hcs : ∀ c ∈ cs, (digitValue? radix c).isSome) (hover : Overrun radix cs front rest) :
    Number.ofText s = .ofNat (digitsValue radix cs) ↔
      (TiesDown (digitsValue radix front) → digitsValue radix rest = 0) ∨
        Number.ofText s = .infinity false := by
  obtain ⟨k, hradix, hle⟩ := twoTo_of_mem_radixes hmark
  rw [Number.ofText_of_radix hmark hs, Number.ofRadixDigits_eq_ofNat hradix hle hover.ne_nil hcs,
    hover.foldl_keepDigit (hradix ▸ twoTo_pos k), ← hover.snap_eq_iff hradix]
  exact Number.ofNat_eq_ofNat_iff_of_le hover.value_le

/-- **Where reading goes astray.** A text is read as another number than it converts to exactly
if it is a numeral but for a next-line control at an end, or if it has digits of another radix
whose value, at the digit with which it first needs more than 53 bits, lies half way between two
numbers and goes down, while a digit after it is not zero and what is read stays finite. -/
theorem ofText_ne_number_iff (s : String) : Number.ofText s ≠ number s ↔
    (Numeric (fun c => isSpace c || isNextLine c) s.toList ∧ ∃ c ∈ s.toList, isNextLine c) ∨
    (∀ c ∈ s.toList, isNextLine c = false) ∧
      ∃ mark radix cs front rest, (mark, radix) ∈ radixes ∧
        Text.trim s.toList = '0' :: mark :: cs ∧ (∀ c ∈ cs, (digitValue? radix c).isSome) ∧
        Overrun radix cs front rest ∧ TiesDown (digitsValue radix front) ∧
        digitsValue radix rest ≠ 0 ∧ Number.ofText s ≠ .infinity false := by
  by_cases hs : ∀ c ∈ s.toList, isNextLine c = false
  · have hbroken : ¬ ∃ c ∈ s.toList, isNextLine c := by
      rintro ⟨c, hc, hline⟩
      exact absurd hline (by simp [hs c hc])
    rw [or_iff_right (fun h => hbroken h.2), and_iff_right hs]
    constructor
    · intro h
      rw [number_eq hs] at h
      split at h
      · next radix cs hsome =>
        obtain ⟨mark, hmark, heq, hne, hdigits⟩ := radixDigits?_eq_some_iff.mp hsome
        obtain ⟨k, hradix, hle⟩ := twoTo_of_mem_radixes hmark
        rcases Nat.lt_or_ge (digitsValue radix cs) (twoTo 53) with hlt | hge
        · rw [Number.ofText_of_radix hmark heq,
            Number.ofRadixDigits_eq_ofNat hradix hle hne hdigits,
            foldl_keepDigit_of_lt (hradix ▸ twoTo_pos k) hlt] at h
          exact absurd rfl h
        · obtain ⟨front, rest, hover⟩ := exists_overrun hge
          rw [Ne, ofText_eq_ofNat_iff hmark heq hdigits hover, not_or, Classical.not_imp] at h
          exact ⟨mark, radix, cs, front, rest, hmark, heq, hdigits, hover, h.1.1, h.1.2, h.2⟩
      · exact absurd rfl h
    · rintro ⟨mark, radix, cs, front, rest, hmark, heq, hdigits, hover, hties, hrest, hfinite⟩
      have hnumber : number s = .ofNat (digitsValue radix cs) := by
        rw [number_eq hs, radixDigits?_eq_some_iff.mpr ⟨mark, hmark, heq, hover.ne_nil, hdigits⟩]
      rw [hnumber, Ne, ofText_eq_ofNat_iff hmark heq hdigits hover, not_or]
      exact ⟨fun h => hrest (h hties), hfinite⟩
  · simp only [not_forall, Bool.not_eq_false] at hs
    obtain ⟨c, hc, hline⟩ := hs
    rw [number_of_isNextLine hc hline, ofText_ne_nan_iff_numeric, and_iff_left ⟨c, hc, hline⟩]
    refine (or_iff_left ?_).symm
    rintro ⟨hnone, -⟩
    exact absurd hline (by simp [hnone c hc])

end Numeral
end DeadBranch
