/-
# What decimals stand for

A decimal without a sign stands for a rational number: digits before and after a point, and a
power of ten (`Denotes`). Reading such a text rounds that number once
(`Denotes.ofDecimalText?`).

Key definitions: `Numeral.Scale`, `Numeral.Denotes`.
Key theorems: `Numeral.Denotes.ofDecimalText?`, `Numeral.ofText_of_signed_plain`.
-/
import DeadBranch.Proofs.Numerals
import DeadBranch.Proofs.ShortestDigits
import Mathlib.Data.List.Induction

namespace DeadBranch

namespace Numeral

/-! ### What a decimal stands for -/

/-- The exponent of a decimal, with its value. -/
inductive Scale : List Char → Int → Prop
  | absent : Scale [] 0
  | bare {c : Char} {cs : List Char} (hc : c = 'e' ∨ c = 'E') (h : Digits cs) :
    Scale (c :: cs) (decimalValue cs)
  | plus {c : Char} {cs : List Char} (hc : c = 'e' ∨ c = 'E') (h : Digits cs) :
    Scale (c :: '+' :: cs) (decimalValue cs)
  | minus {c : Char} {cs : List Char} (hc : c = 'e' ∨ c = 'E') (h : Digits cs) :
    Scale (c :: '-' :: cs) (-decimalValue cs)

/-- A decimal without a sign, with the rational number that it stands for. -/
inductive Denotes : List Char → ℚ → Prop
  | whole {w x : List Char} {e : Int} (hw : Digits w) (hx : Scale x e) :
    Denotes (w ++ x) (decimalValue w * 10 ^ e)
  | point {w f x : List Char} {e : Int} (hw : Digits w) (hf : ∀ c ∈ f, isDigit c)
    (hx : Scale x e) :
    Denotes (w ++ '.' :: (f ++ x)) ((decimalValue w + decimalValue f / 10 ^ f.length) * 10 ^ e)
  | fraction {f x : List Char} {e : Int} (hf : Digits f) (hx : Scale x e) :
    Denotes ('.' :: (f ++ x)) (decimalValue f / 10 ^ f.length * 10 ^ e)

theorem Scale.exponent {cs : List Char} {e : Int} (h : Scale cs e) : Exponent cs := by
  cases h with
  | absent => exact .absent
  | bare hc h => exact .marked hc (.bare h)
  | plus hc h => exact .marked hc (.plus h)
  | minus hc h => exact .marked hc (.minus h)

theorem Denotes.plain {cs : List Char} {x : ℚ} (h : Denotes cs x) : Plain cs := by
  cases h with
  | whole hw hx => exact .whole hw hx.exponent
  | point hw hf hx => exact .point hw hf hx.exponent
  | fraction hf hx => exact .fraction hf hx.exponent

/-! ### Reading what it stands for -/

theorem decimalValue_concat (cs : List Char) (c : Char) :
    decimalValue (cs ++ [c]) = decimalValue cs * 10 + (c.toNat - '0'.toNat) := by
  simp [decimalValue]

theorem decimalValue_append (w f : List Char) :
    decimalValue (w ++ f) = decimalValue w * 10 ^ f.length + decimalValue f := by
  induction f using List.reverseRecOn with
  | nil => simp [decimalValue]
  | append_singleton f c ih =>
    rw [← List.append_assoc, decimalValue_concat, ih, decimalValue_concat, List.length_append,
      List.length_singleton, Nat.pow_succ]
    ring

theorem Digits.splitSign {cs : List Char} (h : Digits cs) :
    Number.splitSign cs = (false, cs) :=
  splitSign_of_head fun c hc => ne_sign_of_isDigit (h.digits c (List.mem_of_mem_head? hc))

theorem Plain.splitSign {cs : List Char} (h : Plain cs) : Number.splitSign cs = (false, cs) := by
  refine splitSign_of_head fun c hc => ?_
  rcases h.head c hc with hdigit | rfl
  · exact ne_sign_of_isDigit hdigit
  · decide

theorem Scale.exponentPart? {cs : List Char} {e : Int} (h : Scale cs e) :
    Number.exponentPart? cs = some e := by
  cases h with
  | absent => rfl
  | bare hc h =>
    rw [Number.exponentPart?, h.splitSign]
    exact if_pos ⟨hc, (digits_iff _).mp h⟩
  | plus hc h => exact if_pos ⟨hc, (digits_iff _).mp h⟩
  | minus hc h => exact if_pos ⟨hc, (digits_iff _).mp h⟩

/-- The parts in which a decimal is read make up what it stands for. -/
theorem Denotes.decimalParts {cs : List Char} {x : ℚ} (h : Denotes cs x) :
    ∃ w f r e, decimalParts cs = (w, f, r) ∧ (w.isEmpty && f.isEmpty) = false ∧
      Number.exponentPart? r = some e ∧
      x = Decimal.value ⟨decimalValue (w ++ f), e - f.length⟩ := by
  have hshift : ∀ (w f : List Char) (e : Int),
      ((decimalValue w + decimalValue f / 10 ^ f.length) * 10 ^ e : ℚ) =
        Decimal.value ⟨decimalValue (w ++ f), e - f.length⟩ := by
    intro w f e
    rw [Decimal.value, decimalValue_append, zpow_sub₀ (by norm_num), zpow_natCast]
    push_cast
    field_simp
  cases h with
  | @whole w r e hw hx =>
    refine ⟨w, [], r, e, decimalParts_of_head hw.digits hx.exponent.head, ?_, hx.exponentPart?, ?_⟩
    · simpa using hw.ne_nil
    · simpa [decimalValue] using hshift w [] e
  | @point w f r e hw hf hx =>
    obtain ⟨htake, hdrop⟩ := span_digits hf fun c hc => (hx.exponent.head c hc).1
    refine ⟨w, f, r, e, ?_, by simp [hw.ne_nil], hx.exponentPart?, hshift w f e⟩
    rw [decimalParts_point hw.digits, htake, hdrop]
  | @fraction f r e hf hx =>
    obtain ⟨htake, hdrop⟩ := span_digits hf.digits fun c hc => (hx.exponent.head c hc).1
    have hparts := decimalParts_point (w := []) (by simp) (f ++ r)
    rw [List.nil_append, htake, hdrop] at hparts
    refine ⟨[], f, r, e, hparts, by simp [hf.ne_nil], hx.exponentPart?, ?_⟩
    simpa [decimalValue] using hshift [] f e

/-- **Reading is exact up to one rounding.** A decimal, after its sign, is read as the number
nearest to what it stands for. -/
theorem Denotes.ofDecimalText? {cs signed : List Char} {negative : Bool} {x : ℚ}
    (h : Denotes cs x) (hsign : Number.splitSign signed = (negative, cs)) :
    Number.ofDecimalText? signed = some (.ofRat negative x) := by
  obtain ⟨w, f, r, e, hparts, hsome, hexponent, rfl⟩ := h.decimalParts
  have heq := ofDecimalText?_eq signed
  dsimp only at heq
  rw [heq, hsign, hparts]
  dsimp only
  rw [hsome, hexponent, ← Decimal.toNumber_eq_ofRat]
  rfl

/-- Without a mark of a radix a text is read as an infinite number or as a decimal. -/
theorem ofText_of_unmarked {s : String} {cs : List Char} (hs : Text.trim s.toList = cs)
    (hne : cs ≠ []) (hmark : ∀ mark rest, cs = '0' :: mark :: rest → radixDigit? mark = none) :
    Number.ofText s =
      if (Number.splitSign cs).2 = "Infinity".toList then .infinity (Number.splitSign cs).1
      else (Number.ofDecimalText? cs).getD .nan := by
  unfold Number.ofText
  rw [hs]
  split
  · exact absurd rfl hne
  iterate 6 exact absurd (hmark _ _ rfl) (Option.some_ne_none _)
  · rfl

theorem not_signed_plain_nil : ¬ Signed Plain [] := by
  rw [signed_plain_iff, plain_iff]
  simp [decimalParts, Number.splitSign]

/-- A decimal is read as such: it is no numeral of another radix and not infinite. -/
theorem ofText_of_signed_plain {s : String} {cs : List Char} (hs : Text.trim s.toList = cs)
    (h : Signed Plain cs) : Number.ofText s = (Number.ofDecimalText? cs).getD .nan := by
  have hchars : ∀ c ∈ cs, isDecimalChar c :=
    h.forall_mem (by decide) (by decide) fun cs h => h.forall_mem
  have hbare : (Number.splitSign cs).2 ≠ "Infinity".toList := by
    intro heq
    have hplain := (signed_plain_iff cs).mp h
    exact absurd (hplain.forall_mem 'I' (by rw [heq]; decide)) (by decide)
  rw [ofText_of_unmarked hs, if_neg hbare]
  · rintro rfl
    exact not_signed_plain_nil h
  · rintro mark rest rfl
    exact radixDigit?_of_isDecimalChar (hchars mark (by simp))

theorem ofText_ofList {cs : List Char} (h : Signed Plain cs) :
    Number.ofText (String.ofList cs) = (Number.ofDecimalText? cs).getD .nan := by
  refine ofText_of_signed_plain ?_ h
  have hvisible := Literal.forall_mem (.decimal h)
  have hends : Text.trim ([] ++ cs ++ []) = cs :=
    trim_append (by simp) (fun c hc => not_isBlank_of_isVisible (hvisible c hc)) (by simp)
  simpa using hends

end Numeral

end DeadBranch
