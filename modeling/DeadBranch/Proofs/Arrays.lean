/-
# Arrays in tests

An array is an object, so it counts as true, and partial evaluation takes it for the
value `true`. When the program runs, an operator that looks at more than the truth of an
array may tell it from `true`: `[0] == true` does not hold.

The value that is found for an expression before the program runs has the truth of what it
comes to if no operator that is executed tells the arrays that it gets from `true`, and none
converts a misread text (`truthy_of_evaluate`). For one operator of the language the first is
also necessary (`BinaryOp.fits_on_iff`). It is so whatever the arrays are if they only stand
where nothing but their truth matters (`isBlind_of_hidesArrays`).

Key definitions: `Result.Fits`, `BinaryOp.isBlind`, `Expr.isBlind`, `Expr.hidesArrays`.
Key theorems: `BinaryOp.fits_on_iff`, `fits_of_evaluate`, `isBlind_of_hidesArrays`,
`truthy_of_evaluate`.
-/
import DeadBranch.Proofs.Results

namespace DeadBranch

/-! ### Operators that do not tell an array from `true` -/

/-- The value that partial evaluation takes a result for. -/
def Result.standIn? : Result → Option Value
  | plain v => some v
  | big _ => none
  | array _ => some (.bool true)

/-- What an operator gives in the language on what its operands are taken for. -/
def BinaryOp.pretended (op : BinaryOp) (o o' : Result) : Option Value := do
  op.value (← o.standIn?) (← o'.standIn?)

/-- Are two values the same, or, where only the truth matters, of the same truth and both
or neither of them `undefined` or `null`? -/
def Value.agrees (exact : Bool) (v w : Value) : Bool :=
  if exact then v == w else v.truthy == w.truthy && v.isNullish == w.isNullish

/-- The result is what the value stands for, or, where only the truth matters, one of the
same truth. -/
def Result.Fits (exact : Bool) (v : Value) (o : Result) : Prop :=
  if exact then o.standIn? = some v else o.truthy = v.truthy ∧ o.isNullish = v.isNullish

/-- Are both values there, and do they agree? -/
def agreeing (exact : Bool) (v? w? : Option Value) : Bool :=
  v?.any fun v => w?.any fun w => v.agrees exact w

/-- Does an operator that converts its operand find in an array what it finds in
`true`? -/
def UnaryOp.isBlind (exact : Bool) (o : Result) (op : UnaryOp) : Bool :=
  agreeing exact (o.primitive?.bind op.value) (o.standIn?.bind op.value)

/-- Does an operator find in arrays what it finds in `true`? Equality without conversion
tells an array from `true`, and from any other array, but nothing else equals either of
them. Two arrays are never equal. All else depends on the texts of the arrays. -/
def BinaryOp.isBlind (exact : Bool) (o o' : Result) (op : BinaryOp) : Bool :=
  match op with
  | .strictEq | .strictNe =>
    !(o.isArray || o'.isArray) ||
      !(o.standIn? == some (.bool true) && o'.standIn? == some (.bool true))
  | .looseEq | .looseNe =>
    !(o.isArray && o'.isArray) && agreeing exact (op.converted o o') (op.pretended o o')
  | _ => agreeing exact (op.converted o o') (op.pretended o o')

/-- Does no operator that is executed tell the arrays that it gets from `true`? If only the
truth of the expression matters, the last operator may find something else of the same
truth. What is executed for the elements of an array does not matter. -/
def Expr.isBlind (beyond : BinaryOp → Result → Result → Option Result) : Expr → Bool → Bool
  | .paren inner, exact => inner.isBlind beyond exact
  | .unary .not operand, _ => operand.isBlind beyond false
  | .unary .void _, _ => true
  | .unary .typeof operand, exact =>
    !exact || operand.isBlind beyond true && (operand.result beyond).all (!·.isArray)
  | .unary op operand, exact =>
    operand.isBlind beyond true && (operand.result beyond).all (op.isBlind exact ·)
  | .binary op left right, exact =>
    if op.isLogical then
      if (left.result beyond).any (·.decides op) then left.isBlind beyond exact
      else left.isBlind beyond false && right.isBlind beyond exact
    else
      left.isBlind beyond true && right.isBlind beyond true &&
        (left.result beyond).all fun o =>
          (right.result beyond).all fun o' => op.isBlind exact o o'
  | .cond test consequent alternate, exact =>
    test.isBlind beyond false &&
      if (test.result beyond).any (·.truthy) then consequent.isBlind beyond exact
      else alternate.isBlind beyond exact
  | _, _ => true

/-! ### Fitting results -/

section Fits

variable {exact : Bool} {v w : Value} {o : Result}

theorem Value.agrees_refl (exact : Bool) (v : Value) : v.agrees exact v = true := by
  cases exact <;> simp [Value.agrees]

theorem Result.fits_plain : (plain v).Fits exact w ↔ v.agrees exact w = true := by
  cases exact <;> simp [Fits, Value.agrees, standIn?, truthy, isNullish]

theorem Result.fits_bool {b c : Bool} : (plain (.bool b)).Fits exact (.bool c) ↔ b = c := by
  cases exact <;> simp [Fits, standIn?, truthy, isNullish, Value.truthy, Value.isNullish]

/-- What a value stands for has its truth. -/
theorem Result.fits_of_standIn (h : o.standIn? = some v) (exact : Bool) : o.Fits exact v := by
  cases exact with
  | true => exact h
  | false =>
    cases o with
    | plain w =>
      cases h
      exact ⟨rfl, rfl⟩
    | big n => cases h
    | array items =>
      cases h
      exact ⟨rfl, rfl⟩

theorem Result.Fits.weaken (h : o.Fits exact v) : o.Fits false v := by
  cases exact with
  | true => exact fits_of_standIn h false
  | false => exact h

theorem Result.Fits.truthy_eq (h : o.Fits exact v) : o.truthy = v.truthy := h.weaken.1

theorem Result.Fits.decides_eq (h : o.Fits exact v) (op : BinaryOp) :
    o.decides op = op.isDecidedBy v := by
  obtain ⟨htruthy, hnullish⟩ := h.weaken
  cases op <;> simp only [decides, BinaryOp.isDecidedBy, htruthy, hnullish]

theorem Result.primitive?_eq_standIn? (h : o.isArray = false) : o.primitive? = o.standIn? := by
  cases o with
  | plain _ | big _ => rfl
  | array _ => cases h

/-- What stands for a value converts to a value. -/
theorem Result.exists_primitive (h : o.standIn? = some v) : ∃ w, o.primitive? = some w := by
  cases o with
  | plain w => exact ⟨w, rfl⟩
  | big _ => cases h
  | array _ => exact ⟨_, rfl⟩

theorem agreeing_some : agreeing exact (some v) (some w) = v.agrees exact w := rfl

end Fits

/-! ### One operator -/

section Operators

variable {exact : Bool} {v w r : Value} {o o' x : Result}
variable {beyond : BinaryOp → Result → Result → Option Result}

theorem BinaryOp.ne_of_value {op : BinaryOp} (hr : op.value v w = some r) :
    op ≠ .hasKey ∧ op ≠ .instanceof := by
  constructor <;>
  · rintro rfl
    cases hr

/-- Only `true` equals `true` without conversion. -/
theorem Value.strictEquals_true (w : Value) :
    (bool true).strictEquals w = (w == bool true) := by
  cases w with
  | bool b => cases b <;> rfl
  | number _ | string _ | undefined | null => rfl

theorem Value.strictEquals_true_right (v : Value) :
    v.strictEquals (bool true) = (v == bool true) := by
  cases v with
  | bool b => cases b <;> rfl
  | number _ | string _ | undefined | null => rfl

/-- An operator with one operand fits what it gives for `true` exactly if it is blind to the
array. -/
theorem UnaryOp.fits_on_iff {op : UnaryOp} (hop : op.wantsNumber = true)
    (ho : o.standIn? = some v) (hr : op.value v = some r) (hx : op.on o = some x) :
    x.Fits exact r ↔ op.isBlind exact o = true := by
  obtain ⟨p, hp⟩ := Result.exists_primitive ho
  obtain ⟨s, hs, hon⟩ := UnaryOp.exists_converted hop hp
  rw [hon, Option.some.injEq] at hx
  rw [← hx, Result.fits_plain, UnaryOp.isBlind, hs, ho, Option.bind_some, hr, agreeing_some]

/-- Equality without conversion is right about arrays exactly if the operands are not both
taken for `true`. -/
theorem Result.strictEquals_eq_iff (ho : o.standIn? = some v) (ho' : o'.standIn? = some w) :
    o.strictEquals o' = v.strictEquals w ↔
      (!(o.isArray || o'.isArray) || !(v == .bool true && w == .bool true)) = true := by
  cases o with
  | big _ => cases ho
  | plain _ =>
    cases ho
    cases o' with
    | big _ => cases ho'
    | plain _ =>
      cases ho'
      simp [strictEquals, isArray]
    | array _ =>
      cases ho'
      simp [strictEquals, isArray, Value.strictEquals_true_right]
  | array _ =>
    cases ho
    cases o' with
    | big _ => cases ho'
    | plain _ | array _ =>
      cases ho'
      simp [strictEquals, isArray, Value.strictEquals_true]

/-- An operator that converts its operands fits what it gives for `true` exactly if it finds
the same in their texts. -/
theorem BinaryOp.fits_converted_iff {op : BinaryOp} (ho : o.standIn? = some v)
    (ho' : o'.standIn? = some w) (hr : op.value v w = some r)
    (hx : ((op.converted o o').map Result.plain).or (beyond op o o') = some x) :
    x.Fits exact r ↔ agreeing exact (op.converted o o') (op.pretended o o') = true := by
  obtain ⟨hkey, hinstance⟩ := BinaryOp.ne_of_value hr
  obtain ⟨p, hp⟩ := Result.exists_primitive ho
  obtain ⟨q, hq⟩ := Result.exists_primitive ho'
  obtain ⟨s, hs, hon⟩ := BinaryOp.exists_converted beyond hkey hinstance hp hq
  have hpretended : op.pretended o o' = some r := by
    rw [BinaryOp.pretended, ho, ho']
    exact hr
  rw [hon, Option.some.injEq] at hx
  rw [← hx, hs, hpretended, agreeing_some, Result.fits_plain]

theorem Result.standIn_of_isArray (harray : o.isArray = true) (ho : o.standIn? = some v) :
    v = .bool true := by
  cases o with
  | plain _ | big _ => cases harray
  | array _ => exact (Option.some.inj ho).symm

theorem Value.equalsAs_true_true : equalsAs numeric (bool true) (bool true) = true := by
  decide +kernel

/-- An operator with two operands fits what it gives for `true` exactly if it is blind to
the arrays that it gets. -/
theorem BinaryOp.fits_on_iff {op : BinaryOp} (hop : op.isLogical = false)
    (ho : o.standIn? = some v) (ho' : o'.standIn? = some w) (hr : op.value v w = some r)
    (hx : op.on beyond o o' = some x) : x.Fits exact r ↔ op.isBlind exact o o' = true := by
  cases op with
  | and | or | coalesce => cases hop
  | strictEq =>
    cases hr
    cases hx
    rw [Result.fits_bool, Result.strictEquals_eq_iff ho ho', BinaryOp.isBlind, ho, ho']
    rfl
  | strictNe =>
    cases hr
    cases hx
    rw [Result.fits_bool, Bool.not_inj_iff, Result.strictEquals_eq_iff ho ho', BinaryOp.isBlind,
      ho, ho']
    rfl
  | looseEq | looseNe =>
    simp only [BinaryOp.on] at hx
    rw [BinaryOp.isBlind]
    by_cases harrays : (o.isArray && o'.isArray) = true
    · -- they are taken for equal, and they are not
      rw [if_pos harrays] at hx
      rw [Bool.and_eq_true] at harrays
      obtain rfl := Result.standIn_of_isArray harrays.1 ho
      obtain rfl := Result.standIn_of_isArray harrays.2 ho'
      simp only [BinaryOp.value, Value.equalsAs_true_true] at hr
      cases hr
      cases hx
      simp [Result.fits_bool, harrays]
    · rw [if_neg harrays] at hx
      rw [BinaryOp.fits_converted_iff ho ho' hr hx, Bool.eq_false_iff.mpr harrays, Bool.not_false,
        Bool.true_and]
  | _ => exact BinaryOp.fits_converted_iff ho ho' hr hx

end Operators

/-! ### All expressions -/

section Expressions

variable (beyond : BinaryOp → Result → Result → Option Result)

theorem evaluate_empty_ident (name : String) :
    evaluate .empty (.ident name) = globalValue? name := by
  simp only [evaluate]
  rfl

/-- A name of a type is true. -/
theorem Result.typeName_fits (o : Result) (v : Value) :
    (plain (.string o.typeName)).Fits false (.string v.typeName) := by
  have hname : ∀ w : Value, w.typeName.isEmpty = false := fun w => by cases w <;> rfl
  have hname' : o.typeName.isEmpty = false := by
    cases o with
    | plain w => exact hname w
    | big _ | array _ => rfl
  rw [fits_plain]
  simp [Value.agrees, Value.truthy, Value.isNullish, hname v, hname']

/-- The step at a binary operator. -/
theorem fits_binary {op : BinaryOp} {left right : Expr} {exact : Bool} {v w r : Value}
    {x : Result} (hr : op.apply v w = some r)
    (hclear : op.isDecidedBy v = true ∨ right.isClear .empty = true ∧ op.isClear v w = true)
    (hx : (Expr.binary op left right).result beyond = some x)
    (hleft : ∀ (exact : Bool) (o : Result), left.result beyond = some o →
      left.isBlind beyond exact = true → o.Fits exact v)
    (hright : ∀ (exact : Bool) (o : Result), right.isClear .empty = true →
      right.result beyond = some o → right.isBlind beyond exact = true → o.Fits exact w)
    (hblind : (Expr.binary op left right).isBlind beyond exact = true) : x.Fits exact r := by
  obtain ⟨o, ho, hx⟩ := (result_binary_iff beyond).mp hx
  rw [Expr.isBlind] at hblind
  by_cases hop : op.isLogical = true
  · rw [if_pos hop, ho, Option.any_some] at hblind
    rw [BinaryOp.apply_logical hop, Option.some.injEq] at hr
    by_cases hdecides : o.decides op = true
    · rw [if_pos hdecides] at hblind hx
      have hfits := hleft exact o ho hblind
      rw [hfits.decides_eq] at hdecides
      rw [if_pos hdecides] at hr
      rwa [← hr, ← hx]
    · rw [if_neg hdecides] at hblind hx
      rw [Bool.and_eq_true] at hblind
      obtain ⟨o', ho', hx⟩ := hx
      have hfits := hleft false o ho hblind.1
      rw [hfits.decides_eq] at hdecides
      rw [if_neg hdecides] at hr
      rw [BinaryOp.on_logical beyond hop, Option.some.injEq] at hx
      rw [← hr, ← hx]
      exact hright exact o' (hclear.resolve_left hdecides).1 ho' hblind.2
  · have hop' : op.isLogical = false := Bool.eq_false_iff.mpr hop
    rw [o.decides_of_not_logical hop', if_neg Bool.false_ne_true] at hx
    rw [op.isDecidedBy_of_not_logical hop', or_iff_right Bool.false_ne_true] at hclear
    obtain ⟨o', ho', hx⟩ := hx
    rw [if_neg hop, Bool.and_eq_true, Bool.and_eq_true, ho, Option.all_some, ho',
      Option.all_some] at hblind
    have hfits := hleft true o ho hblind.1.1
    have hfits' := hright true o' hclear.1 ho' hblind.1.2
    rw [BinaryOp.apply_eq_value hclear.2] at hr
    exact (BinaryOp.fits_on_iff hop' hfits hfits' hr hx).mpr hblind.2

/-- What an expression comes to fits the value that is found for it, if no operator that is
executed converts a misread text or tells an array from `true`. -/
theorem fits_of_evaluate : ∀ (e : Expr) (exact : Bool) {v : Value} {o : Result},
    evaluate .empty e = some v → e.isClear .empty = true → e.result beyond = some o →
      e.isBlind beyond exact = true → o.Fits exact v
  | .literal value, exact, v, o, hv, _, ho, _ => by
    refine Result.fits_of_standIn ?_ exact
    simp only [evaluate] at hv
    cases value with
    | bigint _ _ | regex _ _ => cases hv
    | number _ _ | string _ _ | bool _ | null =>
      cases hv
      cases ho
      rfl
  | .ident name, exact, v, o, hv, _, ho, _ => by
    refine Result.fits_of_standIn ?_ exact
    rw [evaluate_empty_ident] at hv
    rw [Expr.result, hv] at ho
    cases ho
    rfl
  | .paren inner, exact, v, o, hv, hc, ho, hblind => by
    simp only [evaluate, Expr.isClear, Expr.result, Expr.isBlind] at hv hc ho hblind
    exact fits_of_evaluate inner exact hv hc ho hblind
  | .array elements, exact, v, o, hv, _, ho, _ => by
    refine Result.fits_of_standIn ?_ exact
    simp only [evaluate, Option.some.injEq] at hv
    simp only [Expr.result, Option.map_eq_some_iff] at ho
    obtain ⟨items, _, rfl⟩ := ho
    exact congrArg some hv
  | .unary op operand, exact, v, o, hv, hc, ho, hblind => by
    simp only [evaluate, Option.bind_eq_bind, Option.bind_eq_some_iff] at hv
    obtain ⟨w, hw, hv⟩ := hv
    simp only [Expr.isClear, hw, Option.all_some, Bool.and_eq_true] at hc
    rw [UnaryOp.apply_eq_value hc.2] at hv
    have hop : op ≠ .delete := by
      rintro rfl
      cases hv
    rw [result_unary beyond hop, Option.bind_eq_some_iff] at ho
    obtain ⟨a, ha, ho⟩ := ho
    have ih := fun exact h => fits_of_evaluate operand exact hw hc.1 ha h
    cases op with
    | not =>
      cases hv
      cases ho
      rw [Expr.isBlind] at hblind
      rw [Result.fits_bool, (ih false hblind).truthy_eq]
    | void =>
      cases hv
      cases ho
      exact Result.fits_of_standIn rfl exact
    | typeof =>
      cases hv
      cases ho
      cases exact with
      | false => exact a.typeName_fits w
      | true =>
        simp only [Expr.isBlind, Bool.not_true, Bool.false_or, Bool.and_eq_true, ha,
          Option.all_some, Bool.not_eq_true'] at hblind
        have hstand := ih true hblind.1
        cases a with
        | array _ => cases hblind.2
        | big _ => cases hstand
        | plain _ =>
          cases hstand
          rfl
    | delete => exact absurd rfl hop
    | plus | minus | complement =>
      simp only [Expr.isBlind, Bool.and_eq_true, ha, Option.all_some] at hblind
      exact (UnaryOp.fits_on_iff rfl (ih true hblind.1) hv ho).mpr hblind.2
  | .binary op left right, exact, v, o, hv, hc, ho, hblind => by
    simp only [evaluate, Option.bind_eq_bind, Option.bind_eq_some_iff] at hv
    obtain ⟨u, hu, w, hw, hv⟩ := hv
    simp only [Expr.isClear, hu, hw, Option.all_some, Bool.and_eq_true, Bool.or_eq_true] at hc
    exact fits_binary beyond hv hc.2 ho
      (fun exact a ha h => fits_of_evaluate left exact hu hc.1 ha h)
      (fun exact a hright ha h => fits_of_evaluate right exact hw hright ha h) hblind
  | .cond test consequent alternate, exact, v, o, hv, hc, ho, hblind => by
    simp only [evaluate, Option.bind_eq_bind, Option.bind_eq_some_iff] at hv
    obtain ⟨w, hw, hv⟩ := hv
    simp only [Expr.isClear, hw, Option.any_some, Bool.and_eq_true] at hc
    obtain ⟨a, ha, ho⟩ := (result_cond_iff beyond).mp ho
    simp only [Expr.isBlind, Bool.and_eq_true, ha, Option.any_some] at hblind
    -- the test has the truth that it is taken to have, so the same branch counts
    have htest := (fits_of_evaluate test false hw hc.1 ha hblind.1).truthy_eq
    by_cases hw' : w.truthy = true
    · rw [htest, if_pos hw'] at ho hblind
      rw [if_pos hw'] at hv hc
      exact fits_of_evaluate consequent exact hv hc.2 ho hblind.2
    · rw [htest, if_neg hw'] at ho hblind
      rw [if_neg hw'] at hv hc
      exact fits_of_evaluate alternate exact hv hc.2 ho hblind.2
  | .assign _ _ _, _, _, _, _, _, ho, _ | .member _ _, _, _, _, _, _, ho, _
  | .index _ _, _, _, _, _, _, ho, _ | .absent, _, _, _, _, _, ho, _
  | .object _, _, _, _, _, _, ho, _ | .spread _, _, _, _, _, _, ho, _
  | .arrayPattern _, _, _, _, _, _, ho, _
  | .objectPattern _, _, _, _, _, _, ho, _ | .withDefault _ _, _, _, _, _, _, ho, _
  | .closure _, _, _, _, _, _, ho, _ | .classExpr _ _ _, _, _, _, _, _, ho, _
  | .other _ _, _, _, _, _, _, ho, _ => by simp [Expr.result] at ho

/-! ### Arrays that only stand for their truth -/

/-- Do arrays only stand where nothing but their truth matters? -/
def Expr.hidesArrays : Expr → Bool → Bool
  | .array _, exact => !exact
  | .paren inner, exact => inner.hidesArrays exact
  | .unary .not operand, _ => operand.hidesArrays false
  | .unary .void _, _ => true
  | .unary _ operand, _ => operand.hidesArrays true
  | .binary op left right, exact =>
    left.hidesArrays (exact || !op.isLogical) && right.hidesArrays (exact || !op.isLogical)
  | .cond test consequent alternate, exact =>
    test.hidesArrays false && (consequent.hidesArrays exact && alternate.hidesArrays exact)
  | _, _ => true

/-- An operator that gets no array is blind. -/
theorem BinaryOp.isBlind_of_no_array {op : BinaryOp} {o o' : Result} {v w r : Value}
    (harray : o.isArray = false) (harray' : o'.isArray = false) (ho : o.standIn? = some v)
    (ho' : o'.standIn? = some w) (hr : op.value v w = some r) (exact : Bool) :
    op.isBlind exact o o' = true := by
  have hagree : agreeing exact (op.converted o o') (op.pretended o o') = true := by
    rw [BinaryOp.converted, BinaryOp.pretended, Result.primitive?_eq_standIn? harray,
      Result.primitive?_eq_standIn? harray', ho, ho']
    show agreeing exact (op.value v w) (op.value v w) = true
    rw [hr, agreeing_some]
    exact r.agrees_refl exact
  cases op with
  | strictEq | strictNe => simp [BinaryOp.isBlind, harray, harray']
  | looseEq | looseNe => simp [BinaryOp.isBlind, harray, hagree]
  | _ => exact hagree

theorem UnaryOp.isBlind_of_no_array {op : UnaryOp} {o : Result} {v r : Value}
    (harray : o.isArray = false) (ho : o.standIn? = some v) (hr : op.value v = some r)
    (exact : Bool) : op.isBlind exact o = true := by
  rw [UnaryOp.isBlind, Result.primitive?_eq_standIn? harray, ho, Option.bind_some, hr,
    agreeing_some]
  exact r.agrees_refl exact

theorem UnaryOp.isArray_on {op : UnaryOp} {o x : Result} (hx : op.on o = some x) :
    x.isArray = false := by
  unfold UnaryOp.on at hx
  split at hx
  iterate 6 cases hx; rfl
  obtain ⟨v, _, rfl⟩ := Option.map_eq_some_iff.mp hx
  rfl

theorem Expr.hidesArrays_false : ∀ (e : Expr) {exact : Bool}, e.hidesArrays exact = true →
    e.hidesArrays false = true
  | .array _, _, _ => rfl
  | .paren inner, exact, h => by
    simp only [Expr.hidesArrays] at h ⊢
    exact inner.hidesArrays_false h
  | .unary op operand, _, h => by
    cases op <;> exact h
  | .binary op left right, exact, h => by
    simp only [Expr.hidesArrays, Bool.and_eq_true] at h ⊢
    cases exact with
    | false => exact h
    | true =>
      simp only [Bool.true_or] at h
      cases op.isLogical with
      | false => exact h
      | true => exact ⟨left.hidesArrays_false h.1, right.hidesArrays_false h.2⟩
  | .cond test consequent alternate, exact, h => by
    simp only [Expr.hidesArrays, Bool.and_eq_true] at h ⊢
    exact ⟨h.1, consequent.hidesArrays_false h.2.1, alternate.hidesArrays_false h.2.2⟩
  | .literal _, _, _ | .ident _, _, _ | .assign _ _ _, _, _ | .member _ _, _, _
  | .index _ _, _, _ | .absent, _, _ | .object _, _, _ | .spread _, _, _ | .arrayPattern _, _, _
  | .objectPattern _, _, _ | .withDefault _ _, _, _ | .closure _, _, _ | .classExpr _ _ _, _, _
  | .other _ _, _, _ => by simp only [Expr.hidesArrays]

/-- If arrays only stand where their truth matters, no operator that is executed tells them
from `true`, and where more than the truth matters the expression comes to no array. Which
operators are executed is as it was found, if none converts a misread text. -/
theorem isBlind_of_hidesArrays : ∀ (e : Expr) (exact : Bool) {v : Value} {o : Result},
    evaluate .empty e = some v → e.isClear .empty = true → e.result beyond = some o →
      e.hidesArrays exact = true →
        e.isBlind beyond exact = true ∧ (exact = true → o.isArray = false)
  | .literal value, exact, v, o, _, _, ho, _ => by
    refine ⟨by simp only [Expr.isBlind], fun _ => ?_⟩
    cases value with
    | regex _ _ => cases ho
    | number _ _ | string _ _ | bool _ | null | bigint _ _ =>
      cases ho
      rfl
  | .ident name, exact, v, o, _, _, ho, _ => by
    refine ⟨by simp only [Expr.isBlind], fun _ => ?_⟩
    simp only [Expr.result, Option.map_eq_some_iff] at ho
    obtain ⟨w, _, rfl⟩ := ho
    rfl
  | .paren inner, exact, v, o, hv, hc, ho, hhides => by
    simp only [evaluate, Expr.isClear, Expr.hidesArrays, Expr.isBlind, Expr.result]
      at hv hc ho hhides ⊢
    exact isBlind_of_hidesArrays inner exact hv hc ho hhides
  | .array elements, exact, v, o, _, _, _, hhides => by
    simp only [Expr.hidesArrays, Bool.not_eq_true'] at hhides
    refine ⟨by simp only [Expr.isBlind], fun hexact => ?_⟩
    rw [hexact] at hhides
    cases hhides
  | .unary op operand, exact, v, o, hv, hc, ho, hhides => by
    simp only [evaluate, Option.bind_eq_bind, Option.bind_eq_some_iff] at hv
    obtain ⟨w, hw, hv⟩ := hv
    simp only [Expr.isClear, hw, Option.all_some, Bool.and_eq_true] at hc
    rw [UnaryOp.apply_eq_value hc.2] at hv
    have hop : op ≠ .delete := by
      rintro rfl
      cases hv
    rw [result_unary beyond hop, Option.bind_eq_some_iff] at ho
    obtain ⟨a, ha, ho⟩ := ho
    refine ⟨?_, fun _ => UnaryOp.isArray_on ho⟩
    have ih := fun exact h => isBlind_of_hidesArrays operand exact hw hc.1 ha h
    cases op with
    | not => exact (ih false hhides).1
    | void => rfl
    | delete => exact absurd rfl hop
    | typeof =>
      obtain ⟨hblind, harray⟩ := ih true hhides
      simp only [Expr.isBlind, hblind, ha, Option.all_some, harray rfl, Bool.not_false,
        Bool.and_true, Bool.or_true]
    | plus | minus | complement =>
      obtain ⟨hblind, harray⟩ := ih true hhides
      have hstand := fits_of_evaluate beyond operand true hw hc.1 ha hblind
      simp only [Expr.isBlind, hblind, ha, Option.all_some, Bool.true_and]
      exact UnaryOp.isBlind_of_no_array (harray rfl) hstand hv exact
  | .binary op left right, exact, v, o, hv, hc, ho, hhides => by
    simp only [evaluate, Option.bind_eq_bind, Option.bind_eq_some_iff] at hv
    obtain ⟨u, hu, w, hw, hv⟩ := hv
    simp only [Expr.isClear, hu, hw, Option.all_some, Bool.and_eq_true, Bool.or_eq_true] at hc
    obtain ⟨a, ha, ho⟩ := (result_binary_iff beyond).mp ho
    simp only [Expr.hidesArrays, Bool.and_eq_true] at hhides
    rw [Expr.isBlind, ha]
    by_cases hop : op.isLogical = true
    · rw [hop, Bool.not_true, Bool.or_false] at hhides
      rw [if_pos hop, Option.any_some]
      by_cases hdecides : a.decides op = true
      · rw [if_pos hdecides] at ho ⊢
        rw [← ho]
        exact isBlind_of_hidesArrays left exact hu hc.1 ha hhides.1
      · rw [if_neg hdecides] at ho ⊢
        obtain ⟨b, hb, ho⟩ := ho
        rw [BinaryOp.on_logical beyond hop, Option.some.injEq] at ho
        have hleft := isBlind_of_hidesArrays left false hu hc.1 ha
          (left.hidesArrays_false hhides.1)
        have hfits := fits_of_evaluate beyond left false hu hc.1 ha hleft.1
        rw [hfits.decides_eq] at hdecides
        rw [hleft.1, Bool.true_and, ← ho]
        exact isBlind_of_hidesArrays right exact hw (hc.2.resolve_left hdecides).1 hb hhides.2
    · have hop' : op.isLogical = false := Bool.eq_false_iff.mpr hop
      rw [a.decides_of_not_logical hop', if_neg Bool.false_ne_true] at ho
      obtain ⟨b, hb, ho⟩ := ho
      rw [hop', Bool.not_false, Bool.or_true] at hhides
      rw [op.isDecidedBy_of_not_logical hop', or_iff_right Bool.false_ne_true] at hc
      rw [BinaryOp.apply_eq_value hc.2.2] at hv
      obtain ⟨hblind, harray⟩ := isBlind_of_hidesArrays left true hu hc.1 ha hhides.1
      obtain ⟨hblind', harray'⟩ := isBlind_of_hidesArrays right true hw hc.2.1 hb hhides.2
      have hstand := fits_of_evaluate beyond left true hu hc.1 ha hblind
      have hstand' := fits_of_evaluate beyond right true hw hc.2.1 hb hblind'
      rw [if_neg hop, hblind, hblind', hb, Option.all_some, Option.all_some]
      refine ⟨BinaryOp.isBlind_of_no_array (harray rfl) (harray' rfl) hstand hstand' hv exact,
        fun _ => ?_⟩
      obtain ⟨hkey, hinstance⟩ := BinaryOp.ne_of_value hv
      obtain ⟨p, hp⟩ := Result.exists_primitive hstand
      obtain ⟨q, hq⟩ := Result.exists_primitive hstand'
      obtain ⟨r, hr⟩ := BinaryOp.exists_on beyond hp hq hop' hkey hinstance
      rw [hr, Option.some.injEq] at ho
      rw [← ho]
      rfl
  | .cond test consequent alternate, exact, v, o, hv, hc, ho, hhides => by
    simp only [evaluate, Option.bind_eq_bind, Option.bind_eq_some_iff] at hv
    obtain ⟨w, hw, hv⟩ := hv
    simp only [Expr.isClear, hw, Option.any_some, Bool.and_eq_true] at hc
    obtain ⟨a, ha, ho⟩ := (result_cond_iff beyond).mp ho
    simp only [Expr.hidesArrays, Bool.and_eq_true] at hhides
    have hblind := (isBlind_of_hidesArrays test false hw hc.1 ha hhides.1).1
    have htest := (fits_of_evaluate beyond test false hw hc.1 ha hblind).truthy_eq
    rw [Expr.isBlind, hblind, ha, Option.any_some, htest, Bool.true_and]
    rw [htest] at ho
    by_cases hw' : w.truthy = true
    · rw [if_pos hw'] at hv hc ho ⊢
      exact isBlind_of_hidesArrays consequent exact hv hc.2 ho hhides.2.1
    · rw [if_neg hw'] at hv hc ho ⊢
      exact isBlind_of_hidesArrays alternate exact hv hc.2 ho hhides.2.2
  | .assign _ _ _, _, _, _, _, _, ho, _ | .member _ _, _, _, _, _, _, ho, _
  | .index _ _, _, _, _, _, _, ho, _ | .absent, _, _, _, _, _, ho, _
  | .object _, _, _, _, _, _, ho, _ | .spread _, _, _, _, _, _, ho, _
  | .arrayPattern _, _, _, _, _, _, ho, _
  | .objectPattern _, _, _, _, _, _, ho, _ | .withDefault _ _, _, _, _, _, _, ho, _
  | .closure _, _, _, _, _, _, ho, _ | .classExpr _ _ _, _, _, _, _, _, ho, _
  | .other _ _, _, _, _, _, _, ho, _ => by simp [Expr.result] at ho

/-- **What is found for a test with arrays has the truth of what it comes to**, if no
operator that is executed converts a misread text or tells the arrays that it gets from
`true`; and none does the latter if arrays only stand where their truth matters. An
expression built of what never fails comes to something. -/
theorem truthy_of_evaluate {e : Expr} {v : Value} (hv : evaluate .empty e = some v) :
    (∀ o, e.isClear .empty = true → e.result beyond = some o → e.isBlind beyond false = true →
        o.truthy = v.truthy) ∧
      (∀ o, e.isClear .empty = true → e.result beyond = some o → e.hidesArrays false = true →
        e.isBlind beyond false = true) ∧
      (e.isTotal = true → ∃ o, e.result beyond = some o) := by
  refine ⟨fun o hc ho hblind => ?_, fun o hc ho hhides => ?_, fun htotal => ?_⟩
  · exact (fits_of_evaluate beyond e false hv hc ho hblind).truthy_eq
  · exact (isBlind_of_hidesArrays beyond e false hv hc ho hhides).1
  · obtain ⟨o, _, ho, _⟩ := exists_result beyond e htotal
    exact ⟨o, ho⟩

end Expressions

/-- `typeof [[], "x"] && [0] === 1 ? 0 : [[1]] * 3` -/
def arraysEverywhere : Expr :=
  .cond
    (.binary .and (.unary .typeof (.array [.array [], .literal (.string "x" "\"x\"")]))
      (.binary .strictEq (.array [.literal (.number .zero "0")])
        (.literal (.number (.ofNat 1) "1"))))
    (.literal (.number .zero "0"))
    (.binary .mul (.array [.array [.literal (.number (.ofNat 1) "1")]])
      (.literal (.number (.ofNat 3) "3")))

/-- The text of `[[1]]` reads as one, and the other arrays stand where they are not told
from `true`, so that three is found rightly. -/
theorem arraysEverywhere_truthy :
    evaluate .empty arraysEverywhere = some (.number (.ofNat 3)) ∧
      arraysEverywhere.isClear .empty = true ∧
      arraysEverywhere.isBlind (fun _ _ _ => none) false = true ∧
      ∃ o, arraysEverywhere.result (fun _ _ _ => none) = some o ∧ o.truthy = true := by
  have hv : evaluate .empty arraysEverywhere = some (.number (.ofNat 3)) := by decide +kernel
  have hclear : arraysEverywhere.isClear .empty = true := by decide +kernel
  have hblind : arraysEverywhere.isBlind (fun _ _ _ => none) false = true := by decide +kernel
  obtain ⟨htruthy, _, htotal⟩ := truthy_of_evaluate (fun _ _ _ => none) hv
  obtain ⟨o, ho⟩ := htotal (by decide +kernel)
  exact ⟨hv, hclear, hblind, o, ho, (htruthy o hclear ho hblind).trans (by decide +kernel)⟩

/-- `[0] == true` is taken for true, and it is false: the text `0` converts to zero. -/
theorem exists_array_told_from_true :
    ∃ e : Expr, e.isTotal = true ∧ e.isClear .empty = true ∧ evaluate .empty e = some (.bool true) ∧
      ∀ beyond, ∃ o, e.result beyond = some o ∧ o.truthy = false := by
  refine ⟨.binary .looseEq (.array [.literal (.number .zero "0")]) (.literal (.bool true)),
    by decide +kernel, by decide +kernel, by decide +kernel, fun beyond => ?_⟩
  let items := [some (Result.plain (.number .zero))]
  have hequals : Value.equalsAs Value.numeric (.string (Result.array items).toText) (.bool true) =
      false := by
    decide +kernel
  refine ⟨.plain (.bool (Value.equalsAs Value.numeric (.string (Result.array items).toText)
    (.bool true))), rfl, ?_⟩
  rw [hequals]
  rfl

end DeadBranch
