/-
# What expressions come to

An expression of literals, arrays and operators reads nothing that a program could change,
so what it comes to when it is executed can be said once for all (`Expr.result`). It comes
to a primitive value, a big integer or an array. An operator that looks at an array finds
its text, which joins the texts of its items, except that two arrays that are written out
are never equal. On primitive values, the texts of arrays included, the operators are those
of the language (`UnaryOp.value`, `BinaryOp.value`), not the tables that evaluation uses. As
long as no big integer is among the operands, only `in` and `instanceof` fail
(`exists_result`).

Operators with two operands on big integers, `in` and `instanceof` are left open: the
parameter `beyond` says what they come to.

Key definitions: `Result`, `UnaryOp.on`, `BinaryOp.on`, `Expr.result`, `Expr.isTotal`.
Key theorems: `result_binary_iff`, `exists_result`.
-/
import DeadBranch.Proofs.SideEffects

namespace DeadBranch

/-! ### Results -/

/-- What an expression comes to when it is executed: a primitive value, a big integer, or an
array with its items, `none` for an item that is left out. -/
inductive Result where
  | plain (v : Value)
  | big (n : Int)
  | array (items : List (Option Result))

namespace Result

/-- Does it count as true in a test? -/
def truthy : Result → Bool
  | plain v => v.truthy
  | big n => n != 0
  | array _ => true

/-- Is it `undefined` or `null`? -/
def isNullish : Result → Bool
  | plain v => v.isNullish
  | _ => false

/-- Is it an array? -/
def isArray : Result → Bool
  | array _ => true
  | _ => false

/-- The name of its type, as `typeof` gives it. -/
def typeName : Result → String
  | plain v => v.typeName
  | big _ => "bigint"
  | array _ => "object"

mutual

/-- Its conversion to a text. -/
def toText : Result → String
  | plain v => v.toText
  | big n => toString n
  | array items => ",".intercalate (itemTexts items)

/-- The texts that the text of an array joins: empty ones for `undefined`, `null` and items
that are left out. -/
def itemTexts : List (Option Result) → List String
  | [] => []
  | none :: rest => "" :: itemTexts rest
  | some item :: rest => (if item.isNullish then "" else item.toText) :: itemTexts rest

end

/-- Its conversion to a primitive value: that of an array is its text. -/
def primitive? : Result → Option Value
  | plain v => some v
  | big _ => none
  | array items => some (.string (array items).toText)

/-- Equality without conversion. Two arrays that are written out are two objects. -/
def strictEquals : Result → Result → Bool
  | plain v, plain w => v.strictEquals w
  | big n, big m => n == m
  | _, _ => false

/-- Is the right operand left out for this result of the left one? -/
def decides (o : Result) : BinaryOp → Bool
  | .and => !o.truthy
  | .or => o.truthy
  | .coalesce => !o.isNullish
  | _ => false

end Result

/-! ### Operators -/

/-- What an operator comes to: on the value that its operand converts to it gives what it
gives in the language. -/
def UnaryOp.on : UnaryOp → Result → Option Result
  | .not, o => some (.plain (.bool !o.truthy))
  | .void, _ => some (.plain .undefined)
  | .typeof, o => some (.plain (.string o.typeName))
  | .delete, _ => some (.plain (.bool true))
  | .minus, .big n => some (.big (-n))
  | .complement, .big n => some (.big (-n - 1))
  | op, o => (o.primitive?.bind op.value).map .plain

/-- What an operator gives in the language on the primitive values that its operands convert
to. -/
def BinaryOp.converted (op : BinaryOp) (o o' : Result) : Option Value := do
  op.value (← o.primitive?) (← o'.primitive?)

/-- Is it a name, perhaps in parentheses? -/
def Expr.isName : Expr → Bool
  | .ident _ => true
  | .paren inner => inner.isName
  | _ => false

/-! ### Executing an expression -/

section Results

variable (beyond : BinaryOp → Result → Result → Option Result)

/-- What an operator comes to if its right operand counts. -/
def BinaryOp.on (op : BinaryOp) (o o' : Result) : Option Result :=
  let conversion := ((op.converted o o').map Result.plain).or (beyond op o o')
  match op with
  | .and | .or | .coalesce => some o'
  | .strictEq => some (.plain (.bool (o.strictEquals o')))
  | .strictNe => some (.plain (.bool !(o.strictEquals o')))
  | .looseEq => if o.isArray && o'.isArray then some (.plain (.bool false)) else conversion
  | .looseNe => if o.isArray && o'.isArray then some (.plain (.bool true)) else conversion
  | _ => conversion

mutual

/-- What an expression of literals, fixed names, arrays and operators comes to; nothing if
it fails or holds other forms. -/
def Expr.result : Expr → Option Result
  | .literal (.bigint n _) => some (.big n)
  | .literal value => value.value?.map .plain
  | .ident name => (globalValue? name).map .plain
  | .paren inner => inner.result
  | .array elements => (itemsResult elements).map .array
  | .unary op operand => do
    let o ← operand.result
    if op = .delete ∧ operand.isName then none else op.on o
  | .binary op left right => do
    let o ← left.result
    if o.decides op then some o else op.on beyond o (← right.result)
  | .cond test consequent alternate => do
    if (← test.result).truthy then consequent.result else alternate.result
  | _ => none

/-- What the elements of an array come to. -/
def itemsResult : List Expr → Option (List (Option Result))
  | [] => some []
  | .absent :: rest => (itemsResult rest).map (none :: ·)
  | element :: rest => do
    let o ← element.result
    return some o :: (← itemsResult rest)

end

end Results

/-! ### One operator -/

section Operators

variable (beyond : BinaryOp → Result → Result → Option Result) {o o' : Result} {p q : Value}

theorem BinaryOp.value_isSome {op : BinaryOp} (hop : op ≠ .hasKey) (hop' : op ≠ .instanceof)
    (v w : Value) : ∃ r, op.value v w = some r := by
  cases op with
  | hasKey => exact absurd rfl hop
  | instanceof => exact absurd rfl hop'
  | add =>
    simp only [BinaryOp.value]
    split <;> exact ⟨_, rfl⟩
  | _ => exact ⟨_, rfl⟩

theorem Result.decides_of_not_logical {op : BinaryOp} (hop : op.isLogical = false)
    (o : Result) : o.decides op = false := by
  cases op with
  | and | or | coalesce => cases hop
  | _ => rfl

/-- An operand is converted before the operator is applied. -/
theorem UnaryOp.exists_converted {op : UnaryOp} (hop : op.wantsNumber = true)
    (hp : o.primitive? = some p) :
    ∃ s, o.primitive?.bind op.value = some s ∧ op.on o = some (.plain s) := by
  obtain ⟨s, hs⟩ : ∃ s, op.value p = some s := by
    cases op with
    | plus | minus | complement => exact ⟨_, rfl⟩
    | _ => cases hop
  have hvalue : o.primitive?.bind op.value = some s := by rw [hp, Option.bind_some, hs]
  have hon : op.on o = (o.primitive?.bind op.value).map .plain := by
    cases op with
    | plus => rfl
    | minus | complement =>
      cases o with
      | big _ => cases hp
      | plain _ | array _ => rfl
    | _ => cases hop
  exact ⟨s, hvalue, by rw [hon, hvalue]; rfl⟩

/-- The operands are converted before the operator is applied. -/
theorem BinaryOp.exists_converted {op : BinaryOp} (hop : op ≠ .hasKey) (hop' : op ≠ .instanceof)
    (hp : o.primitive? = some p) (hq : o'.primitive? = some q) :
    ∃ s, op.converted o o' = some s ∧
      ((op.converted o o').map Result.plain).or (beyond op o o') = some (.plain s) := by
  obtain ⟨s, hs⟩ := BinaryOp.value_isSome hop hop' p q
  have hconverted : op.converted o o' = some s := by
    rw [BinaryOp.converted, hp, hq]
    exact hs
  exact ⟨s, hconverted, by rw [hconverted]; rfl⟩

theorem BinaryOp.on_logical {op : BinaryOp} (hop : op.isLogical = true) (o o' : Result) :
    op.on beyond o o' = some o' := by
  cases op with
  | and | or | coalesce => rfl
  | _ => cases hop

end Operators

/-! ### All expressions -/

section Expressions

variable (beyond : BinaryOp → Result → Result → Option Result)

theorem result_unary {op : UnaryOp} (hop : op ≠ .delete) (operand : Expr) :
    (Expr.unary op operand).result beyond = (operand.result beyond).bind op.on := by
  simp only [Expr.result, hop, false_and, if_false]
  rfl

theorem result_binary_iff {op : BinaryOp} {left right : Expr} {x : Result} :
    (Expr.binary op left right).result beyond = some x ↔
      ∃ o, left.result beyond = some o ∧
        if o.decides op then o = x
        else ∃ o', right.result beyond = some o' ∧ op.on beyond o o' = some x := by
  simp only [Expr.result, Option.bind_eq_bind, Option.bind_eq_some_iff]
  refine exists_congr fun o => and_congr_right fun _ => ?_
  by_cases ho : o.decides op
  · rw [if_pos ho, if_pos ho, Option.some.injEq]
  · rw [if_neg ho, if_neg ho, Option.bind_eq_some_iff]

theorem result_cond_iff {test consequent alternate : Expr} {x : Result} :
    (Expr.cond test consequent alternate).result beyond = some x ↔
      ∃ o, test.result beyond = some o ∧
        (if o.truthy then consequent else alternate).result beyond = some x := by
  simp only [Expr.result, Option.bind_eq_bind, Option.bind_eq_some_iff]
  refine exists_congr fun o => and_congr_right fun _ => ?_
  by_cases ho : o.truthy
  · rw [if_pos ho, if_pos ho]
  · rw [if_neg ho, if_neg ho]

mutual

/-- Is an expression built of primitive literals, fixed names, arrays and operators that
never fail? -/
def Expr.isTotal : Expr → Bool
  | .literal value => value.value?.isSome
  | .ident name => (globalValue? name).isSome
  | .paren inner => inner.isTotal
  | .array elements => itemsTotal elements
  | .unary op operand => operand.isTotal && (op != .delete || !operand.isName)
  | .binary op left right =>
    op != .hasKey && op != .instanceof && (left.isTotal && right.isTotal)
  | .cond test consequent alternate =>
    test.isTotal && (consequent.isTotal && alternate.isTotal)
  | _ => false

/-- Are the elements of an array built so? -/
def itemsTotal : List Expr → Bool
  | [] => true
  | .absent :: rest => itemsTotal rest
  | element :: rest => element.isTotal && itemsTotal rest

end

theorem UnaryOp.exists_on {o : Result} {v : Value} (ho : o.primitive? = some v) (op : UnaryOp) :
    ∃ r, op.on o = some (.plain r) := by
  by_cases hop : op.wantsNumber = true
  · obtain ⟨r, _, hon⟩ := UnaryOp.exists_converted hop ho
    exact ⟨r, hon⟩
  · cases op with
    | not | void | typeof | delete => exact ⟨_, rfl⟩
    | plus | minus | complement => exact absurd rfl hop

theorem BinaryOp.exists_on {o o' : Result} {v w : Value} (ho : o.primitive? = some v)
    (ho' : o'.primitive? = some w) {op : BinaryOp} (hop : op.isLogical = false)
    (hkey : op ≠ .hasKey) (hinstance : op ≠ .instanceof) :
    ∃ r, op.on beyond o o' = some (.plain r) := by
  obtain ⟨r, _, hconverted⟩ := BinaryOp.exists_converted beyond hkey hinstance ho ho'
  cases op with
  | and | or | coalesce => cases hop
  | strictEq | strictNe => exact ⟨_, rfl⟩
  | looseEq | looseNe =>
    simp only [BinaryOp.on]
    by_cases harrays : (o.isArray && o'.isArray) = true
    · exact ⟨_, if_pos harrays⟩
    · exact ⟨r, by rwa [if_neg harrays]⟩
  | hasKey => exact absurd rfl hkey
  | instanceof => exact absurd rfl hinstance
  | _ => exact ⟨r, hconverted⟩

mutual

/-- An expression built of what never fails comes to a primitive value or an array. -/
theorem exists_result : ∀ e : Expr, e.isTotal = true →
    ∃ o v, e.result beyond = some o ∧ o.primitive? = some v
  | .literal value, h => by
    simp only [Expr.isTotal] at h
    obtain ⟨v, hv⟩ := Option.isSome_iff_exists.mp h
    refine ⟨.plain v, v, ?_, rfl⟩
    cases value with
    | bigint _ _ | regex _ _ => cases hv
    | number _ _ | string _ _ | bool _ | null =>
      cases hv
      rfl
  | .ident name, h => by
    simp only [Expr.isTotal] at h
    obtain ⟨v, hv⟩ := Option.isSome_iff_exists.mp h
    exact ⟨.plain v, v, by rw [Expr.result, hv]; rfl, rfl⟩
  | .paren inner, h => by
    simp only [Expr.isTotal, Expr.result] at h ⊢
    exact exists_result inner h
  | .array elements, h => by
    simp only [Expr.isTotal] at h
    obtain ⟨items, hitems⟩ := exists_itemsResult elements h
    exact ⟨.array items, _, by rw [Expr.result, hitems]; rfl, rfl⟩
  | .unary op operand, h => by
    simp only [Expr.isTotal, Bool.and_eq_true, Bool.or_eq_true, bne_iff_ne, Bool.not_eq_true'] at h
    obtain ⟨o, v, ho, hv⟩ := exists_result operand h.1
    obtain ⟨w, hw⟩ := UnaryOp.exists_on hv op
    have hname : ¬(op = .delete ∧ operand.isName = true) := by
      rintro ⟨hdelete, hname⟩
      rcases h.2 with hother | hnot
      · exact hother hdelete
      · rw [hname] at hnot
        cases hnot
    refine ⟨.plain w, w, ?_, rfl⟩
    simp only [Expr.result, ho, Option.bind_eq_bind, Option.bind_some, if_neg hname, hw]
  | .binary op left right, h => by
    simp only [Expr.isTotal, Bool.and_eq_true, bne_iff_ne] at h
    obtain ⟨⟨hkey, hinstance⟩, hleft, hright⟩ := h
    obtain ⟨o, v, ho, hv⟩ := exists_result left hleft
    obtain ⟨o', w, ho', hw⟩ := exists_result right hright
    by_cases hdecides : o.decides op = true
    · exact ⟨o, v, (result_binary_iff beyond).mpr ⟨o, ho, by rw [if_pos hdecides]⟩, hv⟩
    · obtain ⟨x, r, hx, hr⟩ : ∃ x r, op.on beyond o o' = some x ∧ x.primitive? = some r := by
        by_cases hop : op.isLogical = true
        · exact ⟨o', w, BinaryOp.on_logical beyond hop o o', hw⟩
        · have hop' : op.isLogical = false := Bool.eq_false_iff.mpr hop
          obtain ⟨r, hr⟩ := BinaryOp.exists_on beyond hv hw hop' hkey hinstance
          exact ⟨.plain r, r, hr, rfl⟩
      exact ⟨x, r, (result_binary_iff beyond).mpr
        ⟨o, ho, by rw [if_neg hdecides]; exact ⟨o', ho', hx⟩⟩, hr⟩
  | .cond test consequent alternate, h => by
    simp only [Expr.isTotal, Bool.and_eq_true] at h
    obtain ⟨o, _, ho, _⟩ := exists_result test h.1
    by_cases htruthy : o.truthy = true
    · obtain ⟨x, r, hx, hr⟩ := exists_result consequent h.2.1
      exact ⟨x, r, (result_cond_iff beyond).mpr ⟨o, ho, by rwa [if_pos htruthy]⟩, hr⟩
    · obtain ⟨x, r, hx, hr⟩ := exists_result alternate h.2.2
      exact ⟨x, r, (result_cond_iff beyond).mpr ⟨o, ho, by rwa [if_neg htruthy]⟩, hr⟩
  | .assign _ _ _, h | .member _ _, h | .index _ _, h | .absent, h | .object _, h | .spread _, h
  | .arrayPattern _, h | .objectPattern _, h | .withDefault _ _, h | .closure _, h
  | .classExpr _ _ _, h | .other _ _, h => by simp [Expr.isTotal] at h

theorem exists_itemsResult : ∀ elements : List Expr, itemsTotal elements = true →
    ∃ items, itemsResult beyond elements = some items
  | [], _ => ⟨[], by simp only [itemsResult]⟩
  | element :: rest, h => by
    by_cases habsent : element = .absent
    · subst habsent
      simp only [itemsTotal] at h
      obtain ⟨items, hitems⟩ := exists_itemsResult rest h
      exact ⟨none :: items, by rw [itemsResult, hitems]; rfl⟩
    · simp only [itemsTotal, Bool.and_eq_true] at h
      obtain ⟨o, _, ho, _⟩ := exists_result element h.1
      obtain ⟨items, hitems⟩ := exists_itemsResult rest h.2
      refine ⟨some o :: items, ?_⟩
      rw [itemsResult, ho, hitems]
      · rfl
      · exact habsent

end

end Expressions

end DeadBranch
