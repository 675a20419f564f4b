/-
# Operators that leave out an operand

When a program runs, `&&`, `||` and `??` come to their right operand only if the left one
does not decide. Partial evaluation wants both operands known. `lazyValue` and `lazyPath`
evaluate as the program does: they differ from `evaluate` and `staticPath` in these three
operators alone, also where the operator stands in a computed key.

Wanting more to be known never leads to another answer. What `evaluate` finds is what
`lazyValue` finds, and it finds it exactly if all the operands are known that are left out
on the way (`evaluate_iff_lazy`).

Key definitions: `lazyValue`, `lazyPath`, `Expr.omitsKnown`.
Key theorems: `evaluate_binary_iff`, `lazyValue_binary_iff`, `evaluate_iff_lazy`.
-/
import DeadBranch.Proofs.SideEffects

namespace DeadBranch

mutual

/-- The value of an expression, as far as it is known, where the right operand of a
logical operator counts only if the left one does not decide. -/
def lazyValue (known : Associations) : Expr → Option Value
  | .literal value => value.value?
  | .ident name =>
    if known.isShadowed name then none
    else (known.lookup? (.root name)).or (globalValue? name)
  | .member object name => do
    known.lookup? ((← lazyPath known object).child (.name name))
  | .index object key => do
    let path ← lazyPath known object
    known.lookup? (path.child (.ofValue (← lazyValue known key)))
  | .paren inner => lazyValue known inner
  | .unary op operand => do op.apply (← lazyValue known operand)
  | .binary op left right => do
    let v ← lazyValue known left
    if op.isDecidedBy v then some v else op.apply v (← lazyValue known right)
  | .cond test consequent alternate => do
    if (← lazyValue known test).truthy then lazyValue known consequent
    else lazyValue known alternate
  | .assign none _ value => lazyValue known value
  | .array _ => some (.bool true)
  | _ => none

/-- The path that an expression reads, with keys evaluated so. -/
def lazyPath (known : Associations) : Expr → Option Path
  | .ident name => if known.isShadowed name then none else some (.root name)
  | .member object name => do return (← lazyPath known object).child (.name name)
  | .index object key => do
    let path ← lazyPath known object
    return path.child (.ofValue (← lazyValue known key))
  | .paren inner => lazyPath known inner
  | _ => none

end

/-- Are all the operands known that are left out on the way to the value of an
expression? -/
def Expr.omitsKnown (known : Associations) : Expr → Bool
  | .paren inner => inner.omitsKnown known
  | .unary _ operand => operand.omitsKnown known
  | .binary op left right =>
    left.omitsKnown known &&
      if (lazyValue known left).any (op.isDecidedBy ·) then (evaluate known right).isSome
      else right.omitsKnown known
  | .cond test consequent alternate =>
    test.omitsKnown known &&
      if (lazyValue known test).any (·.truthy) then consequent.omitsKnown known
      else alternate.omitsKnown known
  | .assign none _ value => value.omitsKnown known
  | .member base _ => base.omitsKnown known
  | .index base key => base.omitsKnown known && key.omitsKnown known
  | _ => true

/-! ### One operator -/

/-- An operator whose left operand decides has the value of that operand. -/
theorem BinaryOp.apply_of_isDecidedBy {op : BinaryOp} {v : Value} (h : op.isDecidedBy v)
    (w : Value) : op.apply v w = some v := by
  have hlogical : op.isLogical = true := by
    by_cases hop : op.isLogical = true
    · exact hop
    · rw [op.isDecidedBy_of_not_logical (Bool.eq_false_iff.mpr hop)] at h
      cases h
  rw [BinaryOp.apply_logical hlogical, if_pos h]

section Operators

variable {known : Associations} {op : BinaryOp} {left right : Expr} {r : Value}

theorem evaluate_binary_iff : evaluate known (.binary op left right) = some r ↔
    ∃ v, evaluate known left = some v ∧ ∃ w, evaluate known right = some w ∧
      op.apply v w = some r := by
  simp only [evaluate, Option.bind_eq_bind, Option.bind_eq_some_iff]

theorem lazyValue_binary_iff : lazyValue known (.binary op left right) = some r ↔
    ∃ v, lazyValue known left = some v ∧
      if op.isDecidedBy v then v = r
      else ∃ w, lazyValue known right = some w ∧ op.apply v w = some r := by
  simp only [lazyValue, Option.bind_eq_bind, Option.bind_eq_some_iff]
  refine exists_congr fun v => and_congr_right fun _ => ?_
  by_cases hv : op.isDecidedBy v
  · rw [if_pos hv, if_pos hv, Option.some.injEq]
  · rw [if_neg hv, if_neg hv, Option.bind_eq_some_iff]

/-- What is wanted of the operands of an operator, if its left operand has a value. -/
theorem omitsKnown_binary {v : Value} (hv : lazyValue known left = some v) :
    (Expr.binary op left right).omitsKnown known = true ↔ left.omitsKnown known = true ∧
      if op.isDecidedBy v then (evaluate known right).isSome = true
      else right.omitsKnown known = true := by
  simp only [Expr.omitsKnown, hv, Option.any_some, Bool.and_eq_true]
  by_cases hdecided : op.isDecidedBy v
  · rw [if_pos hdecided, if_pos hdecided]
  · rw [if_neg hdecided, if_neg hdecided]

/-- The step at a binary operator, given what its operands come to. -/
theorem evaluate_binary_iff_lazy
    (hleft : ∀ v, evaluate known left = some v ↔
      lazyValue known left = some v ∧ left.omitsKnown known = true)
    (hright : ∀ v, evaluate known right = some v ↔
      lazyValue known right = some v ∧ right.omitsKnown known = true) :
    evaluate known (.binary op left right) = some r ↔
      lazyValue known (.binary op left right) = some r ∧
        (Expr.binary op left right).omitsKnown known = true := by
  rw [evaluate_binary_iff, lazyValue_binary_iff]
  constructor
  · rintro ⟨v, hv, w, hw, hr⟩
    obtain ⟨hlazy, homits⟩ := (hleft v).mp hv
    rw [omitsKnown_binary hlazy]
    by_cases hdecided : op.isDecidedBy v
    · have hvr : v = r := by
        rw [BinaryOp.apply_of_isDecidedBy hdecided w] at hr
        exact Option.some.inj hr
      exact ⟨⟨v, hlazy, by rwa [if_pos hdecided]⟩, homits, by rw [if_pos hdecided, hw]; rfl⟩
    · obtain ⟨hlazy', homits'⟩ := (hright w).mp hw
      exact ⟨⟨v, hlazy, by rw [if_neg hdecided]; exact ⟨w, hlazy', hr⟩⟩, homits,
        by rwa [if_neg hdecided]⟩
  · rintro ⟨⟨v, hlazy, hr⟩, homits⟩
    rw [omitsKnown_binary hlazy] at homits
    have hv : evaluate known left = some v := (hleft v).mpr ⟨hlazy, homits.1⟩
    by_cases hdecided : op.isDecidedBy v
    · rw [if_pos hdecided] at hr homits
      obtain ⟨w, hw⟩ := Option.isSome_iff_exists.mp homits.2
      exact ⟨v, hv, w, hw, hr ▸ BinaryOp.apply_of_isDecidedBy hdecided w⟩
    · rw [if_neg hdecided] at hr homits
      obtain ⟨w, hw, hr⟩ := hr
      exact ⟨v, hv, w, (hright w).mpr ⟨hw, homits.2⟩, hr⟩

end Operators

/-! ### All expressions -/

section Lazy

variable (known : Associations)

mutual

/-- What is found with both operands known is found with one of them left out, and the
other way round if the operands that are left out are known. -/
theorem evaluate_iff : ∀ (e : Expr) (v : Value), evaluate known e = some v ↔
    lazyValue known e = some v ∧ e.omitsKnown known = true
  | .literal _, v | .ident _, v | .array _, v => by
    simp only [evaluate, lazyValue, Expr.omitsKnown, and_true]
  | .member object name, v => by
    simp only [evaluate, lazyValue, Expr.omitsKnown, Option.bind_eq_bind, Option.bind_eq_some_iff,
      staticPath_iff object]
    constructor
    · rintro ⟨path, ⟨hpath, homits⟩, hv⟩
      exact ⟨⟨path, hpath, hv⟩, homits⟩
    · rintro ⟨⟨path, hpath, hv⟩, homits⟩
      exact ⟨path, ⟨hpath, homits⟩, hv⟩
  | .index object key, v => by
    simp only [evaluate, lazyValue, Expr.omitsKnown, Option.bind_eq_bind, Option.bind_eq_some_iff,
      staticPath_iff object, evaluate_iff key, Bool.and_eq_true]
    constructor
    · rintro ⟨path, ⟨hpath, hobject⟩, k, ⟨hk, hkey⟩, hv⟩
      exact ⟨⟨path, hpath, k, hk, hv⟩, hobject, hkey⟩
    · rintro ⟨⟨path, hpath, k, hk, hv⟩, hobject, hkey⟩
      exact ⟨path, ⟨hpath, hobject⟩, k, ⟨hk, hkey⟩, hv⟩
  | .paren inner, v => by
    simp only [evaluate, lazyValue, Expr.omitsKnown]
    exact evaluate_iff inner v
  | .unary op operand, v => by
    simp only [evaluate, lazyValue, Expr.omitsKnown, Option.bind_eq_bind, Option.bind_eq_some_iff,
      evaluate_iff operand]
    constructor
    · rintro ⟨w, ⟨hw, homits⟩, hv⟩
      exact ⟨⟨w, hw, hv⟩, homits⟩
    · rintro ⟨⟨w, hw, hv⟩, homits⟩
      exact ⟨w, ⟨hw, homits⟩, hv⟩
  | .binary op left right, v =>
    evaluate_binary_iff_lazy (evaluate_iff left) (evaluate_iff right)
  | .cond test consequent alternate, v => by
    simp only [evaluate, lazyValue, Expr.omitsKnown, Option.bind_eq_bind, Option.bind_eq_some_iff,
      evaluate_iff test, Bool.and_eq_true]
    -- the test goes the same way on both sides, so the same branch counts
    constructor
    · rintro ⟨w, ⟨hw, homits⟩, hv⟩
      rw [hw, Option.any_some]
      by_cases hw' : w.truthy
      · rw [if_pos hw'] at hv
        obtain ⟨hv, hbranch⟩ := (evaluate_iff consequent v).mp hv
        exact ⟨⟨w, rfl, by rwa [if_pos hw']⟩, homits, by rwa [if_pos hw']⟩
      · rw [if_neg hw'] at hv
        obtain ⟨hv, hbranch⟩ := (evaluate_iff alternate v).mp hv
        exact ⟨⟨w, rfl, by rwa [if_neg hw']⟩, homits, by rwa [if_neg hw']⟩
    · rintro ⟨⟨w, hw, hv⟩, homits, hbranch⟩
      rw [hw, Option.any_some] at hbranch
      refine ⟨w, ⟨hw, homits⟩, ?_⟩
      by_cases hw' : w.truthy
      · rw [if_pos hw'] at hv hbranch ⊢
        exact (evaluate_iff consequent v).mpr ⟨hv, hbranch⟩
      · rw [if_neg hw'] at hv hbranch ⊢
        exact (evaluate_iff alternate v).mpr ⟨hv, hbranch⟩
  | .assign none _ value, v => by
    simp only [evaluate, lazyValue, Expr.omitsKnown]
    exact evaluate_iff value v
  | .assign (some _) _ _, _ | .absent, _ | .object _, _ | .spread _, _ | .arrayPattern _, _
  | .objectPattern _, _ | .withDefault _ _, _ | .closure _, _ | .classExpr _ _ _, _
  | .other _ _, _ => by simp [evaluate, lazyValue]

theorem staticPath_iff : ∀ (e : Expr) (path : Path), staticPath known e = some path ↔
    lazyPath known e = some path ∧ e.omitsKnown known = true
  | .ident _, path => by simp only [staticPath, lazyPath, Expr.omitsKnown, and_true]
  | .member object name, path => by
    simp only [staticPath, lazyPath, Expr.omitsKnown, Option.bind_eq_bind, Option.bind_eq_some_iff,
      staticPath_iff object]
    constructor
    · rintro ⟨base, ⟨hbase, homits⟩, hp⟩
      exact ⟨⟨base, hbase, hp⟩, homits⟩
    · rintro ⟨⟨base, hbase, hp⟩, homits⟩
      exact ⟨base, ⟨hbase, homits⟩, hp⟩
  | .index object key, path => by
    simp only [staticPath, lazyPath, Expr.omitsKnown, Option.bind_eq_bind, Option.bind_eq_some_iff,
      staticPath_iff object, evaluate_iff key, Bool.and_eq_true]
    constructor
    · rintro ⟨base, ⟨hbase, hobject⟩, k, ⟨hk, hkey⟩, hp⟩
      exact ⟨⟨base, hbase, k, hk, hp⟩, hobject, hkey⟩
    · rintro ⟨⟨base, hbase, k, hk, hp⟩, hobject, hkey⟩
      exact ⟨base, ⟨hbase, hobject⟩, k, ⟨hk, hkey⟩, hp⟩
  | .paren inner, path => by
    simp only [staticPath, lazyPath, Expr.omitsKnown]
    exact staticPath_iff inner path
  | .literal _, _ | .unary _ _, _ | .binary _ _ _, _ | .cond _ _ _, _ | .assign _ _ _, _
  | .array _, _ | .absent, _ | .object _, _ | .spread _, _ | .arrayPattern _, _
  | .objectPattern _, _ | .withDefault _ _, _ | .closure _, _ | .classExpr _ _ _, _
  | .other _ _, _ => by simp [staticPath, lazyPath]

end

end Lazy

/-- **Wanting both operands known leads to no other answer.** If an expression has a value
or a path, it has the same one with operands left out as the program leaves them out; and
it has the value or the path that it has so exactly if all operands that are left out are
known. -/
theorem evaluate_iff_lazy (known : Associations) (e : Expr) :
    (∀ v, evaluate known e = some v → lazyValue known e = some v) ∧
      (∀ path, staticPath known e = some path → lazyPath known e = some path) ∧
      (∀ v, lazyValue known e = some v →
        (evaluate known e = some v ↔ e.omitsKnown known = true)) ∧
      ∀ path, lazyPath known e = some path →
        (staticPath known e = some path ↔ e.omitsKnown known = true) := by
  refine ⟨fun v hv => ?_, fun path hp => ?_, fun v hv => ?_, fun path hp => ?_⟩
  · exact ((evaluate_iff known e v).mp hv).1
  · exact ((staticPath_iff known e path).mp hp).1
  · rw [evaluate_iff, and_iff_right hv]
  · rw [staticPath_iff, and_iff_right hp]

/-- With an operand left out that is not known, `o[false && unknown]` has a path as the
program runs, but none before. -/
example :
    let e : Expr := .index (.ident "o") (.binary .and (.literal (.bool false)) (.ident "unknown"))
    lazyPath .empty e = some ⟨"o", [.name "false"]⟩ ∧ staticPath .empty e = none ∧
      e.omitsKnown .empty = false := by
  decide +kernel

end DeadBranch
