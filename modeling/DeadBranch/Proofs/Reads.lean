/-
# Expressions that read

Expressions built from literals, names, members under keys that are written out,
and operators, and initial values that may also be object literals. The keys can
be restricted. What is known of other keys does not matter to the value of such
an expression (`evaluate_within`), nor to whether a misread text is converted on
the way to it (`isClear_within`).

Key definitions: `Expr.isPrimitive`, `Expr.isChain`, `Expr.isReading`, `Expr.isValue`,
`Associations.within`.
Key theorems: `Expr.isInert_of_isReading`, `staticPath_within`, `evaluate_within`,
`isClear_within`.
-/
import DeadBranch.Proofs.Facts
import DeadBranch.Proofs.Objects

namespace DeadBranch

/-! ### Expressions that read -/

/-- Is an expression built from literals, names and operators? -/
def Expr.isPrimitive : Expr → Bool
  | .literal _ | .ident _ => true
  | .paren inner => inner.isPrimitive
  | .unary _ operand => operand.isPrimitive
  | .binary _ left right => left.isPrimitive && right.isPrimitive
  | .cond test consequent alternate =>
    test.isPrimitive && consequent.isPrimitive && alternate.isPrimitive
  | _ => false

section Reading

variable (allowed : Segment → Bool)

/-- Does an expression lead from a name to a part of it by allowed keys? -/
def Expr.isChain : Expr → Bool
  | .ident _ => true
  | .member base name => allowed (.name name) && base.isChain
  | .index base (.literal value) => (value.value?.map Segment.ofValue).any allowed && base.isChain
  | .paren inner => inner.isChain
  | _ => false

/-- Is an expression built from literals, names, members under allowed keys and
operators? `delete` may not stand before a member. -/
def Expr.isReading : Expr → Bool
  | .literal _ => true
  | .paren inner => inner.isReading
  | .unary op operand => if op = .delete then operand.isPrimitive else operand.isReading
  | .binary _ left right => left.isReading && right.isReading
  | .cond test consequent alternate =>
    test.isReading && consequent.isReading && alternate.isReading
  | e => e.isChain allowed

theorem Expr.isReading_of_isPrimitive : ∀ {e : Expr}, e.isPrimitive → e.isReading allowed
  | .literal _, _ | .ident _, _ => by simp [Expr.isReading, Expr.isChain]
  | .paren inner, hp => by
    simp only [Expr.isPrimitive] at hp
    simp only [Expr.isReading]
    exact Expr.isReading_of_isPrimitive hp
  | .unary op operand, hp => by
    simp only [Expr.isPrimitive] at hp
    simp [Expr.isReading, hp, Expr.isReading_of_isPrimitive hp]
  | .binary op left right, hp => by
    simp only [Expr.isPrimitive, Bool.and_eq_true] at hp
    simp [Expr.isReading, Expr.isReading_of_isPrimitive hp.1, Expr.isReading_of_isPrimitive hp.2]
  | .cond test consequent alternate, hp => by
    simp only [Expr.isPrimitive, Bool.and_eq_true] at hp
    simp [Expr.isReading, Expr.isReading_of_isPrimitive hp.1.1,
      Expr.isReading_of_isPrimitive hp.1.2, Expr.isReading_of_isPrimitive hp.2]

/-- The key of a property, if it is written out. -/
def Property.key? : Property → Option Segment
  | .pair key _ => key.static?
  | .shorthand name _ => some (.name name)
  | _ => none

mutual

/-- Is an expression one that reads, if anything, or an object literal with such
values and with keys that are written out and distinct? -/
def Expr.isValue : Expr → Bool
  | .absent => true
  | .object properties =>
    propertiesValue properties && decide (properties.filterMap Property.key?).Nodup
  | .paren inner => inner.isValue
  | e => e.isReading allowed

/-- Have all the properties such values? -/
def propertiesValue : List Property → Bool
  | [] => true
  | .pair key value :: rest => key.static?.isSome && value.isValue && propertiesValue rest
  | .shorthand _ .absent :: rest => propertiesValue rest
  | _ => false

end

variable {allowed} (known : Associations)

/-- Induction over the ways from a name to its parts. -/
@[elab_as_elim]
theorem Expr.isChain_induction {motive : ∀ e : Expr, e.isChain allowed → Prop}
    (ident : ∀ name, motive (.ident name) rfl)
    (member : ∀ base name (hkey : allowed (.name name)) (hbase : base.isChain allowed),
      motive base hbase → motive (.member base name) (by simp [Expr.isChain, hkey, hbase]))
    (index : ∀ base (value : Literal) (hkey : (value.value?.map Segment.ofValue).any allowed)
      (hbase : base.isChain allowed), motive base hbase →
      motive (.index base (.literal value))
        (by simp only [Expr.isChain, hkey, hbase, Bool.and_self]))
    (paren : ∀ inner (hinner : inner.isChain allowed), motive inner hinner →
      motive (.paren inner) (by simpa only [Expr.isChain] using hinner)) :
    ∀ (e : Expr) (hchain : e.isChain allowed), motive e hchain
  | .ident name, _ => ident name
  | .member base name, hc => by
    simp only [Expr.isChain, Bool.and_eq_true] at hc
    exact member base name hc.1 hc.2 (isChain_induction ident member index paren base hc.2)
  | .index base key, hc => by
    cases key with
    | literal value =>
      simp only [Expr.isChain, Bool.and_eq_true] at hc
      exact index base value hc.1 hc.2 (isChain_induction ident member index paren base hc.2)
    | _ => simp [Expr.isChain] at hc
  | .paren inner, hc => by
    simp only [Expr.isChain] at hc
    exact paren inner hc (isChain_induction ident member index paren inner hc)
  | .absent, hc | .literal _, hc | .unary _ _, hc | .binary _ _ _, hc | .cond _ _ _, hc
  | .assign _ _ _, hc | .array _, hc | .object _, hc | .spread _, hc | .arrayPattern _, hc
  | .objectPattern _, hc | .withDefault _ _, hc | .closure _, hc | .classExpr _ _ _, hc
  | .other _ _, hc => by simp [Expr.isChain] at hc

theorem Expr.isInertPath_of_isChain {e : Expr} (hc : e.isChain allowed) : e.isInertPath known := by
  induction e, hc using Expr.isChain_induction with
  | ident | member | paren => simp_all [Expr.isInertPath]
  | index => simp_all [Expr.isInertPath, Expr.isInert]

/-- No operator stands in a chain. -/
theorem Expr.isClear_of_isChain {e : Expr} (hc : e.isChain allowed) : e.isClear known := by
  induction e, hc using Expr.isChain_induction <;> simp_all [Expr.isClear]

/-- An expression that reads neither assigns nor holds an array. -/
theorem Expr.isInert_of_isReading : ∀ {e : Expr} (exact : Bool), e.isReading allowed →
    e.isInert known exact
  | .literal _, _, _ | .ident _, _, _ => by simp [Expr.isInert]
  | .paren inner, exact, hr => by
    simp only [Expr.isReading] at hr
    simp only [Expr.isInert]
    exact Expr.isInert_of_isReading exact hr
  | .unary op operand, exact, hr => by
    simp only [Expr.isReading] at hr
    simp only [Expr.isInert]
    split at hr
    · exact Expr.isInert_of_isReading _ (Expr.isReading_of_isPrimitive allowed hr)
    · exact Expr.isInert_of_isReading _ hr
  | .binary op left right, exact, hr => by
    simp only [Expr.isReading, Bool.and_eq_true] at hr
    simp [Expr.isInert, Expr.isInert_of_isReading _ hr.1, Expr.isInert_of_isReading _ hr.2]
  | .cond test consequent alternate, exact, hr => by
    simp only [Expr.isReading, Bool.and_eq_true] at hr
    simp [Expr.isInert, Expr.isInert_of_isReading _ hr.1.1, Expr.isInert_of_isReading _ hr.1.2,
      Expr.isInert_of_isReading _ hr.2]
  | .member base name, exact, hr => by
    simp only [Expr.isReading] at hr
    have hpath := Expr.isInertPath_of_isChain known hr
    simpa only [Expr.isInert, Expr.isInertPath] using hpath
  | .index base key, exact, hr => by
    simp only [Expr.isReading] at hr
    have hpath := Expr.isInertPath_of_isChain known hr
    simpa only [Expr.isInert, Expr.isInertPath] using hpath
  | .absent, _, hr | .assign _ _ _, _, hr | .array _, _, hr | .object _, _, hr | .spread _, _, hr
  | .arrayPattern _, _, hr | .objectPattern _, _, hr | .withDefault _ _, _, hr | .closure _, _, hr
  | .classExpr _ _ _, _, hr | .other _ _, _, hr => by simp [Expr.isReading, Expr.isChain] at hr

end Reading

/-! ### What is known under watched keys -/

/-- What is known of parts under watched keys. -/
def Associations.within (known : Associations) (watched : Segment → Bool) : Associations :=
  .of (known.entries.filter (·.1.segments.all watched)) known.shadowed

section Within

variable {watched : Segment → Bool} {known : Associations}

theorem lookup?_within {path : Path} (h : path.segments.all watched) :
    (known.within watched).lookup? path = known.lookup? path := by
  simp only [Associations.lookup?_eq_find?, Associations.within, Associations.entries_of,
    List.find?_filter]
  congr 2
  funext entry
  by_cases hentry : entry.1 = path
  · simp [hentry, h]
  · simp [hentry]

variable (known)

theorem isShadowed_within (name : String) :
    (known.within watched).isShadowed name = known.isShadowed name := by
  simp [Associations.isShadowed, Associations.within]

/-- The path of a chain under watched keys has watched keys. -/
theorem staticPath_within {e : Expr} (hchain : e.isChain watched) :
    staticPath (known.within watched) e = staticPath known e ∧
      ∀ path ∈ staticPath known e, path.segments.all watched := by
  induction e, hchain using Expr.isChain_induction with
  | ident name =>
    refine ⟨by simp only [staticPath, isShadowed_within], fun path hpath => ?_⟩
    simp only [staticPath, Option.mem_def, Option.ite_none_left_eq_some, Option.some.injEq] at hpath
    rw [← hpath.2]
    rfl
  | member base name hkey hbase ih =>
    obtain ⟨hsame, hall⟩ := ih
    simp only [staticPath, hsame, true_and]
    intro path hpath
    obtain ⟨source, hsource, heq⟩ := Option.bind_eq_some_iff.mp hpath
    obtain rfl := Option.some.inj heq
    simp [Path.child, hall source hsource, hkey]
  | index base value hkey hbase ih =>
    obtain ⟨hsame, hall⟩ := ih
    simp only [staticPath, hsame, evaluate, true_and]
    intro path hpath
    obtain ⟨source, hsource, hpath⟩ := Option.bind_eq_some_iff.mp hpath
    obtain ⟨v, hv, heq⟩ := Option.bind_eq_some_iff.mp hpath
    obtain rfl := Option.some.inj heq
    simp only [hv, Option.map_some, Option.any_some] at hkey
    simp [Path.child, hall source hsource, hkey]
  | paren inner hinner ih =>
    simp only [staticPath]
    exact ih

/-- For an expression that reads under watched keys nothing else matters. -/
theorem evaluate_within : ∀ {e : Expr}, e.isReading watched →
    evaluate (known.within watched) e = evaluate known e
  | .literal _, _ => by simp [evaluate]
  | .ident name, _ => by
    have hroot : (known.within watched).lookup? (.root name) = known.lookup? (.root name) :=
      lookup?_within rfl
    simp only [evaluate, hroot, isShadowed_within]
  | .paren inner, hr => by
    simp only [Expr.isReading] at hr
    simp only [evaluate]
    exact evaluate_within hr
  | .unary op operand, hr => by
    simp only [Expr.isReading] at hr
    split at hr
    · rename_i hop
      subst hop
      simp [evaluate, UnaryOp.apply]
    · simp only [evaluate, evaluate_within hr]
  | .binary op left right, hr => by
    simp only [Expr.isReading, Bool.and_eq_true] at hr
    simp only [evaluate, evaluate_within hr.1, evaluate_within hr.2]
  | .cond test consequent alternate, hr => by
    simp only [Expr.isReading, Bool.and_eq_true] at hr
    simp only [evaluate, evaluate_within hr.1.1, evaluate_within hr.1.2, evaluate_within hr.2]
  | .member base name, hr => by
    simp only [Expr.isReading, Expr.isChain, Bool.and_eq_true] at hr
    obtain ⟨hsame, hall⟩ := staticPath_within known hr.2
    simp only [evaluate, hsame]
    refine Option.bind_congr fun path hpath => lookup?_within ?_
    simp [Path.child, hall path hpath, hr.1]
  | .index base key, hr => by
    cases key with
    | literal value =>
      simp only [Expr.isReading, Expr.isChain, Bool.and_eq_true] at hr
      obtain ⟨hsame, hall⟩ := staticPath_within known hr.2
      simp only [evaluate, hsame]
      refine Option.bind_congr fun path hpath => Option.bind_congr fun v hv => lookup?_within ?_
      have hkey := hr.1
      simp only [hv, Option.map_some, Option.any_some] at hkey
      simp [Path.child, hall path hpath, hkey]
    | _ => simp [Expr.isReading, Expr.isChain] at hr
  | .absent, hr | .assign _ _ _, hr | .array _, hr | .object _, hr | .spread _, hr
  | .arrayPattern _, hr | .objectPattern _, hr | .withDefault _ _, hr | .closure _, hr
  | .classExpr _ _ _, hr | .other _ _, hr => by simp [Expr.isReading, Expr.isChain] at hr

/-- Nor does anything else matter to whether a misread text is converted to find its value. -/
theorem isClear_within : ∀ {e : Expr} {v : Value}, e.isReading watched →
    evaluate known e = some v → e.isClear known → e.isClear (known.within watched)
  | .literal _, _, _, _, _ => by simp [Expr.isClear]
  | .paren inner, v, hr, hv, hc => by
    simp only [Expr.isReading] at hr
    simp only [evaluate] at hv
    simp only [Expr.isClear] at hc ⊢
    exact isClear_within hr hv hc
  | .unary op operand, r, hr, he, hc => by
    simp only [evaluate, Option.bind_eq_bind, Option.bind_eq_some_iff] at he
    obtain ⟨v, hv, he⟩ := he
    simp only [Expr.isReading] at hr
    split at hr
    · rename_i hop
      subst hop
      simp [UnaryOp.apply] at he
    · simp only [Expr.isClear, evaluate_within known hr, Bool.and_eq_true] at hc ⊢
      exact ⟨isClear_within hr hv hc.1, hc.2⟩
  | .binary op left right, r, hr, he, hc => by
    simp only [evaluate, Option.bind_eq_bind, Option.bind_eq_some_iff] at he
    obtain ⟨v, hv, w, hw, -⟩ := he
    simp only [Expr.isReading, Bool.and_eq_true] at hr
    simp only [Expr.isClear, evaluate_within known hr.1, evaluate_within known hr.2, hv, hw,
      Option.all_some, Bool.and_eq_true, Bool.or_eq_true] at hc ⊢
    exact ⟨isClear_within hr.1 hv hc.1, hc.2.imp_right (.imp_left (isClear_within hr.2 hw))⟩
  | .cond test consequent alternate, r, hr, he, hc => by
    simp only [evaluate, Option.bind_eq_bind, Option.bind_eq_some_iff] at he
    obtain ⟨v, hv, he⟩ := he
    simp only [Expr.isReading, Bool.and_eq_true] at hr
    simp only [Expr.isClear, evaluate_within known hr.1.1, hv, Option.any_some,
      Bool.and_eq_true] at hc ⊢
    refine ⟨isClear_within hr.1.1 hv hc.1, ?_⟩
    cases hvt : v.truthy with
    | true =>
      simp only [hvt, if_true] at he hc ⊢
      exact isClear_within hr.1.2 he hc.2
    | false =>
      simp only [hvt, Bool.false_eq_true, if_false] at he hc ⊢
      exact isClear_within hr.2 he hc.2
  | .ident _, _, hr, _, _ | .member _ _, _, hr, _, _ | .index _ _, _, hr, _, _ =>
    Expr.isClear_of_isChain _ (by simpa only [Expr.isReading] using hr)
  | .absent, _, hr, _, _ | .assign _ _ _, _, hr, _, _ | .array _, _, hr, _, _
  | .object _, _, hr, _, _ | .spread _, _, hr, _, _ | .arrayPattern _, _, hr, _, _
  | .objectPattern _, _, hr, _, _ | .withDefault _ _, _, hr, _, _ | .closure _, _, hr, _, _
  | .classExpr _ _ _, _, hr, _, _ | .other _ _, _, hr, _, _ => by
    simp [Expr.isReading, Expr.isChain] at hr

end Within

end DeadBranch
