/-
# What is lost with a test

An `if` statement whose test is evaluated before the program runs loses its
test. Nothing is lost with it if executing the test would have performed no
action. For most expressions with a known value this is so
(`exec_of_evaluate`), provided that what is known is true where the test stands:
the parts that are executed only read, and the parts that would act are those
that are never come to, such as the branch of a conditional that is not taken.

Three kinds of expressions are the exceptions. The value of an assignment is that
of its right side, and the assignment itself is lost; and an array counts as
true whatever its elements are, so that what the elements do is lost, and an
array that an operator looks at may lead a conditional the wrong way. `isInert`
says that the parts that are executed are neither, where an array may still
stand wherever only its truth matters. And an operator that converts a text which
is read as another number than it converts to may yield another value than the
known one; `isClear` says that no operator that is executed does so.

Key definitions: `Execution.Yields`, `Expr.isQuiet`, `Host.Agrees`, `Expr.isInert`,
`Expr.isClear`.
Key theorems: `Expr.exec_quiet`, `exec_evaluate`, `exec_of_evaluate`.
-/
import DeadBranch.Proofs.Execution

namespace DeadBranch

/-! ### Runs without actions -/

section Bind

variable {α β : Type} {m : Execution α} {f : α → Execution β} {done done' : List Action}

theorem Execution.bind_none (hm : m done = (none, done')) : (m >>= f) done = (none, done') := by
  simp only [Bind.bind, hm]

theorem Execution.bind_some {a : α} (hm : m done = (some a, done')) :
    (m >>= f) done = f a done' := by
  simp only [Bind.bind, hm]

end Bind

/-- The run performs nothing, and what it yields, if anything, has the
property. -/
def Execution.Yields {α : Type} (m : Execution α) (done : List Action) (P : α → Prop) : Prop :=
  (m done).2 = done ∧ ∀ a ∈ (m done).1, P a

namespace Execution.Yields

variable {α β : Type} {done : List Action} {P : α → Prop} {Q : β → Prop}

theorem pure {a : α} (ha : P a) : (Pure.pure a : Execution α).Yields done P := by
  refine ⟨rfl, fun b hb => ?_⟩
  cases hb
  exact ha

theorem ask {f : List Action → Option α} (hf : ∀ a ∈ f done, P a) :
    (Execution.ask f).Yields done P :=
  ⟨rfl, hf⟩

theorem bind {m : Execution α} {f : α → Execution β} (hm : m.Yields done P)
    (hf : ∀ a, P a → (f a).Yields done Q) : (m >>= f).Yields done Q := by
  obtain ⟨hdone, hP⟩ := hm
  unfold Execution.Yields
  rcases hr : m done with ⟨_ | a, done'⟩
  · rw [hr] at hdone
    rw [Execution.bind_none hr]
    exact ⟨hdone, by simp⟩
  · rw [hr] at hdone hP
    obtain rfl : done' = done := hdone
    rw [Execution.bind_some hr]
    exact hf a (hP a rfl)

theorem mono {m : Execution α} {P' : α → Prop} (hm : m.Yields done P) (h : ∀ a, P a → P' a) :
    m.Yields done P' :=
  ⟨hm.1, fun a ha => h a (hm.2 a ha)⟩

end Execution.Yields

/-! ### Expressions without effects -/

mutual

/-- Does an expression hold no form that acts, functions apart? -/
def Expr.isQuiet : Expr → Bool
  | .absent | .literal _ | .ident _ | .closure _ => true
  | .paren e | .spread e => e.isQuiet
  | .unary op e => op != .delete && e.isQuiet
  | .binary _ e f => e.isQuiet && f.isQuiet
  | .cond c e f => c.isQuiet && e.isQuiet && f.isQuiet
  | .assign _ _ _ => false
  | .member e _ => e.isQuiet
  | .index e k => e.isQuiet && k.isQuiet
  | .array es => exprsQuiet es
  | .object ps => propertiesQuiet ps
  | .arrayPattern _ | .objectPattern _ | .withDefault _ _ => true
  | .classExpr _ _ _ => false
  | .other form parts => form.action?.isNone && exprsQuiet parts

/-- Are all the expressions quiet? -/
def exprsQuiet : List Expr → Bool
  | [] => true
  | e :: rest => e.isQuiet && exprsQuiet rest

/-- Is a key quiet? -/
def Key.isQuiet : Key → Bool
  | .computed e => e.isQuiet
  | _ => true

/-- Is a property quiet? -/
def Property.isQuiet : Property → Bool
  | .pair key e => key.isQuiet && e.isQuiet
  | .shorthand _ _ | .staticBlock _ | .empty => true
  | .spread e => e.isQuiet
  | .method _ _ key _ | .field _ key _ => key.isQuiet

/-- Are all the properties quiet? -/
def propertiesQuiet : List Property → Bool
  | [] => true
  | p :: rest => p.isQuiet && propertiesQuiet rest

end

section Quiet

variable (h : Host) (done : List Action)

theorem execName_quiet (name : String) : (execName h name).Yields done fun _ => True :=
  .ask fun _ _ => trivial

theorem UnaryOp.exec_quiet (op : UnaryOp) (d : Datum) :
    (op.exec h d).Yields done fun _ => True := by
  unfold UnaryOp.exec
  split
  · exact .pure trivial
  · exact .pure trivial
  · exact .ask fun _ _ => trivial
  · exact .ask fun _ _ => trivial

theorem BinaryOp.exec_quiet (op : BinaryOp) (d e : Datum) :
    (op.exec h d e).Yields done fun _ => True := by
  unfold BinaryOp.exec
  split
  iterate 3 exact .pure trivial
  iterate 4 exact .ask fun _ _ => trivial

theorem Form.exec_quiet {form : Form} (hform : form.action?.isNone) (ds : List Datum) :
    (form.exec h ds).Yields done fun _ => True := by
  simp only [Form.exec, Option.isNone_iff_eq_none.mp hform]
  split
  · exact .pure trivial
  · exact .ask fun _ _ => trivial

theorem UnaryOp.execOn_quiet {op : UnaryOp} (hop : op ≠ .delete) (operand : Expr)
    (parts : Execution Unit) {value : Execution Datum} (hvalue : value.Yields done fun _ => True) :
    (op.execOn h operand parts value).Yields done fun _ => True := by
  have hplain : ∀ op : UnaryOp, (value >>= op.exec h).Yields done fun _ => True :=
    fun op => hvalue.bind fun d _ => op.exec_quiet h done d
  unfold UnaryOp.execOn
  split
  · exact absurd rfl hop
  · refine Execution.Yields.bind (P := fun _ => True) (.ask fun _ _ => trivial) fun missing _ => ?_
    split
    · exact .pure trivial
    · exact hplain .typeof
  · exact hplain _

mutual

/-- Executing a quiet expression performs nothing. -/
theorem Expr.exec_quiet : ∀ e : Expr, e.isQuiet → (e.exec h).Yields done fun _ => True
  | .absent, _ => .pure trivial
  | .literal _, _ => .pure trivial
  | .ident name, _ => execName_quiet h done name
  | .closure _, _ => .ask fun _ _ => trivial
  | .paren e, hq | .spread e, hq => by
    simp only [Expr.isQuiet] at hq
    simp only [Expr.exec]
    exact e.exec_quiet hq
  | .unary op e, hq => by
    simp only [Expr.isQuiet, Bool.and_eq_true, bne_iff_ne] at hq
    simp only [Expr.exec]
    exact UnaryOp.execOn_quiet h done hq.1 e (e.execParts h) (e.exec_quiet hq.2)
  | .binary op e f, hq => by
    simp only [Expr.isQuiet, Bool.and_eq_true] at hq
    simp only [Expr.exec]
    refine (e.exec_quiet hq.1).bind fun d _ => ?_
    split
    · exact .pure trivial
    · exact (f.exec_quiet hq.2).bind fun d' _ => op.exec_quiet h done d d'
  | .cond c e f, hq => by
    simp only [Expr.isQuiet, Bool.and_eq_true] at hq
    simp only [Expr.exec]
    refine (c.exec_quiet hq.1.1).bind fun d _ => ?_
    split
    · exact e.exec_quiet hq.1.2
    · exact f.exec_quiet hq.2
  | .assign _ _ _, hq => by simp [Expr.isQuiet] at hq
  | .member e name, hq => by
    simp only [Expr.isQuiet] at hq
    simp only [Expr.exec]
    exact (e.exec_quiet hq).bind fun d _ => .ask fun _ _ => trivial
  | .index e k, hq => by
    simp only [Expr.isQuiet, Bool.and_eq_true] at hq
    simp only [Expr.exec]
    exact (e.exec_quiet hq.1).bind fun d _ => (k.exec_quiet hq.2).bind fun d' _ =>
      .ask fun _ _ => trivial
  | .array es, hq => by
    simp only [Expr.isQuiet] at hq
    simp only [Expr.exec]
    exact (exprsExec_quiet es hq).bind fun _ _ => .ask fun _ _ => trivial
  | .object ps, hq => by
    simp only [Expr.isQuiet] at hq
    simp only [Expr.exec]
    exact (propertiesExec_quiet ps hq).bind fun _ _ => .ask fun _ _ => trivial
  | .arrayPattern _, _ | .objectPattern _, _ | .withDefault _ _, _ => by
    simp only [Expr.exec]
    exact .ask fun _ _ => trivial
  | .classExpr _ _ _, hq => by simp [Expr.isQuiet] at hq
  | .other form [], hq => by
    simp only [Expr.isQuiet, Bool.and_eq_true] at hq
    simp only [Expr.exec]
    exact Form.exec_quiet h done hq.1 []
  | .other form (first :: rest), hq => by
    simp only [Expr.isQuiet, exprsQuiet, Bool.and_eq_true] at hq
    simp only [Expr.exec]
    refine (first.exec_quiet hq.2.1).bind fun d _ => ?_
    refine Execution.Yields.bind (P := fun _ => True) (.ask fun _ _ => trivial) fun cut _ => ?_
    split
    · exact .pure trivial
    · exact (exprsExec_quiet rest hq.2.2).bind fun ds _ => Form.exec_quiet h done hq.1 (d :: ds)

theorem exprsExec_quiet : ∀ es : List Expr, exprsQuiet es →
    (exprsExec h es).Yields done fun _ => True
  | [], _ => by
    simp only [exprsExec]
    exact .pure trivial
  | e :: rest, hq => by
    simp only [exprsQuiet, Bool.and_eq_true] at hq
    simp only [exprsExec]
    exact (e.exec_quiet hq.1).bind fun d _ => (exprsExec_quiet rest hq.2).bind fun ds _ =>
      .pure trivial

theorem Key.exec_quiet : ∀ k : Key, k.isQuiet → (k.exec h).Yields done fun _ => True
  | .computed e, hq => by
    simp only [Key.isQuiet] at hq
    simp only [Key.exec]
    exact (e.exec_quiet hq).bind fun _ _ => .pure trivial
  | .ident _, _ | .string _ _, _ | .number _ _, _ | .bigint _ _, _ | .privateName _, _ => by
    simp only [Key.exec]
    exact .pure trivial

theorem Property.exec_quiet : ∀ p : Property, p.isQuiet → (p.exec h).Yields done fun _ => True
  | .pair key e, hq => by
    simp only [Property.isQuiet, Bool.and_eq_true] at hq
    simp only [Property.exec]
    exact (key.exec_quiet hq.1).bind fun _ _ => (e.exec_quiet hq.2).bind fun _ _ => .pure trivial
  | .shorthand name _, _ => by
    simp only [Property.exec]
    exact (execName_quiet h done name).bind fun _ _ => .pure trivial
  | .spread e, hq => by
    simp only [Property.isQuiet] at hq
    simp only [Property.exec]
    exact (e.exec_quiet hq).bind fun _ _ => .pure trivial
  | .method _ _ key _, hq | .field _ key _, hq => by
    simp only [Property.isQuiet] at hq
    simp only [Property.exec]
    exact key.exec_quiet hq
  | .staticBlock _, _ | .empty, _ => by
    simp only [Property.exec]
    exact .pure trivial

theorem propertiesExec_quiet : ∀ ps : List Property, propertiesQuiet ps →
    (propertiesExec h ps).Yields done fun _ => True
  | [], _ => by
    simp only [propertiesExec]
    exact .pure trivial
  | p :: rest, hq => by
    simp only [propertiesQuiet, Bool.and_eq_true] at hq
    simp only [propertiesExec]
    exact (p.exec_quiet hq.1).bind fun _ _ => propertiesExec_quiet rest hq.2

end

end Quiet

/-! ### What is known and what is there -/

/-- What is found along a path. -/
def Host.readPath (h : Host) (done : List Action) (path : Path) : Option Datum :=
  match h.read done path.binding with
  | .holds d => path.segments.foldlM (h.member done) d
  | _ => none

theorem Host.readPath_child (h : Host) (done : List Action) (path : Path) (segment : Segment) :
    h.readPath done (path.child segment) =
      (h.readPath done path).bind fun d => h.member done d segment := by
  simp only [Host.readPath, Path.child]
  cases h.read done path.binding with
  | holds d => simp [List.foldlM_append]
  | missing => rfl
  | pending => rfl

/-- What is known is true after some actions: of names that have a value, and
of the parts of their values that can be read. -/
structure Host.Agrees (h : Host) (done : List Action) (known : Associations) : Prop where
  names : ∀ name v, evaluate known (.ident name) = some v →
    h.read done name = .pending ∨ h.read done name = .holds (.plain v)
  members : ∀ path v, known.isShadowed path.binding = false → known.lookup? path = some v →
    ∀ d ∈ h.readPath done path, d = .plain v

/-- What an expression yields is the value, or, where only the truth of it
matters, an object for `true`. -/
def Datum.Matches (exact : Bool) (v : Value) (d : Datum) : Prop :=
  d = .plain v ∨ exact = false ∧ v = .bool true ∧ ∃ id, d = .object id

theorem Datum.Matches.eq_plain {v : Value} {d : Datum} (hd : d.Matches true v) : d = .plain v := by
  rcases hd with hd | ⟨hexact, _⟩
  · exact hd
  · cases hexact

theorem Datum.Matches.truthy {exact : Bool} {v : Value} {d : Datum} (hd : d.Matches exact v)
    (h : Host) : d.truthy h = v.truthy := by
  rcases hd with rfl | ⟨_, rfl, id, rfl⟩ <;> rfl

theorem Datum.Matches.isNullish {exact : Bool} {v : Value} {d : Datum} (hd : d.Matches exact v) :
    d.isNullish = v.isNullish := by
  rcases hd with rfl | ⟨_, rfl, id, rfl⟩ <;> rfl

/-! ### Inert expressions -/

/-- Is it one of the operators that may leave out their right operand? -/
def BinaryOp.isLogical : BinaryOp → Bool
  | .and | .or | .coalesce => true
  | _ => false

/-- Is the right operand left out for this value of the left one? -/
def BinaryOp.isDecidedBy (v : Value) : BinaryOp → Bool
  | .and => !v.truthy
  | .or => v.truthy
  | .coalesce => !v.isNullish
  | _ => false

/-- Does the operator look at more than the truth of its operand? -/
def UnaryOp.isExact : UnaryOp → Bool
  | .not | .void => false
  | _ => true

section Inert

variable (known : Associations)

mutual

/-- Are the parts of an expression that are executed neither assignments nor
arrays? Where only the truth of the expression matters, arrays may stand that
are quiet. -/
def Expr.isInert (exact : Bool) : Expr → Bool
  | .literal _ | .ident _ => true
  | .member base _ => base.isInertPath
  | .index base key => base.isInertPath && key.isInert true
  | .paren inner => inner.isInert exact
  | .unary op operand => operand.isInert op.isExact
  | .binary op left right =>
    left.isInert (exact || !op.isLogical) &&
      ((evaluate known left).any (op.isDecidedBy ·) || right.isInert (exact || !op.isLogical))
  | .cond test consequent alternate =>
    test.isInert false &&
      if (evaluate known test).any (·.truthy) then consequent.isInert exact
      else alternate.isInert exact
  | .array elements => !exact && exprsQuiet elements
  | _ => false

/-- The same of an expression that only leads to a part of a binding. -/
def Expr.isInertPath : Expr → Bool
  | .ident _ => true
  | .member base _ => base.isInertPath
  | .index base key => base.isInertPath && key.isInert true
  | .paren inner => inner.isInertPath
  | _ => false

end

/-- Do the operators that are executed convert no misread text? -/
def Expr.isClear : Expr → Bool
  | .member base _ => base.isClear
  | .index base key => base.isClear && key.isClear
  | .paren inner => inner.isClear
  | .unary op operand => operand.isClear && (evaluate known operand).all op.isClear
  | .binary op left right =>
    left.isClear && (evaluate known left).all fun v =>
      op.isDecidedBy v || right.isClear && (evaluate known right).all (op.isClear v)
  | .cond test consequent alternate =>
    test.isClear &&
      if (evaluate known test).any (·.truthy) then consequent.isClear else alternate.isClear
  | .assign none _ value => value.isClear
  | _ => true

end Inert

section Evaluate

variable {h : Host} {done : List Action} {known : Associations}

theorem Host.Agrees.not_missing (hk : h.Agrees done known) :
    ∀ {e : Expr} {v : Value}, evaluate known e = some v → e.isMissing h done = false
  | .ident name, v, he => by
    rcases hk.names name v he with hr | hr <;> simp [Expr.isMissing, hr]
  | .paren e, v, he => by
    simp only [evaluate] at he
    simp only [Expr.isMissing, hk.not_missing he]
  | .absent, _, _ | .literal _, _, _ | .unary _ _, _, _ | .binary _ _ _, _, _ | .cond _ _ _, _, _
  | .assign _ _ _, _, _ | .member _ _, _, _ | .index _ _, _, _ | .array _, _, _ | .object _, _, _
  | .spread _, _, _ | .arrayPattern _, _, _ | .objectPattern _, _, _ | .withDefault _ _, _, _
  | .closure _, _, _ | .classExpr _ _ _, _, _ | .other _ _, _, _ => by simp [Expr.isMissing]

theorem BinaryOp.skips_of_matches {exact : Bool} {v : Value} {d : Datum} (op : BinaryOp)
    (hd : d.Matches exact v) : op.skips h d = op.isDecidedBy v := by
  cases op <;> simp [BinaryOp.skips, BinaryOp.isDecidedBy, hd.truthy, hd.isNullish]

/-- The value of a logical operator is that of the operand that decides. -/
theorem BinaryOp.apply_logical : ∀ {op : BinaryOp}, op.isLogical → ∀ v w : Value,
    op.apply v w = some (if op.isDecidedBy v then v else w)
  | .and, _, v, w => by cases hv : v.truthy <;> simp [BinaryOp.isDecidedBy, BinaryOp.apply, hv]
  | .or, _, v, w => by cases hv : v.truthy <;> simp [BinaryOp.isDecidedBy, BinaryOp.apply, hv]
  | .coalesce, _, v, w => by
    cases hv : v.isNullish <;> simp [BinaryOp.isDecidedBy, BinaryOp.apply, hv]

theorem BinaryOp.isDecidedBy_of_not_logical (op : BinaryOp) (hop : op.isLogical = false)
    {v : Value} : op.isDecidedBy v = false := by
  cases op <;> simp_all [BinaryOp.isLogical, BinaryOp.isDecidedBy]

theorem BinaryOp.exec_logical : ∀ {op : BinaryOp}, op.isLogical → ∀ {d d' : Datum},
    op.exec h d d' = pure d'
  | .and, _, _, _ | .or, _, _, _ | .coalesce, _, _, _ => rfl

/-- If there is something for `typeof` to look at, an operator is executed after
its operand. -/
theorem UnaryOp.execOn_eq {op : UnaryOp} (hop : op ≠ .delete) {operand : Expr}
    (hm : operand.isMissing h done = false) {parts : Execution Unit} {value : Execution Datum} :
    op.execOn h operand parts value done = (value >>= op.exec h) done := by
  unfold UnaryOp.execOn
  split
  · exact absurd rfl hop
  · simp only [Bind.bind, Execution.ask, hm]
    rfl
  · rfl

/-- An operator on an operand with a known value. -/
theorem UnaryOp.exec_apply {op : UnaryOp} {v r : Value} {d : Datum} (hr : op.apply v = some r)
    (hclear : op.isClear v) (hd : d.Matches op.isExact v) :
    (op.exec h d).Yields done (· = .plain r) := by
  cases op with
  | not =>
    have : r = .bool !v.truthy := by simpa [UnaryOp.apply, eq_comm] using hr
    simp only [UnaryOp.exec]
    exact .pure (by rw [hd.truthy, this])
  | void =>
    have : r = .undefined := by simpa [UnaryOp.apply, eq_comm] using hr
    simp only [UnaryOp.exec]
    exact .pure (by rw [this])
  | delete => simp [UnaryOp.apply] at hr
  | plus | minus | complement | typeof =>
    obtain rfl := Datum.Matches.eq_plain hd
    simp only [UnaryOp.exec, ← UnaryOp.apply_eq_value hclear, hr]
    exact .ask (by simp)

theorem BinaryOp.exec_apply {op : BinaryOp} (hop : op.isLogical = false) {v w r : Value}
    (hr : op.apply v w = some r) (hclear : op.isClear v w) :
    (op.exec h (.plain v) (.plain w)).Yields done (· = .plain r) := by
  unfold BinaryOp.exec
  split
  iterate 3 simp [BinaryOp.isLogical] at hop
  iterate 2 simp [BinaryOp.apply] at hr
  · rename_i hv hw
    cases hv
    cases hw
    exact .ask (by simp [← BinaryOp.apply_eq_value hclear, hr])
  · rename_i hplain
    exact absurd rfl (hplain v w · rfl)

mutual

/-- **Executing an inert expression with a known value** performs nothing and
yields that value, if it yields anything. -/
theorem exec_evaluate (hk : h.Agrees done known) : ∀ (e : Expr) {exact : Bool} {v : Value},
    evaluate known e = some v → e.isInert known exact → e.isClear known →
    (e.exec h).Yields done (·.Matches exact v)
  | .literal value, exact, v, hv, _, _ => by
    simp only [evaluate] at hv
    simp only [Expr.exec, Literal.exec, hv]
    exact .pure (.inl rfl)
  | .ident name, exact, v, hv, _, _ => by
    simp only [Expr.exec]
    refine .ask fun d hd => .inl ?_
    rcases hk.names name v hv with hr | hr
    · simp [hr] at hd
    · simpa [hr, eq_comm] using hd
  | .member base name, exact, v, hv, hi, hc => by
    simp only [evaluate, Option.bind_eq_bind, Option.bind_eq_some_iff] at hv
    obtain ⟨path, hpath, hv⟩ := hv
    simp only [Expr.isInert] at hi
    simp only [Expr.isClear] at hc
    obtain ⟨hfree, hbase⟩ := exec_staticPath hk base hpath hi hc
    simp only [Expr.exec]
    refine hbase.bind fun d hd => .ask fun d' hd' => .inl ?_
    refine hk.members (path.child (.name name)) v hfree hv d' ?_
    simpa [Host.readPath_child, hd] using hd'
  | .index base key, exact, v, hv, hi, hc => by
    simp only [evaluate, Option.bind_eq_bind, Option.bind_eq_some_iff] at hv
    obtain ⟨path, hpath, k, hkey, hv⟩ := hv
    simp only [Expr.isInert, Bool.and_eq_true] at hi
    simp only [Expr.isClear, Bool.and_eq_true] at hc
    obtain ⟨hfree, hbase⟩ := exec_staticPath hk base hpath hi.1 hc.1
    simp only [Expr.exec]
    refine hbase.bind fun d hd => (exec_evaluate hk key hkey hi.2 hc.2).bind fun dk hdk => ?_
    obtain rfl := hdk.eq_plain
    refine .ask fun d' hd' => .inl ?_
    refine hk.members (path.child (.ofValue k)) v hfree hv d' ?_
    simpa [Host.readPath_child, hd, Datum.segment] using hd'
  | .paren e, exact, v, hv, hi, hc => by
    simp only [evaluate] at hv
    simp only [Expr.isInert] at hi
    simp only [Expr.isClear] at hc
    simp only [Expr.exec]
    exact exec_evaluate hk e hv hi hc
  | .unary op e, exact, r, hr, hi, hc => by
    simp only [evaluate, Option.bind_eq_bind, Option.bind_eq_some_iff] at hr
    obtain ⟨v, hv, hr⟩ := hr
    simp only [Expr.isInert] at hi
    simp only [Expr.isClear, hv, Option.all_some, Bool.and_eq_true] at hc
    have he := exec_evaluate hk e hv hi hc.1
    have hop : op ≠ .delete := by
      rintro rfl
      simp [UnaryOp.apply] at hr
    simp only [Expr.exec, Execution.Yields, UnaryOp.execOn_eq hop (hk.not_missing hv)]
    exact he.bind fun d hd => (UnaryOp.exec_apply hr hc.2 hd).mono fun _ hd' => .inl hd'
  | .binary op e f, exact, r, hr, hi, hc => by
    simp only [evaluate, Option.bind_eq_bind, Option.bind_eq_some_iff] at hr
    obtain ⟨v, hv, w, hw, hr⟩ := hr
    simp only [Expr.isInert, Bool.and_eq_true, hv, Option.any_some, Bool.or_eq_true] at hi
    simp only [Expr.isClear, hv, hw, Option.all_some, Bool.and_eq_true, Bool.or_eq_true] at hc
    have he := exec_evaluate hk e hv hi.1 hc.1
    simp only [Expr.exec]
    refine he.bind fun d hd => ?_
    rw [op.skips_of_matches hd]
    cases hop : op.isLogical with
    | true =>
      simp only [hop, Bool.not_true, Bool.or_false] at hd hi
      rw [BinaryOp.apply_logical hop, Option.some.injEq] at hr
      cases hdec : op.isDecidedBy v with
      | true =>
        simp only [hdec, if_true] at hr ⊢
        exact .pure (hr ▸ hd)
      | false =>
        simp only [hdec, Bool.false_eq_true, if_false, false_or] at hr hi hc ⊢
        refine (exec_evaluate hk f hw hi.2 hc.2.1).bind fun d' hd' => ?_
        rw [BinaryOp.exec_logical hop]
        exact .pure (hr ▸ hd')
    | false =>
      simp only [hop, Bool.not_false, Bool.or_true, op.isDecidedBy_of_not_logical hop,
        Bool.false_eq_true, if_false, false_or] at hd hi hc ⊢
      refine (exec_evaluate hk f hw hi.2 hc.2.1).bind fun d' hd' => ?_
      rw [hd.eq_plain, hd'.eq_plain]
      exact (BinaryOp.exec_apply hop hr hc.2.2).mono fun _ hd'' => .inl hd''
  | .cond c e f, exact, r, hr, hi, hc => by
    simp only [evaluate, Option.bind_eq_bind, Option.bind_eq_some_iff] at hr
    obtain ⟨v, hv, hr⟩ := hr
    simp only [Expr.isInert, Bool.and_eq_true, hv, Option.any_some] at hi
    simp only [Expr.isClear, Bool.and_eq_true, hv, Option.any_some] at hc
    simp only [Expr.exec]
    refine (exec_evaluate hk c hv hi.1 hc.1).bind fun d hd => ?_
    rw [hd.truthy]
    cases hvt : v.truthy with
    | true =>
      simp only [hvt, if_true] at hr hi hc ⊢
      exact exec_evaluate hk e hr hi.2 hc.2
    | false =>
      simp only [hvt, Bool.false_eq_true, if_false] at hr hi hc ⊢
      exact exec_evaluate hk f hr hi.2 hc.2
  | .array es, exact, v, hv, hi, _ => by
    simp only [evaluate, Option.some.injEq] at hv
    simp only [Expr.isInert, Bool.and_eq_true, Bool.not_eq_true'] at hi
    simp only [Expr.exec]
    refine (exprsExec_quiet h done es hi.2).bind fun _ _ => .ask fun d hd => ?_
    refine .inr ⟨hi.1, hv.symm, ?_⟩
    exact ⟨_, (Option.some.inj hd).symm⟩
  | .absent, _, _, _, hi, _ | .assign _ _ _, _, _, _, hi, _ | .object _, _, _, _, hi, _
  | .spread _, _, _, _, hi, _ | .arrayPattern _, _, _, _, hi, _ | .objectPattern _, _, _, _, hi, _
  | .withDefault _ _, _, _, _, hi, _ | .closure _, _, _, _, hi, _
  | .classExpr _ _ _, _, _, _, hi, _ | .other _ _, _, _, _, hi, _ => by simp [Expr.isInert] at hi

/-- Executing an expression that leads to a part of a binding reads that part. -/
theorem exec_staticPath (hk : h.Agrees done known) : ∀ (e : Expr) {path : Path},
    staticPath known e = some path → e.isInertPath known → e.isClear known →
    known.isShadowed path.binding = false ∧
      (e.exec h).Yields done fun d => h.readPath done path = some d
  | .ident name, path, hp, _, _ => by
    simp only [staticPath] at hp
    split at hp
    · cases hp
    · rename_i hfree
      obtain rfl := Option.some.inj hp
      refine ⟨by simpa [Path.root] using hfree, ?_⟩
      simp only [Expr.exec]
      refine .ask fun d hd => ?_
      simp only [Host.readPath, Path.root]
      cases hr : h.read done name <;> simp_all
  | .member base name, path, hp, hi, hc => by
    simp only [staticPath, Option.bind_eq_bind, Option.bind_eq_some_iff] at hp
    obtain ⟨p, hbase, hp⟩ := hp
    obtain rfl := Option.some.inj hp
    simp only [Expr.isInertPath] at hi
    simp only [Expr.isClear] at hc
    obtain ⟨hfree, hrun⟩ := exec_staticPath hk base hbase hi hc
    refine ⟨hfree, ?_⟩
    simp only [Expr.exec]
    refine hrun.bind fun d hd => .ask fun d' hd' => ?_
    simpa [Host.readPath_child, hd] using hd'
  | .index base key, path, hp, hi, hc => by
    simp only [staticPath, Option.bind_eq_bind, Option.bind_eq_some_iff] at hp
    obtain ⟨p, hbase, k, hkey, hp⟩ := hp
    obtain rfl := Option.some.inj hp
    simp only [Expr.isInertPath, Bool.and_eq_true] at hi
    simp only [Expr.isClear, Bool.and_eq_true] at hc
    obtain ⟨hfree, hrun⟩ := exec_staticPath hk base hbase hi.1 hc.1
    refine ⟨hfree, ?_⟩
    simp only [Expr.exec]
    refine hrun.bind fun d hd => (exec_evaluate hk key hkey hi.2 hc.2).bind fun dk hdk => ?_
    obtain rfl := hdk.eq_plain
    refine .ask fun d' hd' => ?_
    simpa [Host.readPath_child, hd, Datum.segment] using hd'
  | .paren e, path, hp, hi, hc => by
    simp only [staticPath] at hp
    simp only [Expr.isInertPath] at hi
    simp only [Expr.isClear] at hc
    simp only [Expr.exec]
    exact exec_staticPath hk e hp hi hc
  | .absent, _, _, hi, _ | .literal _, _, _, hi, _ | .unary _ _, _, _, hi, _
  | .binary _ _ _, _, _, hi, _ | .cond _ _ _, _, _, hi, _ | .assign _ _ _, _, _, hi, _
  | .array _, _, _, hi, _ | .object _, _, _, hi, _ | .spread _, _, _, hi, _
  | .arrayPattern _, _, _, hi, _ | .objectPattern _, _, _, hi, _ | .withDefault _ _, _, _, hi, _
  | .closure _, _, _, hi, _ | .classExpr _ _ _, _, _, hi, _ | .other _ _, _, _, hi, _ => by
    simp [Expr.isInertPath] at hi

end

end Evaluate

/-- **A known test that is inert and clear can be dropped.** If what is known is
true after some actions and the value of an expression is known, which is inert
and whose operators convert no misread text, executing the expression performs
no action, and a condition on it goes the way the value goes. -/
theorem exec_of_evaluate {h : Host} {done : List Action} {known : Associations}
    (hk : h.Agrees done known) {e : Expr} {v : Value} (hv : evaluate known e = some v)
    (hi : e.isInert known false) (hc : e.isClear known) :
    (e.exec h done).2 = done ∧ ∀ d, (e.exec h done).1 = some d → d.truthy h = v.truthy := by
  obtain ⟨hdone, hmatches⟩ := exec_evaluate hk e hv hi hc
  exact ⟨hdone, fun d hd => (hmatches d hd).truthy h⟩

/-- A host where names hold the given values, nothing else is there but the
global values, and nothing has members. -/
def Host.bare (constants : List (String × Value)) : Host where
  read _ name :=
    match (constants.lookup name).or (globalValue? name) with
    | some v => .holds (.plain v)
    | none => .missing
  literal _ := .exotic 0
  member _ _ _ := none
  segment _ := .index 0
  unary _ _ _ := none
  binary _ _ _ _ := none
  isTrue _ := true
  answer _ := some (.plain .undefined)
  form _ _ _ := none
  isCut _ := false
  fresh _ := 0
  classBody _ := (none, [])

theorem lookup?_constants (path : Path) : ∀ constants : List (String × Value),
    (Associations.of (constants.map fun (name, v) => (.root name, v)) []).lookup? path =
      if path.segments = [] then constants.lookup path.binding else none
  | [] => by simp [Associations.lookup?_eq_find?]
  | (name, v) :: rest => by
    have ih := lookup?_constants path rest
    obtain ⟨binding, segments⟩ := path
    simp only [Associations.lookup?_eq_find?, Associations.entries_of, List.map_cons,
      List.find?_cons, Path.root, Path.mk.injEq, List.lookup_cons] at ih ⊢
    by_cases hs : segments = []
    · by_cases hn : name = binding
      · simp [hs, hn]
      · have hne : (binding == name) = false := beq_eq_false_iff_ne.mpr (Ne.symm hn)
        simpa [hs, hn, hne] using ih
    · simp [hs, Ne.symm hs]

/-- What such a host holds may be known. -/
theorem Host.bare_agrees (constants : List (String × Value)) (done : List Action) :
    (Host.bare constants).Agrees done
      (.of (constants.map fun (name, v) => (.root name, v)) []) := by
  have hread : ∀ name v, (constants.lookup name).or (globalValue? name) = some v →
      (Host.bare constants).read done name = .holds (.plain v) := by
    intro name v hv
    simp [Host.bare, hv]
  constructor
  · intro name v hv
    have hlookup := lookup?_constants (.root name) constants
    simp only [evaluate, hlookup, Associations.isShadowed, Associations.shadowed_of] at hv
    exact .inr (hread name v hv)
  · intro path v _ hv d hd
    rw [lookup?_constants] at hv
    split at hv
    · rename_i hs
      rw [Host.readPath, hread path.binding v (by simp [hv]), hs] at hd
      exact (Option.some.inj hd).symm
    · cases hv

/-- The test `on && (on == "1" ? [on] : g())`. -/
def guardedCall : Expr :=
  .binary .and (.ident "on")
    (.cond (.binary .looseEq (.ident "on") (.literal (.string "1" "'1'")))
      (.array [.ident "on"]) (.other .call [.ident "g"]))

/-- Where `on` is known to be true, nothing is lost with that test: the call is
never come to. -/
theorem guardedCall_exec :
    let known : Associations := .of [(.root "on", .bool true)] []
    let h := Host.bare [("on", .bool true)]
    h.Agrees [] known ∧ evaluate known guardedCall = some (.bool true) ∧
      guardedCall.isInert known false = true ∧ guardedCall.isClear known = true ∧
      (guardedCall.exec h []).2 = [] := by
  have hagrees := Host.bare_agrees [("on", .bool true)] []
  have hvalue : evaluate (.of [(.root "on", .bool true)] []) guardedCall = some (.bool true) := by
    decide +kernel
  have hinert : guardedCall.isInert (.of [(.root "on", .bool true)] []) false = true := by
    decide +kernel
  have hclear : guardedCall.isClear (.of [(.root "on", .bool true)] []) = true := by
    decide +kernel
  exact ⟨hagrees, hvalue, hinert, hclear, (exec_of_evaluate hagrees hvalue hinert hclear).1⟩

/-- The test `"12\u0085" == 12`, of a text that is read as 12 and converts to the
NaN. -/
def misreadTest : Expr :=
  .binary .looseEq (.literal (.string "12\u0085" "'12\u0085'"))
    (.literal (.number (.ofNat 12) "12"))

/-- Of `"12\u0085" == 12 ? true : f()` the value is known, and the test is inert,
but executing it calls `f`. -/
example :
    let e : Expr := .cond misreadTest (.literal (.bool true)) (.other .call [.ident "f"])
    evaluate .empty e = some (.bool true) ∧ e.isInert .empty false = true ∧
      e.isClear .empty = false ∧
      (e.exec (.bare [("f", .undefined)]) []).2.length = 1 := by decide +kernel

/-- **A known test may act.** The value of the assignment `x = true` is known, and
executing it assigns. -/
theorem exists_known_test_that_acts : ¬ ∀ (h : Host) (done : List Action) (known : Associations)
    (e : Expr) (v : Value), h.Agrees done known → evaluate known e = some v →
      (e.exec h done).2 = done := by
  intro hall
  have hnone := hall (.bare []) [] .empty (.assign none (.ident "x") (.literal (.bool true)))
    (.bool true) (Host.bare_agrees [] []) (by decide +kernel)
  have hacts : ((Expr.assign none (.ident "x") (.literal (.bool true))).exec (.bare []) []).2 =
      [⟨.assign, [.plain (.bool true)]⟩] :=
    rfl
  simp [hacts] at hnone

end DeadBranch
