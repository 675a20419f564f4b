/-
# Executing expressions

What an expression does when the program runs, as far as effects go: which of
its parts are executed, in which order, and which actions they perform. An
action is an assignment, an update, a `delete`, a call, a `new`, an `await`, a
`yield` or a tagged template; all actions so far are the state of a run. What
the text of a program does not determine is asked of a `Host`: what a name
holds, what an access to a member of an object yields, what an operator makes of
an object, what an action gives back. A host may answer by the actions so far,
so that a call can change what a name holds. On primitive values the operators
are those of the language (`UnaryOp.value`, `BinaryOp.value`), not the tables
that evaluation uses.

A run that stops with an error has no result, but it still has performed what
it performed. Bodies of functions are not executed where they are written; what
the body of a class does when it is executed is left to the host.

Key definitions: `Datum`, `Action`, `Host`, `Execution`, `Expr.exec`.
-/
import DeadBranch.Evaluate
import DeadBranch.Proofs.Operators

namespace DeadBranch

/-- What an expression may yield: a primitive value, an object, or a primitive
that is none of the values (a big integer, a symbol). -/
inductive Datum where
  | plain (v : Value)
  | object (id : Nat)
  | exotic (id : Nat)

/-- The kinds of actions. -/
inductive ActionKind where
  | assign | update | delete | call | new | await | yield | tagged
deriving DecidableEq, Repr

/-- Something that was done, with what it was done to. -/
structure Action where
  kind : ActionKind
  operands : List Datum

/-- What is found when a name is read. -/
inductive NameState where
  /-- There is no such name. -/
  | missing
  /-- The name is declared, but its declaration has not run. -/
  | pending
  | holds (d : Datum)

/-- What is around a running program. -/
structure Host where
  read : List Action → String → NameState
  /-- Big integers and regular expressions. -/
  literal : Literal → Datum
  member : List Action → Datum → Segment → Option Datum
  /-- The key for a computed access with something that is no value. -/
  segment : Datum → Segment
  unary : List Action → UnaryOp → Datum → Option Datum
  binary : List Action → BinaryOp → Datum → Datum → Option Datum
  isTrue : Nat → Bool
  /-- What an action gives back. -/
  answer : List Action → Option Datum
  /-- What a form without effects of its own yields. -/
  form : List Action → Form → List Datum → Option Datum
  /-- Does a chain end here because it was cut further in? -/
  isCut : List Action → Bool
  fresh : List Action → Nat
  classBody : List Action → Option Datum × List Action

/-! ### Runs -/

/-- Something that is executed after some actions and adds to them; without a
result if it stops with an error. -/
def Execution (α : Type) : Type := List Action → Option α × List Action

instance : Monad Execution where
  pure a := fun done => (some a, done)
  bind m f := fun done =>
    match m done with
    | (some a, done) => f a done
    | (none, done) => (none, done)

namespace Execution

variable {α β : Type}

/-- Asks something about the actions so far. -/
def ask (f : List Action → Option α) : Execution α := fun done => (f done, done)

/-- Stops with an error. -/
def fail : Execution α := ask fun _ => none

/-- Performs an action. -/
def perform (kind : ActionKind) (operands : List Datum) : Execution Unit := fun done =>
  (some (), done ++ [⟨kind, operands⟩])

end Execution

/-! ### Operators and forms -/

/-- Does a condition hold? -/
def Datum.truthy (h : Host) : Datum → Bool
  | .plain v => v.truthy
  | .object _ => true
  | .exotic id => h.isTrue id

/-- Is it `null` or `undefined`? -/
def Datum.isNullish : Datum → Bool
  | .plain v => v.isNullish
  | _ => false

/-- Does the left operand alone decide, so that the right one is not executed? -/
def BinaryOp.skips (h : Host) (op : BinaryOp) (left : Datum) : Bool :=
  match op with
  | .and => !left.truthy h
  | .or => left.truthy h
  | .coalesce => !left.isNullish
  | _ => false

/-- The form of an action, if the form performs one. -/
def Form.action? : Form → Option ActionKind
  | .call | .chainCall _ => some .call
  | .new _ => some .new
  | .update _ _ => some .update
  | .await => some .await
  | .yield _ => some .yield
  | .tagged _ => some .tagged
  | _ => none

/-- Is it a link of an optional chain? If so, does it cut the chain itself? -/
def Form.link? : Form → Option Bool
  | .chainMember optional _ | .chainPrivate optional _ | .chainIndex optional
  | .chainCall optional => some optional
  | _ => none

section Exec

variable (h : Host)

/-- A literal. -/
def Literal.exec (value : Literal) : Execution Datum := pure <|
  match value.value? with
  | some v => .plain v
  | none => h.literal value

/-- A name; it must have a value. -/
def execName (name : String) : Execution Datum := .ask fun done =>
  match h.read done name with
  | .holds d => some d
  | _ => none

/-- Access to a member. -/
def execMember (object : Datum) (segment : Segment) : Execution Datum :=
  .ask fun done => h.member done object segment

/-- The key that a datum stands for. -/
def Datum.segment : Datum → Segment
  | .plain v => .ofValue v
  | d => h.segment d

/-- An operator with one operand, other than `delete`; on a value as the language
defines it. -/
def UnaryOp.exec (op : UnaryOp) (operand : Datum) : Execution Datum :=
  match op, operand with
  | .not, d => pure (.plain (.bool !d.truthy h))
  | .void, _ => pure (.plain .undefined)
  | op, .plain v => .ask fun _ => (op.value v).map .plain
  | op, d => .ask fun done => h.unary done op d

/-- An operator with two operands, both of which have been executed; on values as
the language defines it. -/
def BinaryOp.exec (op : BinaryOp) (left right : Datum) : Execution Datum :=
  match op, left, right with
  | .and, _, _ | .or, _, _ | .coalesce, _, _ => pure right
  | .hasKey, _, _ | .instanceof, _, _ => .ask fun done => h.binary done op left right
  | _, .plain v, .plain w => .ask fun _ => (op.value v w).map .plain
  | _, _, _ => .ask fun done => h.binary done op left right

/-- A form whose parts have been executed. -/
def Form.exec (form : Form) (parts : List Datum) : Execution Datum :=
  match form.action? with
  | some kind => do
    .perform kind parts
    .ask h.answer
  | none =>
    match form with
    | .sequence => pure (parts.getLastD (.plain .undefined))
    | form => .ask fun done => h.form done form parts

/-- Does `typeof` find no name? -/
def Expr.isMissing (done : List Action) : Expr → Bool
  | .ident name =>
    match h.read done name with
    | .missing => true
    | _ => false
  | .paren inner => inner.isMissing done
  | _ => false

/-- Is it a name or a member? -/
def Expr.isReference : Expr → Bool
  | .ident _ | .member _ _ | .index _ _ => true
  | .paren inner => inner.isReference
  | _ => false

/-- An operator with one operand, given how the operand is executed as something
to delete and for its value. -/
def UnaryOp.execOn (op : UnaryOp) (operand : Expr) (parts : Execution Unit)
    (value : Execution Datum) : Execution Datum :=
  match op with
  | .delete => do
    if operand.isReference then parts
    else
      let _ ← value
      pure ()
    .perform .delete []
    .ask h.answer
  | .typeof => do
    let missing ← .ask fun done => some (operand.isMissing h done)
    if missing then pure (.plain (.string "undefined")) else value >>= UnaryOp.exec h .typeof
  | op => value >>= op.exec h

mutual

/-- Executes an expression. -/
def Expr.exec : Expr → Execution Datum
  | .absent => pure (.plain .undefined)
  | .literal value => value.exec h
  | .ident name => execName h name
  | .paren inner => inner.exec
  | .unary op operand => op.execOn h operand operand.execParts operand.exec
  | .binary op left right => do
    let d ← left.exec
    if op.skips h d then pure d
    else
      let e ← right.exec
      op.exec h d e
  | .cond test consequent alternate => do
    let d ← test.exec
    if d.truthy h then consequent.exec else alternate.exec
  | .assign none target value => do
    target.execParts
    let d ← value.exec
    .perform .assign [d]
    pure d
  | .assign (some op) target value => do
    let old ← target.exec
    if op.skips h old then pure old
    else
      let d ← value.exec
      let new ← op.exec h old d
      .perform .assign [new]
      pure new
  | .member object name => do
    let d ← object.exec
    execMember h d (.name name)
  | .index object key => do
    let d ← object.exec
    let k ← key.exec
    execMember h d (k.segment h)
  | .array elements => do
    let _ ← exprsExec elements
    .ask fun done => some (.object (h.fresh done))
  | .object properties => do
    propertiesExec properties
    .ask fun done => some (.object (h.fresh done))
  | .spread operand => operand.exec
  | .closure _ => .ask fun done => some (.object (h.fresh done))
  | .classExpr _ members parent => do
    let _ ← parent.exec
    propertiesExec members
    fun done => ((h.classBody done).1, done ++ (h.classBody done).2)
  | .other form [] => form.exec h []
  | .other form (first :: rest) => do
    let d ← first.exec
    let cut ← .ask fun done => some (form.link?.any (· || h.isCut done) && d.isNullish)
    if cut then pure (.plain .undefined)
    else
      let ds ← exprsExec rest
      form.exec h (d :: ds)
  | .arrayPattern _ | .objectPattern _ | .withDefault _ _ => .fail

/-- Executes what stands in an expression that is about to be assigned to or
deleted. A pattern is taken apart by the assignment. -/
def Expr.execParts : Expr → Execution Unit
  | .member object _ => do
    let _ ← object.exec
    pure ()
  | .index object key => do
    let _ ← object.exec
    let _ ← key.exec
    pure ()
  | .paren inner => inner.execParts
  | .other _ parts => do
    let _ ← exprsExec parts
    pure ()
  | _ => pure ()

/-- Executes expressions, one after the other. -/
def exprsExec : List Expr → Execution (List Datum)
  | [] => pure []
  | e :: rest => do
    let d ← e.exec
    let ds ← exprsExec rest
    pure (d :: ds)

/-- Executes a key. -/
def Key.exec : Key → Execution Unit
  | .computed key => do
    let _ ← key.exec
    pure ()
  | _ => pure ()

/-- Executes a property of an object, or the key of a class member. -/
def Property.exec : Property → Execution Unit
  | .pair key value => do
    key.exec
    let _ ← value.exec
    pure ()
  | .shorthand name _ => do
    let _ ← execName h name
    pure ()
  | .spread operand => do
    let _ ← operand.exec
    pure ()
  | .method _ _ key _ | .field _ key _ => key.exec
  | .staticBlock _ | .empty => pure ()

/-- Executes properties, one after the other. -/
def propertiesExec : List Property → Execution Unit
  | [] => pure ()
  | p :: rest => do
    p.exec
    propertiesExec rest

end

end Exec
end DeadBranch
