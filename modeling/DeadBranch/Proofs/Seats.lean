/-
# Where statements stand

A statement stands in a list, after `else`, or alone: as the consequent of an `if`
statement or as the body of a loop, a label or `with`. The seats of a program are all
its statements, each with its slot and with the `if` statements around it.

Where an `if` statement is decided, the branch that is left takes its slot, and a
branch of that branch may take it in turn; `Slot.settled` says in which position a
statement comes to stand. Position by position, what is left of a program is what is
left at its seats (`Program.left_seats`): a statement that is not decided stays, one
that is decided makes way for its branch, and where there is none a placeholder stays
if the position needs a statement, and nothing if it does not.

Key definitions: `Position`, `Slot`, `Seat`, `Program.seats`, `Slot.settled`,
`Seat.isLeft`, `Seat.left`.
Key theorems: `Program.seats_stmt`, `Program.seats_sites`, `Stmt.left_seats`,
`Program.left_seats`.
-/
import DeadBranch.Proofs.Attachment
import DeadBranch.Proofs.Pruned

namespace DeadBranch

/-- Where a statement can stand. -/
inductive Position where
  /-- In a list: of a program, a block, a function, a case or a static block. -/
  | listed
  | loopBody
  | labeledBody
  | withBody
  | consequent
  | alternate
deriving DecidableEq, Repr

/-- Must a statement stand there? -/
def Position.isSingle : Position → Bool
  | listed | alternate => false
  | loopBody | labeledBody | withBody | consequent => true

/-- The place of a statement. -/
inductive Slot where
  | plain (position : Position)
  /-- A branch of an `if` statement, which has a slot itself. -/
  | branch (position : Position) (of : Conditional) (outer : Slot)

/-- Where the statement stands. -/
def Slot.position : Slot → Position
  | plain position => position
  | branch position _ _ => position

/-- A statement in its place. -/
structure Seat where
  slot : Slot
  /-- The scope directly around. -/
  scope : Nat
  stmt : Stmt
  /-- The `if` statements around it, the innermost first, with the part of each
  in which it lies. -/
  around : List (Conditional × Part)

/-! ### The seats of a tree -/

section Seats

variable (g : ScopeGraph)

mutual

/-- The seats in an expression or pattern. -/
@[simp] def Expr.seats (scope : Nat) (around : List (Conditional × Part)) : Expr → List Seat
  | .absent | .literal _ | .ident _ => []
  | .paren inner => inner.seats scope around
  | .unary _ operand => operand.seats scope around
  | .binary _ left right => left.seats scope around ++ right.seats scope around
  | .cond test consequent alternate =>
    test.seats scope around ++ (consequent.seats scope around ++ alternate.seats scope around)
  | .assign _ target value => target.seats scope around ++ value.seats scope around
  | .member object _ => object.seats scope around
  | .index object key => object.seats scope around ++ key.seats scope around
  | .array elements => exprsSeats scope around elements
  | .object properties => propertiesSeats scope around properties
  | .spread operand => operand.seats scope around
  | .arrayPattern elements => exprsSeats scope around elements
  | .objectPattern properties => propertiesSeats scope around properties
  | .withDefault target fallback => target.seats scope around ++ fallback.seats scope around
  | .closure body => body.seats scope around
  | .classExpr _ members parent => propertiesSeats scope around members ++ parent.seats scope around
  | .other _ parts => exprsSeats scope around parts

/-- The seats in expressions. -/
@[simp] def exprsSeats (scope : Nat) (around : List (Conditional × Part)) : List Expr → List Seat
  | [] => []
  | e :: rest => e.seats scope around ++ exprsSeats scope around rest

/-- The seats in a key. -/
@[simp] def Key.seats (scope : Nat) (around : List (Conditional × Part)) : Key → List Seat
  | .computed key => key.seats scope around
  | _ => []

/-- The seats in a property or class member. The key of an accessor of an object or of
a constructor is inside its function. -/
@[simp] def Property.seats (scope : Nat) (around : List (Conditional × Part)) :
    Property → List Seat
  | .pair key value => key.seats scope around ++ value.seats scope around
  | .shorthand _ fallback => fallback.seats scope around
  | .spread operand => operand.seats scope around
  | .method _ _ key (.block head span params body) =>
    let inner := g.inside scope ⟨head.boundary, span⟩
    key.seats (if head.holdsKey then inner else scope) around ++
      (exprsSeats inner around params ++ body.seats inner around)
  | .method _ _ key body => key.seats scope around ++ body.seats scope around
  | .field _ key value => key.seats scope around ++ value.seats scope around
  | .staticBlock body => body.seats scope around
  | .empty => []

/-- The seats in properties. -/
@[simp] def propertiesSeats (scope : Nat) (around : List (Conditional × Part)) :
    List Property → List Seat
  | [] => []
  | p :: rest => p.seats scope around ++ propertiesSeats scope around rest

/-- The seats in a function. -/
@[simp] def Closure.seats (scope : Nat) (around : List (Conditional × Part)) :
    Closure → List Seat
  | .block head span params body =>
    let inner := g.inside scope ⟨head.boundary, span⟩
    exprsSeats inner around params ++ body.seats inner around
  | .concise head span params result =>
    let inner := g.inside scope ⟨head.boundary, span⟩
    exprsSeats inner around params ++ result.seats inner around

/-- The seats in a block. -/
@[simp] def Block.seats (scope : Nat) (around : List (Conditional × Part)) : Block → List Seat
  | .mk _ stmts => stmtsSeats scope around stmts

/-- The seats in a declared variable. -/
@[simp] def Declarator.seats (scope : Nat) (around : List (Conditional × Part)) :
    Declarator → List Seat
  | .mk target init => target.seats scope around ++ init.seats scope around

/-- The seats in declared variables. -/
@[simp] def declaratorsSeats (scope : Nat) (around : List (Conditional × Part)) :
    List Declarator → List Seat
  | [] => []
  | d :: rest => d.seats scope around ++ declaratorsSeats scope around rest

/-- The seats in a declaration. -/
@[simp] def Decl.seats (scope : Nat) (around : List (Conditional × Part)) : Decl → List Seat
  | .vars _ declarators => declaratorsSeats scope around declarators
  | .function _ body => body.seats scope around
  | .classDecl _ members parent => propertiesSeats scope around members ++ parent.seats scope around

/-- The seats in what a loop starts with. -/
@[simp] def LoopHead.seats (scope : Nat) (around : List (Conditional × Part)) :
    LoopHead → List Seat
  | .decl _ declarators => declaratorsSeats scope around declarators
  | .expr e => e.seats scope around

/-- The seat of a statement and those inside it. -/
@[simp] def Stmt.seats (scope : Nat) (around : List (Conditional × Part)) (slot : Slot) :
    Stmt → List Seat
  | .empty => [⟨slot, scope, .empty, around⟩]
  | .removed => [⟨slot, scope, .removed, around⟩]
  | .expr e => ⟨slot, scope, .expr e, around⟩ :: e.seats scope around
  | .block body => ⟨slot, scope, .block body, around⟩ :: body.seats scope around
  | .decl d => ⟨slot, scope, .decl d, around⟩ :: d.seats scope around
  | .ifElse span test consequent alternate =>
    let here : Conditional := ⟨scope, span, test, alternate.isSome⟩
    ⟨slot, scope, .ifElse span test consequent alternate, around⟩ ::
      (test.seats scope ((here, .test) :: around) ++
        (consequent.seats scope ((here, .consequent) :: around) (.branch .consequent here slot) ++
          alternateSeats scope ((here, .alternate) :: around) (.branch .alternate here slot)
            alternate))
  | .whileLoop test body =>
    ⟨slot, scope, .whileLoop test body, around⟩ ::
      (test.seats scope around ++ body.seats scope around (.plain .loopBody))
  | .doWhile test body =>
    ⟨slot, scope, .doWhile test body, around⟩ ::
      (test.seats scope around ++ body.seats scope around (.plain .loopBody))
  | .forLoop span head test update body =>
    ⟨slot, scope, .forLoop span head test update body, around⟩ ::
      (head.seats scope around ++ (test.seats scope around ++ (update.seats scope around ++
        body.seats scope around (.plain .loopBody))))
  | .forEach span iteration head subject body =>
    ⟨slot, scope, .forEach span iteration head subject body, around⟩ ::
      (head.seats scope around ++ (subject.seats scope around ++
        body.seats scope around (.plain .loopBody)))
  | .labeled label body =>
    ⟨slot, scope, .labeled label body, around⟩ :: body.seats scope around (.plain .labeledBody)
  | .withObject object body =>
    ⟨slot, scope, .withObject object body, around⟩ ::
      (object.seats scope around ++ body.seats scope around (.plain .withBody))
  | .switch span subject cases =>
    ⟨slot, scope, .switch span subject cases, around⟩ ::
      (subject.seats scope around ++ casesSeats scope around cases)
  | .tryCatch body handler finalizer =>
    ⟨slot, scope, .tryCatch body handler finalizer, around⟩ ::
      (body.seats scope around ++
        (handlerSeats scope around handler ++ finalizerSeats scope around finalizer))
  | .ret value => ⟨slot, scope, .ret value, around⟩ :: value.seats scope around
  | .throw value => ⟨slot, scope, .throw value, around⟩ :: value.seats scope around
  | .exitTo label => [⟨slot, scope, .exitTo label, around⟩]
  | .continueTo label => [⟨slot, scope, .continueTo label, around⟩]
  | .debugger => [⟨slot, scope, .debugger, around⟩]

/-- The seats after `else`. -/
@[simp] def alternateSeats (scope : Nat) (around : List (Conditional × Part)) (slot : Slot) :
    Option Stmt → List Seat
  | none => []
  | some s => s.seats scope around slot

/-- The seats in a list of statements. -/
@[simp] def stmtsSeats (scope : Nat) (around : List (Conditional × Part)) :
    List Stmt → List Seat
  | [] => []
  | s :: rest => s.seats scope around (.plain .listed) ++ stmtsSeats scope around rest

/-- The seats in a case. -/
@[simp] def Case.seats (scope : Nat) (around : List (Conditional × Part)) : Case → List Seat
  | .mk none body => stmtsSeats scope around body
  | .mk (some test) body => test.seats scope around ++ stmtsSeats scope around body

/-- The seats in cases. -/
@[simp] def casesSeats (scope : Nat) (around : List (Conditional × Part)) :
    List Case → List Seat
  | [] => []
  | c :: rest => c.seats scope around ++ casesSeats scope around rest

/-- The seats in a catch clause. -/
@[simp] def handlerSeats (scope : Nat) (around : List (Conditional × Part)) :
    Option Handler → List Seat
  | none => []
  | some (.mk _ param body) => param.seats scope around ++ body.seats scope around

/-- The seats in a final block. -/
@[simp] def finalizerSeats (scope : Nat) (around : List (Conditional × Part)) :
    Option Block → List Seat
  | none => []
  | some body => body.seats scope around

end

/-- The seats in an item of a program. -/
@[simp] def Item.seats (scope : Nat) (around : List (Conditional × Part)) : Item → List Seat
  | .stmt s => s.seats g scope around (.plain .listed)
  | .importNames _ _ | .exportNames _ _ | .exportAll _ => []
  | .exportDecl d => d.seats g scope around
  | .exportDefault _ e => e.seats g scope around

/-- The seats in the items of a program. -/
@[simp] def itemsSeats (scope : Nat) (around : List (Conditional × Part)) :
    List Item → List Seat
  | [] => []
  | i :: rest => i.seats g scope around ++ itemsSeats scope around rest

end Seats

/-- All statements of a program, each in its place. -/
def Program.seats (p : Program) : List Seat := itemsSeats (.ofProgram p) 0 [] p.items

/-! ### Seats are statements, and sites are seats -/

/-- The place of an `if` statement. -/
def Seat.site? (seat : Seat) : Option Site :=
  match seat.stmt with
  | .ifElse span test _ alternate => some ⟨⟨seat.scope, span, test, alternate.isSome⟩, seat.around⟩
  | _ => none

section Listing

variable (g : ScopeGraph)

mutual

theorem Expr.seats_stmt : ∀ (e : Expr) (scope : Nat) (around : List (Conditional × Part)),
    (e.seats g scope around).map (·.stmt) = e.statements
  | .absent, _, _ | .literal _, _, _ | .ident _, _, _ => rfl
  | .paren e, _, _ | .unary _ e, _, _ | .member e _, _, _ | .spread e, _, _ => by
    simp [Expr.seats_stmt e]
  | .binary _ a b, _, _ | .assign _ a b, _, _ | .index a b, _, _ | .withDefault a b, _, _ => by
    simp [Expr.seats_stmt a, Expr.seats_stmt b]
  | .cond a b c, _, _ => by simp [Expr.seats_stmt a, Expr.seats_stmt b, Expr.seats_stmt c]
  | .array es, _, _ | .arrayPattern es, _, _ | .other _ es, _, _ => by simp [exprsSeats_stmt es]
  | .object ps, _, _ | .objectPattern ps, _, _ => by simp [propertiesSeats_stmt ps]
  | .closure c, _, _ => by simp [Closure.seats_stmt c]
  | .classExpr _ ps e, _, _ => by simp [propertiesSeats_stmt ps, Expr.seats_stmt e]

theorem exprsSeats_stmt : ∀ (es : List Expr) (scope : Nat) (around : List (Conditional × Part)),
    (exprsSeats g scope around es).map (·.stmt) = exprsStatements es
  | [], _, _ => rfl
  | e :: rest, _, _ => by simp [Expr.seats_stmt e, exprsSeats_stmt rest]

theorem Key.seats_stmt : ∀ (k : Key) (scope : Nat) (around : List (Conditional × Part)),
    (k.seats g scope around).map (·.stmt) = k.statements
  | .computed e, _, _ => by simp [Expr.seats_stmt e]
  | .ident _, _, _ | .string _ _, _, _ | .number _ _, _, _ | .bigint _ _, _, _
  | .privateName _, _, _ => rfl

theorem Property.seats_stmt : ∀ (p : Property) (scope : Nat) (around : List (Conditional × Part)),
    (p.seats g scope around).map (·.stmt) = p.statements
  | .pair k e, _, _ | .field _ k e, _, _ => by simp [Key.seats_stmt k, Expr.seats_stmt e]
  | .shorthand _ e, _, _ | .spread e, _, _ => by simp [Expr.seats_stmt e]
  | .method _ _ k (.block head span params b), _, _ => by
    simp [Key.seats_stmt k, exprsSeats_stmt params, Block.seats_stmt b]
  | .method _ _ k (.concise head span params e), _, _ => by
    simp [Key.seats_stmt k, exprsSeats_stmt params, Expr.seats_stmt e]
  | .staticBlock b, _, _ => by simp [Block.seats_stmt b]
  | .empty, _, _ => rfl

theorem propertiesSeats_stmt : ∀ (ps : List Property) (scope : Nat)
    (around : List (Conditional × Part)),
    (propertiesSeats g scope around ps).map (·.stmt) = propertiesStatements ps
  | [], _, _ => rfl
  | p :: rest, _, _ => by simp [Property.seats_stmt p, propertiesSeats_stmt rest]

theorem Closure.seats_stmt : ∀ (c : Closure) (scope : Nat) (around : List (Conditional × Part)),
    (c.seats g scope around).map (·.stmt) = c.statements
  | .block _ _ params b, _, _ => by simp [exprsSeats_stmt params, Block.seats_stmt b]
  | .concise _ _ params e, _, _ => by simp [exprsSeats_stmt params, Expr.seats_stmt e]

theorem Block.seats_stmt : ∀ (b : Block) (scope : Nat) (around : List (Conditional × Part)),
    (b.seats g scope around).map (·.stmt) = b.statements
  | .mk _ ss, _, _ => by simp [stmtsSeats_stmt ss]

theorem Declarator.seats_stmt : ∀ (d : Declarator) (scope : Nat)
    (around : List (Conditional × Part)),
    (d.seats g scope around).map (·.stmt) = d.statements
  | .mk target init, _, _ => by simp [Expr.seats_stmt target, Expr.seats_stmt init]

theorem declaratorsSeats_stmt : ∀ (ds : List Declarator) (scope : Nat)
    (around : List (Conditional × Part)),
    (declaratorsSeats g scope around ds).map (·.stmt) = declaratorsStatements ds
  | [], _, _ => rfl
  | d :: rest, _, _ => by simp [Declarator.seats_stmt d, declaratorsSeats_stmt rest]

theorem Decl.seats_stmt : ∀ (d : Decl) (scope : Nat) (around : List (Conditional × Part)),
    (d.seats g scope around).map (·.stmt) = d.statements
  | .vars _ ds, _, _ => by simp [declaratorsSeats_stmt ds]
  | .function _ c, _, _ => by simp [Closure.seats_stmt c]
  | .classDecl _ ps e, _, _ => by simp [propertiesSeats_stmt ps, Expr.seats_stmt e]

theorem LoopHead.seats_stmt : ∀ (h : LoopHead) (scope : Nat) (around : List (Conditional × Part)),
    (h.seats g scope around).map (·.stmt) = h.statements
  | .decl _ ds, _, _ => by simp [declaratorsSeats_stmt ds]
  | .expr e, _, _ => by simp [Expr.seats_stmt e]

theorem Stmt.seats_stmt : ∀ (s : Stmt) (scope : Nat) (around : List (Conditional × Part))
    (slot : Slot), (s.seats g scope around slot).map (·.stmt) = s.statements
  | .empty, _, _, _ | .removed, _, _, _ | .exitTo _, _, _, _ | .continueTo _, _, _, _
  | .debugger, _, _, _ => rfl
  | .expr e, _, _, _ | .ret e, _, _, _ | .throw e, _, _, _ => by simp [Expr.seats_stmt e]
  | .block b, _, _, _ => by simp [Block.seats_stmt b]
  | .decl d, _, _, _ => by simp [Decl.seats_stmt d]
  | .ifElse _ e s a, _, _, _ => by
    simp [Expr.seats_stmt e, Stmt.seats_stmt s, alternateSeats_stmt a]
  | .whileLoop e s, _, _, _ | .doWhile e s, _, _, _ | .withObject e s, _, _, _ => by
    simp [Expr.seats_stmt e, Stmt.seats_stmt s]
  | .forLoop _ h e u s, _, _, _ => by
    simp [LoopHead.seats_stmt h, Expr.seats_stmt e, Expr.seats_stmt u, Stmt.seats_stmt s]
  | .forEach _ _ h e s, _, _, _ => by
    simp [LoopHead.seats_stmt h, Expr.seats_stmt e, Stmt.seats_stmt s]
  | .labeled _ s, _, _, _ => by simp [Stmt.seats_stmt s]
  | .switch _ e cs, _, _, _ => by simp [Expr.seats_stmt e, casesSeats_stmt cs]
  | .tryCatch b h f, _, _, _ => by
    simp [Block.seats_stmt b, handlerSeats_stmt h, finalizerSeats_stmt f]

theorem alternateSeats_stmt : ∀ (a : Option Stmt) (scope : Nat)
    (around : List (Conditional × Part)) (slot : Slot),
    (alternateSeats g scope around slot a).map (·.stmt) = alternateStatements a
  | none, _, _, _ => rfl
  | some s, _, _, _ => by simp [Stmt.seats_stmt s]

theorem stmtsSeats_stmt : ∀ (ss : List Stmt) (scope : Nat) (around : List (Conditional × Part)),
    (stmtsSeats g scope around ss).map (·.stmt) = stmtsStatements ss
  | [], _, _ => rfl
  | s :: rest, _, _ => by simp [Stmt.seats_stmt s, stmtsSeats_stmt rest]

theorem Case.seats_stmt : ∀ (c : Case) (scope : Nat) (around : List (Conditional × Part)),
    (c.seats g scope around).map (·.stmt) = c.statements
  | .mk none ss, _, _ => by simp [stmtsSeats_stmt ss]
  | .mk (some e) ss, _, _ => by simp [Expr.seats_stmt e, stmtsSeats_stmt ss]

theorem casesSeats_stmt : ∀ (cs : List Case) (scope : Nat) (around : List (Conditional × Part)),
    (casesSeats g scope around cs).map (·.stmt) = casesStatements cs
  | [], _, _ => rfl
  | c :: rest, _, _ => by simp [Case.seats_stmt c, casesSeats_stmt rest]

theorem handlerSeats_stmt : ∀ (h : Option Handler) (scope : Nat)
    (around : List (Conditional × Part)),
    (handlerSeats g scope around h).map (·.stmt) = handlerStatements h
  | none, _, _ => rfl
  | some (.mk _ e b), _, _ => by simp [Expr.seats_stmt e, Block.seats_stmt b]

theorem finalizerSeats_stmt : ∀ (b : Option Block) (scope : Nat)
    (around : List (Conditional × Part)),
    (finalizerSeats g scope around b).map (·.stmt) = finalizerStatements b
  | none, _, _ => rfl
  | some b, _, _ => by simp [Block.seats_stmt b]

end

theorem itemsSeats_stmt (scope : Nat) (around : List (Conditional × Part)) : ∀ is : List Item,
    (itemsSeats g scope around is).map (·.stmt) = itemsStatements is
  | [] => rfl
  | i :: rest => by
    have hi : (i.seats g scope around).map (·.stmt) = i.statements := by
      cases i <;> simp [Stmt.seats_stmt, Decl.seats_stmt, Expr.seats_stmt]
    rw [itemsSeats, List.map_append, hi, itemsSeats_stmt scope around rest, itemsStatements]

/-- The seats of a program are its statements, in their order. -/
theorem Program.seats_stmt (p : Program) : p.seats.map (·.stmt) = p.statements :=
  itemsSeats_stmt _ 0 [] p.items

@[simp] theorem Outline.sites_andThen (scope : Nat) (around : List (Conditional × Part))
    (first second : Outline) : (first.andThen second).sites g scope around =
      first.sites g scope around ++ second.sites g scope around := by
  cases first <;> cases second <;> simp [Outline.andThen, Outline.sites]

mutual

theorem Expr.seats_sites : ∀ (e : Expr) (scope : Nat) (around : List (Conditional × Part)),
    (e.seats g scope around).filterMap Seat.site? = e.outline.sites g scope around
  | .absent, _, _ | .literal _, _, _ | .ident _, _, _ => by simp [Expr.outline, Outline.sites]
  | .paren e, _, _ | .unary _ e, _, _ | .member e _, _, _ | .spread e, _, _ => by
    simp [Expr.outline, Expr.seats_sites e]
  | .binary _ a b, _, _ | .assign _ a b, _, _ | .index a b, _, _ | .withDefault a b, _, _ => by
    simp [Expr.outline, Expr.seats_sites a, Expr.seats_sites b]
  | .cond a b c, _, _ => by
    simp [Expr.outline, Expr.seats_sites a, Expr.seats_sites b, Expr.seats_sites c]
  | .array es, _, _ | .arrayPattern es, _, _ | .other _ es, _, _ => by
    simp [Expr.outline, exprsSeats_sites es]
  | .object ps, _, _ | .objectPattern ps, _, _ => by simp [Expr.outline, propertiesSeats_sites ps]
  | .closure c, _, _ => by simp [Expr.outline, Closure.seats_sites c]
  | .classExpr _ ps e, _, _ => by
    simp [Expr.outline, propertiesSeats_sites ps, Expr.seats_sites e]

theorem exprsSeats_sites : ∀ (es : List Expr) (scope : Nat) (around : List (Conditional × Part)),
    (exprsSeats g scope around es).filterMap Seat.site? = (exprsOutline es).sites g scope around
  | [], _, _ => by simp [exprsOutline, Outline.sites]
  | e :: rest, _, _ => by simp [exprsOutline, Expr.seats_sites e, exprsSeats_sites rest]

theorem Key.seats_sites : ∀ (k : Key) (scope : Nat) (around : List (Conditional × Part)),
    (k.seats g scope around).filterMap Seat.site? = k.outline.sites g scope around
  | .computed e, _, _ => by simp [Key.outline, Expr.seats_sites e]
  | .ident _, _, _ | .string _ _, _, _ | .number _ _, _, _ | .bigint _ _, _, _
  | .privateName _, _, _ => by simp [Key.outline, Outline.sites]

theorem Property.seats_sites : ∀ (p : Property) (scope : Nat) (around : List (Conditional × Part)),
    (p.seats g scope around).filterMap Seat.site? = p.outline.sites g scope around
  | .pair k e, _, _ | .field _ k e, _, _ => by
    simp [Property.outline, Key.seats_sites k, Expr.seats_sites e]
  | .shorthand _ e, _, _ | .spread e, _, _ => by simp [Property.outline, Expr.seats_sites e]
  | .method _ _ k (.block head span params b), _, _ => by
    -- the key is inside the function or before it
    by_cases hk : head.holdsKey <;>
      simp [Property.outline, hk, Outline.sites, Key.seats_sites k, exprsSeats_sites params,
        Block.seats_sites b]
  | .method _ _ k (.concise head span params e), _, _ => by
    simp [Property.outline, Closure.outline, Outline.sites, Key.seats_sites k,
      exprsSeats_sites params, Expr.seats_sites e]
  | .staticBlock b, _, _ => by simp [Property.outline, Block.seats_sites b]
  | .empty, _, _ => by simp [Property.outline, Outline.sites]

theorem propertiesSeats_sites : ∀ (ps : List Property) (scope : Nat)
    (around : List (Conditional × Part)), (propertiesSeats g scope around ps).filterMap Seat.site? =
      (propertiesOutline ps).sites g scope around
  | [], _, _ => by simp [propertiesOutline, Outline.sites]
  | p :: rest, _, _ => by
    simp [propertiesOutline, Property.seats_sites p, propertiesSeats_sites rest]

theorem Closure.seats_sites : ∀ (c : Closure) (scope : Nat) (around : List (Conditional × Part)),
    (c.seats g scope around).filterMap Seat.site? = c.outline.sites g scope around
  | .block _ _ params b, _, _ => by
    simp [Closure.outline, Outline.sites, exprsSeats_sites params, Block.seats_sites b]
  | .concise _ _ params e, _, _ => by
    simp [Closure.outline, Outline.sites, exprsSeats_sites params, Expr.seats_sites e]

theorem Block.seats_sites : ∀ (b : Block) (scope : Nat) (around : List (Conditional × Part)),
    (b.seats g scope around).filterMap Seat.site? = b.outline.sites g scope around
  | .mk _ ss, _, _ => by simp [Block.outline, Outline.sites, stmtsSeats_sites ss]

theorem Declarator.seats_sites : ∀ (d : Declarator) (scope : Nat)
    (around : List (Conditional × Part)),
    (d.seats g scope around).filterMap Seat.site? = d.outline.sites g scope around
  | .mk target init, _, _ => by
    simp [Declarator.outline, Expr.seats_sites target, Expr.seats_sites init]

theorem declaratorsSeats_sites : ∀ (ds : List Declarator) (scope : Nat)
    (around : List (Conditional × Part)),
    (declaratorsSeats g scope around ds).filterMap Seat.site? =
      (declaratorsOutline ds).sites g scope around
  | [], _, _ => by simp [declaratorsOutline, Outline.sites]
  | d :: rest, _, _ => by
    simp [declaratorsOutline, Declarator.seats_sites d, declaratorsSeats_sites rest]

theorem Decl.seats_sites : ∀ (d : Decl) (scope : Nat) (around : List (Conditional × Part)),
    (d.seats g scope around).filterMap Seat.site? = d.outline.sites g scope around
  | .vars _ ds, _, _ => by simp [Decl.outline, Outline.sites, declaratorsSeats_sites ds]
  | .function _ c, _, _ => by simp [Decl.outline, Outline.sites, Closure.seats_sites c]
  | .classDecl _ ps e, _, _ => by
    simp [Decl.outline, Outline.sites, propertiesSeats_sites ps, Expr.seats_sites e]

theorem LoopHead.seats_sites : ∀ (h : LoopHead) (scope : Nat) (around : List (Conditional × Part)),
    (h.seats g scope around).filterMap Seat.site? = h.outline.sites g scope around
  | .decl _ ds, _, _ => by simp [LoopHead.outline, Outline.sites, declaratorsSeats_sites ds]
  | .expr e, _, _ => by simp [LoopHead.outline, Expr.seats_sites e]

/-- An `if` statement is the first site of its own seats. -/
theorem Stmt.seats_sites : ∀ (s : Stmt) (scope : Nat) (around : List (Conditional × Part))
    (slot : Slot), (s.seats g scope around slot).filterMap Seat.site? =
      s.outline.sites g scope around
  | .empty, _, _, _ | .removed, _, _, _ | .exitTo _, _, _, _ | .continueTo _, _, _, _
  | .debugger, _, _, _ => by simp [Stmt.outline, Outline.sites, Seat.site?, List.filterMap_cons]
  | .expr e, _, _, _ | .ret e, _, _, _ | .throw e, _, _, _ => by
    simp [Stmt.outline, Seat.site?, List.filterMap_cons, Expr.seats_sites e]
  | .block b, _, _, _ => by
    simp [Stmt.outline, Seat.site?, List.filterMap_cons, Block.seats_sites b]
  | .decl d, _, _, _ => by simp [Stmt.outline, Seat.site?, List.filterMap_cons, Decl.seats_sites d]
  | .ifElse _ e s a, _, _, _ => by
    simp [Stmt.outline, Outline.sites, Seat.site?, Expr.seats_sites e, Stmt.seats_sites s,
      alternateSeats_sites a]
  | .whileLoop e s, _, _, _ | .doWhile e s, _, _, _ | .withObject e s, _, _, _ => by
    simp [Stmt.outline, Seat.site?, List.filterMap_cons, Expr.seats_sites e, Stmt.seats_sites s]
  | .forLoop _ h e u s, _, _, _ => by
    simp [Stmt.outline, Outline.sites, Seat.site?, List.filterMap_cons, LoopHead.seats_sites h,
      Expr.seats_sites e, Expr.seats_sites u, Stmt.seats_sites s]
  | .forEach _ _ h e s, _, _, _ => by
    simp [Stmt.outline, Outline.sites, Seat.site?, List.filterMap_cons, LoopHead.seats_sites h,
      Expr.seats_sites e, Stmt.seats_sites s]
  | .labeled _ s, _, _, _ => by
    simp [Stmt.outline, Seat.site?, List.filterMap_cons, Stmt.seats_sites s]
  | .switch _ e cs, _, _, _ => by
    simp [Stmt.outline, Outline.sites, Seat.site?, List.filterMap_cons, Expr.seats_sites e,
      casesSeats_sites cs]
  | .tryCatch b h f, _, _, _ => by
    simp [Stmt.outline, Seat.site?, List.filterMap_cons, Block.seats_sites b, handlerSeats_sites h,
      finalizerSeats_sites f]

theorem alternateSeats_sites : ∀ (a : Option Stmt) (scope : Nat)
    (around : List (Conditional × Part)) (slot : Slot),
    (alternateSeats g scope around slot a).filterMap Seat.site? =
      (alternateOutline a).sites g scope around
  | none, _, _, _ => by simp [alternateOutline, Outline.sites]
  | some s, _, _, _ => by simp [alternateOutline, Stmt.seats_sites s]

theorem stmtsSeats_sites : ∀ (ss : List Stmt) (scope : Nat) (around : List (Conditional × Part)),
    (stmtsSeats g scope around ss).filterMap Seat.site? = (stmtsOutline ss).sites g scope around
  | [], _, _ => by simp [stmtsOutline, Outline.sites]
  | s :: rest, _, _ => by simp [stmtsOutline, Stmt.seats_sites s, stmtsSeats_sites rest]

theorem Case.seats_sites : ∀ (c : Case) (scope : Nat) (around : List (Conditional × Part)),
    (c.seats g scope around).filterMap Seat.site? = c.outline.sites g scope around
  | .mk none ss, _, _ => by simp [Case.outline, stmtsSeats_sites ss]
  | .mk (some e) ss, _, _ => by simp [Case.outline, Expr.seats_sites e, stmtsSeats_sites ss]

theorem casesSeats_sites : ∀ (cs : List Case) (scope : Nat) (around : List (Conditional × Part)),
    (casesSeats g scope around cs).filterMap Seat.site? = (casesOutline cs).sites g scope around
  | [], _, _ => by simp [casesOutline, Outline.sites]
  | c :: rest, _, _ => by simp [casesOutline, Case.seats_sites c, casesSeats_sites rest]

theorem handlerSeats_sites : ∀ (h : Option Handler) (scope : Nat)
    (around : List (Conditional × Part)), (handlerSeats g scope around h).filterMap Seat.site? =
      (handlerOutline h).sites g scope around
  | none, _, _ => by simp [handlerOutline, Outline.sites]
  | some (.mk _ e b), _, _ => by
    simp [handlerOutline, Outline.sites, Expr.seats_sites e, Block.seats_sites b]

theorem finalizerSeats_sites : ∀ (b : Option Block) (scope : Nat)
    (around : List (Conditional × Part)), (finalizerSeats g scope around b).filterMap Seat.site? =
      (finalizerOutline b).sites g scope around
  | none, _, _ => by simp [finalizerOutline, Outline.sites]
  | some b, _, _ => by simp [finalizerOutline, Block.seats_sites b]

end

theorem itemsSeats_sites (scope : Nat) (around : List (Conditional × Part)) : ∀ is : List Item,
    (itemsSeats g scope around is).filterMap Seat.site? = (itemsOutline is).sites g scope around
  | [] => by simp [itemsOutline, Outline.sites]
  | i :: rest => by
    have hi : (i.seats g scope around).filterMap Seat.site? = i.outline.sites g scope around := by
      cases i <;>
        simp [Item.outline, Outline.sites, Stmt.seats_sites, Decl.seats_sites, Expr.seats_sites]
    rw [itemsSeats, List.filterMap_append, hi, itemsSeats_sites scope around rest, itemsOutline,
      Outline.sites_andThen]

/-- The sites of a program are the seats of its `if` statements. -/
theorem Program.seats_sites (p : Program) : p.seats.filterMap Seat.site? = p.sites :=
  itemsSeats_sites _ 0 [] p.items

end Listing

/-! ### What is left at a seat -/

section Left

variable (g : ScopeGraph) (wholeChain : Bool)

/-- Where a statement comes to stand: the branch of a decided `if` statement takes the
place of the statement. -/
def Slot.settled : Slot → Position
  | plain position => position
  | branch position c outer =>
    if (c.verdict g wholeChain).isSome then outer.settled else position

/-- Is it an `if` statement? -/
def Stmt.isConditional : Stmt → Bool
  | .ifElse _ _ _ _ => true
  | _ => false

/-- Whether the test of a statement is true, if it is an `if` statement and that is
known. -/
def Stmt.verdict (scope : Nat) : Stmt → Option Bool
  | .ifElse span test _ _ => g.verdict wholeChain scope span test
  | _ => none

/-- Is the statement an `if` statement that is removed, its test being false and there
being no alternate? -/
def Stmt.isCleared (scope : Nat) : Stmt → Bool
  | .ifElse span test _ none => g.verdict wholeChain scope span test == some false
  | _ => false

/-- Does the statement lie in a dropped part? -/
def Seat.isDropped (seat : Seat) : Bool := anyDropped g wholeChain seat.around

/-- Is something left at the seat? What is not decided is left; a statement that is
removed leaves something only where a statement must stand. -/
def Seat.isLeft (seat : Seat) : Bool :=
  !seat.isDropped g wholeChain &&
    if seat.stmt.isRemoved || seat.stmt.isCleared g wholeChain seat.scope then
      (seat.slot.settled g wholeChain).isSingle
    else (seat.stmt.verdict g wholeChain seat.scope).isNone

/-- What is left at the seat, and in which position. -/
def Seat.left (seat : Seat) : Position × Stmt :=
  (seat.slot.settled g wholeChain, (seat.stmt.pruned g wholeChain seat.scope).getD .removed)

/-- A statement and its position. -/
def Seat.shown (seat : Seat) : Position × Stmt := (seat.slot.position, seat.stmt)

/-- All that is left at seats. -/
def leftOf (seats : List Seat) : List (Position × Stmt) :=
  (seats.filter (·.isLeft g wholeChain)).map (·.left g wholeChain)

@[simp] theorem leftOf_nil : leftOf g wholeChain [] = [] := rfl

@[simp] theorem leftOf_append (l l' : List Seat) :
    leftOf g wholeChain (l ++ l') = leftOf g wholeChain l ++ leftOf g wholeChain l' := by
  simp [leftOf]

theorem leftOf_cons (seat : Seat) (l : List Seat) : leftOf g wholeChain (seat :: l) =
    (if seat.isLeft g wholeChain then [seat.left g wholeChain] else []) ++
      leftOf g wholeChain l := by
  rw [leftOf, List.filter_cons]
  split <;> rfl

/-- A list, or nothing if it is dropped. -/
def spared (dropped : Bool) (l : List (Position × Stmt)) : List (Position × Stmt) :=
  if dropped then [] else l

@[simp] theorem spared_nil (dropped : Bool) : spared dropped [] = [] := by
  cases dropped <;> rfl

@[simp] theorem spared_append_spared (dropped : Bool) (l l' : List (Position × Stmt)) :
    spared dropped l ++ spared dropped l' = spared dropped (l ++ l') := by
  cases dropped <;> rfl

section Seat

variable {s : Stmt} {scope : Nat}

theorem Stmt.isCleared_of_verdict (h : s.verdict g wholeChain scope = none) :
    s.isCleared g wholeChain scope = false := by
  cases s with
  | ifElse span test consequent alternate =>
    have hv : g.verdict wholeChain scope span test = none := h
    cases alternate <;> simp [Stmt.isCleared, hv]
  | _ => rfl

/-- A statement that is removed leaves nothing. -/
theorem Stmt.pruned_of_cleared (h : s.isRemoved || s.isCleared g wholeChain scope) :
    s.pruned g wholeChain scope = none := by
  cases s with
  | removed => rw [Stmt.pruned]
  | ifElse span test consequent alternate =>
    cases alternate with
    | none =>
      have hv : g.verdict wholeChain scope span test = some false := by
        simpa [Stmt.isRemoved, Stmt.isCleared] using h
      rw [Stmt.pruned, hv, alternatePruned]
    | some t => simp [Stmt.isRemoved, Stmt.isCleared] at h
  | _ => simp [Stmt.isRemoved, Stmt.isCleared] at h

/-- A statement that is not decided leaves one of its kind. -/
theorem Stmt.pruned_of_undecided (hr : s.isRemoved = false)
    (hv : s.verdict g wholeChain scope = none) :
    ∃ t, s.pruned g wholeChain scope = some t ∧ t.isRemoved = false ∧
      t.isConditional = s.isConditional ∧ (t = .empty ↔ s = .empty) := by
  cases s with
  | removed => simp [Stmt.isRemoved] at hr
  | ifElse span test consequent alternate =>
    have hv : g.verdict wholeChain scope span test = none := hv
    simp [Stmt.pruned, hv, Stmt.isRemoved, Stmt.isConditional]
  | _ => simp [Stmt.pruned, Stmt.isRemoved, Stmt.isConditional]

/-- A statement that is not decided stays. -/
theorem leftOf_cons_of_undecided (hr : s.isRemoved = false)
    (hv : s.verdict g wholeChain scope = none) (slot : Slot) (around : List (Conditional × Part))
    (l : List Seat) : leftOf g wholeChain (⟨slot, scope, s, around⟩ :: l) =
      spared (anyDropped g wholeChain around)
          [(slot.settled g wholeChain, (s.pruned g wholeChain scope).getD .removed)] ++
        leftOf g wholeChain l := by
  have hc := s.isCleared_of_verdict g wholeChain hv
  rw [leftOf_cons]
  simp only [Seat.isLeft, Seat.left, Seat.isDropped, hr, hc, hv]
  cases anyDropped g wholeChain around <;> rfl

/-- A statement that makes way for its branch leaves nothing itself. -/
theorem leftOf_cons_of_decided (hr : s.isRemoved = false)
    (hc : s.isCleared g wholeChain scope = false) (hv : (s.verdict g wholeChain scope).isSome)
    (slot : Slot) (around : List (Conditional × Part)) (l : List Seat) :
    leftOf g wholeChain (⟨slot, scope, s, around⟩ :: l) = leftOf g wholeChain l := by
  rw [leftOf_cons]
  simp [Seat.isLeft, hr, hc, Option.isNone_eq_false_iff.2 hv]

/-- A statement that is removed leaves a placeholder where a statement must stand. -/
theorem leftOf_cons_of_cleared (h : s.isRemoved || s.isCleared g wholeChain scope) (slot : Slot)
    (around : List (Conditional × Part)) (l : List Seat) :
    leftOf g wholeChain (⟨slot, scope, s, around⟩ :: l) =
      spared (anyDropped g wholeChain around)
          (if (slot.settled g wholeChain).isSingle then
            [(slot.settled g wholeChain, .removed)] else []) ++
        leftOf g wholeChain l := by
  rw [leftOf_cons]
  simp only [Seat.isLeft, Seat.left, Seat.isDropped, h, s.pruned_of_cleared g wholeChain h]
  cases anyDropped g wholeChain around <;> cases (slot.settled g wholeChain).isSingle <;> rfl

end Seat

/-- What is left at a seat: a placeholder for what is removed, where a statement must
stand, and otherwise a statement of the kind that stood there. -/
theorem Seat.left_cases {seat : Seat} (h : seat.isLeft g wholeChain) :
    ((seat.stmt.isRemoved || seat.stmt.isCleared g wholeChain seat.scope) ∧
      (seat.slot.settled g wholeChain).isSingle ∧ (seat.left g wholeChain).2 = .removed) ∨
    (seat.stmt.isRemoved = false ∧ seat.stmt.verdict g wholeChain seat.scope = none ∧
      (seat.left g wholeChain).2.isRemoved = false ∧
      (seat.left g wholeChain).2.isConditional = seat.stmt.isConditional ∧
      ((seat.left g wholeChain).2 = .empty ↔ seat.stmt = .empty)) := by
  rw [Seat.isLeft, Bool.and_eq_true] at h
  by_cases hc : seat.stmt.isRemoved || seat.stmt.isCleared g wholeChain seat.scope
  · left
    rw [if_pos hc] at h
    exact ⟨hc, h.2, by rw [Seat.left, Stmt.pruned_of_cleared g wholeChain hc]; rfl⟩
  · right
    rw [if_neg hc, Option.isNone_iff_eq_none] at h
    have hr : seat.stmt.isRemoved = false := by simp_all
    obtain ⟨t, ht, hkind⟩ := Stmt.pruned_of_undecided g wholeChain hr h.2
    have hleft : (seat.left g wholeChain).2 = t := by rw [Seat.left, ht]; rfl
    rw [hleft]
    exact ⟨hr, h.2, hkind⟩

/-- The seats of what is left of a statement, where it stands. -/
def remainingSeats (scope : Nat) (around : List (Conditional × Part)) (slot : Slot) :
    Option Stmt → List Seat
  | some s => s.seats g scope around slot
  | none => if slot.position.isSingle then [⟨slot, scope, .removed, around⟩] else []

@[simp] theorem remainingSeats_some (scope : Nat) (around : List (Conditional × Part))
    (slot : Slot) (s : Stmt) :
    remainingSeats g scope around slot (some s) = s.seats g scope around slot := rfl

theorem remainingSeats_single (scope : Nat) (around : List (Conditional × Part)) (slot : Slot)
    (h : slot.position.isSingle) (s : Option Stmt) :
    remainingSeats g scope around slot s = (s.getD .removed).seats g scope around slot := by
  cases s <;> simp [remainingSeats, h]

theorem remainingSeats_alternate (scope : Nat) (around : List (Conditional × Part)) (slot : Slot)
    (h : slot.position = .alternate) (s : Option Stmt) :
    remainingSeats g scope around slot s = alternateSeats g scope around slot s := by
  cases s <;> simp [remainingSeats, h, Position.isSingle]

@[simp] theorem stmtsSeats_toList_append (scope : Nat) (around : List (Conditional × Part))
    (s : Option Stmt) (rest : List Stmt) : stmtsSeats g scope around (s.toList ++ rest) =
      remainingSeats g scope around (.plain .listed) s ++ stmtsSeats g scope around rest := by
  cases s <;> simp [remainingSeats, Slot.position, Position.isSingle]

theorem map_shown_remainingSeats_none (scope : Nat) (around : List (Conditional × Part))
    (slot : Slot) : (remainingSeats g scope around slot none).map Seat.shown =
      if slot.position.isSingle then [(slot.position, .removed)] else [] := by
  cases h : slot.position.isSingle <;> simp [remainingSeats, h, Seat.shown]

end Left

section Walk

variable (g : ScopeGraph) (wholeChain : Bool) (g' : ScopeGraph)

/-! The step for an `if` statement, from what is left of its parts. -/

section Conditional

variable {span : Span} {e : Expr} {s : Stmt} {a : Option Stmt} {scope : Nat}
  (he : ∀ around i l, leftOf g wholeChain (e.seats g scope around) =
    spared (anyDropped g wholeChain around)
      (((e.pruned g wholeChain scope).seats g' i l).map Seat.shown))
  (hs : ∀ around slot i l slot', slot'.position = slot.settled g wholeChain →
    leftOf g wholeChain (s.seats g scope around slot) = spared (anyDropped g wholeChain around)
      ((remainingSeats g' i l slot' (s.pruned g wholeChain scope)).map Seat.shown))
  (ha : ∀ around slot i l slot', slot'.position = slot.settled g wholeChain →
    leftOf g wholeChain (alternateSeats g scope around slot a) =
      spared (anyDropped g wholeChain around) ((a.elim [] fun t =>
        remainingSeats g' i l slot' (t.pruned g wholeChain scope)).map Seat.shown))
  {around : List (Conditional × Part)} {slot : Slot} (i : Nat) (l : List (Conditional × Part))
  {slot' : Slot} (h : slot'.position = slot.settled g wholeChain)

include he hs ha h

/-- A statement that is not decided stays, with what is left of its parts. -/
theorem left_seats_of_undecided (hv : g.verdict wholeChain scope span e = none) :
    leftOf g wholeChain ((Stmt.ifElse span e s a).seats g scope around slot) =
      spared (anyDropped g wholeChain around) ((remainingSeats g' i l slot'
        ((Stmt.ifElse span e s a).pruned g wholeChain scope)).map Seat.shown) := by
  let here : Conditional := ⟨scope, span, e, a.isSome⟩
  let here' : Conditional := ⟨i, span, e.pruned g wholeChain scope,
    (alternatePruned g wholeChain scope a).isSome⟩
  have hhere : here.verdict g wholeChain = none := hv
  have htest := he ((here, .test) :: around) i ((here', .test) :: l)
  have hconsequent := hs ((here, .consequent) :: around) (.branch .consequent here slot)
    i ((here', .consequent) :: l) (.branch .consequent here' slot')
    (by simp [Slot.position, Slot.settled, hhere])
  rw [remainingSeats_single g' i _ (.branch .consequent here' slot') rfl] at hconsequent
  have halternate := ha ((here, .alternate) :: around) (.branch .alternate here slot)
    i ((here', .alternate) :: l) (.branch .alternate here' slot')
    (by simp [Slot.position, Slot.settled, hhere])
  have helim : (a.elim [] fun t => remainingSeats g' i ((here', .alternate) :: l)
      (.branch .alternate here' slot') (t.pruned g wholeChain scope)) =
        alternateSeats g' i ((here', .alternate) :: l) (.branch .alternate here' slot')
          (alternatePruned g wholeChain scope a) := by
    cases a with
    | none => rfl
    | some t => exact remainingSeats_alternate g' i _ _ rfl _
  have hself : (Stmt.ifElse span e s a).verdict g wholeChain scope = none := hv
  rw [Stmt.seats, leftOf_cons_of_undecided g wholeChain rfl hself, leftOf_append, leftOf_append,
    htest, hconsequent, halternate, helim]
  simp [Stmt.pruned, hv, hhere, Part.isDropped, Seat.shown, h, here']

/-- If the test is true, what is left of the consequent takes its place. -/
theorem left_seats_of_true (hv : g.verdict wholeChain scope span e = some true) :
    leftOf g wholeChain ((Stmt.ifElse span e s a).seats g scope around slot) =
      spared (anyDropped g wholeChain around) ((remainingSeats g' i l slot'
        ((Stmt.ifElse span e s a).pruned g wholeChain scope)).map Seat.shown) := by
  let here : Conditional := ⟨scope, span, e, a.isSome⟩
  have hhere : here.verdict g wholeChain = some true := hv
  have hsettled : ∀ position, slot'.position =
      Slot.settled g wholeChain (.branch position here slot) := by simp [Slot.settled, hhere, h]
  have htest : leftOf g wholeChain (e.seats g scope ((here, .test) :: around)) = [] := by
    rw [he _ i l, anyDropped_cons, hhere]; rfl
  have halternate : leftOf g wholeChain (alternateSeats g scope ((here, .alternate) :: around)
      (.branch .alternate here slot) a) = [] := by
    rw [ha _ _ i l slot' (hsettled _), anyDropped_cons, hhere]; rfl
  have hcleared : (Stmt.ifElse span e s a).isCleared g wholeChain scope = false := by
    cases a <;> simp [Stmt.isCleared, hv]
  rw [Stmt.seats, leftOf_cons_of_decided g wholeChain rfl hcleared (by simp [Stmt.verdict, hv]),
    leftOf_append, leftOf_append, htest, halternate, hs _ _ i l slot' (hsettled _), anyDropped_cons,
    hhere, List.nil_append, List.append_nil, Stmt.pruned, hv]
  rfl

/-- If the test is false, what is left of the alternate does; without an alternate it is
as if the statement had been removed. -/
theorem left_seats_of_false (hv : g.verdict wholeChain scope span e = some false) :
    leftOf g wholeChain ((Stmt.ifElse span e s a).seats g scope around slot) =
      spared (anyDropped g wholeChain around) ((remainingSeats g' i l slot'
        ((Stmt.ifElse span e s a).pruned g wholeChain scope)).map Seat.shown) := by
  let here : Conditional := ⟨scope, span, e, a.isSome⟩
  have hhere : here.verdict g wholeChain = some false := hv
  have hsettled : ∀ position, slot'.position =
      Slot.settled g wholeChain (.branch position here slot) := by simp [Slot.settled, hhere, h]
  have htest : leftOf g wholeChain (e.seats g scope ((here, .test) :: around)) = [] := by
    rw [he _ i l, anyDropped_cons, hhere]; rfl
  have hconsequent : leftOf g wholeChain (s.seats g scope ((here, .consequent) :: around)
      (.branch .consequent here slot)) = [] := by
    rw [hs _ _ i l slot' (hsettled _), anyDropped_cons, hhere]; rfl
  have hpruned : (Stmt.ifElse span e s a).pruned g wholeChain scope =
      alternatePruned g wholeChain scope a := by rw [Stmt.pruned, hv]
  cases a with
  | none =>
    rw [Stmt.seats, leftOf_cons_of_cleared g wholeChain (by simp [Stmt.isCleared, hv]),
      leftOf_append, leftOf_append, htest, hconsequent, alternateSeats, hpruned, alternatePruned,
      map_shown_remainingSeats_none, h]
    simp
  | some t =>
    rw [Stmt.seats, leftOf_cons_of_decided g wholeChain rfl rfl (by simp [Stmt.verdict, hv]),
      leftOf_append, leftOf_append, htest, hconsequent, ha _ _ i l slot' (hsettled _),
      anyDropped_cons, hhere, hpruned, List.nil_append, List.nil_append]
    rfl

end Conditional

mutual

theorem Expr.left_seats : ∀ (e : Expr) (scope : Nat) (around : List (Conditional × Part))
    (scope' : Nat) (around' : List (Conditional × Part)),
    leftOf g wholeChain (e.seats g scope around) = spared (anyDropped g wholeChain around)
      (((e.pruned g wholeChain scope).seats g' scope' around').map Seat.shown)
  | .absent, _, _, _, _ | .literal _, _, _, _, _ | .ident _, _, _, _, _ => by simp [Expr.pruned]
  | .paren e, _, _, i, l | .unary _ e, _, _, i, l | .member e _, _, _, i, l
  | .spread e, _, _, i, l => by
    simp [Expr.pruned, e.left_seats _ _ i l]
  | .binary _ a b, _, _, i, l | .assign _ a b, _, _, i, l | .index a b, _, _, i, l
  | .withDefault a b, _, _, i, l => by
    simp [Expr.pruned, a.left_seats _ _ i l, b.left_seats _ _ i l]
  | .cond a b c, _, _, i, l => by
    simp [Expr.pruned, a.left_seats _ _ i l, b.left_seats _ _ i l, c.left_seats _ _ i l]
  | .array es, _, _, i, l | .arrayPattern es, _, _, i, l | .other _ es, _, _, i, l => by
    simp [Expr.pruned, left_exprsSeats es _ _ i l]
  | .object ps, _, _, i, l | .objectPattern ps, _, _, i, l => by
    simp [Expr.pruned, left_propertiesSeats ps _ _ i l]
  | .closure c, _, _, i, l => by simp [Expr.pruned, c.left_seats _ _ i l]
  | .classExpr _ ps e, _, _, i, l => by
    simp [Expr.pruned, left_propertiesSeats ps _ _ i l, e.left_seats _ _ i l]

theorem left_exprsSeats : ∀ (es : List Expr) (scope : Nat) (around : List (Conditional × Part))
    (scope' : Nat) (around' : List (Conditional × Part)),
    leftOf g wholeChain (exprsSeats g scope around es) = spared (anyDropped g wholeChain around)
      ((exprsSeats g' scope' around' (exprsPruned g wholeChain scope es)).map Seat.shown)
  | [], _, _, _, _ => by simp [exprsPruned]
  | e :: rest, _, _, i, l => by
    simp [exprsPruned, e.left_seats _ _ i l, left_exprsSeats rest _ _ i l]

theorem Key.left_seats : ∀ (k : Key) (scope : Nat) (around : List (Conditional × Part))
    (scope' : Nat) (around' : List (Conditional × Part)),
    leftOf g wholeChain (k.seats g scope around) = spared (anyDropped g wholeChain around)
      (((k.pruned g wholeChain scope).seats g' scope' around').map Seat.shown)
  | .computed e, _, _, i, l => by simp [Key.pruned, e.left_seats _ _ i l]
  | .ident _, _, _, _, _ | .string _ _, _, _, _, _ | .number _ _, _, _, _, _
  | .bigint _ _, _, _, _, _ | .privateName _, _, _, _, _ => by simp [Key.pruned]

theorem Property.left_seats : ∀ (p : Property) (scope : Nat) (around : List (Conditional × Part))
    (scope' : Nat) (around' : List (Conditional × Part)),
    leftOf g wholeChain (p.seats g scope around) = spared (anyDropped g wholeChain around)
      (((p.pruned g wholeChain scope).seats g' scope' around').map Seat.shown)
  | .pair k e, _, _, i, l | .field _ k e, _, _, i, l => by
    simp [Property.pruned, k.left_seats _ _ i l, e.left_seats _ _ i l]
  | .shorthand _ e, _, _, i, l | .spread e, _, _, i, l => by
    simp [Property.pruned, e.left_seats _ _ i l]
  | .method _ _ k (.block head span params b), _, _, i, l => by
    let inner := g'.inside i ⟨head.boundary, span⟩
    simp [Property.pruned, k.left_seats _ _ (if head.holdsKey then inner else i) l,
      left_exprsSeats params _ _ inner l, b.left_seats _ _ inner l, inner]
  | .method _ _ k (.concise head span params e), _, _, i, l => by
    let inner := g'.inside i ⟨head.boundary, span⟩
    simp [Property.pruned, Closure.pruned, k.left_seats _ _ i l,
      left_exprsSeats params _ _ inner l, e.left_seats _ _ inner l, inner]
  | .staticBlock b, _, _, i, l => by simp [Property.pruned, b.left_seats _ _ i l]
  | .empty, _, _, _, _ => by simp [Property.pruned]

theorem left_propertiesSeats : ∀ (ps : List Property) (scope : Nat)
    (around : List (Conditional × Part)) (scope' : Nat) (around' : List (Conditional × Part)),
    leftOf g wholeChain (propertiesSeats g scope around ps) =
      spared (anyDropped g wholeChain around) ((propertiesSeats g' scope' around'
        (propertiesPruned g wholeChain scope ps)).map Seat.shown)
  | [], _, _, _, _ => by simp [propertiesPruned]
  | p :: rest, _, _, i, l => by
    simp [propertiesPruned, p.left_seats _ _ i l, left_propertiesSeats rest _ _ i l]

theorem Closure.left_seats : ∀ (c : Closure) (scope : Nat) (around : List (Conditional × Part))
    (scope' : Nat) (around' : List (Conditional × Part)),
    leftOf g wholeChain (c.seats g scope around) = spared (anyDropped g wholeChain around)
      (((c.pruned g wholeChain scope).seats g' scope' around').map Seat.shown)
  | .block head span params b, _, _, i, l => by
    let inner := g'.inside i ⟨head.boundary, span⟩
    simp [Closure.pruned, left_exprsSeats params _ _ inner l, b.left_seats _ _ inner l, inner]
  | .concise head span params e, _, _, i, l => by
    let inner := g'.inside i ⟨head.boundary, span⟩
    simp [Closure.pruned, left_exprsSeats params _ _ inner l, e.left_seats _ _ inner l, inner]

theorem Block.left_seats : ∀ (b : Block) (scope : Nat) (around : List (Conditional × Part))
    (scope' : Nat) (around' : List (Conditional × Part)),
    leftOf g wholeChain (b.seats g scope around) = spared (anyDropped g wholeChain around)
      (((b.pruned g wholeChain scope).seats g' scope' around').map Seat.shown)
  | .mk _ ss, _, _, i, l => by simp [Block.pruned, left_stmtsSeats ss _ _ i l]

theorem Declarator.left_seats : ∀ (d : Declarator) (scope : Nat)
    (around : List (Conditional × Part)) (scope' : Nat) (around' : List (Conditional × Part)),
    leftOf g wholeChain (d.seats g scope around) = spared (anyDropped g wholeChain around)
      (((d.pruned g wholeChain scope).seats g' scope' around').map Seat.shown)
  | .mk target init, _, _, i, l => by
    simp [Declarator.pruned, target.left_seats _ _ i l, init.left_seats _ _ i l]

theorem left_declaratorsSeats : ∀ (ds : List Declarator) (scope : Nat)
    (around : List (Conditional × Part)) (scope' : Nat) (around' : List (Conditional × Part)),
    leftOf g wholeChain (declaratorsSeats g scope around ds) =
      spared (anyDropped g wholeChain around) ((declaratorsSeats g' scope' around'
        (declaratorsPruned g wholeChain scope ds)).map Seat.shown)
  | [], _, _, _, _ => by simp [declaratorsPruned]
  | d :: rest, _, _, i, l => by
    simp [declaratorsPruned, d.left_seats _ _ i l, left_declaratorsSeats rest _ _ i l]

theorem Decl.left_seats : ∀ (d : Decl) (scope : Nat) (around : List (Conditional × Part))
    (scope' : Nat) (around' : List (Conditional × Part)),
    leftOf g wholeChain (d.seats g scope around) = spared (anyDropped g wholeChain around)
      (((d.pruned g wholeChain scope).seats g' scope' around').map Seat.shown)
  | .vars _ ds, _, _, i, l => by simp [Decl.pruned, left_declaratorsSeats ds _ _ i l]
  | .function _ c, _, _, i, l => by simp [Decl.pruned, c.left_seats _ _ i l]
  | .classDecl _ ps e, _, _, i, l => by
    simp [Decl.pruned, left_propertiesSeats ps _ _ i l, e.left_seats _ _ i l]

theorem LoopHead.left_seats : ∀ (h : LoopHead) (scope : Nat) (around : List (Conditional × Part))
    (scope' : Nat) (around' : List (Conditional × Part)),
    leftOf g wholeChain (h.seats g scope around) = spared (anyDropped g wholeChain around)
      (((h.pruned g wholeChain scope).seats g' scope' around').map Seat.shown)
  | .decl _ ds, _, _, i, l => by simp [LoopHead.pruned, left_declaratorsSeats ds _ _ i l]
  | .expr e, _, _, i, l => by simp [LoopHead.pruned, e.left_seats _ _ i l]

/-- What is left at the seats of a statement are the seats of what is left of it, if
that stands where the statement comes to stand. -/
theorem Stmt.left_seats : ∀ (s : Stmt) (scope : Nat) (around : List (Conditional × Part))
    (slot : Slot) (scope' : Nat) (around' : List (Conditional × Part)) (slot' : Slot),
    slot'.position = slot.settled g wholeChain →
    leftOf g wholeChain (s.seats g scope around slot) = spared (anyDropped g wholeChain around)
      ((remainingSeats g' scope' around' slot' (s.pruned g wholeChain scope)).map Seat.shown)
  | .removed, scope, around, slot, scope', around', slot', h => by
    rw [Stmt.seats, leftOf_cons_of_cleared g wholeChain rfl, Stmt.pruned,
      map_shown_remainingSeats_none, h, leftOf_nil, List.append_nil]
  | .empty, _, _, _, _, _, _, h | .exitTo _, _, _, _, _, _, _, h
  | .continueTo _, _, _, _, _, _, _, h | .debugger, _, _, _, _, _, _, h => by
    rw [Stmt.seats, leftOf_cons_of_undecided g wholeChain rfl rfl]
    simp [Stmt.pruned, Seat.shown, h]
  | .expr e, _, _, _, i, l, _, h | .ret e, _, _, _, i, l, _, h | .throw e, _, _, _, i, l, _, h => by
    rw [Stmt.seats, leftOf_cons_of_undecided g wholeChain rfl rfl]
    simp [Stmt.pruned, Seat.shown, h, e.left_seats _ _ i l]
  | .block b, _, _, _, i, l, _, h => by
    rw [Stmt.seats, leftOf_cons_of_undecided g wholeChain rfl rfl]
    simp [Stmt.pruned, Seat.shown, h, b.left_seats _ _ i l]
  | .decl d, _, _, _, i, l, _, h => by
    rw [Stmt.seats, leftOf_cons_of_undecided g wholeChain rfl rfl]
    simp [Stmt.pruned, Seat.shown, h, d.left_seats _ _ i l]
  | .ifElse span e s a, scope, _, _, i, l, _, h => by
    have he := e.left_seats scope
    have hs := s.left_seats scope
    have ha := left_alternateSeats a scope
    rcases hv : g.verdict wholeChain scope span e with _ | _ | _
    · exact left_seats_of_undecided g wholeChain g' he hs ha i l h hv
    · exact left_seats_of_false g wholeChain g' he hs ha i l h hv
    · exact left_seats_of_true g wholeChain g' he hs ha i l h hv
  | .whileLoop e s, _, _, _, i, l, _, h | .doWhile e s, _, _, _, i, l, _, h => by
    rw [Stmt.seats, leftOf_cons_of_undecided g wholeChain rfl rfl]
    simp [Stmt.pruned, Seat.shown, h, e.left_seats _ _ i l,
      s.left_seats _ _ (.plain .loopBody) i l (.plain .loopBody) rfl,
      remainingSeats_single g' i l (.plain .loopBody) rfl]
  | .forLoop _ head e u s, _, _, _, i, l, _, h => by
    rw [Stmt.seats, leftOf_cons_of_undecided g wholeChain rfl rfl]
    simp [Stmt.pruned, Seat.shown, h, head.left_seats _ _ i l,
      e.left_seats _ _ i l, u.left_seats _ _ i l,
      s.left_seats _ _ (.plain .loopBody) i l (.plain .loopBody) rfl,
      remainingSeats_single g' i l (.plain .loopBody) rfl]
  | .forEach _ _ head e s, _, _, _, i, l, _, h => by
    rw [Stmt.seats, leftOf_cons_of_undecided g wholeChain rfl rfl]
    simp [Stmt.pruned, Seat.shown, h, head.left_seats _ _ i l,
      e.left_seats _ _ i l, s.left_seats _ _ (.plain .loopBody) i l (.plain .loopBody) rfl,
      remainingSeats_single g' i l (.plain .loopBody) rfl]
  | .labeled _ s, _, _, _, i, l, _, h => by
    rw [Stmt.seats, leftOf_cons_of_undecided g wholeChain rfl rfl]
    simp [Stmt.pruned, Seat.shown, h,
      s.left_seats _ _ (.plain .labeledBody) i l (.plain .labeledBody) rfl,
      remainingSeats_single g' i l (.plain .labeledBody) rfl]
  | .withObject e s, _, _, _, i, l, _, h => by
    rw [Stmt.seats, leftOf_cons_of_undecided g wholeChain rfl rfl]
    simp [Stmt.pruned, Seat.shown, h, e.left_seats _ _ i l,
      s.left_seats _ _ (.plain .withBody) i l (.plain .withBody) rfl,
      remainingSeats_single g' i l (.plain .withBody) rfl]
  | .switch _ e cs, _, _, _, i, l, _, h => by
    rw [Stmt.seats, leftOf_cons_of_undecided g wholeChain rfl rfl]
    simp [Stmt.pruned, Seat.shown, h, e.left_seats _ _ i l,
      left_casesSeats cs _ _ i l]
  | .tryCatch b handler f, _, _, _, i, l, _, h => by
    rw [Stmt.seats, leftOf_cons_of_undecided g wholeChain rfl rfl]
    simp [Stmt.pruned, Seat.shown, h, b.left_seats _ _ i l,
      left_handlerSeats handler _ _ i l, left_finalizerSeats f _ _ i l]

theorem left_alternateSeats : ∀ (a : Option Stmt) (scope : Nat)
    (around : List (Conditional × Part)) (slot : Slot) (scope' : Nat)
    (around' : List (Conditional × Part)) (slot' : Slot),
    slot'.position = slot.settled g wholeChain →
    leftOf g wholeChain (alternateSeats g scope around slot a) =
      spared (anyDropped g wholeChain around) ((a.elim [] fun s =>
        remainingSeats g' scope' around' slot' (s.pruned g wholeChain scope)).map Seat.shown)
  | none, _, _, _, _, _, _, _ => by simp
  | some s, scope, around, slot, i, l, slot', h => s.left_seats scope around slot i l slot' h

theorem left_stmtsSeats : ∀ (ss : List Stmt) (scope : Nat) (around : List (Conditional × Part))
    (scope' : Nat) (around' : List (Conditional × Part)),
    leftOf g wholeChain (stmtsSeats g scope around ss) = spared (anyDropped g wholeChain around)
      ((stmtsSeats g' scope' around' (stmtsPruned g wholeChain scope ss)).map Seat.shown)
  | [], _, _, _, _ => by simp [stmtsPruned]
  | s :: rest, _, _, i, l => by
    simp [stmtsPruned, s.left_seats _ _ (.plain .listed) i l (.plain .listed) rfl,
      left_stmtsSeats rest _ _ i l]

theorem Case.left_seats : ∀ (c : Case) (scope : Nat) (around : List (Conditional × Part))
    (scope' : Nat) (around' : List (Conditional × Part)),
    leftOf g wholeChain (c.seats g scope around) = spared (anyDropped g wholeChain around)
      (((c.pruned g wholeChain scope).seats g' scope' around').map Seat.shown)
  | .mk none ss, _, _, i, l => by simp [Case.pruned, left_stmtsSeats ss _ _ i l]
  | .mk (some e) ss, _, _, i, l => by
    simp [Case.pruned, e.left_seats _ _ i l, left_stmtsSeats ss _ _ i l]

theorem left_casesSeats : ∀ (cs : List Case) (scope : Nat) (around : List (Conditional × Part))
    (scope' : Nat) (around' : List (Conditional × Part)),
    leftOf g wholeChain (casesSeats g scope around cs) = spared (anyDropped g wholeChain around)
      ((casesSeats g' scope' around' (casesPruned g wholeChain scope cs)).map Seat.shown)
  | [], _, _, _, _ => by simp [casesPruned]
  | c :: rest, _, _, i, l => by
    simp [casesPruned, c.left_seats _ _ i l, left_casesSeats rest _ _ i l]

theorem left_handlerSeats : ∀ (h : Option Handler) (scope : Nat)
    (around : List (Conditional × Part)) (scope' : Nat) (around' : List (Conditional × Part)),
    leftOf g wholeChain (handlerSeats g scope around h) = spared (anyDropped g wholeChain around)
      ((handlerSeats g' scope' around' (handlerPruned g wholeChain scope h)).map Seat.shown)
  | none, _, _, _, _ => by simp [handlerPruned]
  | some (.mk _ e b), _, _, i, l => by
    simp [handlerPruned, e.left_seats _ _ i l, b.left_seats _ _ i l]

theorem left_finalizerSeats : ∀ (b : Option Block) (scope : Nat)
    (around : List (Conditional × Part)) (scope' : Nat) (around' : List (Conditional × Part)),
    leftOf g wholeChain (finalizerSeats g scope around b) =
      spared (anyDropped g wholeChain around)
        ((finalizerSeats g' scope' around' (finalizerPruned g wholeChain scope b)).map Seat.shown)
  | none, _, _, _, _ => by simp [finalizerPruned]
  | some b, _, _, i, l => by simp [finalizerPruned, b.left_seats _ _ i l]

end

theorem itemsSeats_append (scope : Nat) (around : List (Conditional × Part)) (l l' : List Item) :
    itemsSeats g scope around (l ++ l') =
      itemsSeats g scope around l ++ itemsSeats g scope around l' := by
  induction l with
  | nil => rfl
  | cons i rest ih => rw [List.cons_append, itemsSeats, itemsSeats, ih, List.append_assoc]

theorem itemsSeats_map_stmt (scope : Nat) (around : List (Conditional × Part)) (s : Option Stmt) :
    itemsSeats g scope around (s.map Item.stmt).toList =
      remainingSeats g scope around (.plain .listed) s := by
  cases s <;> simp [remainingSeats, Slot.position, Position.isSingle]

theorem Item.left_seats (i : Item) (scope : Nat) (around : List (Conditional × Part))
    (scope' : Nat) (around' : List (Conditional × Part)) :
    leftOf g wholeChain (i.seats g scope around) = spared (anyDropped g wholeChain around)
      ((itemsSeats g' scope' around' (i.pruned g wholeChain scope).toList).map Seat.shown) := by
  cases i with
  | stmt s =>
    rw [Item.seats, Item.pruned, itemsSeats_map_stmt]
    exact s.left_seats g wholeChain g' scope around _ scope' around' _ rfl
  | importNames _ _ => simp [Item.pruned]
  | exportNames _ _ => simp [Item.pruned]
  | exportAll _ => simp [Item.pruned]
  | exportDecl d => simp [Item.pruned, d.left_seats g wholeChain g' _ _ scope' around']
  | exportDefault _ e => simp [Item.pruned, e.left_seats g wholeChain g' _ _ scope' around']

theorem left_itemsSeats (scope : Nat) (around : List (Conditional × Part)) (scope' : Nat)
    (around' : List (Conditional × Part)) : ∀ is : List Item,
    leftOf g wholeChain (itemsSeats g scope around is) = spared (anyDropped g wholeChain around)
      ((itemsSeats g' scope' around' (itemsPruned g wholeChain scope is)).map Seat.shown)
  | [] => by simp [itemsPruned]
  | i :: rest => by
    rw [itemsSeats, leftOf_append, i.left_seats g wholeChain g' _ _ scope' around',
      left_itemsSeats scope around scope' around' rest, spared_append_spared, itemsPruned,
      itemsSeats_append, List.map_append]

end Walk

/-- Position by position, a pruned program has what is left at the seats of the
program. -/
theorem Program.left_seats (wholeChain : Bool) (p : Program) :
    (p.pruned wholeChain).seats.map Seat.shown = leftOf (.ofProgram p) wholeChain p.seats :=
  (left_itemsSeats (.ofProgram p) wholeChain (.ofProgram (p.pruned wholeChain)) 0 [] 0 []
    p.items).symm

end DeadBranch
