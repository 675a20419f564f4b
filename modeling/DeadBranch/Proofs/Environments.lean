/-
# The environments that names are looked up in

The language looks a name up in the environments around the place where it is
written, from the innermost outwards: blocks, the variables of a function, its
parameters, the own name of a function or class expression, and at last the
program. No position in the text plays a part in this. Here the environments are
found by going through the tree of a program, and independently of the scopes
that are collected from it.

A `Region` is what is left of a tree for this purpose. It tells apart what an
`Outline` does not: the own names of expressions, the key, the parameters and the
body of a function, the subject of a `switch`, and static blocks, which keep
their `var` names to themselves. Without these it is the outline
(`Program.region_fits`).

In sloppy code a function that is declared in a block is a name of the block and
of the function around it. It counts as both here.

Key definitions: `Environment`, `resolve`, `Region`, `Program.region`,
`Region.spots`, `Program.spots`.
Key theorems: `Program.region_fits`, `Region.Inherited.spots`.
-/
import DeadBranch.Proofs.Collected
import DeadBranch.Proofs.Hoisting

namespace DeadBranch

/-! ### Environments -/

/-- What makes a name known. -/
inductive Construct where
  | variable (kind : VarKind)
  | parameter
  | function
  | classDecl
  | caught
  | imported
  /-- The own name of a function or class expression. -/
  | ownName
  | defaultExport
deriving DecidableEq

/-- A name and what makes it known. -/
structure Declared where
  name : String
  construct : Construct
deriving DecidableEq

/-- The names of one environment, the function that it belongs to and, for a
block, the range of the block. -/
structure Environment where
  function : Nat
  range : Option Span
  names : List Declared
deriving DecidableEq

/-- Does it have a name? -/
def Environment.declares (e : Environment) (name : String) : Bool := e.names.any (·.name == name)

/-- The environments from the first one on that has a name. -/
def lookupFrom (chain : List Environment) (name : String) : List Environment :=
  chain.dropWhile (!·.declares name)

/-- What a name refers to, given the environments around, the innermost first. -/
def resolve (chain : List Environment) (name : String) : Option Declared :=
  (lookupFrom chain name).head?.bind (·.names.find? (·.name == name))

/-- The names that a declaration gives to the block around it. -/
def Declaration.lexical : Declaration → List Declared
  | .vars .varKind _ => []
  | .vars kind declarators =>
    (declarators.flatMap fun (.mk target _) => target.boundNames).map (⟨·, .variable kind⟩)
  | .function name => [⟨name, .function⟩]
  | .classDecl name => [⟨name, .classDecl⟩]
  | .caught pattern => pattern.boundNames.map (⟨·, .caught⟩)
  | .imports names => names.map (⟨·, .imported⟩)

/-- The names that a declaration gives to the function around it. -/
def Declaration.hoisted : Declaration → List Declared
  | .vars .varKind declarators =>
    (declarators.flatMap fun (.mk target _) => target.boundNames).map (⟨·, .variable .varKind⟩)
  | .function name => [⟨name, .function⟩]
  | _ => []

/-- The names of parameters. -/
def paramNames (params : List Expr) : List Declared :=
  (params.flatMap (·.boundNames)).map (⟨·, .parameter⟩)

/-! ### Regions -/

/-- What matters for the environments in a part of a program. -/
inductive Region where
  | blank
  /-- One part after the other. -/
  | both (first second : Region)
  /-- A function or class expression with its own name. -/
  | named (name : String) (inside : Region)
  /-- A function. A key that the walk visits inside the function is given
  first. -/
  | function (key : FunctionKey) (params : List Expr) (inKey inParams body : Region)
  /-- A block. The subject of a `switch` lies in the range, but the names of the
  block are not known there. -/
  | block (span : Span) (subject inside : Region)
  /-- The static block of a class. -/
  | staticBlock (span : Span) (inside : Region)
  | declare (d : Declaration)
  /-- An `if` statement. -/
  | choice (span : Span) (test : Expr) (hasAlternate : Bool)
      (inTest consequent alternate : Region)

namespace Region

/-- An expression with its own name, if it has one. -/
def called (name : Option String) (r : Region) : Region :=
  match name with
  | some name => .named name r
  | none => r

/-- The outline of a region. -/
def outline : Region → Outline
  | .blank => .blank
  | .both first second => first.outline.andThen second.outline
  | .named _ inside => inside.outline
  | .function key params inKey inParams body =>
    .scope key params (inKey.outline.andThen (inParams.outline.andThen body.outline))
  | .block span subject inside => .block span (subject.outline.andThen inside.outline)
  | .staticBlock span inside => .block span inside.outline
  | .declare d => .declare d
  | .choice span test hasAlternate inTest consequent alternate =>
    .choice span test hasAlternate inTest.outline consequent.outline alternate.outline

/-- How many functions a region has. -/
def count (r : Region) : Nat := r.outline.count

/-- The names that a region gives to the block around it. -/
def direct : Region → List Declared
  | .blank | .named _ _ | .function _ _ _ _ _ | .block _ _ _ | .staticBlock _ _ => []
  | .both first second => first.direct ++ second.direct
  | .declare d => d.lexical
  | .choice _ _ _ inTest consequent alternate =>
    inTest.direct ++ consequent.direct ++ alternate.direct

/-- The names that a region gives to the function around it. -/
def hoisted : Region → List Declared
  | .blank | .named _ _ | .function _ _ _ _ _ | .staticBlock _ _ => []
  | .both first second => first.hoisted ++ second.hoisted
  | .block _ subject inside => subject.hoisted ++ inside.hoisted
  | .declare d => d.hoisted
  | .choice _ _ _ inTest consequent alternate =>
    inTest.hoisted ++ consequent.hoisted ++ alternate.hoisted

end Region

mutual

/-- The region of an expression or pattern. -/
def Expr.region : Expr → Region
  | .absent | .literal _ | .ident _ => .blank
  | .paren inner => inner.region
  | .unary _ operand => operand.region
  | .binary _ left right => .both left.region right.region
  | .cond test consequent alternate => .both test.region (.both consequent.region alternate.region)
  | .assign _ target value => .both target.region value.region
  | .member base _ => base.region
  | .index base key => .both base.region key.region
  | .array elements => exprsRegion elements
  | .object properties => propertiesRegion properties
  | .spread operand => operand.region
  | .arrayPattern elements => exprsRegion elements
  | .objectPattern properties => propertiesRegion properties
  | .withDefault target fallback => .both target.region fallback.region
  | .closure body => .called body.name? body.region
  | .classExpr name members parent => .called name (.both (propertiesRegion members) parent.region)
  | .other _ parts => exprsRegion parts

/-- The region of expressions. -/
def exprsRegion : List Expr → Region
  | [] => .blank
  | e :: rest => .both e.region (exprsRegion rest)

/-- The region of a key. -/
def Key.region : Key → Region
  | .computed key => key.region
  | _ => .blank

/-- The region of a property or class member. -/
def Property.region : Property → Region
  | .pair key value => .both key.region value.region
  | .shorthand _ fallback => fallback.region
  | .spread operand => operand.region
  | .method _ _ key (.block head span params body) =>
    if head.holdsKey then
      .function ⟨head.boundary, span⟩ params key.region (exprsRegion params) body.region
    else
      .both key.region
        (.function ⟨head.boundary, span⟩ params .blank (exprsRegion params) body.region)
  | .method _ _ key body => .both key.region body.region
  | .field _ key value => .both key.region value.region
  | .staticBlock (.mk span stmts) => .staticBlock span (stmtsRegion stmts)
  | .empty => .blank

/-- The region of properties. -/
def propertiesRegion : List Property → Region
  | [] => .blank
  | p :: rest => .both p.region (propertiesRegion rest)

/-- The region of a function, without its own name. -/
def Closure.region : Closure → Region
  | .block head span params body =>
    .function ⟨head.boundary, span⟩ params .blank (exprsRegion params) body.region
  | .concise head span params result =>
    .function ⟨head.boundary, span⟩ params .blank (exprsRegion params) result.region

/-- The region of a block. -/
def Block.region : Block → Region
  | .mk span stmts => .block span .blank (stmtsRegion stmts)

/-- The region of a declared variable. -/
def Declarator.region : Declarator → Region
  | .mk target init => .both target.region init.region

/-- The region of declared variables. -/
def declaratorsRegion : List Declarator → Region
  | [] => .blank
  | d :: rest => .both d.region (declaratorsRegion rest)

/-- The region of a declaration. -/
def Decl.region : Decl → Region
  | .vars kind declarators =>
    .both (.declare (.vars kind declarators)) (declaratorsRegion declarators)
  | .function name body => .both (.declare (.function name)) body.region
  | .classDecl name members parent =>
    .both (.declare (.classDecl name)) (.both (propertiesRegion members) parent.region)

/-- The region of what a loop starts with. -/
def LoopHead.region : LoopHead → Region
  | .decl kind declarators =>
    .both (.declare (.vars kind declarators)) (declaratorsRegion declarators)
  | .expr e => e.region

/-- The region of a statement. -/
def Stmt.region : Stmt → Region
  | .empty | .removed | .exitTo _ | .continueTo _ | .debugger => .blank
  | .expr e => e.region
  | .block body => body.region
  | .decl d => d.region
  | .ifElse span test consequent alternate =>
    .choice span test alternate.isSome test.region consequent.region (alternateRegion alternate)
  | .whileLoop test body => .both test.region body.region
  | .doWhile test body => .both test.region body.region
  | .forLoop span head test update body =>
    .block span .blank (.both head.region (.both test.region (.both update.region body.region)))
  | .forEach span _ head subject body =>
    .block span .blank (.both head.region (.both subject.region body.region))
  | .labeled _ body => body.region
  | .withObject object body => .both object.region body.region
  | .switch span subject cases => .block span subject.region (casesRegion cases)
  | .tryCatch body handler finalizer =>
    .both body.region (.both (handlerRegion handler) (finalizerRegion finalizer))
  | .ret value => value.region
  | .throw value => value.region

/-- The region of what follows `else`. -/
def alternateRegion : Option Stmt → Region
  | none => .blank
  | some s => s.region

/-- The region of statements. -/
def stmtsRegion : List Stmt → Region
  | [] => .blank
  | s :: rest => .both s.region (stmtsRegion rest)

/-- The region of a case. -/
def Case.region : Case → Region
  | .mk none body => stmtsRegion body
  | .mk (some test) body => .both test.region (stmtsRegion body)

/-- The region of cases. -/
def casesRegion : List Case → Region
  | [] => .blank
  | c :: rest => .both c.region (casesRegion rest)

/-- The region of a catch clause. -/
def handlerRegion : Option Handler → Region
  | none => .blank
  | some (.mk span param body) =>
    .block span .blank (.both (.declare (.caught param)) (.both param.region body.region))

/-- The region of a final block. -/
def finalizerRegion : Option Block → Region
  | none => .blank
  | some body => body.region

end

/-- The region of an item of a program. A function or class that is exported as
the default by a declaration has no environment for its own name. -/
def Item.region : Item → Region
  | .stmt s => s.region
  | .importNames names _ => .declare (.imports (names.map ImportName.bound))
  | .exportNames _ _ | .exportAll _ => .blank
  | .exportDecl d => d.region
  | .exportDefault true (.closure body) => body.region
  | .exportDefault true (.classExpr _ members parent) =>
    .both (propertiesRegion members) parent.region
  | .exportDefault _ e => e.region

/-- The name that an item declares by exporting a function or class as the
default. -/
def Item.exportedName? : Item → Option String
  | .exportDefault true (.closure body) => body.name?
  | .exportDefault true (.classExpr name _ _) => name
  | _ => none

/-- The region of the items of a program. -/
def itemsRegion : List Item → Region
  | [] => .blank
  | i :: rest => .both i.region (itemsRegion rest)

/-- The region of a program. -/
def Program.region (p : Program) : Region := itemsRegion p.items

/-- The environment of a program. -/
def Program.environment (p : Program) : Environment :=
  ⟨0, none, p.region.direct ++ p.region.hoisted ++
    (p.items.filterMap Item.exportedName?).map (⟨·, .defaultExport⟩)⟩

/-! ### Regions agree with outlines -/

/-- Declarations stand where they can: not in keys, parameters and subjects, nor
in an expression, and in the body of a function only in its block. -/
def Region.Regular : Region → Prop
  | .blank | .declare _ => True
  | .both first second => first.Regular ∧ second.Regular
  | .named _ inside => inside.Regular ∧ inside.direct = []
  | .function _ _ inKey inParams body =>
    (inKey.Regular ∧ inKey.direct = []) ∧ (inParams.Regular ∧ inParams.direct = []) ∧
      body.Regular ∧ body.direct = []
  | .block _ subject inside => (subject.Regular ∧ subject.direct = []) ∧ inside.Regular
  | .staticBlock _ inside => inside.Regular
  | .choice _ _ _ inTest consequent alternate =>
    inTest.Regular ∧ consequent.Regular ∧ alternate.Regular

/-- A regular region has an outline. -/
structure Region.Fits (r : Region) (o : Outline) : Prop where
  outline : r.outline = o
  regular : r.Regular

/-- It does, and it declares no name directly. -/
structure Region.FitsClosed (r : Region) (o : Outline) : Prop extends r.Fits o where
  closed : r.direct = []

namespace Region

variable {r r' : Region} {o o' : Outline}

theorem fitsClosed_blank : FitsClosed .blank .blank := ⟨⟨rfl, trivial⟩, rfl⟩

theorem fits_declare (d : Declaration) : Fits (.declare d) (.declare d) := ⟨rfl, trivial⟩

theorem Fits.both (h : r.Fits o) (h' : r'.Fits o') : Fits (.both r r') (o.andThen o') :=
  ⟨by simp only [Region.outline, h.outline, h'.outline], h.regular, h'.regular⟩

theorem FitsClosed.both (h : r.FitsClosed o) (h' : r'.FitsClosed o') :
    FitsClosed (.both r r') (o.andThen o') :=
  ⟨h.toFits.both h'.toFits, by simp [direct, h.closed, h'.closed]⟩

theorem FitsClosed.called (h : r.FitsClosed o) (name : Option String) :
    FitsClosed (.called name r) o := by
  cases name with
  | none => exact h
  | some name => exact ⟨⟨h.outline, h.regular, h.closed⟩, rfl⟩

theorem FitsClosed.function {inKey inParams body : Region} {oKey oParams oBody : Outline}
    (hkey : inKey.FitsClosed oKey) (hparams : inParams.FitsClosed oParams)
    (hbody : body.FitsClosed oBody) (key : FunctionKey) (params : List Expr) :
    FitsClosed (.function key params inKey inParams body)
      (.scope key params (oKey.andThen (oParams.andThen oBody))) :=
  ⟨⟨by simp only [Region.outline, hkey.outline, hparams.outline, hbody.outline],
    ⟨hkey.regular, hkey.closed⟩, ⟨hparams.regular, hparams.closed⟩, hbody.regular,
    hbody.closed⟩, rfl⟩

theorem FitsClosed.block (hsubject : r.FitsClosed o) (h : r'.Fits o') (span : Span) :
    FitsClosed (.block span r r') (.block span (o.andThen o')) :=
  ⟨⟨by simp only [Region.outline, hsubject.outline, h.outline],
    ⟨hsubject.regular, hsubject.closed⟩, h.regular⟩, rfl⟩

theorem Fits.block (h : r.Fits o) (span : Span) :
    FitsClosed (.block span .blank r) (.block span o) := by
  have hblock := fitsClosed_blank.block h span
  rwa [Outline.blank_andThen] at hblock

theorem FitsClosed.call {inParams body : Region} {oParams oBody : Outline}
    (hparams : inParams.FitsClosed oParams) (hbody : body.FitsClosed oBody) (key : FunctionKey)
    (params : List Expr) :
    FitsClosed (.function key params .blank inParams body)
      (.scope key params (oParams.andThen oBody)) := by
  have hfunction := fitsClosed_blank.function hparams hbody key params
  rwa [Outline.blank_andThen] at hfunction

end Region

mutual

theorem Expr.region_fits : ∀ e : Expr, e.region.FitsClosed e.outline
  | .absent | .literal _ | .ident _ => by
    simp only [Expr.region, Expr.outline]
    exact Region.fitsClosed_blank
  | .paren e | .unary _ e | .member e _ | .spread e => by
    simp only [Expr.region, Expr.outline]
    exact e.region_fits
  | .binary _ e e' | .assign _ e e' | .index e e' | .withDefault e e' => by
    simp only [Expr.region, Expr.outline]
    exact e.region_fits.both e'.region_fits
  | .cond test consequent alternate => by
    simp only [Expr.region, Expr.outline]
    exact test.region_fits.both (consequent.region_fits.both alternate.region_fits)
  | .array es | .arrayPattern es | .other _ es => by
    simp only [Expr.region, Expr.outline]
    exact exprsRegion_fits es
  | .object ps | .objectPattern ps => by
    simp only [Expr.region, Expr.outline]
    exact propertiesRegion_fits ps
  | .closure body => by
    simp only [Expr.region, Expr.outline]
    exact body.region_fits.called _
  | .classExpr name members parent => by
    simp only [Expr.region, Expr.outline]
    exact ((propertiesRegion_fits members).both parent.region_fits).called name

theorem exprsRegion_fits : ∀ es : List Expr, (exprsRegion es).FitsClosed (exprsOutline es)
  | [] => by
    simp only [exprsRegion, exprsOutline]
    exact Region.fitsClosed_blank
  | e :: rest => by
    simp only [exprsRegion, exprsOutline]
    exact e.region_fits.both (exprsRegion_fits rest)

theorem Key.region_fits : ∀ k : Key, k.region.FitsClosed k.outline
  | .computed key => by
    simp only [Key.region, Key.outline]
    exact key.region_fits
  | .ident _ | .string _ _ | .number _ _ | .bigint _ _ | .privateName _ => by
    simp only [Key.region, Key.outline]
    exact Region.fitsClosed_blank

theorem Property.region_fits : ∀ p : Property, p.region.FitsClosed p.outline
  | .pair key value | .field _ key value => by
    simp only [Property.region, Property.outline]
    exact key.region_fits.both value.region_fits
  | .shorthand _ e | .spread e => by
    simp only [Property.region, Property.outline]
    exact e.region_fits
  | .method _ _ key (.block head span params body) => by
    simp only [Property.region, Property.outline]
    split
    · exact key.region_fits.function (exprsRegion_fits params) body.region_fits _ params
    · exact key.region_fits.both ((exprsRegion_fits params).call body.region_fits _ params)
  | .method _ _ key (.concise head span params result) => by
    simp only [Property.region, Property.outline]
    exact key.region_fits.both (Closure.region_fits _)
  | .staticBlock (.mk span stmts) => by
    simp only [Property.region, Property.outline, Block.outline]
    have h := stmtsRegion_fits stmts
    exact ⟨⟨congrArg _ h.outline, h.regular⟩, rfl⟩
  | .empty => by
    simp only [Property.region, Property.outline]
    exact Region.fitsClosed_blank

theorem propertiesRegion_fits :
    ∀ ps : List Property, (propertiesRegion ps).FitsClosed (propertiesOutline ps)
  | [] => by
    simp only [propertiesRegion, propertiesOutline]
    exact Region.fitsClosed_blank
  | p :: rest => by
    simp only [propertiesRegion, propertiesOutline]
    exact p.region_fits.both (propertiesRegion_fits rest)

theorem Closure.region_fits : ∀ c : Closure, c.region.FitsClosed c.outline
  | .block head span params body => by
    simp only [Closure.region, Closure.outline]
    exact (exprsRegion_fits params).call body.region_fits _ params
  | .concise head span params result => by
    simp only [Closure.region, Closure.outline]
    exact (exprsRegion_fits params).call result.region_fits _ params

theorem Block.region_fits : ∀ b : Block, b.region.FitsClosed b.outline
  | .mk span stmts => by
    simp only [Block.region, Block.outline]
    exact (stmtsRegion_fits stmts).block span

theorem Declarator.region_fits : ∀ d : Declarator, d.region.FitsClosed d.outline
  | .mk target init => by
    simp only [Declarator.region, Declarator.outline]
    exact target.region_fits.both init.region_fits

theorem declaratorsRegion_fits :
    ∀ ds : List Declarator, (declaratorsRegion ds).FitsClosed (declaratorsOutline ds)
  | [] => by
    simp only [declaratorsRegion, declaratorsOutline]
    exact Region.fitsClosed_blank
  | d :: rest => by
    simp only [declaratorsRegion, declaratorsOutline]
    exact d.region_fits.both (declaratorsRegion_fits rest)

theorem Decl.region_fits : ∀ d : Decl, d.region.Fits d.outline
  | .vars kind declarators => by
    simp only [Decl.region, Decl.outline]
    exact (Region.fits_declare _).both (declaratorsRegion_fits declarators).toFits
  | .function name body => by
    simp only [Decl.region, Decl.outline]
    exact (Region.fits_declare _).both body.region_fits.toFits
  | .classDecl name members parent => by
    simp only [Decl.region, Decl.outline]
    exact (Region.fits_declare _).both
      ((propertiesRegion_fits members).both parent.region_fits).toFits

theorem LoopHead.region_fits : ∀ h : LoopHead, h.region.Fits h.outline
  | .decl kind declarators => by
    simp only [LoopHead.region, LoopHead.outline]
    exact (Region.fits_declare _).both (declaratorsRegion_fits declarators).toFits
  | .expr e => by
    simp only [LoopHead.region, LoopHead.outline]
    exact e.region_fits.toFits

theorem Stmt.region_fits : ∀ s : Stmt, s.region.Fits s.outline
  | .empty | .removed | .exitTo _ | .continueTo _ | .debugger => by
    simp only [Stmt.region, Stmt.outline]
    exact Region.fitsClosed_blank.toFits
  | .expr e | .ret e | .throw e => by
    simp only [Stmt.region, Stmt.outline]
    exact e.region_fits.toFits
  | .block body => by
    simp only [Stmt.region, Stmt.outline]
    exact body.region_fits.toFits
  | .decl d => by
    simp only [Stmt.region, Stmt.outline]
    exact d.region_fits
  | .ifElse span test consequent alternate => by
    have htest := test.region_fits
    have hconsequent := consequent.region_fits
    have halternate := alternateRegion_fits alternate
    simp only [Stmt.region, Stmt.outline]
    exact ⟨by simp only [Region.outline, htest.outline, hconsequent.outline, halternate.outline],
      htest.regular, hconsequent.regular, halternate.regular⟩
  | .whileLoop e body | .doWhile e body | .withObject e body => by
    simp only [Stmt.region, Stmt.outline]
    exact e.region_fits.toFits.both body.region_fits
  | .forLoop span head test update body => by
    simp only [Stmt.region, Stmt.outline]
    exact ((head.region_fits.both (test.region_fits.toFits.both
      (update.region_fits.toFits.both body.region_fits))).block span).toFits
  | .forEach span _ head subject body => by
    simp only [Stmt.region, Stmt.outline]
    exact ((head.region_fits.both (subject.region_fits.toFits.both body.region_fits)).block
      span).toFits
  | .labeled _ body => by
    simp only [Stmt.region, Stmt.outline]
    exact body.region_fits
  | .switch span subject cases => by
    simp only [Stmt.region, Stmt.outline]
    exact (subject.region_fits.block (casesRegion_fits cases) span).toFits
  | .tryCatch body handler finalizer => by
    simp only [Stmt.region, Stmt.outline]
    exact body.region_fits.toFits.both
      ((handlerRegion_fits handler).both (finalizerRegion_fits finalizer))

theorem alternateRegion_fits :
    ∀ a : Option Stmt, (alternateRegion a).Fits (alternateOutline a)
  | none => by
    simp only [alternateRegion, alternateOutline]
    exact Region.fitsClosed_blank.toFits
  | some s => by
    simp only [alternateRegion, alternateOutline]
    exact s.region_fits

theorem stmtsRegion_fits : ∀ ss : List Stmt, (stmtsRegion ss).Fits (stmtsOutline ss)
  | [] => by
    simp only [stmtsRegion, stmtsOutline]
    exact Region.fitsClosed_blank.toFits
  | s :: rest => by
    simp only [stmtsRegion, stmtsOutline]
    exact s.region_fits.both (stmtsRegion_fits rest)

theorem Case.region_fits : ∀ c : Case, c.region.Fits c.outline
  | .mk none body => by
    simp only [Case.region, Case.outline]
    exact stmtsRegion_fits body
  | .mk (some test) body => by
    simp only [Case.region, Case.outline]
    exact test.region_fits.toFits.both (stmtsRegion_fits body)

theorem casesRegion_fits : ∀ cs : List Case, (casesRegion cs).Fits (casesOutline cs)
  | [] => by
    simp only [casesRegion, casesOutline]
    exact Region.fitsClosed_blank.toFits
  | c :: rest => by
    simp only [casesRegion, casesOutline]
    exact c.region_fits.both (casesRegion_fits rest)

theorem handlerRegion_fits :
    ∀ h : Option Handler, (handlerRegion h).Fits (handlerOutline h)
  | none => by
    simp only [handlerRegion, handlerOutline]
    exact Region.fitsClosed_blank.toFits
  | some (.mk span param body) => by
    simp only [handlerRegion, handlerOutline]
    exact (((Region.fits_declare _).both
      (param.region_fits.both body.region_fits).toFits).block span).toFits

theorem finalizerRegion_fits :
    ∀ b : Option Block, (finalizerRegion b).Fits (finalizerOutline b)
  | none => by
    simp only [finalizerRegion, finalizerOutline]
    exact Region.fitsClosed_blank.toFits
  | some body => by
    simp only [finalizerRegion, finalizerOutline]
    exact body.region_fits.toFits

end

theorem Item.region_fits (i : Item) : i.region.Fits i.outline := by
  cases i with
  | stmt s => exact s.region_fits
  | importNames names source => exact Region.fits_declare _
  | exportNames names source => exact Region.fitsClosed_blank.toFits
  | exportAll source => exact Region.fitsClosed_blank.toFits
  | exportDecl d => exact d.region_fits
  | exportDefault isDecl e =>
    cases isDecl with
    | false => exact e.region_fits.toFits
    | true =>
      cases e with
      | closure body =>
        simp only [Item.region, Item.outline, Expr.outline]
        exact body.region_fits.toFits
      | classExpr name members parent =>
        simp only [Item.region, Item.outline, Expr.outline]
        exact ((propertiesRegion_fits members).both parent.region_fits).toFits
      | _ => exact (Expr.region_fits _).toFits

theorem itemsRegion_fits : ∀ is : List Item, (itemsRegion is).Fits (itemsOutline is)
  | [] => Region.fitsClosed_blank.toFits
  | i :: rest => i.region_fits.both (itemsRegion_fits rest)

/-- **Regions agree with outlines**: the region of a program is regular, and its
outline is that of the program. -/
theorem Program.region_fits (p : Program) : p.region.Fits p.outline := itemsRegion_fits p.items

/-! ### Where things are written -/

/-- Where something is written: the function, the innermost block of it, and the
environments around, the innermost first. -/
structure Setting where
  scope : Nat
  block : Option Span
  chain : List Environment

namespace Setting

/-- In an expression with its own name. -/
def called (here : Setting) (name : String) : Setting :=
  { here with chain := ⟨here.scope, none, [⟨name, .ownName⟩]⟩ :: here.chain }

/-- In the key of a function with a number. None of its names is known there. -/
def inKey (here : Setting) (id : Nat) : Setting := ⟨id, none, here.chain⟩

/-- In the parameters of a function. -/
def inParams (here : Setting) (id : Nat) (params : List Declared) : Setting :=
  ⟨id, none, ⟨id, none, params⟩ :: here.chain⟩

/-- In the body of a function. -/
def inBody (here : Setting) (id : Nat) (params hoisted : List Declared) : Setting :=
  ⟨id, none, ⟨id, none, hoisted⟩ :: ⟨id, none, params⟩ :: here.chain⟩

/-- In a block in which the given names are known. -/
def inBlock (here : Setting) (span : Span) (names : List Declared) : Setting :=
  ⟨here.scope, some span, ⟨here.scope, some span, names⟩ :: here.chain⟩

end Setting

/-- Something that names matter for. -/
inductive Happening where
  | declares (d : Declaration)
  /-- An `if` statement. -/
  | tests (span : Span) (test : Expr) (hasAlternate : Bool)

/-- Something that names matter for, and where it is written. -/
structure Spot where
  what : Happening
  setting : Setting

/-- The declarations and `if` statements of a region, in the order of the walk, if
its first function gets the number `next`. -/
def Region.spots (next : Nat) (here : Setting) : Region → List Spot
  | .blank => []
  | .both first second => first.spots next here ++ second.spots (next + first.count) here
  | .named name inside => inside.spots next (here.called name)
  | .function _ params inKey inParams body =>
    inKey.spots (next + 1) (here.inKey next) ++
      (inParams.spots (next + 1 + inKey.count) (here.inParams next (paramNames params)) ++
        body.spots (next + 1 + inKey.count + inParams.count)
          (here.inBody next (paramNames params) body.hoisted))
  | .block span subject inside =>
    subject.spots next (here.inBlock span []) ++
      inside.spots (next + subject.count) (here.inBlock span inside.direct)
  | .staticBlock span inside =>
    inside.spots next (here.inBlock span (inside.direct ++ inside.hoisted))
  | .declare d => [⟨.declares d, here⟩]
  | .choice span test hasAlternate inTest consequent alternate =>
    ⟨.tests span test hasAlternate, here⟩ ::
      (inTest.spots next here ++ (consequent.spots (next + inTest.count) here ++
        alternate.spots (next + inTest.count + consequent.count) here))

/-- Directly in a program. -/
def Program.setting (p : Program) : Setting := ⟨0, none, [p.environment]⟩

/-- The declarations and `if` statements of a program. -/
def Program.spots (p : Program) : List Spot := p.region.spots 1 p.setting

/-- What a region is directly. -/
def Region.what? : Region → Option Happening
  | .declare d => some (.declares d)
  | .choice span test hasAlternate _ _ _ => some (.tests span test hasAlternate)
  | _ => none

/-- A property of regions and where they are written that passes on to all parts. -/
structure Region.Inherited (inv : Region → Nat → Setting → Prop) : Prop where
  both : ∀ {first second next here}, inv (.both first second) next here →
    inv first next here ∧ inv second (next + first.count) here
  named : ∀ {name inside next here}, inv (.named name inside) next here →
    inv inside next (here.called name)
  function : ∀ {key params inKey inParams body next here},
    inv (.function key params inKey inParams body) next here →
    inv inKey (next + 1) (here.inKey next) ∧
      inv inParams (next + 1 + inKey.count) (here.inParams next (paramNames params)) ∧
      inv body (next + 1 + inKey.count + inParams.count)
        (here.inBody next (paramNames params) body.hoisted)
  block : ∀ {span subject inside next here}, inv (.block span subject inside) next here →
    inv subject next (here.inBlock span []) ∧
      inv inside (next + subject.count) (here.inBlock span inside.direct)
  staticBlock : ∀ {span inside next here}, inv (.staticBlock span inside) next here →
    inv inside next (here.inBlock span (inside.direct ++ inside.hoisted))
  choice : ∀ {span test hasAlternate inTest consequent alternate next here},
    inv (.choice span test hasAlternate inTest consequent alternate) next here →
    inv inTest next here ∧ inv consequent (next + inTest.count) here ∧
      inv alternate (next + inTest.count + consequent.count) here

/-- **What passes on to all parts holds at every spot.** -/
theorem Region.Inherited.spots {inv : Region → Nat → Setting → Prop} (h : Inherited inv)
    (r : Region) : ∀ {next : Nat} {here : Setting}, inv r next here →
      ∀ s ∈ r.spots next here, ∃ r' next', inv r' next' s.setting ∧ r'.what? = some s.what := by
  induction r with
  | blank => simp [Region.spots]
  | both first second ih1 ih2 =>
    intro next here hr
    obtain ⟨h1, h2⟩ := h.both hr
    exact List.forall_mem_append.mpr ⟨ih1 h1, ih2 h2⟩
  | named name inside ih => intro next here hr; exact ih (h.named hr)
  | function key params inKey inParams body ihk ihp ihb =>
    intro next here hr
    obtain ⟨hk, hp, hb⟩ := h.function hr
    exact List.forall_mem_append.mpr ⟨ihk hk, List.forall_mem_append.mpr ⟨ihp hp, ihb hb⟩⟩
  | block span subject inside ihs ihi =>
    intro next here hr
    obtain ⟨hs, hi⟩ := h.block hr
    exact List.forall_mem_append.mpr ⟨ihs hs, ihi hi⟩
  | staticBlock span inside ih => intro next here hr; exact ih (h.staticBlock hr)
  | declare d =>
    intro next here hr
    exact List.forall_mem_singleton.mpr ⟨.declare d, next, hr, rfl⟩
  | choice span test hasAlternate inTest consequent alternate iht ihc iha =>
    intro next here hr
    obtain ⟨ht, hc, ha⟩ := h.choice hr
    refine List.forall_mem_cons.mpr ⟨⟨_, next, hr, rfl⟩, ?_⟩
    exact List.forall_mem_append.mpr ⟨iht ht, List.forall_mem_append.mpr ⟨ihc hc, iha ha⟩⟩

end DeadBranch
