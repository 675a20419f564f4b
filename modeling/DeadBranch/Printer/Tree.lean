/-
# Printing trees

Every form of the tree as pieces. Objects, arrays, classes and blocks take a
line for each entry; patterns, parameters and arguments stay on one line.
Statements end their line, except blocks.

Key definitions: `printExpr`, `printStmt`, `printProgram`, `Program.print`.
-/
import DeadBranch.Printer.Edges
import DeadBranch.Printer.Literal

namespace DeadBranch

/-- Is it `new` with an empty list of arguments? -/
def Expr.isBareNew : Expr → Bool
  | .other (.new true) [_] => true
  | _ => false

/-- Is there exactly one parameter, and is it a plain name? -/
def isPlainParam : List Expr → Bool
  | [.ident _] => true
  | _ => false

/-- Is the last entry a hole? -/
def endsInHole (elements : List Expr) : Bool := elements.getLast?.any Expr.isAbsent

/-- How many of the entries are left without the holes at their end. -/
def lengthWithoutHoles (elements : List Expr) : Nat :=
  (elements.reverse.dropWhile Expr.isAbsent).length

variable (st : Style)

/-- The parentheses that a minified `new` leaves out, where something follows
that would be taken for them. -/
def bareNewArguments (e : Expr) : Pieces := if st.minify && e.isBareNew then say "()" else []

/-- A point after an object, doubled after a whole number. -/
def memberPoint (object : Expr) : Pieces :=
  match object with
  | .literal (.number value raw) => say (if endsInWhole st value raw then ".." else ".")
  | _ => say "."

/-- A value after the sign that introduces it. -/
def printInit (value : Pieces) : Pieces := st.gap ++ say "=" ++ st.gap ++ value

/-- An operation, with its operands printed. -/
def printBinary (op : BinaryOp) (left right : Expr) (l r : Pieces) : Pieces :=
  let before := if op.isWord then left.endsWithWord else joinsArrow op left
  let after := if op.isWord then right.startsWithWord else joinsOperator op right
  l ++ st.gapIf before ++ say op.text ++ st.gapIf after ++ r

/-- The forms of expressions whose parts are printed. -/
def printForm (form : Form) (parts : List Expr) (printed : List Pieces) : Pieces :=
  let first := printed.headD []
  let rest := printed.tail
  let arguments := say "(" ++ st.commaList rest ++ say ")"
  let bare := bareNewArguments st (parts.headD .absent)
  match form with
  | .word text => say text
  | .privateName name => say ("#" ++ printName st name)
  | .privateMember name =>
    first ++ bare ++ memberPoint st (parts.headD .absent) ++ say "#" ++ say (printName st name)
  | .chainMember optional name =>
    first ++ bare ++ say (if optional then "?." else ".") ++ say (printName st name)
  | .chainPrivate optional name =>
    first ++ bare ++ say (if optional then "?.#" else ".#") ++ say (printName st name)
  | .chainIndex optional =>
    first ++ bare ++ say (if optional then "?.[" else "[") ++ rest.headD [] ++ say "]"
  | .chainCall optional => first ++ say (if optional then "?." else "") ++ arguments
  | .call => first ++ bare ++ arguments
  | .new hasArguments =>
    say "new" ++ st.gapIf ((parts.headD .absent).startsWithWord) ++ first
      ++ if hasArguments && !(st.minify && rest.isEmpty) then arguments else []
  | .sequence => st.commaList printed
  | .update op before => if before then say op ++ first else first ++ say op
  | .await => say "await" ++ space ++ first
  | .yield delegate =>
    say (if delegate then "yield*" else "yield") ++
      if printed.isEmpty then []
      else st.gapIf (!delegate && (parts.headD .absent).startsWithWord) ++ first
  | .template raws =>
    say "`" ++ printTemplate (raws.map (printTemplatePart st)) printed ++ say "`"
  | .tagged raws => first ++ bare ++ say "`" ++ printTemplate raws rest ++ say "`"

/-- The words in front of a function. -/
def printFunctionWords (isDecl : Bool) (head : ClosureHead) : Pieces :=
  (if head.isAsync then say "async" ++ space else []) ++
  say (if head.isGenerator then "function*" else "function") ++
    match head.name with
    | some name => st.gapIf (!(isDecl && head.isGenerator)) ++ say (printName st name)
    | none => []

/-- The parameters of an arrow function and what is in front of them. -/
def printArrowHead (head : ClosureHead) (params : List Expr) (printed : List Pieces) : Pieces :=
  let bare := st.minify && isPlainParam params
  (if head.isAsync then say "async" ++ st.gapIf bare else []) ++
    (if bare then st.commaList printed else say "(" ++ st.commaList printed ++ say ")") ++ say "=>"

/-- Does a key begin with a letter or digit? -/
def Key.startsWithWord : Key → Bool
  | .ident _ | .number _ _ | .bigint _ _ => true
  | _ => false

/-- Is the key a private name? -/
def Key.isPrivate : Key → Bool
  | .privateName _ => true
  | _ => false

/-- What is said about a method in front of its key. Every word in front of a
private name has a blank after it. -/
def printMethodWords (role : Role) (isStatic : Bool) (head : ClosureHead) (key : Key) : Pieces :=
  let accessor := match role with
    | .get => say "get" ++ st.gapIf (key.startsWithWord || key.isPrivate)
    | .set => say "set" ++ st.gapIf (key.startsWithWord || key.isPrivate)
    | _ => (if head.isAsync then say "async" ++ space else []) ++
        (if head.isGenerator then say "*" else [])
  let startsWithWord := match role with
    | .get | .set => true
    | _ => head.isAsync || (!head.isGenerator && key.startsWithWord)
  (if isStatic then say "static" ++ st.gapIf (startsWithWord || key.isPrivate) else []) ++ accessor

/-- A class, with its members and its parent printed. -/
def printClass (name : Option String) (members : List Pieces) (parent : Expr) (printed : Pieces) :
    Pieces :=
  say "class" ++
  (match name with
    | some name => space ++ say (printName st name)
    | none => []) ++
  (if parent.isAbsent then []
    else space ++ say "extends" ++ st.gapIf parent.startsWithWord ++ printed) ++
  st.gap ++ say "\x7b" ++ st.lines members ++ say "\x7d"

/-- Is it a block? -/
def Stmt.isBlock : Stmt → Bool
  | .block _ => true
  | _ => false

/-- Is the first variable a plain name? -/
def startsWithName : List Declarator → Bool
  | .mk (.ident _) _ :: _ => true
  | _ => false

/-- A jump to a label. -/
def printJump (word : String) (label : Option String) : Pieces :=
  say word ++ (match label with
    | some label => space ++ say (printName st label)
    | none => []) ++ say ";" ++ st.line

/-- The statements of a case, printed. -/
def printCaseBody (stmts : List Pieces) : Pieces := if stmts.isEmpty then [] else st.lines stmts

mutual

/-- An expression or pattern. -/
def printExpr : Expr → Pieces
  | .absent => []
  | .literal value => say (printLiteral st value)
  | .ident name => say (printName st name)
  | .paren inner => say "(" ++ printExpr inner ++ say ")"
  | .unary op operand =>
    let separate := if op.isWord then operand.startsWithWord else joinsSign op operand
    say op.text ++ (if separate then space else if op.isWord then st.gap else []) ++
      printExpr operand
  | .binary op left right => printBinary st op left right (printExpr left) (printExpr right)
  | .cond test consequent alternate =>
    printExpr test ++ st.gap ++ say "?" ++ st.gap ++ printExpr consequent ++ st.gap ++ say ":" ++
      st.gap
      ++ printExpr alternate
  | .assign op target value =>
    printExpr target ++ st.gap ++ say ((op.map BinaryOp.text).getD "" ++ "=") ++ st.gap ++
      printExpr value
  | .member object name =>
    printExpr object ++ bareNewArguments st object ++ memberPoint st object ++
      say (printName st name)
  | .index object key =>
    printExpr object ++ bareNewArguments st object ++ say "[" ++ printExpr key ++ say "]"
  | .array elements =>
    if elements.isEmpty then say "[]"
    else say "[" ++ st.commaLines (printExprs elements) (endsInHole elements) ++ say "]"
  | .object properties =>
    if properties.isEmpty then say "\x7b\x7d"
    else say "\x7b" ++ st.commaLines (printProperties false properties) false ++ say "\x7d"
  | .spread operand => say "..." ++ printExpr operand
  | .arrayPattern elements =>
    say "[" ++ st.commaList ((printExprs elements).take (lengthWithoutHoles elements)) ++ say "]"
  | .objectPattern properties =>
    if properties.isEmpty then say "\x7b\x7d"
    else
      say "\x7b" ++ st.gap ++ st.commaList (printProperties false properties) ++ st.gap ++
        say "\x7d"
  | .withDefault target fallback => printExpr target ++ printInit st (printExpr fallback)
  | .closure body => printClosure false body
  | .classExpr name members parent =>
    printClass st name (printProperties true members) parent (printExpr parent)
  | .other form parts => printForm st form parts (printExprs parts)

/-- Several expressions, one by one. -/
def printExprs : List Expr → List Pieces
  | [] => []
  | e :: rest => printExpr e :: printExprs rest

/-- A key. -/
def printKey : Key → Pieces
  | .ident name => say (printKeyName st name)
  | .string value raw => say (printString st value raw)
  | .number value raw => say (printNumber st value raw)
  | .bigint value raw => say (printBigint st value raw)
  | .computed key => say "[" ++ printExpr key ++ say "]"
  | .privateName name => say ("#" ++ printName st name)

/-- A property of an object or pattern, or a member of a class. -/
def printProperty (inClass : Bool) : Property → Pieces
  | .pair key value => printKey key ++ say ":" ++ st.gap ++ printExpr value
  | .shorthand name fallback =>
    say (printName st name) ++ if fallback.isAbsent then [] else printInit st (printExpr fallback)
  | .spread operand => say "..." ++ printExpr operand
  | .method role isStatic key (.block head _ params body) =>
    let gapAfterKey := if inClass then [] else st.gap
    let gapBeforeBody := match role with
      | .constructor => []
      | .set => if inClass then st.gap else []
      | _ => st.gap
    printMethodWords st role isStatic head key ++
      (if role = .constructor then say "constructor" else printKey key) ++ gapAfterKey ++
      say "(" ++ st.commaList (printExprs params) ++ say ")" ++ gapBeforeBody ++ printBlock body
  | .method _ _ key body => printKey key ++ printClosure false body
  | .field isStatic key value =>
    (if isStatic then say "static" ++ space else []) ++ printKey key ++
      (if value.isAbsent then [] else printInit st (printExpr value)) ++ say ";"
  | .staticBlock body => say "static" ++ printBlock body
  | .empty => say ";"

/-- Several properties, one by one. -/
def printProperties (inClass : Bool) : List Property → List Pieces
  | [] => []
  | p :: rest => printProperty inClass p :: printProperties inClass rest

/-- A function that is not a method. -/
def printClosure (isDecl : Bool) : Closure → Pieces
  | .block head _ params body =>
    if head.boundary = .arrow then
      printArrowHead st head params (printExprs params) ++ printBlock body
    else
      printFunctionWords st isDecl head ++ say "(" ++ st.commaList (printExprs params) ++ say ")" ++
        st.gap
        ++ printBlock body
  | .concise head _ params result =>
    printArrowHead st head params (printExprs params) ++ st.indented (printExpr result)

/-- Statements in braces. -/
def printBlock : Block → Pieces
  | .mk _ stmts =>
    if stmts.isEmpty then say "\x7b\x7d"
    else say "\x7b" ++ st.lines (printStmts stmts) ++ say "\x7d"

/-- A declared variable. -/
def printDeclarator : Declarator → Pieces
  | .mk target init =>
    printExpr target ++ if init.isAbsent then [] else printInit st (printExpr init)

/-- Several declared variables, one by one. -/
def printDeclarators : List Declarator → List Pieces
  | [] => []
  | d :: rest => printDeclarator d :: printDeclarators rest

/-- A declaration. -/
def printDecl : Decl → Pieces
  | .vars kind declarators =>
    say kind.text ++ st.gapIf (startsWithName declarators) ++
      st.commaList (printDeclarators declarators)
      ++ say ";"
  | .function _ body => printClosure true body
  | .classDecl name members parent =>
    printClass st (some name) (printProperties true members) parent (printExpr parent)

/-- What a loop starts with. -/
def printLoopHead : LoopHead → Pieces
  | .decl kind declarators =>
    say kind.text ++ st.gapIf (startsWithName declarators) ++
      st.commaList (printDeclarators declarators)
  | .expr e => printExpr e

/-- A statement. -/
def printStmt : Stmt → Pieces
  | .empty => say ";" ++ st.line
  | .removed => say ";" ++ st.line
  | .expr e => printExpr e ++ say ";" ++ st.line
  | .block body => printBlock body
  | .decl d => printDecl d ++ st.line
  | .ifElse _ test consequent alternate =>
    say "if" ++ st.gap ++ say "(" ++ printExpr test ++ say ")" ++ st.gap ++ printStmt consequent ++
      printAlternate consequent.isBlock alternate ++ st.line
  | .whileLoop test body => say "while(" ++ printExpr test ++ say ")" ++ printStmt body ++ st.line
  | .doWhile test body =>
    say "do" ++ st.gapIf body.startsWithWord ++ printStmt body ++ say "while" ++ st.gap ++
      say "(" ++
      printExpr test ++ say ")" ++ st.line
  | .forLoop _ head test update body =>
    say "for(" ++ printLoopHead head ++ say ";" ++
      (if test.isAbsent then [] else st.gap ++ printExpr test) ++ say ";" ++
      (if update.isAbsent then [] else st.gap ++ printExpr update) ++ say ")" ++
      printStmt body ++ st.line
  | .forEach _ iteration head subject body =>
    let opening := match iteration with
      | .keys => say "for("
      | .values => say "for" ++ st.gap ++ say "("
      | .awaited => say "for" ++ space ++ say "await" ++ st.gap ++ say "("
    opening ++ printLoopHead head ++ st.gapIf head.endsWithWord ++
      say (if iteration = .keys then "in" else "of") ++ st.gapIf subject.startsWithWord ++
      printExpr subject ++ say ")" ++ printStmt body ++ st.line
  | .labeled label body =>
    say (printName st label) ++ say ":" ++ st.gap ++ printStmt body ++ st.line
  | .withObject object body =>
    say "with" ++ st.gap ++ say "(" ++ printExpr object ++ say ")" ++ printStmt body ++ st.line
  | .switch _ subject cases =>
    say "switch(" ++ printExpr subject ++ say ")\x7b" ++ st.lines (printCases cases) ++
      say "\x7d" ++ st.line
  | .tryCatch body handler finalizer =>
    say "try" ++ st.gap ++ printBlock body ++ printHandler handler ++ printFinalizer finalizer ++
      st.line
  | .ret value =>
    say "return" ++
      (if value.isAbsent then [] else st.gapIf value.startsWithWord ++ printExpr value) ++
      say ";" ++ st.line
  | .throw value =>
    say "throw" ++ st.gapIf value.startsWithWord ++ printExpr value ++ say ";" ++ st.line
  | .exitTo label => printJump st "break" label
  | .continueTo label => printJump st "continue" label
  | .debugger => say "debugger;" ++ st.line

/-- What follows the consequent of an `if` statement. -/
def printAlternate (afterBlock : Bool) : Option Stmt → Pieces
  | none => []
  | some s =>
    (if afterBlock then st.gap else []) ++ say "else" ++ st.gapIf s.startsWithWord ++ printStmt s

/-- Several statements, one by one. -/
def printStmts : List Stmt → List Pieces
  | [] => []
  | s :: rest => printStmt s :: printStmts rest

/-- A case of a switch. -/
def printCase : Case → Pieces
  | .mk none body => say "default:" ++ printCaseBody st (printStmts body)
  | .mk (some test) body =>
    say "case" ++ st.gapIf test.startsWithWord ++ printExpr test ++ say ":" ++
      printCaseBody st (printStmts body)

/-- Several cases, one by one. -/
def printCases : List Case → List Pieces
  | [] => []
  | c :: rest => printCase c :: printCases rest

/-- A catch clause. -/
def printHandler : Option Handler → Pieces
  | none => []
  | some (.mk _ param body) =>
    st.gap ++ say "catch" ++ st.gap ++
      (if param.isAbsent then [] else say "(" ++ printExpr param ++ say ")") ++ st.gap ++
      printBlock body

/-- A final block. -/
def printFinalizer : Option Block → Pieces
  | none => []
  | some body => st.gap ++ say "finally" ++ printBlock body

end

/-! ### Programs -/

/-- A name in a list of imports or exports. -/
def printPublicName : PublicName → String
  | .ident name => printName st name
  | .string value raw => printString st value raw

/-- Names in braces. -/
def printNameList (names : List Pieces) : Pieces :=
  say "\x7b" ++ st.gap ++ (if names.isEmpty then [] else st.commaList names ++ st.gap) ++ say "\x7d"

/-- An entry of a list of imports. -/
def printImportName : ImportName → Option Pieces
  | .named (some source) name =>
    some (say (printPublicName st source) ++ space ++ say "as" ++ space ++ say (printName st name))
  | .named none name => some (say (printName st name))
  | _ => none

/-- The name that stands for all of an imported module. -/
def printImportStar : ImportName → Option Pieces
  | .star name => some (say "*" ++ st.gap ++ say "as" ++ space ++ say (printName st name))
  | _ => none

/-- The name of a default import. -/
def printImportDefault : ImportName → Option Pieces
  | .default name => some (say (printName st name))
  | _ => none

/-- The names of an import, from its word up to that of its source. -/
def printImportNames (names : List ImportName) : Pieces :=
  let plain := names.filterMap (printImportDefault st)
  let stars := names.filterMap (printImportStar st)
  let named := names.filterMap (printImportName st)
  let groups := plain ++ stars ++ if named.isEmpty then [] else [printNameList st named]
  say "import" ++ st.gapIf (!plain.isEmpty) ++
    if groups.isEmpty then []
    else st.commaList groups ++ st.gapIf named.isEmpty ++ say "from" ++ st.gap

/-- An entry of a list of exports. -/
def printExportName : ExportName → Pieces
  | .named source name =>
    say (printPublicName st source) ++
      match name with
      | some name => space ++ say "as" ++ space ++ say (printPublicName st name)
      | none => []
  | .star name => say "*" ++ st.gap ++ say "as" ++ space ++ say (printPublicName st name)

/-- The names of an export. -/
def printExportNames : List ExportName → Pieces
  | [.star name] => printExportName st (.star name) ++ space
  | names => printNameList st (names.map (printExportName st)) ++ st.gap

/-- The module that names are exported from. -/
def printSource (source : Literal) : Pieces := say "from" ++ st.gap ++ say (printLiteral st source)

/-- An item of a program. -/
def printItem : Item → Pieces
  | .stmt s => printStmt st s
  | .importNames names source =>
    printImportNames st names ++ say (printLiteral st source) ++ say ";" ++ st.line
  | .exportNames names (some source) =>
    say "export" ++ st.gap ++ printExportNames st names ++ printSource st source ++ say ";" ++
      st.line
  | .exportNames names none =>
    say "export" ++ st.gap ++ printNameList st (names.map (printExportName st)) ++ say ";" ++
      st.line
  | .exportAll source =>
    say "export" ++ st.gap ++ say "*" ++ st.gap ++ printSource st source ++ say ";" ++ st.line
  | .exportDecl d => say "export" ++ space ++ printDecl st d ++ st.line
  | .exportDefault true e =>
    say "export" ++ space ++ say "default" ++ space ++ printExpr st e ++ st.line
  | .exportDefault false e =>
    say "export" ++ space ++ say "default" ++ st.gapIf e.startsWithWord ++ printExpr st e ++
      say ";" ++ st.line

/-- A program. -/
def printProgram (p : Program) : Pieces :=
  (match p.shebang with
    | some line => say ("#!" ++ line) ++ [.line]
    | none => []) ++
  p.items.flatMap (printItem st)

/-- The text of a program. -/
def Program.print (st : Style) (p : Program) : String :=
  render st.lineEnding.text (printProgram st p)

end DeadBranch
