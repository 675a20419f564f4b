/-
# Programs

A program is a list of statements, imports and exports. It is a module if it
holds one of the latter two, or waits for a value outside every function;
otherwise it is a script. From its first import or export on, a program is read
as a module; what was found before that is not allowed in modules is complained
about then, or at the end.

The parts of the grammar refer to each other; `grammar` ties them together to
any given depth, and the depth that a text can need is bounded by its length.

Key definitions: `grammar`, `parseImport`, `parseExport`, `parseProgram`,
`Parsed`.
-/
import DeadBranch.Parser.Statement

namespace DeadBranch
namespace Parse

/-- The grammar, to a depth. -/
def grammar : Nat → Grammar
  | 0 =>
    { fuel := 0, expr := fail .nestedTooDeeply, assign := fail .nestedTooDeeply
      unary := fail .nestedTooDeeply, operators := fun _ => fail .nestedTooDeeply
      leftHand := fail .nestedTooDeeply
      callee := fail .nestedTooDeeply, binding := fail .nestedTooDeeply
      stmt := fun _ => fail .nestedTooDeeply }
  | depth + 1 =>
    { fuel := depth
      expr := fun r s => parseExpr (grammar depth) r s
      assign := fun r s => parseAssign (grammar depth) r s
      unary := fun r s => parseUnary (grammar depth) r s
      operators := fun left r s => parseBinaryTail (grammar depth) 0 depth left r s
      leftHand := fun r s => parseLeftHand (grammar depth) r s
      callee := fun r s => parseCallee (grammar depth) r s
      binding := fun r s => parseBinding (grammar depth) r s
      stmt := fun allowDecls r s => parseStmt (grammar depth) allowDecls r s }

variable (g : Grammar)

/-! ### Imports and exports -/

/-- The text that names a module. -/
def parseModuleName : Parse Literal := do
  match ← demand with
  | .string value raw => advance; return .string value raw
  | _ => unexpected "a string literal"

/-- A name that may also be a keyword or a text. -/
def parsePublicName : Parse PublicName := do
  checkToken
  match ← peek with
  | .word name | .name name => advance; return .ident name
  | .string value raw => advance; return .string value raw
  | _ => unexpected "identifier or string"

/-- An entry of a list of imports. -/
def parseImportName : Parse ImportName := do
  let start ← here
  let source ← parsePublicName
  if ← eatWord "as" then return .named (some source) (← parseBoundName)
  match source with
  | .ident name =>
    if (← read).isReserved name then failAt start .importReserved
    return .named none name
  | .string value _ => failAt start (.importText value)

/-- Entries up to a closing brace, which is taken. -/
def parseNameList {α : Type} (entry : Parse α) : Nat → Parse (List α)
  | 0 => fail .nestedTooDeeply
  | fuel + 1 => do
    if (← atEnd) || (← isMark "\x7d") then
      expectMark "\x7d"
      return []
    let first ← entry
    unless ← isMark "\x7d" do expectMark ","
    return first :: (← parseNameList entry fuel)

/-- The names of an import after the default one. -/
def parseImportNames : Parse (List ImportName) := do
  if ← eatMark "*" then
    expectWord "as"
    return [.star (← parseBoundName)]
  if ← eatMark "\x7b" then parseNameList parseImportName g.fuel else return []

/-- The name of a default import, if there is one. -/
def parseImportDefault : Parse (List ImportName) := do
  unless ← atName do return []
  let name ← parseBoundName
  unless ← isWord "from" do expectMark ","
  return [.default name]

/-- An import; its word is next. -/
def parseImport : Parse Item := do
  advance
  checkToken
  match ← peek with
  | .string value raw =>
    advance
    expectSemicolon
    return .importNames [] (.string value raw)
  | _ =>
    let plain ← parseImportDefault
    let names ← parseImportNames g
    expectWord "from"
    let source ← parseModuleName
    expectSemicolon
    return .importNames (plain ++ names) source

/-- An entry of a list of exports with its place. -/
def parseExportName : Parse (Nat × ExportName) := do
  let start ← here
  let source ← parsePublicName
  if ← eatWord "as" then return (start, .named source (some (← parsePublicName)))
  return (start, .named source none)

/-- A default export, after its word. -/
def parseExportDefault : Parse Item := do
  if ← isWord "class" then return .exportDefault true (← parseClassExpr g)
  if (← isWord "function") || (← atAsyncFunction) then
    return .exportDefault true (.closure (← parseFunctionExpr g))
  let e ← withIn g.assign
  expectSemicolon
  return .exportDefault false e.expr

/-- Complains about a name that cannot be exported without a source. -/
def checkExportName : Nat × ExportName → Parse Unit
  | (start, .named (.string _ _) _) => complain start .exportText
  | (start, .named (.ident name) _) => do
    if (← read).isReserved name then complain start (.exportWithoutSource name)
  | _ => return

/-- The module that names are exported from, from `from` on. -/
def parseExportSource : Parse Literal := do
  expectWord "from"
  let source ← parseModuleName
  expectSemicolon
  return source

/-- An export of names, or of all names of a module. -/
def parseExportNames : Parse Item := do
  if ← eatMark "*" then
    if ← eatWord "as" then
      let name ← parsePublicName
      return .exportNames [.star name] (some (← parseExportSource))
    return .exportAll (← parseExportSource)
  expectMark "\x7b"
  let names ← parseNameList parseExportName g.fuel
  if ← isWord "from" then return .exportNames (names.map (·.2)) (some (← parseExportSource))
  names.forM checkExportName
  let _ ← eatSemicolon
  return .exportNames (names.map (·.2)) none

/-- An export; its word is next. -/
def parseExport : Parse Item := do
  advance
  let _ ← demand
  if ← eatWord "default" then parseExportDefault g
  else if ← isWord "class" then return .exportDecl (← parseClassDecl g)
  else if (← isWord "function") || (← atAsyncFunction) then
    return .exportDecl (← parseFunctionDecl g)
  else
    match ← varKind? with
    | some kind => return .exportDecl (← parseVars g kind)
    | none => parseExportNames g

/-! ### The whole -/

/-- From here on the program is read as a module. -/
def becomeModule : Parse Unit :=
  modify fun s => { s with faults := s.moduleFaults ++ s.faults, moduleFaults := [] }

/-- Does something only modules hold begin here? -/
def atModuleItem : Parse Bool := do
  if ← isWord "export" then return true
  return (← isWord "import") && !(← atImportExpr)

/-- An import or export. -/
def parseModuleItem : Parse Item := do
  if ← isWord "import" then parseImport g else parseExport g

/-- Items up to the end of the source. If the first one says so, the rest is
strict code. -/
def parseItems (isFirst : Bool) : Nat → Parse (List Item)
  | 0 => fail .nestedTooDeeply
  | fuel + 1 => do
    checkToken
    if ← atEnd then return []
    if ← atModuleItem then
      becomeModule
      within ({ · with strict := true, isModule := true }) do
        let first ← parseModuleItem g
        return first :: (← parseItems false fuel)
    else
      let first ← parseTopStmt g
      let strict := isFirst && isUseStrict first
      let rest ← within (fun s => { s with strict := s.strict || strict }) (parseItems false fuel)
      return .stmt first :: rest

/-- Is it something only a module holds? -/
def isModuleItem : Item → Bool
  | .stmt _ => false
  | _ => true

end Parse

/-- A source without the mark that may stand in front of it. -/
def dropMark (source : List Char) : List Char :=
  match source with
  | '\ufeff' :: rest => rest
  | source => source

/-- The line at the front that names an interpreter, and the rest. -/
def splitShebang (source : List Char) : Option (List Char) × List Char :=
  match source with
  | '#' :: '!' :: rest => let (line, rest) := rest.span (!isLineEnd ·); (some line, rest)
  | source => (none, source)

/-- A program, with what is wrong with it, in the order in which it is
reported. -/
structure Parsed where
  program : Program
  faults : List Fault

/-- Reads a program. A fault that stops the reading is an error; the others
come with the program. -/
def parseProgram (source : List Char) : Except Fault Parsed :=
  let (shebang, rest) := splitShebang source
  let skipped := match shebang with
    | some line => byteLength line + 2
    | none => 0
  let depth := 16 * (source.length + 4)
  let lexing : Lexing := { position := skipped, source := rest }
  match Parse.parseItems (Parse.grammar depth) true depth {} { lexing, lastStop := skipped } with
  | .error fault _ => .error fault
  | .ok items s =>
    let isModule := s.isModule || items.any Parse.isModuleItem
    let faults := s.faults.reverse ++ (if isModule then s.moduleFaults.reverse else [])
    .ok ⟨⟨if isModule then .module else .script, shebang.map String.ofList, items⟩, faults⟩

end DeadBranch
