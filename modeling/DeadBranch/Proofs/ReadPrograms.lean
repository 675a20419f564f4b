/-
# Programs as they are read

An `if` statement takes an `else` whenever one is next. So when an open statement
was read, the next token was looked at and is no `else`, and no `if` around it
takes one behind it (`Parse.parseIf_leads`). From that, every program that is read
has each `else` where it belongs (`Source.read_proper`), and removing dead branches
leaves it there.

Key theorems: `Parse.eatElse_after`, `Parse.parseStmt_leads`, `Parse.grammar_proper`,
`Source.read_proper`.
-/
import DeadBranch.Shrink
import DeadBranch.Source.Read
import DeadBranch.Proofs.ReadExpressions

namespace DeadBranch
namespace Parse

/-! ### Statements -/

theorem Leads.whole {P : ParseState → Prop} {m : Parse Stmt} (hm : Gives m Stmt.Whole) :
    Leads P m Stmt.ReadTo :=
  .ofGives hm fun _ _ h => ⟨h.1, fun hopen => absurd hopen (by simp [h.2])⟩

/-- A token that was looked at is kept. -/
theorem peekReading_leads {P : ParseState → Prop} : Leads P peekReading fun reading s =>
    s.next = some reading := by
  refine .bind .get fun found => ?_
  split
  · rename_i reading h
    exact .pure fun s hs => hs.1 ▸ h
  · have hkeep (reading) : Leads (fun _ => True) (do
        modify fun s => { s with next := some reading, second := none }
        return reading) fun reading s => s.next = some reading :=
      .bind (.modify (R := (·.next = some reading)) fun _ _ => rfl) fun _ => .pure fun _ h => h
    split
    · exact .skip hkeep
    · exact .skip hkeep

theorem peekReading_noElse :
    Leads (·.NoElse) peekReading fun reading _ => reading.token ≠ .word "else" := by
  refine .bind .get fun found => ?_
  split
  · rename_i reading hfound
    refine .pure fun s hs => ?_
    obtain ⟨rfl, again, hnext, hagain⟩ := hs
    rw [hfound] at hnext
    exact Option.some.inj hnext ▸ hagain
  · rename_i hfound
    rintro r s a s' ⟨rfl, again, hnext, -⟩
    exact nomatch hfound.symm.trans hnext

/-- Where an `else` is not taken, none is next. -/
theorem eatElse_leads {P : ParseState → Prop} :
    Leads P (eatWord "else") fun eaten s => eaten = false → s.NoElse := by
  have hpeek : Leads P peek fun token s => token ≠ .word "else" → s.NoElse :=
    .bind peekReading_leads fun reading => .pure fun _ hs hne => ⟨reading, hs, hne⟩
  have hword : Leads P (isWord "else") fun found s => found = false → s.NoElse :=
    .bind hpeek fun _ => .pure fun _ hs hne => hs (by simpa using hne)
  refine .bind hword fun found => ?_
  cases found with
  | false => exact .pure fun _ hs => hs
  | true => exact .skip fun _ => .pure fun _ _ => nofun

theorem eatElse_noElse : Leads (·.NoElse) (eatWord "else") fun eaten _ => eaten = false := by
  have hpeek : Leads (·.NoElse) peek fun token _ => token ≠ .word "else" :=
    .bind peekReading_noElse fun _ => .pure fun _ h => h
  have hword : Leads (·.NoElse) (isWord "else") fun found _ => found = false :=
    .bind hpeek fun _ => .pure fun _ hne => by simpa using hne
  refine .bind hword fun found => ?_
  cases found with
  | false => exact .pure fun _ _ => rfl
  | true => exact fun _ _ _ _ h => nomatch h

/-- Behind a statement, an `else` is only taken if the statement is closed. -/
theorem eatElse_after (t : Stmt) : Leads t.ReadTo (eatWord "else") fun eaten s =>
    Proper t.statements ∧ (eaten = true → t.isOpen = false) ∧ (eaten = false → s.NoElse) := by
  intro r s eaten s' ht h
  refine ⟨ht.1, fun heaten => ?_, eatElse_leads (P := fun _ => True) r s eaten s' trivial h⟩
  cases hopen : t.isOpen with
  | false => rfl
  | true => exact nomatch heaten.symm.trans (eatElse_noElse r s eaten s' (ht.2 hopen) h)

section Statements

variable {g : Grammar} (hg : g.Proper)

include hg

theorem parseDeclarator_proper (inLoopHead : Bool) (kind : VarKind) :
    Gives (parseDeclarator g inLoopHead kind) (Proper ·.statements) :=
  .skip fun _ => .bind hg.binding fun _ ht => .skip fun _ => .ite (.pure (.append ht .nil)) <|
  .skip fun _ => .ite (.bind hg.assign fun _ hv => .pure (.append ht hv.expr)) <|
  .skip fun _ => .ite (.skip fun _ => .pure (.append ht .nil)) (.onlyIf (.pure (.append ht .nil)))

theorem parseDeclarators_proper (inLoopHead : Bool) (kind : VarKind) (wordStop : Nat) :
    ∀ fuel : Nat, Gives (parseDeclarators g inLoopHead kind wordStop fuel)
      fun found => Proper (declaratorsStatements (found.map (·.2)))
  | 0 => .fail
  | fuel + 1 =>
    .skip fun _ => .skip fun _ => .ite
      (.skip fun _ => .skip fun _ => .skip fun _ => .pure .nil) <|
    .skip fun _ => .bind (.within (parseDeclarator_proper hg _ _)) fun _ hd => .skip fun _ => .ite
      (.bind (parseDeclarators_proper inLoopHead kind wordStop fuel) fun _ hds =>
        .pure (.append hd hds))
      (.pure (.append hd .nil))

theorem parseVars_proper (kind : VarKind) : Gives (parseVars g kind) (Proper ·.statements) :=
  .skip fun _ => .skip fun _ => .bind (parseDeclarators_proper hg _ _ _ _) fun _ h =>
  .skip fun _ => .ite (.pure h) <| .skip fun _ => .skip fun _ => .skip fun _ => .skip fun _ =>
    .pure h

theorem parseTest_proper : Gives (parseTest g) (Proper ·.statements) :=
  .skip fun _ => .bind hg.expr.withIn fun _ h => .skip fun _ => .pure h.expr

/-- An `else` is only taken behind a closed consequent: none is next behind an open
one. -/
theorem parseIf_leads : Leads (fun _ => True) (parseIf g) Stmt.ReadTo := by
  refine .skip fun start => .skip fun _ => .given (parseTest_proper hg) fun test htest =>
    .bind (hg.stmt false) fun consequent => .bind (eatElse_after consequent) fun eaten => ?_
  cases eaten with
  | false =>
    -- the statement is open, and no `else` is next
    exact .pureBind <| .bind .lastStop fun _ => .pure fun s ⟨hc, _, hnext⟩ =>
      ⟨.cons rfl rfl (.append htest (.append hc .nil)), fun _ => hnext rfl⟩
  | true =>
    -- an `else` was next, so the consequent is closed
    refine .fact (fun s h => And.intro h.1 (h.2.1 rfl)) fun ⟨hc, hclosed⟩ => ?_
    exact .bind (R := fun a s => ∃ t, a = some t ∧ t.ReadTo s)
      (.bind (hg.stmt false).anywhere fun t => .pure fun s ht => ⟨t, rfl, ht⟩)
      fun alternate => .bind .lastStop fun _ => .pure fun s ⟨t, ha, ht⟩ => by
        subst ha
        exact ⟨.cons (Stmt.isAttached_of_closed _ _ hclosed _) rfl
          (.append htest (.append hc ht.1)), ht.2⟩

theorem parseLoopBody_leads : Leads (fun _ => True) (parseLoopBody g) Stmt.ReadTo :=
  .within (hg.stmt false)

theorem parseWhile_leads : Leads (fun _ => True) (parseWhile g) Stmt.ReadTo :=
  .skip fun _ => .given (parseTest_proper hg) fun _ htest =>
  .bind (parseLoopBody_leads hg) fun _ =>
    .pure fun _ h => ⟨.cons rfl rfl (.append htest h.1), h.2⟩

theorem parseDo_whole : Gives (parseDo g) Stmt.Whole :=
  .skip fun _ => .bind ((parseLoopBody_leads hg).gives fun _ _ h => h.1) fun _ hbody =>
  .skip fun _ => .bind (parseTest_proper hg) fun _ htest => .skip fun _ =>
    .pure ⟨.cons rfl rfl (.append htest hbody), rfl⟩

/-- The statements in what is between the parentheses of a `for` statement are
proper. -/
def ForHead.Proper : ForHead → Prop
  | .parts head test update => DeadBranch.Proper head.statements ∧
    DeadBranch.Proper test.statements ∧ DeadBranch.Proper update.statements
  | .each _ head subject =>
    DeadBranch.Proper head.statements ∧ DeadBranch.Proper subject.statements

theorem parseForParts_proper {head : LoopHead} (h : Proper head.statements) :
    Gives (parseForParts g head) ForHead.Proper :=
  .skip fun _ => by
    extract_lets parts
    have hparts (test) (htest : Proper test.statements) : Gives (parts test) ForHead.Proper :=
      .skip fun _ => .ite (.pureBind (.pure ⟨h, htest, .nil⟩)) <|
        .bind hg.expr.withIn.expr fun _ hupdate => .pure ⟨h, htest, hupdate⟩
    exact .ite (.pureBind (hparts _ .nil)) <|
      .bind hg.expr.withIn fun _ he => .skip fun _ => .pureBind (hparts _ he.expr)

theorem parseForEach_proper {head : LoopHead} (h : Proper head.statements) :
    Gives (parseForEach g head) ForHead.Proper :=
  .skip fun _ => .skip fun _ => .bind (.withIn (.ite hg.expr hg.assign)) fun _ he =>
    .pure ⟨h, he.expr⟩

theorem parseForHead_proper : Gives (parseForHead g) ForHead.Proper :=
  .skip fun kind => by
    split
    · exact .skip fun _ => .skip fun _ => .bind (parseDeclarators_proper hg _ _ _ _) fun _ h =>
        .skip fun _ => .ite (.skip fun _ => parseForEach_proper hg h)
          (.skip fun _ => parseForParts_proper hg h)
    · exact .skip fun _ => .ite (parseForParts_proper hg .nil) <|
        .bind (.within hg.expr) fun e he => .skip fun _ => .ite
          (.bind (toPattern_proper .target e he) fun _ h => parseForEach_proper hg h)
          (.skip fun _ => parseForParts_proper hg he.expr)

theorem parseFor_leads : Leads (fun _ => True) (parseFor g) Stmt.ReadTo := by
  refine .skip fun _ => .skip fun _ => .skip fun _ => .skip fun isAwait => .skip fun _ =>
    .given (.within (parseForHead_proper hg)) fun head hhead => .skip fun _ =>
    .bind (parseLoopBody_leads hg) fun body => .bind .lastStop fun stop => ?_
  split
  · exact .failIf <| .pure fun _ h =>
      ⟨.cons rfl rfl (.append hhead.1 (.append hhead.2.1 (.append hhead.2.2 h.1))), h.2⟩
  · exact .failIf <| .pure fun _ h =>
      ⟨.cons rfl rfl (.append hhead.1 (.append hhead.2 h.1)), h.2⟩
  · exact .pure fun _ h => ⟨.cons rfl rfl (.append hhead.1 (.append hhead.2 h.1)), h.2⟩

theorem parseCaseBody_proper : ∀ fuel : Nat,
    Gives (parseCaseBody g fuel) (Proper <| stmtsStatements ·)
  | 0 => .fail
  | fuel + 1 =>
    .skip fun _ => .skip fun _ => .skip fun _ => .ite (.pure .nil) <|
    .bind (hg.stmt_gives true) fun _ h => .bind (parseCaseBody_proper fuel) fun _ hs =>
      .pure (.append h hs)

theorem parseCases_proper : ∀ (fuel : Nat) (hasDefault : Bool),
    Gives (parseCases g hasDefault fuel) (Proper <| casesStatements ·)
  | 0, _ => .fail
  | fuel + 1, hasDefault =>
    .skip fun _ => .ite
      (.skip fun isDefault => .skip fun _ => by
        extract_lets body
        have hbody (test : Option Expr) (htest : ∀ e ∈ test, Proper e.statements) :
            Gives (body test) (Proper <| casesStatements ·) :=
          .skip fun _ => .bind (parseCaseBody_proper hg _) fun _ h =>
            .bind (parseCases_proper fuel _) fun _ hcases => .pure <| by
              cases test with
              | none => exact .append h hcases
              | some e => exact .append (.append (htest e rfl) h) hcases
        exact .ite (.onlyIf (.pureBind (hbody none nofun))) (.bind hg.expr.withIn.expr.some hbody))
      (.pure .nil)

theorem parseSwitch_whole : Gives (parseSwitch g) Stmt.Whole :=
  .skip fun _ => .skip fun _ => .bind (parseTest_proper hg) fun _ hsubject => .skip fun _ =>
  .bind (.within (parseCases_proper hg _ _)) fun _ hcases => .skip fun _ => .skip fun _ =>
    .pure ⟨.cons rfl rfl (.append hsubject hcases), rfl⟩

theorem parseHandler?_proper : Gives (parseHandler? g) (Proper <| handlerStatements ·) :=
  .skip fun _ => .skip fun _ => .ite
    (.skip fun _ => by
      extract_lets handler
      have hhandler (param) (h : Proper param.statements) :
          Gives (handler param) (Proper <| handlerStatements ·) :=
        .bind (parseBlock_proper hg) fun _ hbody => .skip fun _ => .pure (.append h hbody)
      exact .ite (.bind hg.binding fun _ h => .skip fun _ => .pureBind (hhandler _ h))
        (.pureBind (hhandler _ .nil)))
    (.pure .nil)

theorem parseFinalizer?_proper : Gives (parseFinalizer? g) (Proper <| finalizerStatements ·) :=
  .skip fun _ => .ite (.bind (parseBlock_proper hg) fun _ h => .pure h) (.pure .nil)

theorem parseTry_whole : Gives (parseTry g) Stmt.Whole :=
  .skip fun _ => .bind (parseBlock_proper hg) fun _ hbody => .skip fun _ =>
  .bind (parseHandler?_proper hg) fun _ hh => .bind (parseFinalizer?_proper hg) fun _ hf =>
    .onlyIf <| .pure ⟨.cons rfl rfl (.append hbody (.append hh hf)), rfl⟩

omit hg in
theorem parseStrayHandler_whole : Gives (parseStrayHandler g) Stmt.Whole :=
  .skip fun _ => .skip fun _ => .skip fun _ => .skip fun _ => .pure ⟨.cons rfl rfl .nil, rfl⟩

theorem parseReturn_whole : Gives (parseReturn g) Stmt.Whole :=
  .skip fun _ => .skip fun _ => .skip fun _ => by
    extract_lets rest
    have hrest (value) (h : Proper value.statements) : Gives (rest value) Stmt.Whole :=
      .skip fun _ => .skip fun _ => .butNotIf <| .pure ⟨.cons rfl rfl h, rfl⟩
    exact .ite (.pureBind (hrest _ .nil)) <|
      .bind hg.expr.withIn.expr hrest

theorem parseThrow_whole : Gives (parseThrow g) Stmt.Whole :=
  .skip fun _ => .skip fun _ => .onlyIf <| .bind hg.expr.withIn fun _ h => .skip fun _ =>
    .pure ⟨.cons rfl rfl h.expr, rfl⟩

omit hg in
theorem parseBreak_whole : Gives parseBreak Stmt.Whole :=
  have hexit {label : Option String} : (Stmt.exitTo label).Whole := ⟨.cons rfl rfl .nil, rfl⟩
  .skip fun _ => .skip fun _ => .skip fun _ => .skip fun _ =>
    .ite (.skip fun _ => .pure hexit) (.skip fun _ => .butNotIf (.pure hexit))

omit hg in
theorem parseContinue_whole : Gives parseContinue Stmt.Whole :=
  have hcontinue {label : Option String} : (Stmt.continueTo label).Whole :=
    ⟨.cons rfl rfl .nil, rfl⟩
  .skip fun _ => .skip fun _ => .skip fun _ => .skip fun _ => .skip fun _ =>
    .ite (.skip fun _ => .pure hcontinue) (.onlyIf (.pure hcontinue))

theorem parseWith_leads : Leads (fun _ => True) (parseWith g) Stmt.ReadTo :=
  .skip fun _ => .skip fun _ => .skip fun _ => .given (parseTest_proper hg) fun _ hobject =>
  .bind (.within (hg.stmt false)) fun _ =>
    .pure fun _ h => ⟨.cons rfl rfl (.append hobject h.1), h.2⟩

omit hg in
theorem decl_whole {d : Decl} (h : Proper d.statements) : (Stmt.decl d).Whole :=
  ⟨.cons rfl rfl h, rfl⟩

theorem parseLabeled_leads (labelStart : Nat) (label : String) :
    Leads (fun _ => True) (parseLabeled g labelStart label) Stmt.ReadTo := by
  refine .within <| .skip fun _ => ?_
  extract_lets rest labeled
  have hrest (body) : Leads body.ReadTo (rest body) Stmt.ReadTo :=
    .bind (.modify fun _ h => h) fun _ =>
      .pure fun _ (h : body.ReadTo _) => ⟨.cons rfl rfl h.1, h.2⟩
  have hlabeled (u) : Leads (fun _ => True) (labeled u) Stmt.ReadTo :=
    .skip fun _ => .skip fun _ => .ite
      (.skip fun _ => .given (parseFunctionDecl_proper hg) fun _ hd => .skip fun _ =>
        .bind (.whole (.pure (decl_whole hd))) hrest)
      (.bind (hg.stmt false) hrest)
  exact .ite (.skip hlabeled) (hlabeled ())

theorem parseExprStmt_leads : Leads (fun _ => True) (parseExprStmt g) Stmt.ReadTo := by
  refine .given hg.expr.withIn fun e he => ?_
  have hexpr {e : Expr} (h : Proper e.statements) : (Stmt.expr e).Whole :=
    ⟨.cons rfl rfl h, rfl⟩
  extract_lets rest
  have hrest (u) : Leads (fun _ => True) (rest u) Stmt.ReadTo :=
    .whole <| .skip fun _ => .ite (.pure (hexpr he.expr)) <| .skip fun _ => .skip fun _ => .ite
      (.skip fun _ => .skip fun _ => .bind (parseBinaryTail_proper hg _ _ e he) fun _ h =>
        .pure (hexpr h.expr))
      .fail
  split
  · exact .skip fun _ => .ite (parseLabeled_leads hg _ _) (hrest ())
  · exact hrest ()

theorem parseKeywordStmt?_leads (allowDecls : Bool) (word : String) :
    ∀ step ∈ parseKeywordStmt? g allowDecls word, Leads (fun _ => True) step Stmt.ReadTo := by
  intro step hstep
  unfold parseKeywordStmt? at hstep
  split at hstep <;> cases hstep
  · exact parseIf_leads hg
  · exact parseWhile_leads hg
  · exact .whole (parseDo_whole hg)
  · exact parseFor_leads hg
  · exact .whole (parseSwitch_whole hg)
  · exact .whole (parseTry_whole hg)
  · exact .whole parseStrayHandler_whole
  · exact .whole parseStrayHandler_whole
  · exact .whole (parseReturn_whole hg)
  · exact .whole (parseThrow_whole hg)
  · exact .whole parseBreak_whole
  · exact .whole parseContinue_whole
  · exact parseWith_leads hg
  · exact .whole (.skip fun _ => .skip fun _ => .pure ⟨.cons rfl rfl .nil, rfl⟩)
  · exact .whole (.skip fun _ => (parseFunctionDecl_proper hg).map fun _ => decl_whole)
  · exact .whole (.skip fun _ => (parseClassDecl_proper hg).map fun _ => decl_whole)
  · exact .whole ((parseVars_proper hg _).map fun _ => decl_whole)

theorem parseWordStmt_leads (allowDecls : Bool) :
    Leads (fun _ => True) (parseWordStmt g allowDecls) Stmt.ReadTo := by
  refine .skip fun _ => .ite
    (.whole (.bind hg.expr fun _ h => .skip fun _ => .pure ⟨.cons rfl rfl h.expr, rfl⟩)) <|
    .skip fun _ => .skip fun _ => .ite (.whole .fail) ?_
  extract_lets rest
  have hrest (kind) : Leads (fun _ => True) (rest kind) Stmt.ReadTo := by
    cases kind with
    | some kind => exact .whole ((parseVars_proper hg kind).bind fun _ h => .pure (decl_whole h))
    | none =>
      exact .skip fun _ => .ite
        (.whole ((parseFunctionDecl_proper hg).bind fun _ h => .pure (decl_whole h)))
        (parseExprStmt_leads hg)
  exact .ite (.skip hrest) (.skip hrest)

theorem parseStmt_leads (allowDecls : Bool) :
    Leads (fun _ => True) (parseStmt g allowDecls) Stmt.ReadTo := by
  refine .skip fun token => ?_
  split
  · exact .whole (.bind (parseBlock_proper hg) fun _ h => .pure ⟨.cons rfl rfl h, rfl⟩)
  · exact .whole (.skip fun _ => .pure ⟨.cons rfl rfl .nil, rfl⟩)
  · split
    · rename_i h
      exact parseKeywordStmt?_leads hg allowDecls _ _ h
    · exact parseWordStmt_leads hg allowDecls
  · exact parseExprStmt_leads hg

theorem parseTopStmt_proper : Gives (parseTopStmt g) (Proper ·.statements) :=
  .skip fun start => .skip fun _ => .ite
    (.skip fun _ => .bind (parseAwait_proper hg start) fun e he =>
      .bind (.withIn (parseBinaryTail_proper hg _ _ e he)) fun _ h => .skip fun _ =>
        .pure (.cons rfl rfl h.expr))
    ((parseStmt_leads hg true).gives fun _ _ h => h.1)

/-! ### Programs -/

omit hg in
theorem parseImport_proper : Gives (parseImport g) (Proper ·.statements) :=
  .skip fun _ => .skip fun _ => .skip fun _ => by
    split
    · exact .skip fun _ => .skip fun _ => .pure .nil
    · exact .skip fun _ => .skip fun _ => .skip fun _ => .skip fun _ => .skip fun _ => .pure .nil

omit hg in
theorem parseExportNames_proper : Gives (parseExportNames g) (Proper ·.statements) :=
  .skip fun _ => .ite
    (.skip fun _ => .ite (.skip fun _ => .skip fun _ => .pure .nil) (.skip fun _ => .pure .nil)) <|
  .skip fun _ => .skip fun _ => .skip fun _ => .ite (.skip fun _ => .pure .nil) <|
  .skip fun _ => .skip fun _ => .pure .nil

theorem parseExportDefault_proper : Gives (parseExportDefault g) (Proper ·.statements) :=
  .skip fun _ => .ite (.bind (parseClassExpr_proper hg) fun _ h => .pure h) <|
  .skip fun _ => .skip fun _ => .ite (.bind (parseFunctionExpr_proper hg) fun _ h => .pure h) <|
  .bind hg.assign.withIn fun _ h => .skip fun _ => .pure h.expr

theorem parseExport_proper : Gives (parseExport g) (Proper ·.statements) :=
  .skip fun _ => .skip fun _ => .skip fun _ => .ite (parseExportDefault_proper hg) <|
  .skip fun _ => .ite (.bind (parseClassDecl_proper hg) fun _ h => .pure h) <|
  .skip fun _ => .skip fun _ => .ite (.bind (parseFunctionDecl_proper hg) fun _ h => .pure h) <|
  .skip fun kind => by
    split
    · exact .bind (parseVars_proper hg _) fun _ h => .pure h
    · exact parseExportNames_proper

theorem parseItems_proper : ∀ (fuel : Nat) (isFirst : Bool),
    Gives (parseItems g isFirst fuel) (Proper <| itemsStatements ·)
  | 0, _ => .fail
  | fuel + 1, _ =>
    .skip fun _ => .skip fun _ => .ite (.pure .nil) <| .skip fun _ => .ite
      (.skip fun _ => .within <| .bind
        (.skip fun _ => .ite parseImport_proper (parseExport_proper hg)) fun _ h =>
        .bind (parseItems_proper fuel _) fun _ hs => .pure (.append h hs)) <|
    .bind (parseTopStmt_proper hg) fun _ h =>
    .bind (.within (parseItems_proper fuel _)) fun _ hs => .pure (.append h hs)

end Statements

/-- **What is read has only proper statements in it**, to every depth. -/
theorem grammar_proper : ∀ depth, (grammar depth).Proper
  | 0 => {
    expr := .fail
    assign := .fail
    unary := .fail
    operators := fun _ _ => .fail
    leftHand := .fail
    callee := .fail
    binding := .fail
    stmt := fun _ => .whole .fail }
  | depth + 1 =>
    have hg := grammar_proper depth
    { expr := parseExpr_proper hg
      assign := parseAssign_proper hg
      unary := parseUnary_proper hg
      operators := fun left h => parseBinaryTail_proper hg depth 0 left h
      leftHand := parseLeftHand_proper hg
      callee := parseCallee_proper hg
      binding := parseBinding_proper hg
      stmt := parseStmt_leads hg }

end Parse

theorem parseProgram_proper {source : List Char} {parsed : Parsed}
    (h : parseProgram source = .ok parsed) : Proper parsed.program.statements := by
  unfold parseProgram at h
  obtain ⟨shebang, rest⟩ := splitShebang source
  dsimp only at h
  split at h
  · exact nomatch h
  · rename_i items s hitems
    cases h
    exact Parse.parseItems_proper (Parse.grammar_proper _) _ _ _ _ _ _ hitems

theorem Source.read_proper {code : String} {path : Option String} {mode : ParseMode}
    {source : Source} (h : Source.read code path mode = .ok source) :
    Proper source.program.statements := by
  unfold Source.read at h
  extract_lets text at h
  split at h
  · exact nomatch h
  · rename_i parsed hparsed
    split at h
    · exact nomatch h
    · cases h
      exact parseProgram_proper hparsed

/-! ### Removing dead branches -/

/-- **No `else` changes its `if`.** In every program that is read, every `else` is
where it belongs, and there are no placeholders. Wherever that holds, the same holds
of every `else` of what is left of the program; what is left of a closed statement
is closed, and something is left of it. So every statement that is left is read
back as it is from what is printed of it, behind which there may be anything,
except an `else` behind an open one. -/
theorem shrink_attached :
    (∀ code path mode source, Source.read code path mode = .ok source →
      Attached source.program.statements ∧ Unremoved source.program.statements) ∧
    ∀ (wholeChain : Bool) (locate : Nat → Location) (p : Program),
      Attached p.statements → Unremoved p.statements →
        let left := (shrink wholeChain locate p).program
        Attached left.statements ∧
          (∀ t ∈ p.statements, t.isOpen = false → ∀ s : Shrinker,
            (walkStmt (Shrinker.visitor wholeChain locate) t s).1.isOpen = false ∧
              (walkStmt (Shrinker.visitor wholeChain locate) t s).1 ≠ .removed) ∧
          ∀ t ∈ left.statements,
            (∀ st, solid (printStmt st t) = solid (t.marks.flatMap (Mark.print st))) ∧
              ∀ rest, (t.isOpen → rest.head? ≠ some .otherwise) →
                ∀ t' rest', Reads (t.marks ++ rest) t' rest' ↔ t' = t ∧ rest' = rest := by
  refine ⟨fun _ _ _ _ hread => Source.read_proper hread, fun wholeChain locate p hl hr => ?_⟩
  intro left
  have hleft : Attached left.statements := walkProgram_attached p _ hl hr
  refine ⟨hleft, fun t ht hclosed s => ?_, fun t ht => ⟨fun st => printStmt_marks st t, ?_⟩⟩
  · obtain ⟨hopen, hremoved⟩ := walkStmt_closed (v := Shrinker.visitor wholeChain locate)
      p.nested_statements hl hr t s ht hclosed
    refine ⟨hopen, fun h => ?_⟩
    rw [h] at hremoved
    exact nomatch hremoved
  · intro rest hrest t' rest'
    have hreads := reads_marks left.nested_statements hleft t rest ht hrest
    constructor
    · exact hreads.unique
    · rintro ⟨rfl, rfl⟩
      exact hreads

/-- `if (a) while (b) if (false) c; else d; else e;` -/
def loopBeforeElse : Program :=
  ⟨.script, none, [.stmt (.ifElse ⟨0, 49⟩ (.ident "a")
    (.whileLoop (.ident "b") (.ifElse ⟨17, 41⟩ (.literal (.bool false)) (.expr (.ident "c"))
      (some (.expr (.ident "d")))))
    (some (.expr (.ident "e"))))]⟩

theorem loopBeforeElse_attached :
    Attached (shrink false (fun n => ⟨none, 1, n⟩) loopBeforeElse).program.statements :=
  (shrink_attached.2 false _ loopBeforeElse (by decide) (by decide)).1

end DeadBranch
