/-
# Expressions as they are read

If what the grammar reads further down has only proper statements in it, so has
every function, class and expression. No function here makes a statement of its
own: a body is a list of statements that were read.

Key theorems: `Parse.parseClosure_proper`, `Parse.parseClassTail_proper`,
`Parse.parseSubscripts_proper`, `Parse.parseBinaryTail_proper`, `Parse.parseExpr_proper`.
-/
import DeadBranch.Proofs.Reading

namespace DeadBranch
namespace Parse

/-! ### Blocks and functions -/

section Closures

variable {g : Grammar} (hg : g.Proper)

include hg

theorem parseStmts_proper : ∀ fuel : Nat,
    Gives (parseStmts g fuel) fun found => Proper (stmtsStatements (found.map (·.2)))
  | 0 => .fail
  | fuel + 1 =>
    .skip fun _ => .ite (.skip fun _ => .skip fun _ => .pure .nil) <|
    .skip fun _ => .skip fun _ => .ite (.pure .nil) <|
    .skip fun _ => .bind (hg.stmt_gives true) fun _ hs =>
    .bind (parseStmts_proper fuel) fun _ hss => .pure (.append hs hss)

theorem parseBraces_proper (allowStrict : Bool) :
    Gives (parseBraces g allowStrict) fun found => Proper found.1.statements :=
  .skip fun _ => .skip fun _ => .skip fun _ => .skip fun _ => by
    extract_lets block
    have hblock (stmts : List (Nat × Stmt)) (h : Proper (stmtsStatements (stmts.map Prod.snd))) :
        Gives (block stmts) fun found => Proper found.1.statements :=
      .skip fun _ => .pure h
    exact .ite (.bind (parseStmts_proper hg _) hblock) <|
      .skip fun _ => .bind (hg.stmt_gives true) fun _ hs =>
      .bind (.within (parseStmts_proper hg _)) fun _ hss => .pureBind (hblock _ (.append hs hss))

theorem parseBlock_proper : Gives (parseBlock g) (Proper ·.statements) :=
  .bind (parseBraces_proper hg false) fun _ h => .pure h

theorem parseBody_proper (isArrow : Bool) (params : List Expr) :
    Gives (parseBody g isArrow params) (Proper ·.statements) :=
  .bind (parseBraces_proper hg _) fun ⟨_, strict⟩ h => by
    cases strict with
    | none => exact .pure h
    | some place => exact .butNotIf (.pure h)

theorem parseClosure_proper (head : ClosureHead) (start : Nat)
    (check : Nat → List Expr → Parse Unit) :
    Gives (parseClosure g head start check) (Proper ·.statements) :=
  .within <| .skip fun _ =>
  .bind (.within (.skip fun _ => .bind (parseParamList_proper hg _ _) fun _ h =>
    .skip fun _ => .pure h)) fun _ hparams => .skip fun _ =>
  .bind (.within (.withoutLabels (parseBody_proper hg _ _))) fun _ hbody =>
  .skip fun _ => .pure (.append hparams hbody)

theorem parseFunctionTail_proper (start : Nat) (isAsync isGenerator : Bool)
    (name : Option String) :
    Gives (parseFunctionTail g start isAsync isGenerator name) (Proper ·.statements) :=
  .within (parseClosure_proper hg _ _ _)

theorem parseFunctionExpr_proper : Gives (parseFunctionExpr g) (Proper ·.statements) :=
  .skip fun _ => .skip fun ⟨_, _⟩ => .skip fun _ => parseFunctionTail_proper hg _ _ _ _

theorem parseFunctionDecl_proper : Gives (parseFunctionDecl g) (Proper ·.statements) :=
  .skip fun _ => .skip fun ⟨_, _⟩ => .skip fun _ =>
    .bind (parseFunctionTail_proper hg _ _ _ _) fun _ h => .pure h

theorem parseArrowBody_proper (start : Nat) (isAsync : Bool) {params : List Expr}
    (hparams : Proper (exprsStatements params)) :
    Gives (parseArrowBody g start isAsync params) Term.Proper :=
  .within <| .withoutLabels <| .skip fun _ =>
    .ite (.bind (parseBody_proper hg _ _) fun _ h => .skip fun _ =>
      .pure (Term.proper_leaf (.append hparams h))) <|
    .bind hg.assign fun _ h => .skip fun _ => .pure (Term.proper_leaf (.append hparams h.expr))

/-! ### Methods, properties and classes -/

theorem parseMethod_proper (start : Nat) {key : Key} (hkey : Proper key.statements)
    (isAsync isGenerator : Bool) :
    Gives (parseMethod g start key isAsync isGenerator) (Proper ·.statements) :=
  .bind (.within (parseClosure_proper hg _ _ _)) fun _ h => .pure (.append hkey h)

omit hg in
theorem accessorBody_proper (role : Role) {body : Closure} (h : Proper body.statements) :
    Proper (accessorBody role body).statements := by
  cases body with
  | block head span params body =>
    refine .append ?_ h.right
    split
    · exact .nil
    · exact h.left.exprs_take 1
  | concise head span params result => exact h

theorem parseAccessor_proper (start : Nat) (role : Role) :
    Gives (parseAccessor g start role) (Proper ·.statements) :=
  .skip fun _ => .bind (parseKey_proper hg) fun _ hkey =>
    .bind (.within (parseClosure_proper hg _ _ _)) fun _ h =>
      .pure (.append hkey (accessorBody_proper role h))

theorem parseShorthand_proper (start : Nat) (name : String) :
    Gives (parseShorthand g start name) (Proper ·.statements) :=
  .skip fun _ => by
    extract_lets value rest
    have hvalue (u) : Gives (value u) (Proper ·.statements) :=
      .skip fun _ => .ite (.bind hg.assign.withIn fun _ he => .pure he.expr) (.pure .nil)
    have hrest (u) : Gives (rest u) (Proper ·.statements) :=
      .skip fun _ => .ite (.skip fun _ => .ite (.skip hvalue) (hvalue ())) <|
        .ite (parseAccessor_proper hg _ _) <| .ite (parseAccessor_proper hg _ _) <|
        .ite (.skip fun _ => .bind (parseKey_proper hg) fun _ hkey =>
          parseMethod_proper hg _ hkey _ _) .unexpected
    exact .ite (.skip fun _ => .skip hrest) (hrest ())

theorem parseProperty_proper : Gives (parseProperty g)
    fun found => Proper found.1.statements ∧ Proper (termsStatements found.2) :=
  .skip fun _ => .skip fun _ =>
    .ite (.bind hg.assign.withIn fun _ he => .pure ⟨he.expr, .append he .nil⟩) <|
  .skip fun _ => .ite (.bind (parseKey_proper hg) fun _ hkey =>
    .bind (parseMethod_proper hg _ hkey _ _) fun _ h => .pure ⟨h, .nil⟩) <|
  .bind (parseKey_proper hg) fun _ hkey => .skip fun _ =>
    .ite (.bind hg.assign.withIn fun _ he => .pure ⟨.append hkey he.expr, .append he .nil⟩) <|
  .skip fun _ => .ite (.bind (parseMethod_proper hg _ hkey _ _) fun _ h => .pure ⟨h, .nil⟩) <| by
    split
    · exact .bind (parseShorthand_proper hg _ _) fun _ h => .pure ⟨h, .nil⟩
    · exact .unexpected

theorem parseProperties_proper (start : Nat) : ∀ fuel : Nat, Gives (parseProperties g start fuel)
    fun found => Proper (propertiesStatements (found.map (·.1))) ∧
      Proper (termsStatements (found.map (·.2)))
  | 0 => .fail
  | fuel + 1 =>
    .skip fun _ => .ite (.pure ⟨.nil, .nil⟩) <| .skip fun _ =>
    .bind (parseProperty_proper hg) fun ⟨_, _⟩ hp => .skip fun _ => by
      extract_lets rest
      have hrest (u) : Gives (rest u) fun found =>
          Proper (propertiesStatements (found.map (·.1))) ∧
            Proper (termsStatements (found.map (·.2))) :=
        .bind (parseProperties_proper start fuel) fun _ hps =>
          .pure ⟨.append hp.1 hps.1, .append (.append .nil hp.2) hps.2⟩
      exact .ite (hrest ()) <| .skip fun _ => .skip fun _ =>
        .ite (.skip fun _ => .skip hrest) (hrest ())

theorem parseObject_proper : Gives (parseObject g) Term.Proper :=
  .skip fun _ => .skip fun _ => .bind (parseProperties_proper hg _ _) fun _ h =>
    .pure (Proper.append h.1 h.2)

theorem parseMemberKey_proper : Gives (parseMemberKey g) (Proper ·.statements) :=
  .skip fun _ => .ite (.skip fun _ => .skip fun _ => .onlyIf (.pure .nil)) (parseKey_proper hg)

theorem parseField_proper (isStatic : Bool) {key : Key} (hkey : Proper key.statements)
    (keyStart : Nat) : Gives (parseField g isStatic key keyStart) (Proper ·.statements) :=
  by
    unfold parseField
    refine .onlyIf <| .within <| .skip fun _ => ?_
    extract_lets field
    have hfield (value) (h : Proper value.statements) :
        Gives (field value) (Proper ·.statements) :=
      .skip fun _ => .ite (.pure (.append hkey h)) <| .skip fun _ => .skip fun _ =>
        .pure (.append hkey h)
    exact .ite (.bind (hg.assign.expr) hfield) (.pureBind (hfield _ .nil))

theorem parseMemberTail_proper (head : MemberHead) (place : Nat) {key : Key}
    (hkey : Proper key.statements) :
    Gives (parseMemberTail g head place key) (Proper ·.statements) :=
  .bind (.within (parseClosure_proper hg _ _ _)) fun _ h => .pure (.append hkey h)

theorem parseNamedMember_proper (head : MemberHead) (keyStart : Nat) {key : Key}
    (hkey : Proper key.statements) :
    Gives (parseNamedMember g head keyStart key) (Proper ·.statements) :=
  .skip fun role => .skip fun _ => .ite (parseField_proper hg _ hkey _) <| by
    split
    · exact .skip fun _ => .ite .unexpected <| .skip fun _ =>
        .bind (parseMemberKey_proper hg) fun _ hkey => .ite
          (.skip fun _ => .skip fun _ => parseMemberTail_proper hg _ _ hkey)
          (parseMemberTail_proper hg _ _ hkey)
    · exact .bind (parseMemberKey_proper hg) fun _ hkey =>
        .onlyIf (parseMemberTail_proper hg _ _ hkey)
    · exact .unexpected

theorem parsePlainMember_proper (head : MemberHead) :
    Gives (parsePlainMember g head) (Proper ·.statements) :=
  .skip fun _ => .ite (.bind (.within (parseBlock_proper hg)) fun _ h => .pure h) <|
  .skip fun _ => .ite
    (.bind (parseMemberKey_proper hg) fun _ hkey => .ite
      (.skip fun _ => .skip fun _ => parseMemberTail_proper hg _ _ hkey)
      (parseMemberTail_proper hg _ _ hkey)) <|
  .skip fun _ => .bind (parseMemberKey_proper hg) fun _ hkey => .skip fun _ => .ite
    (.ite (.bind (.within (parseClosure_proper hg _ _ _)) fun _ h => .pure (.append hkey h))
      (parseMemberTail_proper hg _ _ hkey))
    (parseNamedMember_proper hg _ _ hkey)

theorem parseMember_proper : Gives (parseMember g) (Proper ·.statements) :=
  have hkey : Proper (Key.ident "static").statements := .nil
  .skip fun _ => .skip fun _ => .ite
    (.skip fun _ => .ite (parseMemberTail_proper hg _ _ hkey) <| .skip fun _ =>
      .ite (parseField_proper hg _ hkey _) (parsePlainMember_proper hg _))
    (parsePlainMember_proper hg _)

theorem parseMembers_proper : ∀ (fuel : Nat) (hasConstructor : Bool),
    Gives (parseMembers g hasConstructor fuel) (Proper <| propertiesStatements ·)
  | 0, _ => .fail
  | fuel + 1, _ =>
    .skip fun _ => .skip fun _ => .ite (.pure .nil) <| .skip fun _ =>
    .ite (.bind (parseMembers_proper fuel _) fun _ h => .pure (.append .nil h)) <|
    .skip fun _ => .bind (.within (parseMember_proper hg)) fun _ hp =>
      .onlyIf <| .bind (parseMembers_proper fuel _) fun _ h => .pure (.append hp h)

theorem parseClassTail_proper : Gives (parseClassTail g)
    fun found => Proper (propertiesStatements found.1) ∧ Proper found.2.statements :=
  .skip fun _ => by
    extract_lets members
    have hmembers (parent) (h : Proper parent.statements) : Gives (members parent)
        fun found => Proper (propertiesStatements found.1) ∧ Proper found.2.statements :=
      .skip fun _ => by
        extract_lets body
        have hbody (u) : Gives (body u)
            fun found => Proper (propertiesStatements found.1) ∧ Proper found.2.statements :=
          .skip fun _ => .bind (parseMembers_proper hg _ _) fun _ hms => .skip fun _ =>
            .ite (.skip fun _ => .skip fun _ => .pure ⟨hms, h⟩) (.skip fun _ => .pure ⟨hms, h⟩)
        exact .ite (.skip fun _ => .skip fun _ => .skip fun _ => hbody ()) (hbody ())
    exact .ite (.bind (hg.leftHand.expr) hmembers)
      (.pureBind (hmembers _ .nil))

theorem parseClassExpr_proper : Gives (parseClassExpr g) (Proper ·.statements) :=
  .within <| .skip fun _ => .skip fun _ => .bind (parseClassTail_proper hg) fun ⟨_, _⟩ h =>
    .pure (.append h.1 h.2)

theorem parseClassDecl_proper : Gives (parseClassDecl g) (Proper ·.statements) :=
  .within <| .skip fun _ => .skip fun _ => .bind (parseClassTail_proper hg) fun ⟨_, _⟩ h =>
    .pure (.append h.1 h.2)

end Closures

/-! ### Literals, arrays and parentheses -/

theorem parseRegex_proper (front : List Char) : Gives (parseRegex front) Term.Proper :=
  .skip fun _ => .skip fun _ => .skip fun _ => .skip fun token => by
    split
    · exact .skip fun _ => .skip fun _ => .pure (Term.proper_leaf .nil)
    · exact .fail

theorem toParams_proper (comma : Option Nat) {ts : List Term} (hts : Proper (termsStatements ts)) :
    Gives (toParams comma ts) (Proper <| exprsStatements ·) := by
  induction ts with
  | nil => exact .pure .nil
  | cons t rest ih =>
    cases t with
    | mk e start parts =>
      have hfirst := toPattern_proper .param (.mk e start parts) hts.left
      have hspread := spreadPatterns_proper .param parts hts.left.right
      have hrest := ih hts.right
      cases e with
      | spread operand =>
        cases rest with
        | nil =>
          unfold toParams
          refine .onlyIf ?_
          cases comma with
          | none => exact hspread
          | some place => exact .skip fun _ => hspread
        | cons t rest => exact .skip fun _ => hrest
      | _ => exact .bind hfirst fun _ he => .bind hrest fun _ hes => .pure (.append he hes)

theorem parenthesized_proper (start : Nat) {entries : List Term}
    (h : Proper (termsStatements entries)) : Gives (parenthesized start entries) Term.Proper := by
  unfold parenthesized
  refine .onlyIf <| .onlyIf ?_
  split
  · exact .pure (Term.proper_leaf (proper_exprs_of_terms h).left)
  · exact .pure (Term.proper_leaf (proper_exprs_of_terms h))

section Operands

variable {g : Grammar} (hg : g.Proper)

include hg

theorem parseSpreadable_proper : Gives (parseSpreadable g) Term.Proper :=
  .skip fun _ => .skip fun _ => .ite
    (.bind hg.assign.withIn fun _ h => .pure (Proper.append h.expr (.append h .nil)))
    hg.assign.withIn

theorem parseArgumentList_proper (start : Nat) (isImport : Bool) : ∀ (fuel : Nat) (isFirst : Bool),
    Gives (parseArgumentList g start isImport isFirst fuel) (Proper <| exprsStatements ·)
  | 0, _ => .fail
  | fuel + 1, isFirst => by
    have hlater : Gives (do
        let first ← parseSpreadable g
        return first.expr :: (← parseArgumentList g start isImport false fuel))
        (Proper <| exprsStatements ·) :=
      .bind (parseSpreadable_proper hg) fun _ h =>
        .bind (parseArgumentList_proper start isImport fuel false) fun _ hes =>
          .pure (.append h.expr hes)
    exact .skip fun _ => .skip fun _ => .ite (.pure .nil) <| .ite hlater <|
      .skip fun _ => .skip fun _ => .ite (.onlyIf (.pure .nil)) hlater

theorem parseArguments_proper (isImport : Bool) :
    Gives (parseArguments g isImport) (Proper <| exprsStatements ·) :=
  .skip fun _ => .skip fun _ => .bind (parseArgumentList_proper hg _ _ _ _) fun _ h =>
    .skip fun _ => .pure h

theorem parseElements_proper (start : Nat) : ∀ fuel : Nat,
    Gives (parseElements g start fuel) (Proper <| termsStatements ·)
  | 0 => .fail
  | fuel + 1 =>
    have hrest := parseElements_proper start fuel
    .skip fun _ => .skip fun _ => .ite (.pure .nil) <| .skip fun _ => .ite
      (.skip fun _ => .skip fun _ => .bind hrest fun _ hts =>
        .pure (.append (Term.proper_leaf .nil) hts)) <|
    .bind (parseSpreadable_proper hg) fun _ ht => by
      refine .skip fun _ => ?_
      extract_lets rest
      have hrest (u) : Gives (rest u) (Proper <| termsStatements ·) :=
        .bind hrest fun _ hts => .pure (.append ht hts)
      exact .ite (hrest ()) <| .skip fun _ => .skip fun _ =>
        .ite (.skip fun _ => .skip hrest) (hrest ())

theorem parseArray_proper : Gives (parseArray g) Term.Proper :=
  .skip fun _ => .skip fun _ => .bind (parseElements_proper hg _ _) fun _ h => .skip fun _ =>
    .pure (Proper.append (proper_exprs_of_terms h) h)

theorem parseTemplateParts_proper (isTagged : Bool) : ∀ fuel : Nat,
    Gives (parseTemplateParts g isTagged fuel) fun found => Proper (exprsStatements found.2)
  | 0 => .fail
  | fuel + 1 =>
    .skip fun _ => .skip fun _ => .ite (.pure .nil) <| .skip fun _ =>
    .bind hg.expr.withIn fun _ h => .skip fun _ =>
    .bind (parseTemplateParts_proper isTagged fuel) fun ⟨_, _⟩ hes => .pure (.append h.expr hes)

theorem parseTemplate_proper (isTagged : Bool) :
    Gives (parseTemplate g isTagged) fun found => Proper (exprsStatements found.2) :=
  .skip fun _ => .bind (parseTemplateParts_proper hg _ _) fun _ h => .skip fun _ => .pure h

theorem parseEntries_proper : ∀ (fuel : Nat) (comma : Option Nat),
    Gives (parseEntries g comma fuel) fun found => Proper (termsStatements found.1)
  | 0, _ => .fail
  | fuel + 1, _ =>
    .skip fun _ => .skip fun _ => .ite (.pure .nil) <| .skip fun _ => by
      extract_lets entries
      have hentries (isAsync) :
          Gives (entries isAsync) fun found => Proper (termsStatements found.1) :=
        .skip fun start => .skip fun _ => .bind (parseSpreadable_proper hg) fun entry ht => by
          refine .skip fun _ => ?_
          extract_lets rest
          have hrest (more) (h : Proper (termsStatements more)) :
              Gives (rest more) fun found => Proper (termsStatements found.1) :=
            .skip fun _ => by
              extract_lets later
              have hlater (comma) :
                  Gives (later comma) fun found => Proper (termsStatements found.1) :=
                .bind (parseEntries_proper fuel comma) fun ⟨_, _⟩ hts =>
                  .pure (.append ht (hts.terms_append h))
              exact .ite (.skip hlater) <| .skip fun _ => .skip fun _ =>
                .ite (.skip hlater) (.skip hlater)
          refine .ite ?_ (.pureBind (hrest _ .nil))
          split
          · exact .bind (parseArrowBody_proper hg _ _ .nil) fun _ he =>
              .pureBind (hrest _ (.append he .nil))
          · exact .pureBind (hrest _ .nil)
      refine .ite (.skip fun _ => ?_) (.skip hentries)
      split
      · exact .skip hentries
      · exact .skip hentries
      · exact .skip fun _ => .skip hentries
      · exact .skip hentries
      · exact .skip hentries

theorem parseArrowOperators_proper {arrow : Term} (h : arrow.Proper) :
    Gives (parseArrowOperators g arrow) Term.Proper :=
  .skip fun _ => .skip fun _ => .bind (hg.operators arrow h) fun _ he => .skip fun _ =>
    .ite (.pure he) (.skip fun _ => .skip fun _ => .pure he)

theorem parseParens_proper (mayBeArrow : Bool) (asyncStart : Option Nat) :
    Gives (parseParens g mayBeArrow asyncStart) Term.Proper := by
  unfold parseParens
  extract_lets parens
  have hparens (start) : Gives (parens start) Term.Proper := by
    refine .bind (.withIn (.skip fun _ => .bind (parseEntries_proper hg _ _) fun _ h =>
      .skip fun _ => .pure h)) fun ⟨entries, comma⟩ h => .skip fun _ => .ite
      (.skip fun _ => .onlyIf <| .butNotIf <| .skip fun _ =>
        .bind (toParams_proper comma h) fun _ hparams =>
        .bind (parseArrowBody_proper hg _ _ hparams) fun arrow harrow =>
        .ite (.skip fun _ => .skip fun _ =>
          .ite (parseArrowOperators_proper hg harrow) (.pure harrow)) (.pure harrow))
      (.skip fun _ => ?_)
    cases asyncStart with
    | none => exact parenthesized_proper start h
    | some _ => exact .pure (Term.proper_leaf (proper_exprs_of_terms h))
  cases asyncStart with
  | none => exact .skip hparens
  | some start => exact .pureBind (hparens start)

theorem parseNameOrArrow_proper (start : Nat) (mayBeArrow : Bool) :
    Gives (parseNameOrArrow g start mayBeArrow) Term.Proper :=
  have hname {name : String} : (Term.leaf start (.ident name)).Proper := Term.proper_leaf .nil
  .skip fun _ => .skip fun _ => .ite
    (.skip fun _ => .ite
      (.skip fun _ => .ite (.skip fun _ => .onlyIf (.pure hname))
        (.skip fun _ => .skip fun _ => parseArrowBody_proper hg _ _ .nil))
      (.skip fun _ => .ite
        (.ite (.skip fun _ => .onlyIf (parseArrowBody_proper hg _ _ .nil))
          (parseArrowBody_proper hg _ _ .nil))
        (.pure hname)))
    (.pure hname)

theorem parseWordExpr_proper (start : Nat) (mayBeArrow : Bool) :
    Gives (parseWordExpr g start mayBeArrow) Term.Proper :=
  .skip fun _ => .ite
    (.bind (parseClassExpr_proper hg) fun _ h => .pure (Term.proper_leaf h)) <|
  .skip fun _ => .skip fun _ => .ite (parseNameOrArrow_proper hg _ _) <|
  .skip fun _ => .ite (.skip fun _ => .pure (Term.proper_leaf .nil)) .fail

theorem parseAsync_proper (start : Nat) (mayBeArrow : Bool) :
    Gives (parseAsync g start mayBeArrow) Term.Proper :=
  .skip fun _ => .ite
    (.bind (parseFunctionExpr_proper hg) fun _ h => .pure (Term.proper_leaf h)) <|
  .skip fun _ => .ite (.skip fun _ => parseParens_proper hg _ _) (parseWordExpr_proper hg _ _)

theorem parsePrimary_proper : Gives (parsePrimary g) Term.Proper :=
  .skip fun start => .skip fun _ => by
    extract_lets mayBeArrow literal
    have hliteral (value) : Gives (literal value) Term.Proper :=
      .skip fun _ => .pure (Term.proper_leaf .nil)
    refine .skip fun token => ?_
    split
    · exact .skip fun _ => .pure (Term.proper_leaf .nil)
    · exact parseAsync_proper hg _ _
    · exact parseArray_proper hg
    · exact parseObject_proper hg
    · exact .bind (parseFunctionExpr_proper hg) fun _ h => .pure (Term.proper_leaf h)
    · exact hliteral _
    · exact hliteral _
    · exact hliteral _
    · exact hliteral _
    · exact hliteral _
    · exact hliteral _
    · exact parseRegex_proper _
    · exact parseRegex_proper _
    · exact .bind (parseTemplate_proper hg _) fun ⟨_, _⟩ h => .pure (Term.proper_leaf h)
    · exact parseParens_proper hg _ _
    · exact parseWordExpr_proper hg _ _

/-! ### Members and calls -/

omit hg in
theorem parseMemberName_proper {base : Term} (h : base.Proper) (isOptional : Bool) :
    Gives (parseMemberName base isOptional) (Proper ·.statements) :=
  have hone : Proper (exprsStatements [base.expr]) := .append h.expr .nil
  .skip fun _ => .ite (.skip fun _ => .skip fun _ => .pure hone) <|
  .skip fun _ => .ite (.butNotIf (.pure .nil)) <|
  .skip fun _ => .ite (.pure hone) (.pure h.expr)

theorem parseIndex_proper {base : Term} (h : base.Proper) (isOptional : Bool) :
    Gives (parseIndex g base isOptional) (Proper ·.statements) :=
  .bind hg.expr.withIn fun _ hkey => .skip fun _ => .skip fun _ =>
    .ite (.pure (.append h.expr (.append hkey.expr .nil))) (.pure (.append h.expr hkey.expr))

theorem parseCall_proper {base : Term} (h : base.Proper) (isOptional : Bool) :
    Gives (parseCall g base isOptional) (Proper ·.statements) :=
  .bind (parseArguments_proper hg _) fun _ hargs =>
    .ite (.onlyIf (.pure (.append h.expr hargs))) (.pure (.append h.expr hargs))

theorem parseSubscript?_proper (allowCalls : Bool) {base : Term} (h : base.Proper) :
    Gives (parseSubscript? g allowCalls base) fun found => ∀ e ∈ found, Proper e.statements :=
  .skip fun _ => .skip fun _ => .ite
    (.skip fun _ => .skip fun _ => by
      split
      · exact .skip fun _ => .skip fun _ => (parseIndex_proper hg h _).some
      · exact .skip fun _ => (parseCall_proper hg h _).some
      · exact .skip fun _ => (parseMemberName_proper h _).some) <|
  .skip fun _ => .ite (parseIndex_proper hg h _).some <|
  .skip fun _ => .ite (parseCall_proper hg h _).some <|
  .skip fun _ => .ite (parseMemberName_proper h _).some <| .ite .fail <| .ite .fail <|
  .skip fun _ => .ite
    (.bind (parseTemplate_proper hg _) fun ⟨_, _⟩ hes => .onlyIf <| .pure fun e he => by
      cases he
      exact .append h.expr hes) <|
  .pure nofun

theorem parseSubscripts_proper (allowCalls : Bool) : ∀ (fuel : Nat) (base : Term), base.Proper →
    Gives (parseSubscripts g allowCalls fuel base) Term.Proper
  | 0, _, _ => .fail
  | fuel + 1, base, h => .bind (parseSubscript?_proper hg allowCalls h) fun found hfound => by
    cases found with
    | none => exact .pure h
    | some e => exact parseSubscripts_proper allowCalls fuel _ (Term.proper_leaf (hfound e rfl))

theorem parseNewTarget_proper (start : Nat) : Gives (parseNewTarget g start) Term.Proper :=
  .skip fun _ => .butNotIf <| .skip fun _ => .butNotIf <|
    parseSubscripts_proper hg _ _ _ (Term.proper_leaf .nil)

theorem parseNew_proper (start : Nat) : Gives (parseNew g start) Term.Proper :=
  .skip fun _ => .ite (parseNewTarget_proper hg start) <|
  .bind hg.callee fun _ h => .ite (.pure h) <| .onlyIf <| .skip fun _ => .ite
    (.bind (parseArguments_proper hg _) fun _ hargs =>
      parseSubscripts_proper hg _ _ _ (Term.proper_leaf (.append h.expr hargs)))
    (.pure (Term.proper_leaf (.append h.expr .nil)))

theorem parseCallee_proper : Gives (parseCallee g) Term.Proper :=
  .skip fun start => .skip fun _ => .ite (parseNew_proper hg start) <|
  .skip fun _ => .ite (parseSubscripts_proper hg _ _ _ (Term.proper_leaf .nil)) <|
  .skip fun _ => .ite (parseSubscripts_proper hg _ _ _ (Term.proper_leaf .nil)) <|
  .bind (parsePrimary_proper hg) fun _ h => .ite (.pure h) (parseSubscripts_proper hg _ _ _ h)

theorem parseLeftHand_proper : Gives (parseLeftHand g) Term.Proper :=
  .skip fun _ => .skip fun _ => .ite (parseSubscripts_proper hg _ _ _ (Term.proper_leaf .nil)) <|
  .skip fun _ => .ite (parseSubscripts_proper hg _ _ _ (Term.proper_leaf .nil)) <|
  .bind (parseCallee_proper hg) fun _ h => .ite (.pure h) <| .skip fun _ => .ite
    (.bind (parseCall_proper hg h _) fun _ he =>
      parseSubscripts_proper hg _ _ _ (Term.proper_leaf he))
    (.pure h)

/-! ### Operators and assignments -/

theorem parseAwait_proper (start : Nat) : Gives (parseAwait g start) Term.Proper :=
  have hoperand : Gives (do
      let operand ← g.unary
      return Term.leaf start (.other .await [operand.expr])) Term.Proper :=
    .bind hg.unary fun _ h => .pure (Term.proper_leaf (.append h.expr .nil))
  .skip fun _ => .onlyIf <| .skip fun _ => .skip fun _ => .skip fun _ => .ite
    (.onlyIf (.pure (Term.proper_leaf .nil)))
    (.ite (.skip fun _ => .skip fun _ => .onlyIf hoperand) (.onlyIf hoperand))

theorem parseUnary_proper : Gives (parseUnary g) Term.Proper :=
  .skip fun _ => .skip fun token => .ite
    (.skip fun _ => .bind hg.unary fun _ h => .skip fun _ =>
      .pure (Term.proper_leaf (.append h.expr .nil))) <| by
    split
    · refine .skip fun _ => .bind (.recover hg.unary fun _ => .skip fun _ =>
        .pure (Term.proper_leaf .nil)) fun _ h => ?_
      split
      · exact .skip fun _ => .pure (Term.proper_leaf h.expr)
      · exact .pure (Term.proper_leaf h.expr)
    · exact .skip fun _ => .ite (parseAwait_proper hg _) <|
        .bind (parseLeftHand_proper hg) fun _ h => .skip fun _ => .ite (.pure h) <|
        .skip fun _ => .ite
          (.skip fun _ => .skip fun _ => .pure (Term.proper_leaf (.append h.expr .nil)))
          (.pure h)

theorem parseBinaryTail_proper : ∀ (fuel least : Nat) (left : Term), left.Proper →
    Gives (parseBinaryTail g least fuel left) Term.Proper
  | 0, _, _, _ => .fail
  | fuel + 1, _, left, h => .skip fun _ => .skip fun _ => .skip fun _ => by
    split
    · exact .skip fun _ => .pure h
    · exact .ite (.skip fun _ => .pure h) <| .skip fun _ => .onlyIf <|
        .bind hg.unary fun _ hoperand =>
        .bind (parseBinaryTail_proper fuel _ _ hoperand) fun _ hright => .onlyIf <|
        .skip fun _ => parseBinaryTail_proper fuel _ _
          (Term.proper_leaf (.append h.expr hright.expr))

theorem parseBinary_proper : Gives (parseBinary g) Term.Proper :=
  .bind (.recover (parseUnary_proper hg) fun _ => .skip fun _ => .skip fun _ => by
    split
    · exact .skip fun _ => .skip fun _ => .pure (Term.proper_leaf .nil)
    · exact .throw) fun _ h =>
  .ite (.pure h) (parseBinaryTail_proper hg _ _ _ h)

theorem parseCond_proper : Gives (parseCond g) Term.Proper :=
  .skip fun _ => .bind (parseBinary_proper hg) fun _ htest => .ite (.pure htest) <|
  .skip fun _ => .ite
    (.bind hg.assign.withIn fun _ hc => .skip fun _ => .bind hg.assign fun _ ha =>
      .pure (Term.proper_leaf (.append htest.expr (.append hc.expr ha.expr))))
    (.pure htest)

theorem parseYield_proper : Gives (parseYield g) Term.Proper :=
  .skip fun _ => .skip fun _ => .skip fun _ => .onlyIf <| .skip fun _ => .skip fun _ =>
  .skip fun _ => .ite (.pure (Term.proper_leaf .nil)) <| .skip fun _ =>
  .bind hg.assign fun _ h => .pure (Term.proper_leaf (.append h.expr .nil))

theorem parseAssignTail_proper (start : Nat) {left : Term} (h : left.Proper) :
    Gives (parseAssignTail g start left) Term.Proper :=
  .skip fun _ => .skip fun _ => by
    split
    · exact .pure h
    · exact .bind (toPattern_proper .target left h) fun _ htarget => .skip fun _ =>
        .bind hg.assign fun _ hv => .pure (Term.proper_leaf (.append htarget hv.expr))
    · exact .skip fun _ => .butNotIf <| .skip fun _ =>
        .bind hg.assign fun _ hv => .pure (Term.proper_leaf (.append h.expr hv.expr))

theorem parseAssign_proper : Gives (parseAssign g) Term.Proper :=
  .skip fun _ => .skip fun _ => .skip fun _ => .ite (parseYield_proper hg) <|
  .skip fun _ => .skip fun _ => .bind (parseCond_proper hg) fun _ h =>
  .ite (.pure h) (parseAssignTail_proper hg _ h)

theorem parseOperands_proper : ∀ fuel : Nat,
    Gives (parseOperands g fuel) (Proper <| exprsStatements ·)
  | 0 => .fail
  | fuel + 1 => .skip fun _ => .ite
    (.bind hg.assign fun _ h => .bind (parseOperands_proper fuel) fun _ hes =>
      .pure (.append h.expr hes))
    (.pure .nil)

theorem parseExpr_proper : Gives (parseExpr g) Term.Proper :=
  .bind hg.assign fun _ h => .bind (parseOperands_proper hg _) fun _ hes =>
    .ite (.pure h) (.pure (Term.proper_leaf (.append h.expr hes)))

end Operands

end Parse
end DeadBranch
