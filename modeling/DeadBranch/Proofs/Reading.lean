/-
# What is read

`Gives` says what holds of the result of a step of reading, whatever the step
starts from, if it has a result. It is followed through a function of the parser
line by line: a step whose result does not matter is skipped, a branch is one of
two cases, and what several branches go on with is given a name and followed once.
`Leads` speaks of the states too.

What holds of everything that is read is that each `else` in it is where it
belongs, and that there are no placeholders in it (`Proper`). `Grammar.Proper`
assumes it of the parts of the grammar that a function refers to; here it is shown
of patterns.

Key definitions: `Proper`, `Parse.Gives`, `Parse.Leads`, `Grammar.Proper`.
Key theorems: `Parse.Gives.bind`, `Parse.Leads.bind`, `Parse.toPattern_proper`.
-/
import DeadBranch.Parser.Program
import DeadBranch.Proofs.Attachment

namespace DeadBranch

/-! ### Proper statements -/

/-- Every `else` among the statements is where it belongs, and no statement is a
placeholder. -/
def Proper (l : List Stmt) : Prop := Attached l ∧ Unremoved l

namespace Proper

theorem nil : Proper [] := ⟨nofun, nofun⟩

theorem append {l l' : List Stmt} (h : Proper l) (h' : Proper l') : Proper (l ++ l') :=
  ⟨List.forall_mem_append.mpr ⟨h.1, h'.1⟩, List.forall_mem_append.mpr ⟨h.2, h'.2⟩⟩

theorem left {l l' : List Stmt} (h : Proper (l ++ l')) : Proper l :=
  ⟨(List.forall_mem_append.mp h.1).1, (List.forall_mem_append.mp h.2).1⟩

theorem right {l l' : List Stmt} (h : Proper (l ++ l')) : Proper l' :=
  ⟨(List.forall_mem_append.mp h.1).2, (List.forall_mem_append.mp h.2).2⟩

/-- A statement and those inside it. -/
theorem cons {t : Stmt} (ha : t.isAttached) (hr : t.isRemoved = false) (h : Proper t.inner) :
    Proper t.statements :=
  ⟨List.forall_mem_cons.mpr ⟨ha, h.1⟩, List.forall_mem_cons.mpr ⟨hr, h.2⟩⟩

end Proper

mutual

/-- The statements in a term and in its parts. -/
def Term.statements : Term → List Stmt
  | .mk e _ parts => e.statements ++ termsStatements parts

/-- The statements in terms. -/
def termsStatements : List Term → List Stmt
  | [] => []
  | t :: rest => t.statements ++ termsStatements rest

end

/-- All statements in a term are proper. -/
def Term.Proper (t : Term) : Prop := DeadBranch.Proper t.statements

theorem Term.Proper.expr {t : Term} (h : t.Proper) : DeadBranch.Proper t.expr.statements := by
  cases t with
  | mk e start parts => exact h.left

theorem Term.proper_leaf {start : Nat} {e : Expr} (h : DeadBranch.Proper e.statements) :
    (Term.leaf start e).Proper :=
  h.append .nil

theorem proper_exprs_of_terms : ∀ {ts : List Term}, Proper (termsStatements ts) →
    Proper (exprsStatements (ts.map Term.expr))
  | [], _ => .nil
  | t :: _, h => .append (Term.Proper.expr (t := t) h.left) (proper_exprs_of_terms h.right)

theorem Proper.exprs_take : ∀ (n : Nat) {es : List Expr}, Proper (exprsStatements es) →
    Proper (exprsStatements (es.take n))
  | 0, _, _ => .nil
  | _ + 1, [], _ => .nil
  | n + 1, _ :: _, h => .append h.left (exprs_take n h.right)

theorem Proper.terms_append {ts' : List Term} (h' : Proper (termsStatements ts')) :
    ∀ {ts : List Term}, Proper (termsStatements ts) → Proper (termsStatements (ts ++ ts'))
  | [], _ => h'
  | _ :: _, h => .append h.left (h'.terms_append h.right)

theorem Proper.properties_append {ps' : List Property} (h' : Proper (propertiesStatements ps')) :
    ∀ {ps : List Property}, Proper (propertiesStatements ps) →
      Proper (propertiesStatements (ps ++ ps'))
  | [], _ => h'
  | _ :: _, h => .append h.left (h'.properties_append h.right)

/-- Properties that are made of expressions. -/
theorem Proper.properties_map {f : Expr → Property}
    (hf : ∀ e, Proper e.statements → Proper (f e).statements) :
    ∀ {es : List Expr}, Proper (exprsStatements es) → Proper (propertiesStatements (es.map f))
  | [], _ => .nil
  | e :: _, h => .append (hf e h.left) (properties_map hf h.right)

namespace Parse

/-! ### What a step gives -/

/-- If a step succeeds, its result has the property. -/
def Gives {α : Type} (m : Parse α) (P : α → Prop) : Prop :=
  ∀ r s a s', m r s = .ok a s' → P a

namespace Gives

variable {α β : Type} {P : α → Prop} {Q : β → Prop}

theorem pure {a : α} (h : P a) : Gives (pure a) P := by
  intro r s b s' hb
  cases hb
  exact h

theorem throw {fault : Fault} : Gives (throw fault : Parse α) P := fun _ _ _ _ h => nomatch h

theorem bind {m : Parse α} {f : α → Parse β} (hm : Gives m P) (hf : ∀ a, P a → Gives (f a) Q) :
    Gives (m >>= f) Q := by
  intro r s b s' hb
  change EStateM.bind (m r) (fun a => f a r) s = _ at hb
  unfold EStateM.bind at hb
  split at hb
  · rename_i a t ha
    exact hf a (hm r s a t ha) r t b s' hb
  · exact nomatch hb

/-- A step whose result does not matter. -/
theorem skip {m : Parse α} {f : α → Parse β} (hf : ∀ a, Gives (f a) Q) : Gives (m >>= f) Q :=
  bind (P := fun _ => True) (fun _ _ _ _ _ => trivial) fun a _ => hf a

theorem pureBind {a : α} {f : α → Parse β} (hf : Gives (f a) Q) : Gives (Pure.pure a >>= f) Q := hf

theorem map {m : Parse α} {f : α → β} (hm : Gives m P) (hf : ∀ a, P a → Q (f a)) :
    Gives (f <$> m) Q :=
  hm.bind fun a ha => .pure (hf a ha)

theorem some {m : Parse α} (hm : Gives m P) : Gives (some <$> m) fun found => ∀ a ∈ found, P a :=
  hm.map fun a ha b hb => by
    cases hb
    exact ha

theorem expr {m : Parse Term} (hm : Gives m Term.Proper) :
    Gives (Term.expr <$> m) (Proper ·.statements) :=
  hm.map fun _ ht => Term.Proper.expr ht

theorem ite {c : Prop} [Decidable c] {m m' : Parse α} (h : Gives m P) (h' : Gives m' P) :
    Gives (if c then m else m') P := by
  split
  · exact h
  · exact h'

/-- A step that is only taken on a condition. -/
theorem onlyIf {c : Prop} [Decidable c] {m : Parse Unit} {k : Unit → Parse β}
    (h : Gives (k ()) Q) : Gives (if c then m >>= k else k ()) Q :=
  .ite (.skip fun _ => h) h

/-- A step that is not taken on a condition. -/
theorem butNotIf {c : Prop} [Decidable c] {m : Parse Unit} {k : Unit → Parse β}
    (h : Gives (k ()) Q) : Gives (if c then k () else m >>= k) Q :=
  .ite h (.skip fun _ => h)

theorem within {m : Parse α} {f : Surroundings → Surroundings} (h : Gives m P) :
    Gives (within f m) P :=
  fun r s a s' => h (f r) s a s'

theorem withIn {m : Parse α} (h : Gives m P) : Gives (withIn m) P := h.within

theorem withoutLabels {m : Parse α} (h : Gives m P) : Gives (withoutLabels m) P := by
  intro r s a s' ha
  unfold Parse.withoutLabels at ha
  dsimp only at ha
  split at ha
  · rename_i b t hb
    cases ha
    exact h _ _ _ _ hb
  · exact nomatch ha

theorem recover {m : Parse α} {handler : Fault → Parse α} (h : Gives m P)
    (hh : ∀ fault, Gives (handler fault) P) : Gives (recover m handler) P := by
  intro r s a s' ha
  unfold Parse.recover at ha
  split at ha
  · rename_i b t hb
    cases ha
    exact h _ _ _ _ hb
  · rename_i fault t hb
    exact hh fault _ _ _ _ ha

theorem failAt {position : Nat} {cause : Cause} : Gives (failAt position cause : Parse α) P :=
  .skip fun token => by
    cases token with
    | bad inner => exact .skip fun _ => .skip fun _ => .throw
    | _ => exact .throw

theorem fail {cause : Cause} : Gives (fail cause : Parse α) P := .skip fun _ => .failAt

theorem unexpected {wanted : String} : Gives (unexpected wanted : Parse α) P := .skip fun _ => .fail

end Gives

/-- If a step succeeds from a state with the first property, its result and the
state that it leaves have the second. -/
def Leads {α : Type} (P : ParseState → Prop) (m : Parse α) (Q : α → ParseState → Prop) : Prop :=
  ∀ r s a s', P s → m r s = .ok a s' → Q a s'

namespace Leads

variable {α β : Type} {P : ParseState → Prop} {Q : β → ParseState → Prop}

theorem pure {b : β} (h : ∀ s, P s → Q b s) : Leads P (pure b) Q := by
  intro r s a s' hs ha
  cases ha
  exact h s hs

theorem bind {m : Parse α} {f : α → Parse β} {R : α → ParseState → Prop} (hm : Leads P m R)
    (hf : ∀ a, Leads (R a) (f a) Q) : Leads P (m >>= f) Q := by
  intro r s b s' hs hb
  change EStateM.bind (m r) (fun a => f a r) s = _ at hb
  unfold EStateM.bind at hb
  split at hb
  · rename_i a t ha
    exact hf a r t b s' (hm r s a t hs ha) hb
  · exact nomatch hb

theorem pureBind {a : α} {f : α → Parse β} (hf : Leads P (f a) Q) :
    Leads P (Pure.pure a >>= f) Q := hf

/-- A step after which nothing is known of the state. -/
theorem skip {m : Parse α} {f : α → Parse β} (hf : ∀ a, Leads (fun _ => True) (f a) Q) :
    Leads P (m >>= f) Q :=
  bind (R := fun _ _ => True) (fun _ _ _ _ _ _ => trivial) hf

/-- A step of which only the result matters. -/
theorem given {m : Parse α} {f : α → Parse β} {R : α → Prop} (hm : Gives m R)
    (hf : ∀ a, R a → Leads (fun _ => True) (f a) Q) : Leads P (m >>= f) Q :=
  bind (R := fun a _ => R a) (fun r s a s' _ => hm r s a s') fun a r s b s' ha =>
    hf a ha r s b s' trivial

theorem ofGives {m : Parse β} {R : β → Prop} (hm : Gives m R) (hQ : ∀ b s, R b → Q b s) :
    Leads P m Q :=
  fun r s b s' _ hb => hQ b s' (hm r s b s' hb)

theorem gives {m : Parse β} {R : β → Prop} (hm : Leads (fun _ => True) m Q)
    (hR : ∀ b s, Q b s → R b) : Gives m R :=
  fun r s b s' hb => hR b s' (hm r s b s' trivial hb)

theorem ite {c : Prop} [Decidable c] {m m' : Parse β} (h : Leads P m Q) (h' : Leads P m' Q) :
    Leads P (if c then m else m') Q := by
  split
  · exact h
  · exact h'

/-- A step that fails on a condition. -/
theorem failIf {c : Prop} [Decidable c] {position : Nat} {cause : Cause} {k : Unit → Parse β}
    (h : Leads P (k ()) Q) : Leads P (if c then failAt position cause >>= k else k ()) Q :=
  .ite (.given (R := fun _ => False) .failAt nofun) h

theorem within {m : Parse β} {f : Surroundings → Surroundings} (h : Leads P m Q) :
    Leads P (within f m) Q :=
  fun r s a s' => h (f r) s a s'

/-- A step that may start from anywhere. -/
theorem anywhere {m : Parse β} (h : Leads (fun _ => True) m Q) : Leads P m Q :=
  fun r s b s' _ => h r s b s' trivial

/-- What does not depend on the state. -/
theorem fact {p : Prop} {m : Parse β} (hP : ∀ s, P s → p) (h : p → Leads P m Q) : Leads P m Q :=
  fun r s b s' hs => h (hP s hs) r s b s' hs

theorem modify {f : ParseState → ParseState} {R : ParseState → Prop} (h : ∀ s, P s → R (f s)) :
    Leads P (modify f) fun _ => R := by
  intro r s a s' hs ha
  cases ha
  exact h s hs

theorem get : Leads P get fun found s => found = s ∧ P s := by
  intro r s a s' hs ha
  cases ha
  exact ⟨rfl, hs⟩

theorem lastStop : Leads P lastStop fun _ => P := by
  intro r s a s' hs ha
  cases ha
  exact hs

end Leads
end Parse

/-- The next token was looked at, and it is no `else`. -/
def ParseState.NoElse (s : ParseState) : Prop :=
  ∃ reading, s.next = some reading ∧ reading.token ≠ .word "else"

/-- A statement as it is read: the statements in it are proper, and if an `else`
behind it would belong to it, none is next. -/
def Stmt.ReadTo (t : Stmt) (s : ParseState) : Prop :=
  DeadBranch.Proper t.statements ∧ (t.isOpen → s.NoElse)

/-- A statement that no `else` can belong to, with only proper statements in it. -/
def Stmt.Whole (t : Stmt) : Prop := DeadBranch.Proper t.statements ∧ t.isOpen = false

/-- What the parts of the grammar read has only proper statements in it. -/
structure Grammar.Proper (g : Grammar) : Prop where
  expr : Parse.Gives g.expr Term.Proper
  assign : Parse.Gives g.assign Term.Proper
  unary : Parse.Gives g.unary Term.Proper
  operators : ∀ left, left.Proper → Parse.Gives (g.operators left) Term.Proper
  leftHand : Parse.Gives g.leftHand Term.Proper
  callee : Parse.Gives g.callee Term.Proper
  binding : Parse.Gives g.binding (DeadBranch.Proper ·.statements)
  stmt : ∀ allowDecls, Parse.Leads (fun _ => True) (g.stmt allowDecls) Stmt.ReadTo

theorem Grammar.Proper.stmt_gives {g : Grammar} (hg : g.Proper) (allowDecls : Bool) :
    Parse.Gives (g.stmt allowDecls) (DeadBranch.Proper ·.statements) :=
  (hg.stmt allowDecls).gives fun _ _ h => h.1

namespace Parse

/-! ### Patterns -/

section Patterns

variable {g : Grammar} (hg : g.Proper)

include hg

theorem parseKey_proper : Gives (parseKey g) (Proper ·.statements) :=
  .skip fun token => by
    split
    · exact .skip fun _ => .pure .nil
    · exact .skip fun _ => .pure .nil
    · exact .skip fun _ => .pure .nil
    · exact .skip fun _ => .pure .nil
    · exact .skip fun _ => .pure .nil
    · exact .skip fun _ => .bind hg.assign.withIn fun _ he => .skip fun _ => .pure he.expr
    · exact .unexpected

theorem parseBindingElement_proper : Gives (parseBindingElement g) (Proper ·.statements) :=
  .bind hg.binding fun _ ht => .skip fun _ =>
    .ite (.bind hg.assign.withIn fun _ hv => .pure (.append ht hv.expr)) (.pure ht)

theorem parseBindingElements_proper : ∀ (fuel : Nat) (rest : Option Nat),
    Gives (parseBindingElements g rest fuel) (Proper <| exprsStatements ·)
  | 0, _ => .fail
  | fuel + 1, rest =>
    .skip fun _ => .skip fun _ => .ite (.pure .nil) <| .skip fun _ =>
    .ite (.bind (parseBindingElements_proper fuel rest) fun _ hes => .pure hes) <| by
      extract_lets element
      have helement (u) : Gives (element u) (Proper <| exprsStatements ·) :=
        .skip fun _ => .skip fun isRest => by
          extract_lets comma
          have hcomma (e : Expr) (he : Proper e.statements) :
              Gives (comma e) (Proper <| exprsStatements ·) :=
            have hlater (rest) := parseBindingElements_proper fuel rest
            .skip fun _ => .ite (.bind (hlater _) fun _ hes => .pure (.append he hes)) <|
              .skip fun _ => .skip fun _ =>
                .ite (.skip fun _ => .skip fun _ => .bind (hlater _) fun _ hes =>
                  .pure (.append he hes)) <|
                .bind (hlater _) fun _ hes => .pure (.append he hes)
          exact .ite (.bind hg.binding fun e he => .pureBind (hcomma _ he))
            (.bind (parseBindingElement_proper hg) hcomma)
      cases rest with
      | none => exact helement ()
      | some start => exact .skip helement

theorem parseBindingProperty_proper : Gives (parseBindingProperty g) (Proper ·.statements) :=
  .skip fun _ => .ite (.bind hg.binding fun _ he => .pure he) <|
  .skip fun _ => .bind (parseKey_proper hg) fun key hkey => .skip fun _ =>
    .ite (.bind (parseBindingElement_proper hg) fun _ he => .pure (.append hkey he)) <| by
      split
      · exact .skip fun _ => .ite (.bind hg.assign.withIn fun _ he => .pure he.expr) <|
          .skip fun _ => .onlyIf (.pure .nil)
      · exact .unexpected

theorem parseBindingProperties_proper : ∀ (fuel : Nat) (comma : Option Nat),
    Gives (parseBindingProperties g comma fuel)
      fun found => Proper (propertiesStatements (found.1.map (·.2)))
  | 0, _ => .fail
  | fuel + 1, comma =>
    .skip fun _ => .ite (.pure .nil) <| .skip fun _ =>
    .bind (parseBindingProperty_proper hg) fun _ hp => by
      have hlater (comma) := parseBindingProperties_proper fuel comma
      refine .skip fun _ => ?_
      extract_lets later
      have hnext (comma) : Gives (later comma)
          fun found => Proper (propertiesStatements (found.1.map (·.2))) :=
        .bind (hlater comma) fun _ hps => .pure (.append hp hps)
      exact .ite (.skip hnext) <| .skip fun _ => .skip fun _ => .ite (.skip hnext) (.skip hnext)

theorem parseBinding_proper : Gives (parseBinding g) (Proper ·.statements) :=
  .skip fun token => by
    split
    · exact .skip fun _ => .pure .nil
    · exact .skip fun _ => .pure .nil
    · exact .skip fun _ => .bind (parseBindingElements_proper hg _ _) fun _ hes =>
        .skip fun _ => .pure hes
    · exact .skip fun _ => .bind (parseBindingProperties_proper hg _ _) fun _ hps =>
        .skip fun _ => .pure hps
    · exact .unexpected

theorem parseParamList_proper : ∀ (fuel : Nat) (rest : Option Nat),
    Gives (parseParamList g rest fuel) (Proper <| exprsStatements ·)
  | 0, _ => .fail
  | fuel + 1, rest =>
    .skip fun _ => .skip fun _ => .ite (.pure .nil) <| by
      extract_lets param
      have hparam (u) : Gives (param u) (Proper <| exprsStatements ·) :=
        .skip fun _ => .skip fun isRest => by
          extract_lets comma
          have hcomma (e : Expr) (he : Proper e.statements) :
              Gives (comma e) (Proper <| exprsStatements ·) :=
            have hlater (rest) := parseParamList_proper fuel rest
            .skip fun _ => .ite (.bind (hlater _) fun _ hes => .pure (.append he hes)) <|
              .skip fun _ => .skip fun _ =>
                .ite (.skip fun _ => .skip fun _ => .bind (hlater _) fun _ hes =>
                  .pure (.append he hes)) <|
                .bind (hlater _) fun _ hes => .pure (.append he hes)
          exact .ite
            (.skip fun _ => .bind hg.binding fun _ ht => .skip fun _ =>
              .ite (.bind hg.assign.withIn fun _ hv => .skip fun _ =>
                .pureBind (hcomma _ (.append ht hv.expr))) (.pureBind (hcomma _ ht)))
            (.bind (parseBindingElement_proper hg) hcomma)
      cases rest with
      | none => exact hparam ()
      | some start => exact .skip hparam

end Patterns

mutual

/-- An expression is turned into a pattern that has no other statements. -/
theorem toPattern_proper (use : PatternUse) : ∀ t : Term, t.Proper →
    Gives (toPattern use t) (Proper ·.statements)
  | .mk e start parts, ht => by
    have he : Proper e.statements := ht.left
    unfold toPattern
    refine .ite (.pure .nil) <| .ite (.skip fun _ => .pure he) ?_
    extract_lets form
    have hform (u) : Gives (form u) (Proper ·.statements) := by
      cases e with
      | assign op target value =>
        cases op with
        | none => exact .pure he
        | some op => exact .skip fun _ => .pure .nil
      | object properties =>
        exact .bind (propertyPatterns_proper use start properties parts he ht.right) fun _ hps =>
          .pure hps
      | array es =>
        exact .bind (elementPatterns_proper use start parts ht.right) fun _ hes => .pure hes
      | ident name => exact .pure .nil
      | _ => exact .skip fun _ => .pure .nil
    refine .ite (.ite ?_ (.skip hform)) (hform ())
    exact .skip fun _ => .butNotIf (.pure he)

theorem elementPatterns_proper (use : PatternUse) (start : Nat) : ∀ ts : List Term,
    Proper (termsStatements ts) → Gives (elementPatterns use start ts) (Proper <| exprsStatements ·)
  | [], _ => .pure .nil
  | .mk e dots parts :: rest, hts => by
    have hfirst := toPattern_proper use.part (.mk e dots parts) hts.left
    have hspread := spreadPatterns_proper use.part parts hts.left.right
    have hrest := elementPatterns_proper use start rest hts.right
    unfold elementPatterns
    cases e with
    | spread operand =>
      exact .ite (.onlyIf (.skip fun _ => hspread)) (.skip fun _ => hrest)
    | _ => exact .bind hfirst fun _ he => .bind hrest fun _ hes => .pure (.append he hes)

theorem spreadPatterns_proper (use : PatternUse) : ∀ ts : List Term,
    Proper (termsStatements ts) → Gives (spreadPatterns use ts) (Proper <| exprsStatements ·)
  | [], _ => .pure .nil
  | t :: _, hts => .bind (toPattern_proper use t hts.left) fun _ he => .pure (.append he .nil)

theorem propertyPatterns_proper (use : PatternUse) (start : Nat) :
    ∀ (ps : List Property) (ts : List Term), Proper (propertiesStatements ps) →
      Proper (termsStatements ts) →
      Gives (propertyPatterns use start ps ts) (Proper <| propertiesStatements ·)
  | [], [], _, _ | [], _ :: _, _, _ | _ :: _, [], _, _ => .pure .nil
  | p :: ps, .mk e place parts :: rest, hps, hts => by
    have hvalues := valuePatterns_proper use.part parts hts.left.right
    have hrest := propertyPatterns_proper use start ps rest hps.right hts.right
    unfold propertyPatterns
    extract_lets later
    have hlater (first) (h : Proper (propertiesStatements first)) :
        Gives (later first) (Proper <| propertiesStatements ·) :=
      .bind hrest fun _ h' => .pure (h'.properties_append h)
    cases p with
    | shorthand name fallback => exact .pureBind (hlater _ (.append hps.left .nil))
    | pair key value =>
      have hkey : Proper key.statements := hps.left.left
      exact .bind hvalues fun values h =>
        .pureBind (hlater _ (.properties_map (f := .pair key) (fun _ he => .append hkey he) h))
    | spread operand =>
      refine .ite (.skip fun _ => ?_) (.skip fun _ => ?_)
      all_goals
        refine .ite ?_ (.bind hvalues fun values h => .onlyIf (.pureBind ?_))
        · split
          · exact .pureBind (hlater _ (.append .nil .nil))
          · exact .skip fun _ => .pureBind (hlater _ (.append .nil .nil))
        · exact hlater _ (.properties_map (f := .spread) (fun _ he => he) h)
    | _ => exact .bind (P := fun _ => False) .failAt fun _ => nofun

theorem valuePatterns_proper (use : PatternUse) : ∀ ts : List Term,
    Proper (termsStatements ts) → Gives (valuePatterns use ts) (Proper <| exprsStatements ·)
  | [], _ => .pure .nil
  | t :: _, hts => .bind (toPattern_proper use t hts.left) fun _ he => .pure (.append he .nil)

end

end Parse
end DeadBranch
