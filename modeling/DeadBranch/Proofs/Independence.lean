/-
# Values of outer scopes do not count

With only the innermost scope consulted, the bindings of the scopes around it
still pass through the same loop: they are counted, compared and added to the
declared names. All that comes of it is which names they have. The constants are
those of the innermost scope, and a name of a scope further out must not be read,
whatever its bindings are (`frames_unconsulted`, about one graph). So two graphs
that agree on the innermost scope, and around it only on the names that can be
seen, make the same facts known in the same order, leave the same names unread
and fold every `if` statement directly in the scope alike.

Key definitions: `Associations.Same`, `ScopeGraph.visibleNames`,
`ScopeGraph.AgreesAround`.
Key theorems: `frames_unconsulted`, `outlook_of_agrees`.
-/
import DeadBranch.Proofs.Commuting
import DeadBranch.Proofs.Widening

namespace DeadBranch

/-! ### Knowing the same -/

/-- The same facts are known in the same order, and the same names stay unknown. -/
structure Associations.Same (a b : Associations) : Prop where
  entries : a.entries = b.entries
  shadowed : ∀ name, a.isShadowed name = b.isShadowed name

namespace Associations.Same

variable {a b : Associations} (h : a.Same b)
include h

theorem sameOn (names : String → Bool) : a.SameOn names b where
  about _ := by rw [about, about, h.entries]
  shadowed _ := h.shadowed _

theorem evaluate_eq (e : Expr) : evaluate a e = evaluate b e :=
  (h.sameOn fun _ => true).evaluate_eq fun _ _ => rfl

theorem learn (facts : List Fact) : (a.learn facts).Same (b.learn facts) where
  entries := by rw [entries_learn, entries_learn, h.entries]
  shadowed name := by rw [isShadowed_learn, isShadowed_learn, h.shadowed name]

theorem bind (d : Declarator) : (DeadBranch.bind a d).Same (DeadBranch.bind b d) := by
  have hfacts : d.facts a = d.facts b := facts_sameOn (h.sameOn fun _ => true) fun _ _ => rfl
  rw [DeadBranch.bind, DeadBranch.bind, hfacts]
  exact h.learn (d.facts b)

end Associations.Same

theorem Associations.Same.bindAll (ds : List Declarator) : ∀ {a b : Associations}, a.Same b →
    (DeadBranch.bindAll a ds).Same (DeadBranch.bindAll b ds) := by
  induction ds with
  | nil => intro a b h; exact h
  | cons d rest ih => intro a b h; exact ih (h.bind d)

/-! ### What scopes contribute that are not consulted -/

/-- The names of a scope that can be seen at a position. -/
def ScopeGraph.visibleNames (g : ScopeGraph) (position id : Nat) : List String :=
  match g.get? id with
  | some s => (s.visibleAt position).map (·.name)
  | none => []

theorem mem_hiddenIn_false {name : String} {declared : List String} {visible : List Binding} :
    name ∈ hiddenIn false declared visible ↔
      name ∉ declared ∧ name ∈ visible.map (·.name) := by
  simp only [hiddenIn, freshIn, Binding.isUsable, Bool.false_and, Bool.not_false,
    List.filter_true, List.mem_map, List.mem_filter, Bool.not_eq_true', List.contains_eq_mem,
    decide_eq_false_iff_not]
  constructor
  · rintro ⟨b, ⟨hb, hnew⟩, rfl⟩
    exact ⟨hnew, b, hb, rfl⟩
  · rintro ⟨hnew, b, hb, rfl⟩
    exact ⟨b, ⟨hb, hnew⟩, rfl⟩

/-- A scope all of whose names are declared further in has no say. -/
theorem freshIn_eq_nil {declared : List String} {visible : List Binding}
    (h : ∀ name ∈ visible.map (·.name), name ∈ declared) : freshIn declared visible = [] := by
  rw [freshIn, List.filter_eq_nil_iff]
  intro b hb
  simpa using h b.name (List.mem_map_of_mem hb)

/-- **Scopes that are not consulted count by their names.** They contribute no
constants, and the names that can be seen in one of them and are not declared
further in must not be read. A scope that is consulted again, with all of its
names declared, contributes nothing either. -/
theorem ScopeGraph.frames_unconsulted (g : ScopeGraph) (position : Nat) (consulted : Nat → Bool)
    (ids : List Nat) : ∀ declared : List String,
    (∀ id ∈ ids, consulted id = false ∨ ∀ name ∈ g.visibleNames position id, name ∈ declared) →
    let o := Outlook.mk (g.frames position consulted declared ids)
    o.constants = [] ∧ ∀ name, name ∈ o.shadowed ↔
      name ∉ declared ∧ ∃ id ∈ ids, name ∈ g.visibleNames position id := by
  induction ids with
  | nil => intro declared _; simp [frames, Outlook.constants, Outlook.shadowed]
  | cons id rest ih =>
    intro declared h
    rw [List.forall_mem_cons] at h
    cases hs : g.get? id with
    | none =>
      have hnames : g.visibleNames position id = [] := by simp [visibleNames, hs]
      rw [frames, hs]
      simpa [hnames] using ih declared h.2
    | some s =>
      set visible := s.visibleAt position with hvisible
      have hnames : g.visibleNames position id = visible.map (·.name) := by
        simp [visibleNames, hs, hvisible]
      have hframes : g.frames position consulted declared (id :: rest) =
          ⟨id, usableIn (consulted id) declared visible,
            hiddenIn (consulted id) declared visible⟩ ::
            g.frames position consulted (declared ++ visible.map (·.name)) rest := by
        rw [frames, hs]
        rfl
      -- what the scope itself contributes
      have hhere : usableIn (consulted id) declared visible = [] ∧
          ∀ name, name ∈ hiddenIn (consulted id) declared visible ↔
            name ∉ declared ∧ name ∈ visible.map (·.name) := by
        rcases h.1 with hconsulted | hdeclared
        · rw [hconsulted]
          exact ⟨usableIn_false declared visible, fun _ => mem_hiddenIn_false⟩
        · rw [hnames] at hdeclared
          have hfresh := freshIn_eq_nil hdeclared
          refine ⟨by simp [usableIn, hfresh], fun name => ?_⟩
          have hnone : name ∉ hiddenIn (consulted id) declared visible := by
            simp [hiddenIn, hfresh]
          exact iff_of_false hnone fun hname => hname.1 (hdeclared name hname.2)
      -- what the scopes around it contribute
      have hlater : ∀ other ∈ rest, consulted other = false ∨
          ∀ name ∈ g.visibleNames position other, name ∈ declared ++ visible.map (·.name) := by
        intro other hother
        rcases h.2 other hother with hconsulted | hdeclared
        · exact .inl hconsulted
        · exact .inr fun name hname => List.mem_append_left _ (hdeclared name hname)
      obtain ⟨hconstants, hshadowed⟩ := ih (declared ++ visible.map (·.name)) hlater
      simp only [hframes, Outlook.constants_cons, Outlook.shadowed_cons, hconstants, hhere.1,
        List.append_nil, true_and, List.mem_append, hhere.2, hshadowed, List.exists_mem_cons_iff,
        hnames]
      intro name
      by_cases hdeclared : name ∈ declared
      · simp [hdeclared]
      · by_cases hname : name ∈ visible.map (·.name)
        · simp [hdeclared, hname]
        · simp [hdeclared, hname]

/-! ### Two graphs -/

/-- Two graphs have the same scopes with the same keys and parents, all bindings of
one scope in common, and in the scopes around it the names that can be seen. -/
structure ScopeGraph.AgreesAround (g g' : ScopeGraph) (scope : Nat) : Prop where
  shape : g.scopes.map (fun s => (s.key, s.parent)) = g'.scopes.map fun s => (s.key, s.parent)
  innermost : (g.get? scope).map (·.bindings) = (g'.get? scope).map (·.bindings)
  outer : ∀ id ∈ (g.ancestors scope).tail, ∀ position name,
    name ∈ g.visibleNames position id ↔ name ∈ g'.visibleNames position id

section Agreement

variable {g g' : ScopeGraph} {scope : Nat}

/-- Scopes with the same parents have the same ancestors. -/
theorem ScopeGraph.ancestors_congr
    (h : g.scopes.map (fun s => (s.key, s.parent)) = g'.scopes.map fun s => (s.key, s.parent))
    (id : Nat) : g.ancestors id = g'.ancestors id := by
  have hparent : ∀ i, g.parent? i = g'.parent? i := by
    intro i
    have hi := congrArg (fun scopes => scopes[i]?.bind (·.2)) h
    simpa [parent?, get?, Option.bind_map, Function.comp_def] using hi
  have hupTo : ∀ fuel i, g.ancestorsUpTo fuel i = g'.ancestorsUpTo fuel i := by
    intro fuel
    induction fuel with
    | zero => intro i; rfl
    | succ fuel ih =>
      intro i
      rw [ancestorsUpTo, ancestorsUpTo, hparent i]
      cases g'.parent? i with
      | none => rfl
      | some parent => exact congrArg (i :: ·) (ih parent)
  exact hupTo (id + 1) id

/-- What one graph shows from the innermost scope: its own constants, its own
hidden names and the other names of the scopes around it. -/
theorem ScopeGraph.outlook_innermost (g : ScopeGraph) {s : Scope} (hs : g.get? scope = some s)
    (below : List Nat) (position : Nat) :
    let o := Tracker.outlook ⟨g, scope :: below⟩ position false
    let visible := s.visibleAt position
    o.constants = usableIn true [] visible ∧
      ∀ name, name ∈ o.shadowed ↔ name ∈ hiddenIn true [] visible ∨
        name ∉ visible.map (·.name) ∧
          ∃ id ∈ (g.ancestors scope).tail, name ∈ g.visibleNames position id := by
  intro o visible
  obtain ⟨outer, houter⟩ := g.ancestors_head scope
  have hframes : o = ⟨⟨scope, usableIn true [] visible, hiddenIn true [] visible⟩ ::
      g.frames position (fun id => false || id == scope) (visible.map (·.name)) outer⟩ := by
    simp only [o, Tracker.outlook, Tracker.current, List.headD_cons, houter, frames, hs,
      BEq.rfl, Bool.or_true, List.nil_append]
    rfl
  have hids : ∀ id ∈ outer, (false || id == scope) = false ∨
      ∀ name ∈ g.visibleNames position id, name ∈ visible.map (·.name) := by
    intro id _
    by_cases hid : id = scope
    · subst hid
      right
      simp [visibleNames, hs, visible]
    · left
      simpa using hid
  obtain ⟨hconstants, hshadowed⟩ := g.frames_unconsulted position _ outer _ hids
  rw [hframes, Outlook.constants_cons, Outlook.shadowed_cons, hconstants, List.nil_append, houter]
  exact ⟨rfl, fun name => by rw [List.mem_append, hshadowed, List.tail_cons]⟩

/-- Graphs that agree around a scope show the same constants and the same hidden
names there. -/
theorem outlook_of_agrees (h : g.AgreesAround g' scope) (below below' : List Nat)
    (position : Nat) :
    let o := Tracker.outlook ⟨g, scope :: below⟩ position false
    let o' := Tracker.outlook ⟨g', scope :: below'⟩ position false
    o.constants = o'.constants ∧ ∀ name, name ∈ o.shadowed ↔ name ∈ o'.shadowed := by
  intro o o'
  have hancestors := ScopeGraph.ancestors_congr h.shape scope
  have hbindings := h.innermost
  cases hs : g.get? scope with
  | none =>
    -- without the innermost scope there are no scopes at all
    have hs' : g'.get? scope = none := by simpa [hs] using hbindings.symm
    have hids : g.ancestors scope = [scope] := by
      simp [ScopeGraph.ancestors, ScopeGraph.ancestorsUpTo, ScopeGraph.parent?, hs]
    have hframes : o.frames = [] := by
      simp [o, Tracker.outlook, Tracker.current, hids, ScopeGraph.frames, hs]
    have hframes' : o'.frames = [] := by
      simp [o', Tracker.outlook, Tracker.current, ← hancestors, hids, ScopeGraph.frames, hs']
    simp [Outlook.constants, Outlook.shadowed, hframes, hframes']
  | some s =>
    obtain ⟨s', hs', hsame⟩ : ∃ s', g'.get? scope = some s' ∧ s'.bindings = s.bindings := by
      rw [hs, Option.map_some] at hbindings
      exact Option.map_eq_some_iff.mp hbindings.symm
    have hvisible : s'.visibleAt position = s.visibleAt position := by
      rw [Scope.visibleAt, Scope.visibleAt, hsame]
    obtain ⟨hconstants, hshadowed⟩ := g.outlook_innermost hs below position
    obtain ⟨hconstants', hshadowed'⟩ := g'.outlook_innermost hs' below' position
    rw [hvisible] at hconstants' hshadowed'
    refine ⟨hconstants.trans hconstants'.symm, fun name => ?_⟩
    have houter : (∃ id ∈ (g.ancestors scope).tail, name ∈ g.visibleNames position id) ↔
        ∃ id ∈ (g'.ancestors scope).tail, name ∈ g'.visibleNames position id := by
      rw [← hancestors]
      exact exists_congr fun id =>
        and_congr_right fun hid => h.outer id hid position name
    rw [hshadowed, hshadowed', houter]

theorem associations_of_agrees (h : g.AgreesAround g' scope) (below below' : List Nat)
    (position : Nat) :
    (Tracker.outlook ⟨g, scope :: below⟩ position false).associations.Same
      (Tracker.outlook ⟨g', scope :: below'⟩ position false).associations := by
  obtain ⟨hconstants, hshadowed⟩ := outlook_of_agrees h below below' position
  rw [Outlook.associations, Outlook.associations, hconstants]
  refine Associations.Same.bindAll _ ⟨rfl, fun name => ?_⟩
  simp only [Outlook.blank, Associations.isShadowed, Associations.shadowed_ofShadowed,
    List.contains_eq_mem, hshadowed name]

end Agreement

/-- **Values of outer scopes do not count** while only the innermost scope is
consulted. Two graphs that agree on a scope, and around it on the names that can
be seen, make the same facts known there in the same order and leave the same
names unread, at every position; and an `if` statement directly in the scope is
decided alike, with the same record. -/
theorem innermost_independent {g g' : ScopeGraph} {scope : Nat} (h : g.AgreesAround g' scope)
    (below below' : List Nat) :
    (∀ position,
      let a := (Tracker.outlook ⟨g, scope :: below⟩ position false).associations
      let a' := (Tracker.outlook ⟨g', scope :: below'⟩ position false).associations
      a.entries = a'.entries ∧ ∀ name, a.isShadowed name = a'.isShadowed name) ∧
      ∀ (locate : Nat → Location) (s s' : Shrinker), s.tracker = ⟨g, scope :: below⟩ →
        s'.tracker = ⟨g', scope :: below'⟩ → ∀ (span : Span) (test : Expr) (hasAlternate : Bool),
          let decided := Shrinker.decide false locate span test hasAlternate s
          let decided' := Shrinker.decide false locate span test hasAlternate s'
          decided.1 = decided'.1 ∧ ∃ records, decided.2.folds = s.folds ++ records ∧
            decided'.2.folds = s'.folds ++ records := by
  have hsame := associations_of_agrees h below below'
  refine ⟨fun position => ⟨(hsame position).entries, (hsame position).shadowed⟩, ?_⟩
  intro locate s s' hs hs' span test hasAlternate
  obtain ⟨hdecision, -, hfolds⟩ :=
    Shrinker.At.decide false locate (s := s) ⟨by rw [hs], below, by rw [hs]⟩ span test hasAlternate
  obtain ⟨hdecision', -, hfolds'⟩ :=
    Shrinker.At.decide false locate (s := s') ⟨by rw [hs'], below', by rw [hs']⟩ span test
      hasAlternate
  have hverdict : g.verdict false scope span test = g'.verdict false scope span test := by
    have hvalue := (hsame span.start).evaluate_eq test
    exact congrArg (Option.map Value.truthy) hvalue
  rw [← hverdict] at hdecision' hfolds'
  exact ⟨hdecision.trans hdecision'.symm, _, hfolds, hfolds'⟩

/-- The scopes of `function f() { const k = c, d = false; … }` in a program with
the given bindings. -/
def scopesAround (outer : List Binding) : ScopeGraph :=
  ⟨[⟨.program, none, [1], outer⟩,
    ⟨.function ⟨.function, ⟨16, 90⟩⟩, some 0, [],
      [⟨"k", .constKind, some (.mk (.ident "k") (.ident "c")), none⟩,
        ⟨"d", .constKind, some (.mk (.ident "d") (.literal (.bool false))), none⟩]⟩], [1]⟩

/-- Whether `c` is the constant `true` of the program or declared there twice, the
function knows `d` alone, must not read `c` and decides alike; with all scopes
consulted it would know `k` in the first case. -/
theorem scopesAround_independent :
    let constant : Binding :=
      ⟨"c", .constKind, some (.mk (.ident "c") (.literal (.bool true))), none⟩
    let g := scopesAround [constant]
    let g' := scopesAround [⟨"c", .letKind, none, none⟩, ⟨"c", .varKind, none, none⟩]
    let t : Tracker := ⟨g, [1, 0]⟩
    let t' : Tracker := ⟨g', [1, 0]⟩
    let locate : Nat → Location := fun n => ⟨none, 1, n⟩
    g.AgreesAround g' 1 ∧
      (t'.outlook 50 false).associations.entries = [(.root "d", .bool false)] ∧
      (t'.outlook 50 false).associations.isShadowed "c" = true ∧
      (Shrinker.decide false locate ⟨50, 80⟩ (.ident "d") true ⟨t', [], [], none⟩).1 =
        .alternate ∧
      ((t.outlook 50 true).associations.lookup? (.root "k") = some (.bool true) ∧
        (t'.outlook 50 true).associations.lookup? (.root "k") = none) := by
  intro constant g g' t t' locate
  have hagrees : g.AgreesAround g' 1 := by
    refine ⟨rfl, rfl, fun id hid position name => ?_⟩
    obtain rfl : id = 0 := by simpa using (show id ∈ [0] from hid)
    simp [g, g', scopesAround, constant, ScopeGraph.visibleNames, ScopeGraph.get?,
      Scope.visibleAt, Binding.visibleAt]
  obtain ⟨hknown, hdecided⟩ := innermost_independent hagrees [0] [0]
  obtain ⟨hentries, hshadowed⟩ := hknown 50
  obtain ⟨hdecision, -⟩ :=
    hdecided locate ⟨t, [], [], none⟩ ⟨t', [], [], none⟩ rfl rfl ⟨50, 80⟩ (.ident "d") true
  refine ⟨hagrees, ?_, ?_, ?_, ?_⟩
  · rw [← hentries]
    decide +kernel
  · rw [← hshadowed "c"]
    decide +kernel
  · rw [← hdecision]
    decide +kernel
  · decide +kernel

end DeadBranch
