/-
# Files complete in any order

Each file is read and transformed by a task of its own. Tasks are started one after
the other, run side by side and finish in any order. When all have been started,
what has finished is gathered, in any order again; a failure that is met there ends
the whole. What is left to do never gets more, and with what was gathered it stays
one result for each file (`Tasks.Step.results_perm`). So the order of completion can
only show in the order of what is gathered, and sorting by paths undoes it where no
two paths compare equal.

Key definitions: `Outcome.IsOf`, `SortedByPath`, `Tasks`, `Tasks.Step`, `Tasks.Ends`.
Key theorems: `sortOutcomes_eq_of_perm`, `Tasks.Step.results_perm`,
`Tasks.exists_run_of_perm`, `tasks_return`.
-/
import DeadBranch.Command.Files
import Mathlib.Data.List.Forall2
import Mathlib.Data.List.Pairwise
import Mathlib.Data.List.Perm.Basic
import Mathlib.Logic.Relation

namespace DeadBranch

open Relation (ReflTransGen)
open scoped List

/-! ### The order of paths -/

/-- The text of a name. -/
def Component.text : Component → String
  | .name text => text
  | _ => ""

theorem Component.compare_eq : Component.compare =
    compareLex (compareOn Component.rank) (compareOn Component.text) := by
  funext a b
  cases a <;> cases b <;> rfl

instance : Std.TransCmp Component.compare := by
  rw [Component.compare_eq]
  infer_instance

theorem compareLists_eq {α : Type} (cmp : α → α → Ordering) :
    DiskPath.compareLists cmp = List.compareLex cmp := by
  funext as bs
  induction as generalizing bs with
  | nil => cases bs <;> rfl
  | cons a as ih =>
    cases bs with
    | nil => rfl
    | cons b bs => rw [DiskPath.compareLists, ih, List.compareLex_cons_cons]

instance {α : Type} (cmp : α → α → Ordering) [Std.TransCmp cmp] :
    Std.TransCmp (DiskPath.compareLists cmp) := by
  rw [compareLists_eq]
  infer_instance

instance : Std.TransCmp DiskPath.compare where
  eq_swap := by
    intro p q
    unfold DiskPath.compare
    exact Std.OrientedCmp.eq_swap
  isLE_trans := by
    intro p q r
    unfold DiskPath.compare
    exact Std.TransCmp.isLE_trans

/-! ### Outcomes -/

/-- Going through a list gives results exactly if each element has one. -/
theorem mapM_eq_ok_iff {α β ε : Type} {f : α → Except ε β} {xs : List α} {ys : List β} :
    xs.mapM f = .ok ys ↔ xs.map f = ys.map Except.ok := by
  induction xs generalizing ys with
  | nil => simp [pure, Except.pure, eq_comm]
  | cons x xs ih =>
    rw [List.mapM_cons, List.map_cons]
    cases hx : f x with
    | error e =>
      change Except.error e = _ ↔ _
      cases ys <;> simp
    | ok y =>
      constructor
      · intro h
        cases hxs : xs.mapM f with
        | error e =>
          rw [hxs] at h
          change Except.error e = _ at h
          cases h
        | ok rest =>
          rw [hxs] at h
          obtain rfl := Except.ok.inj h
          rw [List.map_cons, ih.mp hxs]
      · intro h
        cases ys with
        | nil => simp at h
        | cons y' ys =>
          rw [List.map_cons, List.cons.injEq] at h
          obtain rfl := Except.ok.inj h.1
          rw [ih.mpr h.2]
          rfl

section Outcomes

variable {read : Reader} {t : Transform} {file : InputFile}

/-- What becomes of a file: its bytes, and the transform of its path and bytes. -/
structure Outcome.IsOf (read : Reader) (t : Transform) (file : InputFile) (o : Outcome) : Prop where
  file_eq : o.file = file
  input_eq : read file.path = .ok o.input
  output_eq : o.output = t.apply file.path o.input

theorem Outcome.ofFile_of_error {fault : Disk.Fault} (h : read file.path = .error fault) :
    Outcome.ofFile read t file = .error (.unreadable file.path fault) := by
  unfold Outcome.ofFile
  rw [h]
  rfl

theorem Outcome.ofFile_of_ok {bytes : Bytes} (h : read file.path = .ok bytes) :
    Outcome.ofFile read t file = .ok ⟨file, bytes, t.apply file.path bytes⟩ := by
  unfold Outcome.ofFile
  rw [h]
  rfl

theorem Outcome.isOf_of_ofFile {o : Outcome} (h : Outcome.ofFile read t file = .ok o) :
    Outcome.IsOf read t file o := by
  cases hread : read file.path with
  | error fault =>
    rw [Outcome.ofFile_of_error hread] at h
    exact nomatch h
  | ok bytes =>
    rw [Outcome.ofFile_of_ok hread] at h
    obtain rfl := Except.ok.inj h
    exact ⟨rfl, hread, rfl⟩

theorem Outcome.exists_of_ofFile {f : CommandFailure} (h : Outcome.ofFile read t file = .error f) :
    ∃ fault, read file.path = .error fault ∧ f = .unreadable file.path fault := by
  cases hread : read file.path with
  | error fault =>
    rw [Outcome.ofFile_of_error hread] at h
    exact ⟨fault, rfl, (Except.error.inj h).symm⟩
  | ok bytes =>
    rw [Outcome.ofFile_of_ok hread] at h
    exact nomatch h

/-- Files that can all be read have an outcome each. -/
theorem exists_outcomes {files : List InputFile}
    (h : ∀ file ∈ files, ∃ bytes, read file.path = .ok bytes) :
    ∃ outcomes : List Outcome,
      files.map (Outcome.ofFile read t) = outcomes.map Except.ok := by
  induction files with
  | nil => exact ⟨[], rfl⟩
  | cons file files ih =>
    obtain ⟨bytes, hbytes⟩ := h file List.mem_cons_self
    obtain ⟨outcomes, houtcomes⟩ := ih fun f hf => h f (List.mem_cons_of_mem _ hf)
    refine ⟨⟨file, bytes, t.apply file.path bytes⟩ :: outcomes, ?_⟩
    rw [List.map_cons, List.map_cons, Outcome.ofFile_of_ok hbytes, houtcomes]

theorem forall₂_isOf {files : List InputFile} {outcomes : List Outcome}
    (h : files.map (Outcome.ofFile read t) = outcomes.map Except.ok) :
    List.Forall₂ (Outcome.IsOf read t) files outcomes := by
  induction files generalizing outcomes with
  | nil =>
    cases outcomes with
    | nil => exact .nil
    | cons => simp at h
  | cons file files ih =>
    cases outcomes with
    | nil => simp at h
    | cons o outcomes =>
      rw [List.map_cons, List.map_cons, List.cons.injEq] at h
      exact .cons (Outcome.isOf_of_ofFile h.1) (ih h.2)

theorem pairwise_of_forall₂ {files : List InputFile} {outcomes : List Outcome}
    (h : List.Forall₂ (Outcome.IsOf read t) files outcomes)
    (hne : files.Pairwise fun a b => DiskPath.compare a.path b.path ≠ .eq) :
    outcomes.Pairwise fun a b => DiskPath.compare a.file.path b.file.path ≠ .eq := by
  have hfiles : outcomes.map Outcome.file = files := by
    induction h with
    | nil => rfl
    | cons ho _ ih => rw [List.map_cons, ho.file_eq, ih (List.Pairwise.of_cons hne)]
  rw [← hfiles, List.pairwise_map] at hne
  exact hne

end Outcomes

/-! ### Sorting -/

/-- Outcomes stand in the order of their paths. -/
def SortedByPath (outcomes : List Outcome) : Prop :=
  outcomes.Pairwise fun a b => (DiskPath.compare a.file.path b.file.path).isLE

theorem sortOutcomes_sorted (outcomes : List Outcome) : SortedByPath (sortOutcomes outcomes) := by
  apply List.pairwise_mergeSort
  · intro a b c
    exact Std.TransCmp.isLE_trans
  · intro a b
    have hswap : DiskPath.compare b.file.path a.file.path =
        (DiskPath.compare a.file.path b.file.path).swap := Std.OrientedCmp.eq_swap
    rw [hswap]
    cases DiskPath.compare a.file.path b.file.path <;> rfl

theorem sortOutcomes_perm (outcomes : List Outcome) : (sortOutcomes outcomes).Perm outcomes :=
  List.mergeSort_perm ..

/-- Sorting does not show the order of outcomes no two of which have paths that
compare equal. -/
theorem sortOutcomes_eq_of_perm {xs ys : List Outcome} (h : xs.Perm ys)
    (hne : ys.Pairwise fun a b => DiskPath.compare a.file.path b.file.path ≠ .eq) :
    sortOutcomes xs = sortOutcomes ys := by
  have hxs := sortOutcomes_perm xs
  have hys := sortOutcomes_perm ys
  refine List.Perm.eq_of_pairwise ?_ (sortOutcomes_sorted xs) (sortOutcomes_sorted ys)
    ((hxs.trans h).trans hys.symm)
  intro a b ha hb hab hba
  rw [(hxs.trans h).mem_iff] at ha
  rw [hys.mem_iff] at hb
  have heq : DiskPath.compare a.file.path b.file.path = .eq :=
    Std.OrientedCmp.isLE_antisymm hab hba
  have : Std.Symm fun a b : Outcome => DiskPath.compare a.file.path b.file.path ≠ .eq :=
    ⟨fun a b hne heq => hne (Std.OrientedCmp.eq_symm heq)⟩
  by_contra hab
  exact hne.forall ha hb hab heq

/-! ### Tasks -/

/-- The tasks that files are read and transformed by. -/
structure Tasks where
  /-- The files whose tasks are still to be started. -/
  waiting : List InputFile
  running : List InputFile
  /-- What finished tasks gave, as far as it is not gathered. -/
  finished : List (Except CommandFailure Outcome)
  gathered : List Outcome

namespace Tasks

/-- Nothing has been started. -/
def start (files : List InputFile) : Tasks := ⟨files, [], [], []⟩

variable (read : Reader) (t : Transform)

/-- One step of the whole: the next task is started, any running one finishes, or,
when all have been started, the outcome of any finished one is gathered. -/
inductive Step : Tasks → Tasks → Prop
  | start {file : InputFile} {waiting running finished gathered} :
    Step ⟨file :: waiting, running, finished, gathered⟩
      ⟨waiting, file :: running, finished, gathered⟩
  | finish {waiting before} {file : InputFile} {after finished gathered} :
    Step ⟨waiting, before ++ file :: after, finished, gathered⟩
      ⟨waiting, before ++ after, Outcome.ofFile read t file :: finished, gathered⟩
  | gather {running before} {o : Outcome} {after gathered} :
    Step ⟨[], running, before ++ .ok o :: after, gathered⟩
      ⟨[], running, before ++ after, gathered ++ [o]⟩

/-- How the whole ends: with a failure that is met while gathering, or with all
outcomes in the order of their paths. -/
inductive Ends : Tasks → Except CommandFailure (List Outcome) → Prop
  | failed {running before} {f : CommandFailure} {after gathered} :
    Ends ⟨[], running, before ++ .error f :: after, gathered⟩ (.error f)
  | done {gathered} : Ends ⟨[], [], [], gathered⟩ (.ok (sortOutcomes gathered))

/-- What the tasks give or will give, whether or not it was gathered. -/
def results (s : Tasks) : List (Except CommandFailure Outcome) :=
  (s.waiting ++ s.running).map (Outcome.ofFile read t) ++ (s.finished ++ s.gathered.map .ok)

/-- How much there is left to do. -/
def size (s : Tasks) : Nat := 3 * s.waiting.length + 2 * s.running.length + s.finished.length

variable {read t}

/-- A step neither loses a result nor adds one. -/
theorem Step.results_perm {s s' : Tasks} (h : Step read t s s') :
    (s'.results read t).Perm (s.results read t) := by
  cases h with
  | start => exact List.Perm.append_right _ (List.perm_middle.map _)
  | @finish waiting before file after finished gathered =>
    -- what the task gives moves from the running ones to the front of the finished ones
    have hrunning : ((waiting ++ (before ++ file :: after)).map (Outcome.ofFile read t)).Perm
        (Outcome.ofFile read t file ::
          (waiting ++ (before ++ after)).map (Outcome.ofFile read t)) := by
      rw [← List.append_assoc, ← List.append_assoc, ← List.map_cons]
      exact List.perm_middle.map _
    exact List.perm_middle.trans (hrunning.symm.append_right _)
  | @gather running before o after gathered =>
    refine List.Perm.append_left _ ?_
    -- the outcome moves from the finished ones to the end of the gathered ones
    calc before ++ after ++ (gathered ++ [o]).map Except.ok
        = (before ++ (after ++ gathered.map .ok)) ++ [.ok o] := by simp
      _ ~ .ok o :: (before ++ (after ++ gathered.map .ok)) := List.perm_append_singleton ..
      _ ~ before ++ .ok o :: (after ++ gathered.map .ok) := List.perm_middle.symm
      _ = before ++ .ok o :: after ++ gathered.map .ok := by simp

theorem Step.size_lt {s s' : Tasks} (h : Step read t s s') : s'.size < s.size := by
  cases h <;> simp only [size, List.length_append, List.length_cons] <;> omega

theorem wellFounded_step : WellFounded fun s' s : Tasks => Step read t s s' :=
  Subrelation.wf Step.size_lt (InvImage.wf size Nat.lt_wfRel.wf)

theorem results_perm_of_run {files : List InputFile} {s : Tasks}
    (h : ReflTransGen (Step read t) (start files) s) :
    (s.results read t).Perm (files.map (Outcome.ofFile read t)) := by
  induction h with
  | refl => simp [start, results]
  | tail _ hstep ih => exact hstep.results_perm.trans ih

theorem Step.finish_head (waiting : List InputFile) (file : InputFile) (running : List InputFile)
    (finished : List (Except CommandFailure Outcome)) (gathered : List Outcome) :
    Step read t ⟨waiting, file :: running, finished, gathered⟩
      ⟨waiting, running, Outcome.ofFile read t file :: finished, gathered⟩ :=
  @Step.finish read t waiting [] file running finished gathered

theorem Step.gather_head (running : List InputFile) (o : Outcome)
    (finished : List (Except CommandFailure Outcome)) (gathered : List Outcome) :
    Step read t ⟨[], running, .ok o :: finished, gathered⟩
      ⟨[], running, finished, gathered ++ [o]⟩ :=
  @Step.gather read t running [] o finished gathered

theorem Ends.failed_head (running : List InputFile) (f : CommandFailure)
    (finished : List (Except CommandFailure Outcome)) (gathered : List Outcome) :
    Ends ⟨[], running, .error f :: finished, gathered⟩ (.error f) :=
  @Ends.failed running [] f finished gathered

/-- Wherever the tasks have got to, they can go on to an end. -/
theorem exists_end (s : Tasks) : ∃ s' r, ReflTransGen (Step read t) s s' ∧ s'.Ends r := by
  induction s using (@wellFounded_step read t).induction with
  | _ s ih =>
    -- it is enough to take one step
    have hnext : ∀ s', Step read t s s' → ∃ s' r, ReflTransGen (Step read t) s s' ∧ s'.Ends r := by
      intro s' hstep
      obtain ⟨last, r, hrun, hend⟩ := ih s' hstep
      exact ⟨last, r, .head hstep hrun, hend⟩
    obtain ⟨waiting, running, finished, gathered⟩ := s
    cases waiting with
    | cons file waiting => exact hnext _ .start
    | nil =>
      cases running with
      | cons file running => exact hnext _ (.finish_head ..)
      | nil =>
        cases finished with
        | nil => exact ⟨_, _, .refl, .done⟩
        | cons result finished =>
          cases result with
          | ok o => exact hnext _ (.gather_head ..)
          | error f => exact ⟨_, _, .refl, .failed_head ..⟩

theorem run_of_start (waiting running : List InputFile) :
    ReflTransGen (Step read t) ⟨waiting, running, [], []⟩
      ⟨[], waiting.reverse ++ running, [], []⟩ := by
  induction waiting generalizing running with
  | nil => exact .refl
  | cons file waiting ih =>
    rw [List.reverse_cons, List.append_assoc]
    exact .head .start (ih (file :: running))

/-- Tasks that are running can finish, and be gathered, in the order of any list of
their files; the first failure in it ends the whole. -/
theorem exists_run (order running : List InputFile) (gathered : List Outcome)
    (h : running.Perm order) : ∃ s r,
    ReflTransGen (Step read t) ⟨[], running, [], gathered⟩ s ∧ s.Ends r ∧
      r = (order.mapM (Outcome.ofFile read t)).map fun os => sortOutcomes (gathered ++ os) := by
  induction order generalizing running gathered with
  | nil =>
    obtain rfl := h.eq_nil
    exact ⟨_, _, .refl, .done, by rw [List.mapM_nil]; simp [Except.map, pure, Except.pure]⟩
  | cons file order ih =>
    obtain ⟨before, after, rfl⟩ := List.append_of_mem (h.symm.subset List.mem_cons_self)
    have hrest : (before ++ after).Perm order :=
      List.Perm.cons_inv (List.perm_middle.symm.trans h)
    rw [List.mapM_cons]
    cases hfile : Outcome.ofFile read t file with
    | error f =>
      have hstep : Step read t ⟨[], before ++ file :: after, [], gathered⟩ _ := .finish
      rw [hfile] at hstep
      exact ⟨_, _, .single hstep, .failed_head .., rfl⟩
    | ok o =>
      have hstep : Step read t ⟨[], before ++ file :: after, [], gathered⟩ _ := .finish
      rw [hfile] at hstep
      obtain ⟨s, r, hrun, hend, rfl⟩ := ih (before ++ after) (gathered ++ [o]) hrest
      refine ⟨s, _, .head hstep (.head (.gather_head ..) hrun), hend, ?_⟩
      cases order.mapM (Outcome.ofFile read t) with
      | error f => rfl
      | ok os =>
        simp only [List.append_assoc, List.singleton_append]
        rfl

/-- Every order in which files can complete is that of some run, which ends as going
through the files in this order does. -/
theorem exists_run_of_perm {files order : List InputFile} (h : order.Perm files) :
    ∃ s, ReflTransGen (Step read t) (start files) s ∧ s.Ends (transformFiles read t order) := by
  have hrunning : (files.reverse ++ []).Perm order := by
    rw [List.append_nil]
    exact (List.reverse_perm files).trans h.symm
  obtain ⟨s, r, hrun, hend, rfl⟩ := @exists_run read t order _ [] hrunning
  refine ⟨s, (run_of_start files []).trans hrun, ?_⟩
  unfold transformFiles
  cases hmap : order.mapM (Outcome.ofFile read t) with
  | error f =>
    rw [hmap] at hend
    exact hend
  | ok os =>
    rw [hmap] at hend
    exact hend

/-- If every file has an outcome, a run gathers these in some order. -/
theorem Ends.of_outcomes {files : List InputFile} {outcomes : List Outcome} {s : Tasks}
    {r : Except CommandFailure (List Outcome)} (hend : s.Ends r)
    (hrun : ReflTransGen (Step read t) (start files) s)
    (h : files.map (Outcome.ofFile read t) = outcomes.map Except.ok) :
    ∃ gathered, gathered.Perm outcomes ∧ r = .ok (sortOutcomes gathered) := by
  have hperm := results_perm_of_run hrun
  rw [h] at hperm
  cases hend with
  | @failed running before f after gathered =>
    have hmem : .error f ∈ outcomes.map Except.ok := hperm.subset (by simp [results])
    simp at hmem
  | @done gathered =>
    have hgathered : (gathered.map Except.ok).Perm (outcomes.map Except.ok) := hperm
    refine ⟨gathered, ?_, rfl⟩
    exact (List.map_perm_map_iff fun _ _ => Except.ok.inj).mp hgathered

/-- If some file has none, a run ends with the failure of such a file. -/
theorem Ends.of_error {files : List InputFile} {file : InputFile} {f : CommandFailure} {s : Tasks}
    {r : Except CommandFailure (List Outcome)} (hend : s.Ends r)
    (hrun : ReflTransGen (Step read t) (start files) s) (hfile : file ∈ files)
    (h : Outcome.ofFile read t file = .error f) :
    ∃ file ∈ files, ∃ f, Outcome.ofFile read t file = .error f ∧ r = .error f := by
  have hperm := results_perm_of_run hrun
  cases hend with
  | @failed running before f after gathered =>
    have hmem : .error f ∈ files.map (Outcome.ofFile read t) := hperm.subset (by simp [results])
    obtain ⟨file, hfile, heq⟩ := List.mem_map.mp hmem
    exact ⟨file, hfile, f, heq, rfl⟩
  | @done gathered =>
    have hmem : .error f ∈ gathered.map Except.ok :=
      hperm.symm.subset (List.mem_map.mpr ⟨file, hfile, h⟩)
    simp at hmem

end Tasks

/-- **What is returned does not depend on the order of completion.** Whatever files
there are and however they are read: no run goes on forever, each can go on to its
end, and each order of completion is that of a run. If every file can be read, a run
returns outcomes in the order of their paths, exactly one for each file, with its
bytes and the transform of its path and bytes; and if moreover no two paths compare
equal, these are the same outcomes for every run. If some file cannot be read, every
run returns the failure of such a file. -/
theorem tasks_return (read : Reader) (t : Transform) (files : List InputFile) :
    let Runs := ReflTransGen (Tasks.Step read t)
    let Returns r := ∃ s, Runs (.start files) s ∧ s.Ends r
    (WellFounded fun s' s : Tasks => Tasks.Step read t s s') ∧
      (∀ s, Runs (.start files) s → ∃ s' r, Runs s s' ∧ s'.Ends r) ∧
      (∀ order, order.Perm files → Returns (transformFiles read t order)) ∧
      ((∀ file ∈ files, ∃ bytes, read file.path = .ok bytes) →
        (∀ r, Returns r → ∃ outcomes each, r = .ok outcomes ∧ SortedByPath outcomes ∧
          outcomes.Perm each ∧ List.Forall₂ (Outcome.IsOf read t) files each) ∧
        (files.Pairwise (fun a b => DiskPath.compare a.path b.path ≠ .eq) →
          ∀ r, Returns r → r = transformFiles read t files)) ∧
      ((∃ file ∈ files, ∃ fault, read file.path = .error fault) →
        ∀ r, Returns r → ∃ file ∈ files, ∃ fault, read file.path = .error fault ∧
          r = .error (.unreadable file.path fault)) := by
  intro Runs Returns
  refine ⟨Tasks.wellFounded_step, fun s _ => Tasks.exists_end s,
    fun order horder => Tasks.exists_run_of_perm horder, ?_, ?_⟩
  · intro hread
    obtain ⟨each, heach⟩ := exists_outcomes (t := t) hread
    refine ⟨?_, ?_⟩
    · rintro r ⟨s, hrun, hend⟩
      obtain ⟨gathered, hperm, rfl⟩ := hend.of_outcomes hrun heach
      exact ⟨sortOutcomes gathered, each, rfl, sortOutcomes_sorted gathered,
        (sortOutcomes_perm gathered).trans hperm, forall₂_isOf heach⟩
    · rintro hne r ⟨s, hrun, hend⟩
      obtain ⟨gathered, hperm, rfl⟩ := hend.of_outcomes hrun heach
      have hpaths : each.Pairwise fun a b => DiskPath.compare a.file.path b.file.path ≠ .eq :=
        pairwise_of_forall₂ (forall₂_isOf heach) hne
      rw [sortOutcomes_eq_of_perm hperm hpaths]
      unfold transformFiles
      rw [mapM_eq_ok_iff.mpr heach]
      rfl
  · rintro ⟨file, hfile, fault, hfault⟩ r ⟨s, hrun, hend⟩
    obtain ⟨other, hother, f, hf, rfl⟩ := hend.of_error hrun hfile (Outcome.ofFile_of_error hfault)
    obtain ⟨fault', hfault', rfl⟩ := Outcome.exists_of_ofFile hf
    exact ⟨other, hother, fault', hfault', rfl⟩

end DeadBranch
