/-
# Delivering outcomes

Outcomes are delivered by writing files one after the other; the first write that
fails is the last one (`deliver_writes`). Each write replaces what was at its place
and leaves all other files. So a file holds what was last written to it, and one that
nothing is written to keeps its content.

Key definitions: `Disk.Writes`, `writesOf`.
Key theorems: `Disk.Writes.fileAt?_of_last`, `Disk.Writes.fileAt?_of_unwritten`,
`Disk.Writes.fileAt?_of_agreed`, `deliver_writes`, `mem_of_transformReading`,
`shrinkReading_writes`.
-/
import DeadBranch.Command.Run
import DeadBranch.Proofs.Completion
import DeadBranch.Proofs.Places

namespace DeadBranch

open DiskPath

/-! ### Write after write -/

namespace Disk

/-- Contents are written to paths, one after the other. -/
inductive Writes : Disk → List (String × Bytes) → Disk → Prop
  | nil {d : Disk} : Writes d [] d
  | cons {d d' d'' : Disk} {path : String} {bytes : Bytes} {ws : List (String × Bytes)}
    (hw : d.write path bytes = .ok d') (hws : Writes d' ws d'') :
    Writes d ((path, bytes) :: ws) d''

variable {d d' d'' : Disk} {ws xs ys : List (String × Bytes)} {p : Place}

theorem writes_append : Writes d (xs ++ ys) d'' ↔ ∃ d', Writes d xs d' ∧ Writes d' ys d'' := by
  constructor
  · intro h
    induction xs generalizing d with
    | nil => exact ⟨d, .nil, h⟩
    | cons x xs ih =>
      cases h with
      | cons hw hws =>
        obtain ⟨d', hxs, hys⟩ := ih hws
        exact ⟨d', .cons hw hxs, hys⟩
  · rintro ⟨d', hxs, hys⟩
    induction hxs with
    | nil => exact hys
    | cons hw _ ih => exact .cons hw (ih hys)

namespace Writes

theorem unique (h : Writes d ws d') (h' : Writes d ws d'') : d'' = d' := by
  induction h with
  | nil =>
    cases h' with
    | nil => rfl
  | cons hw _ ih =>
    cases h' with
    | cons hw' hws' =>
      rw [hw, Except.ok.injEq] at hw'
      rw [← hw'] at hws'
      exact ih hws'

theorem here_eq (h : Writes d ws d') : d'.here = d.here := by
  induction h with
  | nil => rfl
  | cons hw _ ih => exact ih.trans (written_of_write hw).here_eq

theorem isDirAt (h : Writes d ws d') (hp : d.isDirAt p) : d'.isDirAt p := by
  induction h with
  | nil => exact hp
  | cons hw _ ih => exact ih ((written_of_write hw).isDirAt p hp)

/-- A file that nothing is written to keeps its content. -/
theorem fileAt?_of_unwritten (h : Writes d ws d') (hp : ∀ w ∈ ws, d.placeOf w.1 ≠ p) :
    d'.fileAt? p = d.fileAt? p := by
  induction h with
  | nil => rfl
  | @cons d d₁ d' path bytes ws hw _ ih =>
    have hwritten := written_of_write hw
    have hrest : ∀ w ∈ ws, d₁.placeOf w.1 ≠ p := by
      intro w hmem
      rw [placeOf_congr hwritten.here_eq]
      exact hp w (List.mem_cons_of_mem _ hmem)
    have hpath : p ≠ d.placeOf path := Ne.symm (hp (path, bytes) List.mem_cons_self)
    rw [ih hrest, hwritten.fileAt?_eq, if_neg hpath]

/-- A file holds what was last written to it. -/
theorem fileAt?_of_last {path : String} {bytes : Bytes}
    (h : Writes d (xs ++ (path, bytes) :: ys) d')
    (hys : ∀ y ∈ ys, d.placeOf y.1 ≠ d.placeOf path) :
    d'.fileAt? (d.placeOf path) = some bytes := by
  obtain ⟨m, hxs, hrest⟩ := writes_append.mp h
  cases hrest with
  | @cons _ m' _ _ _ _ hw hws =>
    have hwritten := written_of_write hw
    have hplace : ∀ path, m'.placeOf path = d.placeOf path := fun path =>
      placeOf_congr (hwritten.here_eq.trans hxs.here_eq) path
    have hkept : ∀ y ∈ ys, m'.placeOf y.1 ≠ d.placeOf path := by
      intro y hy
      rw [hplace]
      exact hys y hy
    rw [hws.fileAt?_of_unwritten hkept, hwritten.fileAt?_eq,
      if_pos (placeOf_congr hxs.here_eq path).symm]

/-- A file that is written to with one content only holds it, however often it is
written to. -/
theorem fileAt?_of_agreed {bytes : Bytes} (h : Writes d ws d')
    (hsome : ∃ w ∈ ws, d.placeOf w.1 = p) (hall : ∀ w ∈ ws, d.placeOf w.1 = p → w.2 = bytes) :
    d'.fileAt? p = some bytes := by
  induction h with
  | nil =>
    obtain ⟨w, hw, -⟩ := hsome
    exact absurd hw List.not_mem_nil
  | @cons d d₁ d' path content ws hw hws ih =>
    have hwritten := written_of_write hw
    have hplace := placeOf_congr hwritten.here_eq
    by_cases hlater : ∃ w ∈ ws, d.placeOf w.1 = p
    · refine ih (by simpa only [hplace] using hlater) fun w hmem hp => ?_
      rw [hplace] at hp
      exact hall w (List.mem_cons_of_mem _ hmem) hp
    · -- the first write is the last one to the place
      have hfirst : d.placeOf path = p := by
        obtain ⟨w, hmem, hp⟩ := hsome
        rcases List.mem_cons.mp hmem with rfl | hmem
        · exact hp
        · exact absurd ⟨w, hmem, hp⟩ hlater
      have hcontent : content = bytes := hall (path, content) List.mem_cons_self hfirst
      have hrest : ∀ w ∈ ws, d₁.placeOf w.1 ≠ p := by
        intro w hmem hp
        rw [hplace] at hp
        exact hlater ⟨w, hmem, hp⟩
      rw [hws.fileAt?_of_unwritten hrest, hwritten.fileAt?_eq, if_pos hfirst.symm, hcontent]

/-- The way to what was written stays. -/
theorem leads (h : Writes d ws d') {w : String × Bytes} (hw : w ∈ ws) :
    d'.Leads (d.start w.1) (pieces w.1) := by
  induction h with
  | nil => exact absurd hw List.not_mem_nil
  | cons hfirst hws ih =>
    have hwritten := written_of_write hfirst
    rcases List.mem_cons.mp hw with rfl | hw
    · exact hwritten.leads.mono fun q hq => hws.isDirAt hq
    · rw [← start_congr hwritten.here_eq]
      exact ih hw

/-- A path that was written names the file at its place. -/
theorem read_eq (h : Writes d ws d') {w : String × Bytes} (hw : w ∈ ws) (hpath : w.1 ≠ "")
    {bytes : Bytes} : d'.read w.1 = .ok bytes ↔ d'.fileAt? (d.placeOf w.1) = some bytes := by
  have hplace := placeOf_congr h.here_eq w.1
  have hleads : d'.Leads (d'.start w.1) (pieces w.1) := by
    rw [start_congr h.here_eq]
    exact h.leads hw
  rw [← hplace]
  constructor
  · intro hread
    exact (find_of_read hread).2
  · intro hfile
    have hthere := isFileAt_of_fileAt? hfile
    have hfind := find_eq_ok_iff.mpr ⟨hpath, hleads, rfl, .inr hthere⟩
    exact read_eq_ok_iff.mpr ⟨_, hfind, hfile⟩

end Writes

/-- Files that are there can all be written; no file or directory is added. -/
theorem exists_writes (hd : d.IsTree)
    (h : ∀ w ∈ ws, ∃ p, d.find w.1 = .ok p ∧ d.isFileAt p) :
    ∃ d', Writes d ws d' ∧ d'.dirs = d.dirs ∧
      d'.files.map Prod.fst = d.files.map Prod.fst ∧ d'.find = d.find := by
  induction ws generalizing d with
  | nil => exact ⟨d, .nil, rfl, rfl, rfl⟩
  | cons w ws ih =>
    obtain ⟨p, hfind, hfile⟩ := h w List.mem_cons_self
    have hput : (d.put p w.2).find = d.find := funext (find_put hfile w.2)
    have hplaces := places_put_of_isFileAt hfile w.2
    have hws : ∀ w' ∈ ws, ∃ q, (d.put p w.2).find w'.1 = .ok q ∧ (d.put p w.2).isFileAt q := by
      intro w' hw'
      obtain ⟨q, hfind', hfile'⟩ := h w' (List.mem_cons_of_mem _ hw')
      rw [hput]
      exact ⟨q, hfind', by rw [isFileAt_congr hplaces]; exact hfile'⟩
    obtain ⟨d', hwrites, hdirs, hfiles, hfinds⟩ := ih (hd.put hfile w.2) hws
    exact ⟨d', .cons (write_of_find hd hfind hfile w.2) hwrites, hdirs, hfiles.trans hplaces,
      hfinds.trans hput⟩

end Disk

/-! ### Delivering -/

/-- What is to be written of outcomes. -/
def writesOf (destination : Destination) (outcomes : List Outcome) : List (String × Bytes) :=
  outcomes.filterMap fun o => (writtenTo? o destination).map fun path => (path, o.output.bytes)

theorem mem_writesOf {destination : Destination} {outcomes : List Outcome} {w : String × Bytes} :
    w ∈ writesOf destination outcomes ↔
      ∃ o ∈ outcomes, writtenTo? o destination = some w.1 ∧ o.output.bytes = w.2 := by
  obtain ⟨path, bytes⟩ := w
  simp [writesOf, List.mem_filterMap]

theorem deliver_cons {destination : Destination} {o : Outcome} {r : Run} {disk : Disk}
    (h : writeOutcome destination r.disk o = .ok disk) (outcomes : List Outcome) :
    ∃ r' : Run, r'.disk = disk ∧ r'.failure = r.failure ∧
      deliver destination (o :: outcomes) r = deliver destination outcomes r' := by
  refine ⟨{ r with
    disk, output := r.output ++ shown destination o, notes := r.notes ++ failureNotes o },
    rfl, rfl, ?_⟩
  rw [deliver]
  simp only [Run.say, h]

theorem deliver_cons_error {destination : Destination} {o : Outcome} {r : Run} {fault : Disk.Fault}
    (h : writeOutcome destination r.disk o = .error fault) (outcomes : List Outcome) :
    (deliver destination (o :: outcomes) r).disk = r.disk ∧
      (deliver destination (o :: outcomes) r).failure = some (.unwritable fault) := by
  rw [deliver]
  simp only [Run.say, h, and_self]

/-- **Outcomes are written in their order, up to the first one that cannot be.** -/
theorem deliver_writes (destination : Destination) (outcomes : List Outcome) {r : Run}
    (hr : r.failure = none) :
    ∃ done rest, writesOf destination outcomes = done ++ rest ∧
      r.disk.Writes done (deliver destination outcomes r).disk ∧
      (rest = [] ∧ (deliver destination outcomes r).failure = none ∨
        ∃ w fault, rest.head? = some w ∧
          (deliver destination outcomes r).disk.write w.1 w.2 = .error fault ∧
          (deliver destination outcomes r).failure = some (.unwritable fault)) := by
  induction outcomes generalizing r with
  | nil => exact ⟨[], [], rfl, .nil, .inl ⟨rfl, hr⟩⟩
  | cons o outcomes ih =>
    cases hpath : writtenTo? o destination with
    | none =>
      have hwrite : writeOutcome destination r.disk o = .ok r.disk := by
        rw [writeOutcome, hpath]
      have hskip : writesOf destination (o :: outcomes) = writesOf destination outcomes := by
        simp [writesOf, hpath]
      obtain ⟨r', hdisk, hfailure, hnext⟩ := deliver_cons hwrite outcomes
      rw [hskip, hnext, ← hdisk]
      exact ih (hfailure.trans hr)
    | some path =>
      have hmore : writesOf destination (o :: outcomes) =
          (path, o.output.bytes) :: writesOf destination outcomes := by
        simp [writesOf, hpath]
      have hwrite : writeOutcome destination r.disk o = r.disk.write path o.output.bytes := by
        rw [writeOutcome, hpath]
      rw [hmore]
      cases hdisk : r.disk.write path o.output.bytes with
      | error fault =>
        rw [hdisk] at hwrite
        obtain ⟨hsame, hfailure⟩ := deliver_cons_error hwrite outcomes
        rw [hsame, hfailure]
        exact ⟨[], _, rfl, .nil, .inr ⟨_, fault, rfl, hdisk, rfl⟩⟩
      | ok disk =>
        rw [hdisk] at hwrite
        obtain ⟨r', rfl, hfailure, hnext⟩ := deliver_cons hwrite outcomes
        obtain ⟨done, rest, hall, hdone, hend⟩ := ih (hfailure.trans hr)
        rw [hnext, hall]
        exact ⟨(path, o.output.bytes) :: done, rest, rfl, .cons hdisk hdone, hend⟩

/-- Where everything can be written, it is. -/
theorem deliver_of_writes {destination : Destination} {outcomes : List Outcome} {r : Run}
    {d' : Disk} (hr : r.failure = none) (h : r.disk.Writes (writesOf destination outcomes) d') :
    (deliver destination outcomes r).disk = d' ∧
      (deliver destination outcomes r).failure = none := by
  obtain ⟨done, rest, hall, hdone, ⟨rfl, hnone⟩ | ⟨w, fault, hw, hfault, -⟩⟩ :=
    deliver_writes destination outcomes hr
  · rw [hall, List.append_nil] at h
    exact ⟨h.unique hdone, hnone⟩
  · -- what could not be written can be
    obtain ⟨rest, rfl⟩ := List.head?_eq_some_iff.mp hw
    rw [hall] at h
    obtain ⟨d'', hdone', hrest⟩ := Disk.writes_append.mp h
    cases hrest with
    | cons hwrite _ =>
      rw [hdone.unique hdone', hfault] at hwrite
      exact nomatch hwrite

/-! ### Outcomes of files -/

section Reading

variable {read : Reader} {d : Disk} {s : Settings} {paths : List String}
  {options : ShrinkOptions} {files : List InputFile} {outcomes : List Outcome} {t : Transform}

theorem Outcome.IsOf.ofFile_eq {file : InputFile} {o : Outcome} (h : Outcome.IsOf read t file o) :
    Outcome.ofFile read t file = .ok o := by
  rw [Outcome.ofFile_of_ok h.input_eq, ← h.output_eq, ← h.file_eq]

theorem transformReading_of_settings (ht : Transform.ofSettings s = .ok t) :
    transformReading read s files = transformFiles read t files := by
  rw [transformReading, ht]
  rfl

theorem transformFiles_eq_ok_iff : transformFiles read t files = .ok outcomes ↔
    ∃ each, files.map (Outcome.ofFile read t) = each.map Except.ok ∧
      outcomes = sortOutcomes each := by
  simp only [← mapM_eq_ok_iff]
  unfold transformFiles
  cases files.mapM (Outcome.ofFile read t) with
  | error f => exact iff_of_false nofun (by simp)
  | ok each =>
    change Except.ok (sortOutcomes each) = _ ↔ _
    simp [eq_comm]

/-- Files are read and transformed exactly if the settings can be used and each of
them has an outcome. -/
theorem transformReading_eq_ok_iff : transformReading read s files = .ok outcomes ↔
    ∃ t each, Transform.ofSettings s = .ok t ∧
      files.map (Outcome.ofFile read t) = each.map Except.ok ∧ outcomes = sortOutcomes each := by
  cases ht : Transform.ofSettings s with
  | error fault =>
    refine iff_of_false ?_ (by simp)
    rw [transformReading, ht]
    exact nofun
  | ok t =>
    rw [transformReading_of_settings ht, transformFiles_eq_ok_iff]
    simp

/-- There is one outcome for each file. -/
theorem mem_of_transformReading (ht : Transform.ofSettings s = .ok t)
    (h : transformReading read s files = .ok outcomes) {o : Outcome} :
    o ∈ outcomes ↔ ∃ file ∈ files, Outcome.IsOf read t file o := by
  obtain ⟨t', each, ht', heach, rfl⟩ := transformReading_eq_ok_iff.mp h
  rw [ht, Except.ok.injEq] at ht'
  subst ht'
  have hok : (.ok o : Except CommandFailure Outcome) ∈ each.map Except.ok ↔ o ∈ each := by simp
  rw [(sortOutcomes_perm each).mem_iff, ← hok, ← heach, List.mem_map]
  constructor
  · rintro ⟨file, hfile, ho⟩
    exact ⟨file, hfile, Outcome.isOf_of_ofFile ho⟩
  · rintro ⟨file, hfile, ho⟩
    exact ⟨file, hfile, ho.ofFile_eq⟩

theorem transformReading_of_readable (ht : Transform.ofSettings s = .ok t)
    (h : ∀ file ∈ files, ∃ bytes, read file.path = .ok bytes) :
    ∃ outcomes, transformReading read s files = .ok outcomes := by
  obtain ⟨each, heach⟩ := exists_outcomes h
  exact ⟨sortOutcomes each, transformReading_eq_ok_iff.mpr ⟨t, each, ht, heach, rfl⟩⟩

theorem transformReading_of_unreadable {file : InputFile} {fault : Disk.Fault}
    (hfile : file ∈ files) (h : read file.path = .error fault) :
    ∃ f, transformReading read s files = .error f := by
  cases houtcomes : transformReading read s files with
  | error f => exact ⟨f, rfl⟩
  | ok outcomes =>
    obtain ⟨t, each, -, heach, -⟩ := transformReading_eq_ok_iff.mp houtcomes
    have hmem : Outcome.ofFile read t file ∈ each.map Except.ok := by
      rw [← heach]
      exact List.mem_map_of_mem hfile
    rw [Outcome.ofFile_of_error h] at hmem
    simp at hmem

/-! ### The whole command -/

theorem shrinkReading_of_collect {f : CommandFailure} (h : collect d s paths = .error f) :
    shrinkReading read d s paths options = .failed d [] f := by
  rw [shrinkReading, h]

theorem shrinkReading_of_destination (hcollect : collect d s paths = .ok files)
    (h : destination? d paths options files = none) :
    (shrinkReading read d s paths options).disk = d ∧
      (files ≠ [] → (shrinkReading read d s paths options).failure = some .noDestination) := by
  rw [shrinkReading, hcollect]
  cases files with
  | nil => exact ⟨rfl, fun hne => absurd rfl hne⟩
  | cons file files =>
    simp only [h]
    exact ⟨rfl, fun _ => rfl⟩

/-- Nothing is written before all files are read. -/
theorem shrinkReading_of_transform {destination : Destination} {f : CommandFailure}
    (hcollect : collect d s paths = .ok files)
    (hdestination : destination? d paths options files = some destination)
    (h : transformReading read s files = .error f) :
    (shrinkReading read d s paths options).disk = d ∧
      (files ≠ [] → (shrinkReading read d s paths options).failure = some f) := by
  rw [shrinkReading, hcollect]
  cases files with
  | nil => exact ⟨rfl, fun hne => absurd rfl hne⟩
  | cons file files =>
    simp only [hdestination, h]
    exact ⟨rfl, fun _ => rfl⟩

section Outcomes

variable {destination : Destination} (hcollect : collect d s paths = .ok files)
  (hdestination : destination? d paths options files = some destination)
  (houtcomes : transformReading read s files = .ok outcomes)
include hcollect hdestination houtcomes

theorem exists_deliver :
    ∃ notes, (shrinkReading read d s paths options).disk =
        (deliver destination outcomes ⟨d, [], notes, none⟩).disk ∧
      (shrinkReading read d s paths options).failure =
        (deliver destination outcomes ⟨d, [], notes, none⟩).failure := by
  have hsay : ∀ (r : Run) (notes : List Note),
      (if r.failure.isSome then r else r.say notes).disk = r.disk ∧
        (if r.failure.isSome then r else r.say notes).failure = r.failure := by
    intro r notes
    constructor
    · split <;> rfl
    · split <;> rfl
  rw [shrinkReading, hcollect]
  cases files with
  | nil =>
    obtain ⟨t, each, -, heach, rfl⟩ := transformReading_eq_ok_iff.mp houtcomes
    have hnone : each = [] := List.map_eq_nil_iff.mp heach.symm
    rw [hnone, sortOutcomes, List.mergeSort_nil]
    exact ⟨[], rfl, rfl⟩
  | cons file files =>
    simp only [hdestination, houtcomes]
    exact ⟨_, hsay _ _⟩

/-- **What shrinking does to a disk.** Some of the outcomes are written, in their
order, and all of them if it does not fail. -/
theorem shrinkReading_writes :
    ∃ done rest, writesOf destination outcomes = done ++ rest ∧
      d.Writes done (shrinkReading read d s paths options).disk ∧
      ((shrinkReading read d s paths options).failure = none → rest = []) := by
  obtain ⟨notes, hdisk, hfailure⟩ := exists_deliver hcollect hdestination houtcomes
  obtain ⟨done, rest, hall, hdone, hend⟩ :=
    @deliver_writes destination outcomes ⟨d, [], notes, none⟩ rfl
  rw [hdisk, hfailure]
  refine ⟨done, rest, hall, hdone, fun hnone => ?_⟩
  rcases hend with ⟨hrest, -⟩ | ⟨w, fault, -, -, hsome⟩
  · exact hrest
  · rw [hsome] at hnone
    exact nomatch hnone

theorem shrinkReading_of_writes {d' : Disk} (h : d.Writes (writesOf destination outcomes) d') :
    (shrinkReading read d s paths options).disk = d' ∧
      (shrinkReading read d s paths options).failure = none := by
  obtain ⟨notes, hdisk, hfailure⟩ := exists_deliver hcollect hdestination houtcomes
  rw [hdisk, hfailure]
  exact @deliver_of_writes destination outcomes ⟨d, [], notes, none⟩ d' rfl h

end Outcomes
end Reading
end DeadBranch
