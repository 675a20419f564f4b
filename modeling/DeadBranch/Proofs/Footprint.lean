/-
# What shrinking leaves on a disk

Everything that is written is a result, and is written where its destination says
(`exists_writes_of_results`): nothing without a destination that is a directory or the
files themselves, and nothing at all if a file cannot be read. In place, a file may be
given by several paths. Its path shows in what is said about it, but not in what
becomes of its bytes (`apply_congr`), so all its results are the same and it does not
matter which of them is written last.

Key definitions: `RewrittenInPlace`.
Key theorems: `apply_congr`, `exists_writes_of_results`, `rewrittenInPlace`,
`shrink_footprint`.
-/
import DeadBranch.Proofs.Deliveries
import DeadBranch.Proofs.Pruned
import DeadBranch.Proofs.Transformation

namespace DeadBranch

open DiskPath

/-! ### The path of a file -/

section Path

variable {t : Transform} {path path' : String} {bytes : Bytes}

/-- A text is the same program whatever path it is read by. -/
theorem read_congr {code : String} {path : Option String} {mode : ParseMode} {source : Source}
    (h : Source.read code path mode = .ok source) (path' : Option String) :
    ∃ source', Source.read code path' mode = .ok source' ∧ source'.program = source.program := by
  unfold Source.read at h ⊢
  cases hparse : parseProgram (dropMark code.toList) with
  | error fault => simp only [hparse, reduceCtorEq] at h
  | ok parsed =>
    simp only [hparse] at h ⊢
    split at h
    · exact nomatch h
    · obtain rfl := Except.ok.inj h
      exact ⟨_, rfl, rfl⟩

theorem parses_congr {source : Source} (h : Language.javascript.Parses t.mode path bytes source)
    (path' : String) : ∃ source', Language.javascript.Parses t.mode path' bytes source' ∧
      source'.program = source.program := by
  obtain ⟨code, hcode, hread⟩ := h
  obtain ⟨source', hread', hprogram⟩ := read_congr hread (some path')
  exact ⟨source', ⟨code, hcode, hread'⟩, hprogram⟩

theorem foldRecord?_eq_none_iff (locate : Nat → Location) (verdict : Option Bool) (span : Span)
    (hasAlternate : Bool) :
    foldRecord? locate verdict span hasAlternate = none ↔ verdict = none := by
  cases verdict with
  | none => exact iff_of_true rfl rfl
  | some value =>
    refine iff_of_false ?_ nofun
    cases value <;> cases hasAlternate <;> exact nofun

/-- Whether something is folded does not depend on how places are told. -/
theorem shrink_folds_eq_nil_iff (wholeChain : Bool) (locate locate' : Nat → Location)
    (p : Program) :
    (shrink wholeChain locate p).folds = [] ↔ (shrink wholeChain locate' p).folds = [] := by
  have hrecord : ∀ site : Site, site.record? (.ofProgram p) wholeChain locate = none ↔
      site.record? (.ofProgram p) wholeChain locate' = none := by
    intro site
    unfold Site.record?
    split
    · rfl
    · rw [foldRecord?_eq_none_iff, foldRecord?_eq_none_iff]
  rw [shrink_folds, shrink_folds, List.filterMap_eq_nil_iff, List.filterMap_eq_nil_iff]
  exact forall₂_congr fun site _ => hrecord site

/-- A file that is changed by one path is changed in the same way by any other. -/
theorem changed_of_changed (htarget : t.isTarget path' = t.isTarget path)
    (h : (t.apply path bytes).status = .changed) : (t.apply path' bytes).status = .changed ∧
      (t.apply path' bytes).bytes = (t.apply path bytes).bytes := by
  have hending : Ending .javascript t path bytes (t.apply path bytes) := ending_applyIn ..
  have hending' : Ending .javascript t path' bytes (t.apply path' bytes) := ending_applyIn ..
  obtain ⟨source, text, hs, hp, hbytes, hfolds, hne⟩ := hending.of_changed h
  obtain ⟨source', hs', hprogram⟩ := parses_congr hs path'
  have hleft : (t.shrinkSource source').program = (t.shrinkSource source).program := by
    rw [Transform.shrinkSource, Transform.shrinkSource, shrink_program, shrink_program, hprogram]
  have hne' : (t.shrinkSource source').folds ≠ [] := by
    rw [hfolds] at hne
    rwa [Transform.shrinkSource, Ne, hprogram, shrink_folds_eq_nil_iff]
  rw [← hleft] at hp
  have hchanged : (t.apply path' bytes).status = .changed := by
    refine hending'.changed_iff.mpr ⟨?_, source', text, hs', hne', hp⟩
    rw [htarget]
    exact (hending.changed_iff.mp h).1
  refine ⟨hchanged, ?_⟩
  obtain ⟨source'', text'', hs'', hp'', hbytes'', -, -⟩ := hending'.of_changed hchanged
  rw [hs'.unique hs'', hp, Except.ok.injEq] at hp''
  rw [hbytes'', hbytes, hp'']

/-- The path of a file shows in what becomes of its bytes only by its extension. -/
theorem apply_congr (htarget : t.isTarget path' = t.isTarget path) (bytes : Bytes) :
    ((t.apply path' bytes).status = .changed ↔ (t.apply path bytes).status = .changed) ∧
      (t.apply path' bytes).bytes = (t.apply path bytes).bytes := by
  by_cases h : (t.apply path bytes).status = .changed
  · obtain ⟨hchanged, hbytes⟩ := changed_of_changed htarget h
    exact ⟨iff_of_true hchanged h, hbytes⟩
  · have h' : (t.apply path' bytes).status ≠ .changed := fun hchanged =>
      h (changed_of_changed htarget.symm hchanged).1
    have hending : Ending .javascript t path bytes (t.apply path bytes) := ending_applyIn ..
    have hending' : Ending .javascript t path' bytes (t.apply path' bytes) := ending_applyIn ..
    refine ⟨iff_of_false h' h, ?_⟩
    rw [(hending.of_not_changed h).1, (hending'.of_not_changed h').1]

/-- By all paths that lead to a file the same becomes of it. -/
theorem apply_eq_of_place {d : Disk} (hd : d.IsTree) {bytes' : Bytes}
    (h : d.read path = .ok bytes) (h' : d.read path' = .ok bytes')
    (hplace : d.placeOf path' = d.placeOf path) (t : Transform) :
    bytes' = bytes ∧
      ((t.apply path' bytes').status = .changed ↔ (t.apply path bytes).status = .changed) ∧
      (t.apply path' bytes').bytes = (t.apply path bytes).bytes := by
  obtain ⟨hfind, hfile⟩ := Disk.find_of_read h
  obtain ⟨hfind', hfile'⟩ := Disk.find_of_read h'
  rw [hplace] at hfind' hfile'
  rw [hfile, Option.some.injEq] at hfile'
  subst hfile'
  have hnotDir := hd.not_isDirAt (Disk.isFileAt_of_fileAt? hfile)
  have hname : fileName? path' = fileName? path := by
    rw [Disk.fileName?_of_find hfind hnotDir, Disk.fileName?_of_find hfind' hnotDir]
  have htarget : t.isTarget path' = t.isTarget path := by
    rw [Transform.isTarget, Transform.isTarget, extension?, extension?, hname]
  exact ⟨rfl, apply_congr htarget bytes⟩

end Path

/-! ### What is written -/

section Results

variable {read : Reader} {d : Disk} {s : Settings} {paths : List String}
  {options : ShrinkOptions} {files : List InputFile} {destination : Destination}

/-- **Everything that is written is a result of a file.** -/
theorem exists_writes_of_results (hcollect : collect d s paths = .ok files)
    (hdestination : destination? d paths options files = some destination) :
    ∃ ws, d.Writes ws (shrinkReading read d s paths options).disk ∧
      ∀ w ∈ ws, ∃ o : Outcome, o.file ∈ files ∧ writtenTo? o destination = some w.1 := by
  cases houtcomes : transformReading read s files with
  | error f =>
    rw [(shrinkReading_of_transform hcollect hdestination houtcomes).1]
    exact ⟨[], .nil, fun w hw => absurd hw List.not_mem_nil⟩
  | ok outcomes =>
    obtain ⟨done, rest, hall, hdone, -⟩ := shrinkReading_writes hcollect hdestination houtcomes
    refine ⟨done, hdone, fun w hw => ?_⟩
    have hmem : w ∈ writesOf destination outcomes := by
      rw [hall]
      exact List.mem_append_left _ hw
    obtain ⟨o, ho, hpath, -⟩ := mem_writesOf.mp hmem
    obtain ⟨t, each, ht, -, -⟩ := transformReading_eq_ok_iff.mp houtcomes
    obtain ⟨file, hfile, hof⟩ := (mem_of_transformReading ht houtcomes).mp ho
    rw [← hof.file_eq] at hfile
    exact ⟨o, hfile, hpath⟩

/-- A destination that no result is written to leaves the disk as it was. -/
theorem disk_eq_of_unwritten (hcollect : collect d s paths = .ok files)
    (hdestination : destination? d paths options files = some destination)
    (h : ∀ o, writtenTo? o destination = none) :
    (shrinkReading read d s paths options).disk = d := by
  obtain ⟨ws, hwrites, hresults⟩ := exists_writes_of_results hcollect hdestination
  have hnone : ws = [] := by
    refine List.eq_nil_iff_forall_not_mem.mpr fun w hw => ?_
    obtain ⟨o, -, hpath⟩ := hresults w hw
    rw [h] at hpath
    exact nomatch hpath
  subst hnone
  exact hwrites.unique .nil |>.symm

/-- Files that cannot all be read and transformed leave the disk as it was. -/
theorem failure_of_transform {f : CommandFailure} (hcollect : collect d s paths = .ok files)
    (hne : files ≠ []) (h : transformReading read s files = .error f) :
    (shrinkReading read d s paths options).failure.isSome ∧
      (shrinkReading read d s paths options).disk = d := by
  cases hdestination : destination? d paths options files with
  | none =>
    obtain ⟨hdisk, hfailure⟩ := shrinkReading_of_destination hcollect hdestination
    rw [hfailure hne]
    exact ⟨rfl, hdisk⟩
  | some destination =>
    obtain ⟨hdisk, hfailure⟩ := shrinkReading_of_transform hcollect hdestination h
    rw [hfailure hne]
    exact ⟨rfl, hdisk⟩

/-- Where no option asks for a destination, a single file goes to the output and
nothing else goes anywhere. -/
theorem destination?_plain (hdry : options.dryRun = false) (hdir : options.outDir = none)
    (hplace : options.inPlace = false) :
    ((∃ file path, files = [file] ∧ paths = [path] ∧ d.isFile path) ∧
        destination? d paths options files = some .output) ∨
      (¬ ∃ file path, files = [file] ∧ paths = [path] ∧ d.isFile path) ∧
        destination? d paths options files = none := by
  unfold destination?
  simp only [hdry, hdir, hplace, Bool.false_eq_true, ↓reduceIte]
  split
  · rename_i file path
    by_cases hfile : d.isFile path
    · exact .inl ⟨⟨file, path, rfl, rfl, hfile⟩, if_pos hfile⟩
    · refine .inr ⟨?_, if_neg hfile⟩
      rintro ⟨file', path', -, hpaths, hfile'⟩
      obtain rfl := (List.cons.inj hpaths).1
      exact hfile hfile'
  · rename_i hsingle
    refine .inr ⟨?_, rfl⟩
    rintro ⟨file, path, hfiles, hpaths, -⟩
    exact hsingle file path hfiles hpaths

end Results

/-! ### Rewriting in place -/

/-- What rewriting files in place leaves: the changed ones hold what became of them,
and all else is as it was. -/
structure RewrittenInPlace (d : Disk) (t : Transform) (files : List InputFile) (d' : Disk) :
    Prop where
  changed : ∀ file ∈ files, ∀ bytes, d.read file.path = .ok bytes →
    (t.apply file.path bytes).status = .changed →
      d'.read file.path = .ok (t.apply file.path bytes).bytes
  kept : ∀ file ∈ files, ∀ bytes, d.read file.path = .ok bytes →
    (t.apply file.path bytes).status ≠ .changed → d'.read file.path = .ok bytes
  others : ∀ place, (∀ file ∈ files, ∀ bytes, d.read file.path = .ok bytes →
    (t.apply file.path bytes).status = .changed → d.placeOf file.path ≠ place) →
      d'.fileAt? place = d.fileAt? place
  places : d'.files.map Prod.fst = d.files.map Prod.fst
  dirs : d'.dirs = d.dirs
  here : d'.here = d.here

section InPlace

variable {read : Reader} {d : Disk} {t : Transform} {files : List InputFile}
  {outcomes : List Outcome} (hd : d.IsTree)
  (hread : ∀ path bytes, read path = .ok bytes → d.read path = .ok bytes)
  (hreadable : ∀ file ∈ files, ∃ bytes, read file.path = .ok bytes)
  (houtcomes : ∀ o, o ∈ outcomes ↔ ∃ file ∈ files, Outcome.IsOf read t file o)
include hread houtcomes

/-- What is written in place is what became of a changed file. -/
theorem exists_file_of_write {w : String × Bytes} (hw : w ∈ writesOf .inPlace outcomes) :
    ∃ file ∈ files, ∃ bytes, file.path = w.1 ∧ d.read w.1 = .ok bytes ∧
      (t.apply w.1 bytes).status = .changed ∧ (t.apply w.1 bytes).bytes = w.2 := by
  obtain ⟨o, ho, hpath, hbytes⟩ := mem_writesOf.mp hw
  obtain ⟨file, hfile, hof⟩ := (houtcomes o).mp ho
  rw [hof.output_eq] at hbytes
  simp only [writtenTo?, hof.output_eq, hof.file_eq, Option.ite_none_right_eq_some,
    Option.some.injEq] at hpath
  obtain ⟨hchanged, hpath⟩ := hpath
  rw [hpath] at hchanged hbytes
  have hinput := hread _ _ hof.input_eq
  rw [hpath] at hinput
  exact ⟨file, hfile, o.input, hpath, hinput, hchanged, hbytes⟩

omit hread in
/-- A changed file is written in place. -/
theorem mem_writesOf_of_changed {file : InputFile} (hfile : file ∈ files) {bytes : Bytes}
    (h : read file.path = .ok bytes) (hchanged : (t.apply file.path bytes).status = .changed) :
    (file.path, (t.apply file.path bytes).bytes) ∈ writesOf .inPlace outcomes := by
  refine mem_writesOf.mpr ⟨⟨file, bytes, t.apply file.path bytes⟩, ?_, ?_, rfl⟩
  · exact (houtcomes _).mpr ⟨file, hfile, rfl, h, rfl⟩
  · exact if_pos hchanged

include hd hreadable

/-- **All changed files can be written in place**, and then they are rewritten. -/
theorem rewrittenInPlace : ∃ d', d.Writes (writesOf .inPlace outcomes) d' ∧
    RewrittenInPlace d t files d' := by
  have hwritten := fun w (hw : w ∈ writesOf .inPlace outcomes) =>
    exists_file_of_write hread houtcomes hw
  have hthere : ∀ w ∈ writesOf .inPlace outcomes, ∃ p, d.find w.1 = .ok p ∧ d.isFileAt p := by
    intro w hw
    obtain ⟨-, -, bytes, -, hinput, -, -⟩ := hwritten w hw
    obtain ⟨hfind, hfile⟩ := Disk.find_of_read hinput
    exact ⟨_, hfind, Disk.isFileAt_of_fileAt? hfile⟩
  obtain ⟨d', hwrites, hdirs, hplaces, hfinds⟩ := Disk.exists_writes hd hthere
  -- a path that is found names the file at its place before and after
  have hreads : ∀ {path : String} {bytes : Bytes}, d.read path = .ok bytes →
      ∀ bytes', d'.fileAt? (d.placeOf path) = some bytes' → d'.read path = .ok bytes' := by
    intro path bytes hinput bytes' hfile
    refine Disk.read_eq_ok_iff.mpr ⟨d.placeOf path, ?_, hfile⟩
    rw [hfinds]
    exact (Disk.find_of_read hinput).1
  refine ⟨d', hwrites, ?_, ?_, ?_, hplaces, hdirs, hwrites.here_eq⟩
  · intro file hfile bytes hinput hchanged
    apply hreads hinput
    refine hwrites.fileAt?_of_agreed ?_ ?_
    · obtain ⟨content, hcontent⟩ := hreadable file hfile
      have hsame := hread _ _ hcontent
      rw [hinput, Except.ok.injEq] at hsame
      subst hsame
      exact ⟨_, mem_writesOf_of_changed houtcomes hfile hcontent hchanged, rfl⟩
    · -- whatever else is written there is what became of the same file
      intro w hw hplace
      obtain ⟨-, -, bytes', -, hinput', -, hbytes⟩ := hwritten w hw
      rw [← hbytes]
      exact (apply_eq_of_place hd hinput hinput' hplace t).2.2
  · intro file hfile bytes hinput hunchanged
    apply hreads hinput
    rw [← (Disk.find_of_read hinput).2]
    refine hwrites.fileAt?_of_unwritten fun w hw hplace => ?_
    obtain ⟨-, -, bytes', -, hinput', hchanged, -⟩ := hwritten w hw
    exact hunchanged ((apply_eq_of_place hd hinput hinput' hplace t).2.1.mp hchanged)
  · intro place hothers
    refine hwrites.fileAt?_of_unwritten fun w hw hplace => ?_
    obtain ⟨file, hfile, bytes, hpath, hinput, hchanged, -⟩ := hwritten w hw
    rw [← hpath] at hinput hchanged hplace
    exact hothers file hfile bytes hinput hchanged hplace

end InPlace

/-! ### The whole command -/

/-- **What shrinking leaves on a disk**, for all arguments and settings, when files are
read from the disk, if at all. It fails and changes nothing if inputs cannot be
collected, if a file cannot be read, if the settings cannot be used, or if there are
files and no destination for them. It changes nothing in a dry run, or when the output
is the destination. In place, it does not fail, the files that are changed are
rewritten, and all else stays. Into a directory, it changes only what is at the place
of a file there. -/
theorem shrink_footprint {read : Reader} {d : Disk} (hd : d.IsTree)
    (hread : ∀ path bytes, read path = .ok bytes → d.read path = .ok bytes)
    (s : Settings) (paths : List String) (options : ShrinkOptions) :
    let run := shrinkReading read d s paths options
    (∀ f, collect d s paths = .error f → run.failure = some f ∧ run.disk = d) ∧
    ∀ files, collect d s paths = .ok files →
      (∀ file ∈ files, ∀ fault, read file.path = .error fault →
        run.failure.isSome ∧ run.disk = d) ∧
      (files ≠ [] → ∀ fault, Transform.ofSettings s = .error fault →
        run.failure.isSome ∧ run.disk = d) ∧
      (options.dryRun = true → run.disk = d) ∧
      (options.dryRun = false → options.outDir = none → options.inPlace = false →
        run.disk = d ∧
          (files ≠ [] → (¬ ∃ file path, files = [file] ∧ paths = [path] ∧ d.isFile path) →
            run.failure = some .noDestination)) ∧
      (options.dryRun = false → options.outDir = none → options.inPlace = true →
        ∀ t, Transform.ofSettings s = .ok t →
          (∀ file ∈ files, ∃ bytes, read file.path = .ok bytes) →
            run.failure = none ∧ RewrittenInPlace d t files run.disk) ∧
      (options.dryRun = false → ∀ dir, options.outDir = some dir →
        ∀ place, run.disk.fileAt? place ≠ d.fileAt? place →
          ∃ file ∈ files, place = d.placeOf (join dir file.relative)) := by
  intro run
  constructor
  · intro f hf
    have hrun : run = .failed d [] f := shrinkReading_of_collect hf
    rw [hrun]
    exact ⟨rfl, rfl⟩
  intro files hcollect
  refine ⟨?_, ?_, ?_, ?_, ?_, ?_⟩
  · intro file hfile fault hfault
    obtain ⟨f, hf⟩ := transformReading_of_unreadable (s := s) hfile hfault
    exact failure_of_transform hcollect (List.ne_nil_of_mem hfile) hf
  · intro hne fault hfault
    have hf : transformReading read s files = .error (.settings none fault) := by
      rw [transformReading, hfault]
      rfl
    exact failure_of_transform hcollect hne hf
  · intro hdry
    have hdestination : destination? d paths options files = some .nowhere := by
      unfold destination?
      simp [hdry]
    exact disk_eq_of_unwritten hcollect hdestination fun o => rfl
  · intro hdry hdir hplace
    rcases destination?_plain hdry hdir hplace with ⟨hsingle, hdestination⟩ | ⟨-, hdestination⟩
    · exact ⟨disk_eq_of_unwritten hcollect hdestination fun o => rfl,
        fun _ hnone => absurd hsingle hnone⟩
    · obtain ⟨hdisk, hfailure⟩ := shrinkReading_of_destination hcollect hdestination
      exact ⟨hdisk, fun hne _ => hfailure hne⟩
  · intro hdry hdir hplace t ht hreadable
    have hdestination : destination? d paths options files = some .inPlace := by
      unfold destination?
      simp [hdry, hdir, hplace]
    obtain ⟨outcomes, houtcomes⟩ := transformReading_of_readable ht hreadable
    obtain ⟨d', hwrites, hrewritten⟩ := rewrittenInPlace hd hread hreadable fun o =>
      mem_of_transformReading ht houtcomes
    obtain ⟨hdisk, hfailure⟩ := shrinkReading_of_writes hcollect hdestination houtcomes hwrites
    rw [← hdisk] at hrewritten
    exact ⟨hfailure, hrewritten⟩
  · intro hdry dir hdir place hchanged
    have hdestination : destination? d paths options files = some (.directory dir) := by
      unfold destination?
      simp [hdry, hdir]
    obtain ⟨ws, hwrites, hresults⟩ := exists_writes_of_results hcollect hdestination
    by_contra hnone
    refine hchanged (hwrites.fileAt?_of_unwritten fun w hw hplace => hnone ?_)
    obtain ⟨o, hfile, hpath⟩ := hresults w hw
    exact ⟨o.file, hfile, by rw [← hplace, Option.some.inj hpath]⟩

/-- A file with a dead branch, and one that is none to shrink. -/
def deadBranchOnDisk : Disk where
  files :=
    [(["a.js"], Utf8.encode "if (false) f(); else g();\n"), (["b.txt"], Utf8.encode "x")]
  dirs := []
  here := []

/-- The file is rewritten though it is given twice, and the other one is not. If that
one cannot be read, the first is not rewritten either. -/
theorem deadBranchOnDisk_rewritten :
    let paths := ["a.js", "./a.js", "b.txt"]
    let run := shrinkCommand deadBranchOnDisk {} paths ⟨none, true, false⟩
    let refusing : Reader := fun path =>
      if path = "b.txt" then .error .noEntry else deadBranchOnDisk.read path
    let refused := shrinkReading refusing deadBranchOnDisk {} paths ⟨none, true, false⟩
    (run.failure = none ∧ run.disk.read "a.js" = .ok (Utf8.encode "g();\n") ∧
      run.disk.read "b.txt" = .ok (Utf8.encode "x")) ∧
    refused.failure.isSome ∧ refused.disk = deadBranchOnDisk := by
  intro paths run refusing refused
  have htree : deadBranchOnDisk.IsTree := by decide +kernel
  have hcollect : collect deadBranchOnDisk {} paths =
      .ok [⟨"a.js", "a.js"⟩, ⟨"./a.js", "a.js"⟩, ⟨"b.txt", "b.txt"⟩] := by
    decide +kernel
  constructor
  · obtain ⟨-, -, -, -, hinPlace, -⟩ :=
      (shrink_footprint htree (fun _ _ h => h) {} paths ⟨none, true, false⟩).2 _ hcollect
    have ha : deadBranchOnDisk.read "a.js" = .ok (Utf8.encode "if (false) f(); else g();\n") := by
      decide +kernel
    have ha' : deadBranchOnDisk.read "./a.js" =
        .ok (Utf8.encode "if (false) f(); else g();\n") := by
      decide +kernel
    have hb : deadBranchOnDisk.read "b.txt" = .ok (Utf8.encode "x") := by decide +kernel
    have hreadable : ∀ file ∈ [(⟨"a.js", "a.js"⟩ : InputFile), ⟨"./a.js", "a.js"⟩,
        ⟨"b.txt", "b.txt"⟩], ∃ bytes, deadBranchOnDisk.read file.path = .ok bytes := by
      simp only [List.forall_mem_cons, ha, ha', hb, Except.ok.injEq, exists_eq', true_and,
        List.not_mem_nil, false_imp_iff, implies_true]
    obtain ⟨hfailure, hrewritten⟩ :=
      hinPlace rfl rfl rfl ⟨["js"], .strict, false, {}⟩ rfl hreadable
    have hchanged := hrewritten.changed ⟨"a.js", "a.js"⟩ (by simp) _ ha (by decide +kernel)
    have hkept := hrewritten.kept ⟨"b.txt", "b.txt"⟩ (by simp) _ hb (by decide +kernel)
    have hbytes : (Transform.apply ⟨["js"], .strict, false, {}⟩ "a.js"
        (Utf8.encode "if (false) f(); else g();\n")).bytes = Utf8.encode "g();\n" := by
      decide +kernel
    rw [hbytes] at hchanged
    exact ⟨hfailure, hchanged, hkept⟩
  · have hread : ∀ path bytes, refusing path = .ok bytes →
        deadBranchOnDisk.read path = .ok bytes := by
      intro path bytes h
      simp only [refusing] at h
      split at h
      · cases h
      · exact h
    obtain ⟨hunreadable, -⟩ :=
      (shrink_footprint htree hread {} paths ⟨none, true, false⟩).2 _ hcollect
    exact hunreadable ⟨"b.txt", "b.txt"⟩ (by simp) .noEntry rfl

end DeadBranch
