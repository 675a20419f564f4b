/-
# Results in a directory

Results go to the place in a directory that their names lead to from the input they
were found under. Inputs may lead to different files by the same names; these have one
place in the directory, and the later one in the order of paths replaces the earlier
one. A result is lost in no other way, and none is if there is one input only, since
below one input files have names of their own (`eq_of_relative_eq`).

Key definitions: `IsRelative`, `Outcome.IsKept`.
Key theorems: `isRelative_of_collect`, `placeOf_join_inj`, `outDir_keeps`.
-/
import DeadBranch.Proofs.Deliveries

namespace DeadBranch

open DiskPath

variable {d : Disk} {s : Settings} {input : String} {files : List InputFile} {file : InputFile}

/-! ### Where collected files are -/

/-- A path is made of these names and nothing else. -/
def IsRelative (relative : String) (names : List String) : Prop :=
  names ≠ [] ∧ (∀ name ∈ names, IsName name) ∧ relative = ofNames names

theorem mem_below {names : List String} {place : Place} :
    names ∈ d.below place ↔ ∃ f ∈ d.files, f.1 = place ++ names := by
  unfold Disk.below
  rw [List.mem_mergeSort, List.mem_filterMap]
  constructor
  · rintro ⟨f, hf, htail⟩
    split at htail
    · rename_i hprefix
      obtain ⟨tail, htail'⟩ := List.isPrefixOf_iff_prefix.mp hprefix
      rw [← htail', List.drop_left, Option.some.injEq] at htail
      exact ⟨f, hf, by rw [← htail', htail]⟩
    · exact nomatch htail
  · rintro ⟨f, hf, hplace⟩
    refine ⟨f, hf, ?_⟩
    rw [hplace, if_pos (List.isPrefixOf_iff_prefix.mpr (List.prefix_append ..)), List.drop_left]

/-- What is found below a directory is there by names of its own. -/
theorem names_of_mem_below (hd : d.IsTree) {place : Place} (hdir : d.isDirAt place)
    {names : List String} (h : names ∈ d.below place) :
    names ≠ [] ∧ ∀ name ∈ names, IsName name := by
  obtain ⟨f, hf, hplace⟩ := mem_below.mp h
  obtain ⟨hnames, hfile⟩ := hd f hf
  constructor
  · rintro rfl
    rw [hplace, List.append_nil, hdir] at hfile
    exact nomatch hfile
  · intro name hname
    apply hnames
    rw [hplace]
    exact List.mem_append_right _ hname

/-- An input is a file, or a directory with files below it. -/
theorem collectInput_cases (hd : d.IsTree) (h : collectInput d s input = .ok files) :
    (∃ name, IsName name ∧ files = [⟨input, name⟩]) ∨
      ∀ file ∈ files, ∃ names,
        IsRelative file.relative names ∧ file.path = joinAll input names := by
  unfold collectInput at h
  cases hfind : d.find input with
  | error fault =>
    rw [hfind] at h
    exact nomatch h
  | ok place =>
    rw [hfind] at h
    by_cases hdir : d.isDirAt place
    · right
      simp only [hdir, ↓reduceIte] at h
      cases hfilter : FileFilter.ofSettings s with
      | error f =>
        rw [hfilter] at h
        exact nomatch h
      | ok filter =>
        rw [hfilter] at h
        have hfiles : filesBelow d filter input place = files := Except.ok.inj h
        intro file hfile
        rw [← hfiles, filesBelow] at hfile
        obtain ⟨names, hnames, rfl⟩ := List.mem_map.mp (List.mem_filter.mp hfile).1
        obtain ⟨hne, hall⟩ := names_of_mem_below hd hdir hnames
        exact ⟨names, ⟨hne, hall, rfl⟩, rfl⟩
    · left
      rw [Bool.not_eq_true] at hdir
      obtain ⟨front, name, hpieces, hname, hplace⟩ := Disk.exists_name_of_find hfind hdir
      have hlast : fileName? input = some name := by
        rw [Disk.fileName?_of_find hfind hdir, hplace, List.getLast?_concat]
      simp only [hdir, hlast, Bool.false_eq_true, ↓reduceIte, Except.ok.injEq] at h
      exact ⟨name, hname, h.symm⟩

theorem isRelative_of_collectInput (hd : d.IsTree) (h : collectInput d s input = .ok files)
    (hfile : file ∈ files) : ∃ names, IsRelative file.relative names := by
  rcases collectInput_cases hd h with ⟨name, hname, rfl⟩ | hbelow
  · rw [List.mem_singleton] at hfile
    subst hfile
    refine ⟨[name], List.cons_ne_nil _ _, ?_, String.intercalate_singleton.symm⟩
    intro other hother
    rw [List.mem_singleton] at hother
    rw [hother]
    exact hname
  · obtain ⟨names, hnames, -⟩ := hbelow file hfile
    exact ⟨names, hnames⟩

theorem mem_collect {paths : List String} (h : collect d s paths = .ok files)
    (hfile : file ∈ files) :
    ∃ input ∈ paths, ∃ found, collectInput d s input = .ok found ∧ file ∈ found := by
  unfold collect at h
  cases hall : paths.mapM (collectInput d s) with
  | error f =>
    rw [hall] at h
    exact nomatch h
  | ok found =>
    rw [hall] at h
    have hflat : found.flatten = files := Except.ok.inj h
    rw [← hflat] at hfile
    obtain ⟨some_found, hmem, hfile⟩ := List.mem_flatten.mp hfile
    have hok : Except.ok some_found ∈ paths.map (collectInput d s) := by
      rw [mapM_eq_ok_iff.mp hall]
      exact List.mem_map_of_mem hmem
    obtain ⟨input, hinput, hcollect⟩ := List.mem_map.mp hok
    exact ⟨input, hinput, some_found, hcollect, hfile⟩

/-- Collected files have names to be written by. -/
theorem isRelative_of_collect (hd : d.IsTree) {paths : List String}
    (h : collect d s paths = .ok files) (hfile : file ∈ files) :
    ∃ names, IsRelative file.relative names := by
  obtain ⟨input, -, found, hfound, hmem⟩ := mem_collect h hfile
  exact isRelative_of_collectInput hd hfound hmem

theorem IsRelative.unique {relative : String} {names names' : List String}
    (h : IsRelative relative names) (h' : IsRelative relative names') : names' = names := by
  obtain ⟨hne, hall, rfl⟩ := h
  obtain ⟨hne', hall', heq⟩ := h'
  rw [← pieces_ofNames hne' hall', ← heq, pieces_ofNames hne hall]

/-- Files of one input are known by their names. -/
theorem eq_of_relative_eq (hd : d.IsTree) (h : collect d s [input] = .ok files)
    {file file' : InputFile} (hfile : file ∈ files) (hfile' : file' ∈ files)
    (heq : file'.relative = file.relative) : file' = file := by
  obtain ⟨_, hmem, found, hfound, hin⟩ := mem_collect h hfile
  obtain ⟨_, hmem', found', hfound', hin'⟩ := mem_collect h hfile'
  rw [List.mem_singleton] at hmem hmem'
  subst hmem hmem'
  rw [hfound, Except.ok.injEq] at hfound'
  subst hfound'
  rcases collectInput_cases hd hfound with ⟨name, -, rfl⟩ | hbelow
  · rw [List.mem_singleton] at hin hin'
    rw [hin, hin']
  · obtain ⟨names, hnames, hpath⟩ := hbelow file hin
    obtain ⟨names', hnames', hpath'⟩ := hbelow file' hin'
    rw [heq] at hnames'
    have hsame := hnames.unique hnames'
    obtain ⟨path, relative⟩ := file
    obtain ⟨path', relative'⟩ := file'
    simp only at hpath hpath' heq
    rw [hpath, hpath', heq, hsame]

/-! ### Where results go -/

/-- Names behind one path lead to one place only if they are the same. -/
theorem placeOf_join_inj {relative relative' dir : String} {names names' : List String}
    (h : IsRelative relative names) (h' : IsRelative relative' names')
    (heq : d.placeOf (join dir relative') = d.placeOf (join dir relative)) :
    relative' = relative := by
  obtain ⟨hne, hall, rfl⟩ := h
  obtain ⟨hne', hall', rfl⟩ := h'
  rw [Disk.placeOf_join hne hall, Disk.placeOf_join hne' hall', List.append_cancel_left_eq] at heq
  rw [heq]

theorem join_ne_empty {relative : String} {names : List String} (h : IsRelative relative names)
    (dir : String) : join dir relative ≠ "" := by
  obtain ⟨hne, hall, rfl⟩ := h
  intro hempty
  obtain ⟨front, hpieces, -⟩ := Disk.pieces_join hne hall ⟨[], [], []⟩ dir
  have hlast : names.getLast? = some "" := by
    have hall : (front ++ names).getLast? = some "" := by
      rw [← hpieces, hempty]
      rfl
    rwa [List.getLast?_append_of_ne_nil _ hne] at hall
  exact (hall "" (List.mem_of_getLast? hlast)).nonempty rfl

/-- A directory on a disk holds what became of a file. -/
def Outcome.IsKept (d : Disk) (dir : String) (o : Outcome) : Prop :=
  d.read (join dir o.file.relative) = .ok o.output.bytes

theorem writesOf_directory (dir : String) (outcomes : List Outcome) :
    writesOf (.directory dir) outcomes =
      outcomes.map fun o => (join dir o.file.relative, o.output.bytes) := by
  unfold writesOf writtenTo?
  rw [← List.filterMap_eq_map]
  rfl

section Written

variable {outcomes xs ys : List Outcome} {after : Disk} {dir : String} {o : Outcome}
  (hrelative : ∀ o ∈ outcomes, ∃ names, IsRelative o.file.relative names)
  (hwrites : d.Writes (writesOf (.directory dir) outcomes) after)
include hrelative hwrites

/-- A result is kept if the file at its place holds it. -/
theorem isKept_iff (ho : o ∈ outcomes) : o.IsKept after dir ↔
    after.fileAt? (d.placeOf (join dir o.file.relative)) = some o.output.bytes := by
  obtain ⟨names, hnames⟩ := hrelative o ho
  have hmem : (join dir o.file.relative, o.output.bytes) ∈ writesOf (.directory dir) outcomes := by
    rw [writesOf_directory]
    exact List.mem_map.mpr ⟨o, ho, rfl⟩
  exact hwrites.read_eq hmem (join_ne_empty hnames dir)

/-- The last result that goes to a place is kept. -/
theorem isKept_of_last (hsplit : outcomes = xs ++ o :: ys)
    (hlast : ∀ o' ∈ ys, o'.file.relative ≠ o.file.relative) : o.IsKept after dir := by
  have ho : o ∈ outcomes := by
    rw [hsplit]
    simp
  rw [isKept_iff hrelative hwrites ho]
  rw [writesOf_directory, hsplit, List.map_append, List.map_cons] at hwrites
  apply hwrites.fileAt?_of_last
  intro y hy hplace
  obtain ⟨o', ho', rfl⟩ := List.mem_map.mp hy
  obtain ⟨names, hnames⟩ := hrelative o ho
  obtain ⟨names', hnames'⟩ := hrelative o' (by rw [hsplit]; simp [ho'])
  exact hlast o' ho' (placeOf_join_inj hnames hnames' hplace)

/-- All results are kept exactly if those that go to one place are the same. -/
theorem forall_isKept_iff : (∀ o ∈ outcomes, o.IsKept after dir) ↔
    ∀ o ∈ outcomes, ∀ o' ∈ outcomes, o'.file.relative = o.file.relative →
      o'.output.bytes = o.output.bytes := by
  constructor
  · intro hkept o ho o' ho' heq
    have hread : after.read (join dir o.file.relative) = .ok o.output.bytes := hkept o ho
    have hread' : after.read (join dir o'.file.relative) = .ok o'.output.bytes := hkept o' ho'
    rw [heq, hread] at hread'
    exact (Except.ok.inj hread').symm
  · intro hsame o ho
    obtain ⟨names, hnames⟩ := hrelative o ho
    rw [isKept_iff hrelative hwrites ho]
    rw [writesOf_directory] at hwrites
    refine hwrites.fileAt?_of_agreed ?_ ?_
    · exact ⟨_, List.mem_map.mpr ⟨o, ho, rfl⟩, rfl⟩
    · intro w hw hplace
      obtain ⟨o', ho', rfl⟩ := List.mem_map.mp hw
      obtain ⟨names', hnames'⟩ := hrelative o' ho'
      exact hsame o ho o' ho' (placeOf_join_inj hnames hnames' hplace)

end Written

/-! ### The whole command -/

section Command

variable {paths : List String} {options : ShrinkOptions} {dir : String} {outcomes : List Outcome}

theorem writes_of_outDir (hdry : options.dryRun = false) (hdir : options.outDir = some dir)
    (hcollect : collect d s paths = .ok files) (houtcomes : transformAs d s files = .ok outcomes)
    (hok : (shrinkCommand d s paths options).failure = none) :
    d.Writes (writesOf (.directory dir) outcomes) (shrinkCommand d s paths options).disk := by
  have hdestination : destination? d paths options files = some (.directory dir) := by
    unfold destination?
    simp [hdry, hdir]
  obtain ⟨done, rest, hall, hwrites, hrest⟩ :=
    shrinkReading_writes hcollect hdestination houtcomes
  rw [hrest hok, List.append_nil] at hall
  rw [hall]
  exact hwrites

/-- **What a directory holds after shrinking into it.** Of the results that go to one
place the last one is kept. All are kept exactly if results that go to one place are
the same, and in particular if there is one input only. -/
theorem outDir_keeps (hd : d.IsTree) (hdry : options.dryRun = false)
    (hdir : options.outDir = some dir) (hcollect : collect d s paths = .ok files)
    (houtcomes : transformAs d s files = .ok outcomes)
    (hok : (shrinkCommand d s paths options).failure = none) :
    (∀ xs o ys, outcomes = xs ++ o :: ys →
      (∀ o' ∈ ys, o'.file.relative ≠ o.file.relative) →
        o.IsKept (shrinkCommand d s paths options).disk dir) ∧
    ((∀ o ∈ outcomes, o.IsKept (shrinkCommand d s paths options).disk dir) ↔
      ∀ o ∈ outcomes, ∀ o' ∈ outcomes, o'.file.relative = o.file.relative →
        o'.output.bytes = o.output.bytes) ∧
    (∀ input, paths = [input] →
      ∀ o ∈ outcomes, o.IsKept (shrinkCommand d s paths options).disk dir) := by
  obtain ⟨t, each, ht, -, -⟩ := transformReading_eq_ok_iff.mp houtcomes
  have hof : ∀ o ∈ outcomes, ∃ file ∈ files, Outcome.IsOf d.read t file o :=
    fun o ho => (mem_of_transformReading ht houtcomes).mp ho
  have hrelative : ∀ o ∈ outcomes, ∃ names, IsRelative o.file.relative names := by
    intro o ho
    obtain ⟨file, hfile, hfileOf⟩ := hof o ho
    rw [hfileOf.file_eq]
    exact isRelative_of_collect hd hcollect hfile
  have hwrites := writes_of_outDir hdry hdir hcollect houtcomes hok
  have hkept := forall_isKept_iff hrelative hwrites
  refine ⟨fun xs o ys hsplit hlast => isKept_of_last hrelative hwrites hsplit hlast, hkept, ?_⟩
  rintro input rfl
  apply hkept.mpr
  intro o ho o' ho' heq
  obtain ⟨file, hfile, hfileOf⟩ := hof o ho
  obtain ⟨file', hfile', hfileOf'⟩ := hof o' ho'
  rw [hfileOf.file_eq, hfileOf'.file_eq] at heq
  obtain rfl := eq_of_relative_eq hd hcollect hfile hfile' heq
  have hinput := hfileOf'.input_eq
  rw [hfileOf.input_eq, Except.ok.injEq] at hinput
  rw [hfileOf.output_eq, hfileOf'.output_eq, hinput]

end Command

/-! ### Two files of one name -/

/-- Two directories with a file of the same name each. -/
def twoFolders : Disk where
  files := [(["a", "x.js"], Utf8.encode "a();\n"), (["b", "x.js"], Utf8.encode "b();\n")]
  dirs := []
  here := []

/-- The two files, as inputs of their own. -/
def twoFiles : List InputFile := [⟨"a/x.js", "x.js"⟩, ⟨"b/x.js", "x.js"⟩]

/-- The transformation that settings ask for which say nothing. -/
def plainTransform : Transform := ⟨["js"], .strict, false, {}⟩

/-- What becomes of the two files. -/
def twoOutcomes : List Outcome :=
  [⟨⟨"a/x.js", "x.js"⟩, Utf8.encode "a();\n",
      plainTransform.apply "a/x.js" (Utf8.encode "a();\n")⟩,
    ⟨⟨"b/x.js", "x.js"⟩, Utf8.encode "b();\n",
      plainTransform.apply "b/x.js" (Utf8.encode "b();\n")⟩]

theorem ofSettings_plain : Transform.ofSettings {} = .ok plainTransform := rfl

theorem isTree_twoFolders : twoFolders.IsTree := by decide +kernel

theorem collect_twoFolders : collect twoFolders {} ["a/x.js", "b/x.js"] = .ok twoFiles := by
  decide +kernel

theorem transformAs_twoFiles : transformAs twoFolders {} twoFiles = .ok twoOutcomes := by
  have ha : twoFolders.read "a/x.js" = .ok (Utf8.encode "a();\n") := by decide +kernel
  have hb : twoFolders.read "b/x.js" = .ok (Utf8.encode "b();\n") := by decide +kernel
  have hle : (DiskPath.compare "a/x.js" "b/x.js").isLE := by decide +kernel
  have hsorted : twoOutcomes = sortOutcomes twoOutcomes := by
    refine (List.mergeSort_of_pairwise ?_).symm
    simp only [twoOutcomes, List.pairwise_cons, List.mem_singleton, forall_eq]
    exact ⟨hle, fun o ho => absurd ho List.not_mem_nil, .nil⟩
  refine transformReading_eq_ok_iff.mpr ⟨_, twoOutcomes, ofSettings_plain, ?_, hsorted⟩
  rw [twoFiles, List.map_cons, List.map_cons, Outcome.ofFile_of_ok ha, Outcome.ofFile_of_ok hb]
  rfl

/-- Both results can be written. -/
theorem shrinkCommand_twoFolders :
    (shrinkCommand twoFolders {} ["a/x.js", "b/x.js"] ⟨some "out", false, false⟩).failure =
      none := by
  have hwrites : writesOf (.directory "out") twoOutcomes =
      [("out/x.js", Utf8.encode "a();\n"), ("out/x.js", Utf8.encode "b();\n")] := by
    decide +kernel
  have hfirst : twoFolders.write "out/x.js" (Utf8.encode "a();\n") =
      .ok { twoFolders with
        files := twoFolders.files ++ [(["out", "x.js"], Utf8.encode "a();\n")]
        dirs := [["out"]] } := by
    decide +kernel
  have hsecond : Disk.write { twoFolders with
        files := twoFolders.files ++ [(["out", "x.js"], Utf8.encode "a();\n")]
        dirs := [["out"]] } "out/x.js" (Utf8.encode "b();\n") =
      .ok { twoFolders with
        files := twoFolders.files ++ [(["out", "x.js"], Utf8.encode "b();\n")]
        dirs := [["out"]] } := by
    decide +kernel
  have hall := Disk.Writes.cons hfirst (.cons hsecond .nil)
  rw [← hwrites] at hall
  have hdestination : destination? twoFolders ["a/x.js", "b/x.js"] ⟨some "out", false, false⟩
      twoFiles = some (.directory "out") := rfl
  have hrun := shrinkReading_of_writes collect_twoFolders hdestination transformAs_twoFiles hall
  rw [shrinkCommand]
  exact hrun.2

/-- The two files have one place in the directory, and the later one is kept there.
The file of one of the folders alone is kept. -/
theorem twoFolders_keeps_last :
    (twoFolders.IsTree ∧
      (∀ o ∈ twoOutcomes.getLast?, o.IsKept
        (shrinkCommand twoFolders {} ["a/x.js", "b/x.js"] ⟨some "out", false, false⟩).disk "out") ∧
      ¬ ∀ o ∈ twoOutcomes, o.IsKept
        (shrinkCommand twoFolders {} ["a/x.js", "b/x.js"] ⟨some "out", false, false⟩).disk "out") ∧
    ∃ outcomes, transformAs twoFolders {} [⟨"a/x.js", "x.js"⟩] = .ok outcomes ∧ outcomes ≠ [] ∧
      ∀ o ∈ outcomes, o.IsKept
        (shrinkCommand twoFolders {} ["a"] ⟨some "out", false, false⟩).disk "out" := by
  constructor
  · obtain ⟨hlast, hall, -⟩ := outDir_keeps isTree_twoFolders rfl rfl collect_twoFolders
      transformAs_twoFiles shrinkCommand_twoFolders
    refine ⟨isTree_twoFolders, fun o ho => ?_, by rw [hall]; decide +kernel⟩
    obtain ⟨front, hsplit⟩ := List.getLast?_eq_some_iff.mp ho
    exact hlast front o [] hsplit fun o' ho' => absurd ho' List.not_mem_nil
  · obtain ⟨outcomes, houtcomes⟩ : ∃ outcomes,
        transformAs twoFolders {} [⟨"a/x.js", "x.js"⟩] = .ok outcomes :=
      transformReading_of_readable ofSettings_plain fun file hfile => by
        rw [List.mem_singleton.mp hfile]
        exact ⟨Utf8.encode "a();\n", by decide +kernel⟩
    have hne : outcomes ≠ [] := by
      rintro rfl
      obtain ⟨t, each, -, heach, hsort⟩ := transformReading_eq_ok_iff.mp houtcomes
      have hnil : each = [] := (hsort ▸ (sortOutcomes_perm each)).symm.eq_nil
      rw [hnil] at heach
      exact nomatch heach
    obtain ⟨-, -, hone⟩ := @outDir_keeps twoFolders {} _ ["a"] ⟨some "out", false, false⟩ "out" _
      isTree_twoFolders rfl rfl (by decide +kernel) houtcomes (by decide +kernel)
    exact ⟨outcomes, houtcomes, hne, hone "a" rfl⟩

/-- A result can be lost though nothing fails. -/
theorem exists_lost_result : ∃ (d : Disk) (s : Settings) (paths : List String)
    (options : ShrinkOptions) (dir : String) (files : List InputFile) (outcomes : List Outcome),
    d.IsTree ∧ options.dryRun = false ∧ options.outDir = some dir ∧
      collect d s paths = .ok files ∧ transformAs d s files = .ok outcomes ∧
      (shrinkCommand d s paths options).failure = none ∧
      ∃ o ∈ outcomes, ¬ o.IsKept (shrinkCommand d s paths options).disk dir := by
  refine ⟨twoFolders, {}, ["a/x.js", "b/x.js"], ⟨some "out", false, false⟩, "out", twoFiles,
    twoOutcomes, isTree_twoFolders, rfl, rfl, collect_twoFolders, transformAs_twoFiles,
    shrinkCommand_twoFolders, ?_⟩
  by_contra hkept
  simp only [not_exists, not_and, not_not] at hkept
  -- one file would hold the results of both
  have hfirst := hkept _ List.mem_cons_self
  have hsecond := hkept _ (List.mem_cons_of_mem _ List.mem_cons_self)
  unfold Outcome.IsKept at hfirst hsecond
  have hsame := Except.ok.inj (hfirst.symm.trans hsecond)
  revert hsame
  decide +kernel

end DeadBranch
