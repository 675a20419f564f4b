/-
# What becomes of a file

Whatever the language, a file ends in one of five ways (`Ending`). It is none of
the files to shrink; its bytes are no UTF-8, or no program; nothing is folded; what
is left of the program cannot be printed; or it is printed, and only then the bytes
are not those of the file. Removing dead branches does not fail itself, since a
scope is found for every function (`shrink_missing`), and the five ways exclude each
other, since bytes are read as one text at most.

Key definitions: `Language.Parses`, `Language.Rejects`, `Ending`.
Key theorems: `ending_applyIn`, `applyIn_contract`.
-/
import DeadBranch.Transform
import DeadBranch.Proofs.Encoding
import DeadBranch.Proofs.Traversal

namespace DeadBranch

/-! ### Reading a file -/

namespace Language

variable (l : Language) (mode : ParseMode) (path : String) (bytes : Bytes)

/-- The bytes are the UTF-8 form of a text that is read as this source. -/
def Parses (source : Source) : Prop :=
  ∃ code, Utf8.encode code = bytes ∧ l.read code (some path) mode = .ok source

/-- The bytes are the UTF-8 form of no text, or of one that cannot be read. -/
def Rejects : Prop :=
  (¬ ∃ code, Utf8.encode code = bytes) ∨
    ∃ code failure, Utf8.encode code = bytes ∧ l.read code (some path) mode = .error failure

variable {l mode path bytes}

theorem Parses.unique {source source' : Source} (h : l.Parses mode path bytes source)
    (h' : l.Parses mode path bytes source') : source' = source := by
  obtain ⟨code, hcode, hread⟩ := h
  obtain ⟨code', hcode', hread'⟩ := h'
  have hsame : code' = code := by
    have hdecode := Utf8.decode_eq_ok_iff.mpr hcode
    rw [Utf8.decode_eq_ok_iff.mpr hcode'] at hdecode
    exact Except.ok.inj hdecode
  rw [hsame, hread] at hread'
  exact (Except.ok.inj hread').symm

theorem Parses.not_rejects {source : Source} (h : l.Parses mode path bytes source) :
    ¬ l.Rejects mode path bytes := by
  rintro (hnone | ⟨code', failure, hcode', hread'⟩)
  · obtain ⟨code, hcode, -⟩ := h
    exact hnone ⟨code, hcode⟩
  · obtain ⟨code, hcode, hread⟩ := h
    have hdecode := Utf8.decode_eq_ok_iff.mpr hcode
    rw [Utf8.decode_eq_ok_iff.mpr hcode'] at hdecode
    rw [← Except.ok.inj hdecode, hread'] at hread
    exact nomatch hread

end Language

variable {l : Language} {t : Transform} {path : String} {bytes : Bytes}

theorem parses_of_readFile {source : Source} (h : t.readFile l path bytes = .ok source) :
    l.Parses t.mode path bytes source := by
  unfold Transform.readFile at h
  cases hdecode : Utf8.decode bytes with
  | error fault =>
    rw [hdecode] at h
    exact nomatch h
  | ok code =>
    rw [hdecode] at h
    exact ⟨code, Utf8.decode_eq_ok_iff.mp hdecode, h⟩

theorem rejects_of_readFile {failure : Failure} (h : t.readFile l path bytes = .error failure) :
    l.Rejects t.mode path bytes := by
  unfold Transform.readFile at h
  cases hdecode : Utf8.decode bytes with
  | error fault =>
    refine .inl fun ⟨code, hcode⟩ => ?_
    rw [Utf8.decode_eq_ok_iff.mpr hcode] at hdecode
    exact nomatch hdecode
  | ok code =>
    rw [hdecode] at h
    exact .inr ⟨code, failure, Utf8.decode_eq_ok_iff.mp hdecode, h⟩

/-! ### The five endings -/

/-- How the transformation of a file ends. -/
inductive Ending (l : Language) (t : Transform) (path : String) (bytes : Bytes) :
    Transformed → Prop
  /-- It is none of the files to shrink. -/
  | passed {log : List LogLine} (ht : t.isTarget path = false) :
    Ending l t path bytes (.untouched bytes .passThrough log)
  | rejected {log : List LogLine} {failure : Failure} (ht : t.isTarget path)
    (hr : l.Rejects t.mode path bytes) : Ending l t path bytes (.ofFailure path bytes log failure)
  /-- Nothing is folded. -/
  | unfolded {source : Source} {log : List LogLine} (ht : t.isTarget path)
    (hs : l.Parses t.mode path bytes source) (hf : (t.shrinkSource source).folds = []) :
    Ending l t path bytes (.untouched bytes .unchanged log)
  | unprinted {source : Source} {log : List LogLine} {failure : Failure} (ht : t.isTarget path)
    (hs : l.Parses t.mode path bytes source) (hf : (t.shrinkSource source).folds ≠ [])
    (hp : l.print t.style (t.shrinkSource source).program = .error failure) :
    Ending l t path bytes (.ofFailure path bytes log failure)
  | rewritten {source : Source} {log : List LogLine} {text : String} (ht : t.isTarget path)
    (hs : l.Parses t.mode path bytes source) (hf : (t.shrinkSource source).folds ≠ [])
    (hp : l.print t.style (t.shrinkSource source).program = .ok text) :
    Ending l t path bytes
      ⟨Utf8.encode text, .changed, (t.shrinkSource source).folds, none, log⟩

/-- **A file ends in one of the five ways.** -/
theorem ending_applyIn (l : Language) (t : Transform) (path : String) (bytes : Bytes) :
    Ending l t path bytes (t.applyIn l path bytes) := by
  unfold Transform.applyIn
  by_cases ht : t.isTarget path
  · simp only [ht, Bool.not_true, Bool.false_eq_true, ↓reduceIte]
    cases hread : t.readFile l path bytes with
    | error failure => exact .rejected ht (rejects_of_readFile hread)
    | ok source =>
      have hs := parses_of_readFile hread
      -- a scope is found for every function
      have hmissing : (t.shrinkSource source).missing = none := shrink_missing ..
      simp only [hmissing]
      by_cases hf : (t.shrinkSource source).folds = []
      · rw [if_pos (by rw [hf]; rfl)]
        exact .unfolded ht hs hf
      · rw [if_neg (by simpa using hf)]
        cases hp : l.print t.style (t.shrinkSource source).program with
        | error failure => exact .unprinted ht hs hf hp
        | ok text => exact .rewritten ht hs hf hp
  · simp only [ht, Bool.not_false, ↓reduceIte]
    exact .passed (by simpa using ht)

namespace Ending

variable {r : Transformed}

theorem passThrough_iff (h : Ending l t path bytes r) :
    r.status = .passThrough ↔ t.isTarget path = false := by
  cases h with
  | passed ht => exact iff_of_true rfl ht
  | rejected ht | unfolded ht | unprinted ht | rewritten ht =>
    exact iff_of_false nofun (by simp [ht])

theorem failed_iff (h : Ending l t path bytes r) :
    r.status = .failed ↔ t.isTarget path ∧ (l.Rejects t.mode path bytes ∨
      ∃ source failure, l.Parses t.mode path bytes source ∧ (t.shrinkSource source).folds ≠ [] ∧
        l.print t.style (t.shrinkSource source).program = .error failure) := by
  cases h with
  | passed ht => exact iff_of_false nofun (by simp [ht])
  | rejected ht hr => exact iff_of_true rfl ⟨ht, .inl hr⟩
  | unprinted ht hs hf hp => exact iff_of_true rfl ⟨ht, .inr ⟨_, _, hs, hf, hp⟩⟩
  | unfolded ht hs hf =>
    refine iff_of_false nofun ?_
    rintro ⟨-, hr | ⟨source', failure, hs', hf', -⟩⟩
    · exact hs.not_rejects hr
    · rw [hs.unique hs'] at hf'
      exact hf' hf
  | rewritten ht hs hf hp =>
    refine iff_of_false nofun ?_
    rintro ⟨-, hr | ⟨source', failure, hs', -, hp'⟩⟩
    · exact hs.not_rejects hr
    · rw [hs.unique hs', hp] at hp'
      exact nomatch hp'

theorem unchanged_iff (h : Ending l t path bytes r) :
    r.status = .unchanged ↔ t.isTarget path ∧
      ∃ source, l.Parses t.mode path bytes source ∧ (t.shrinkSource source).folds = [] := by
  cases h with
  | passed ht => exact iff_of_false nofun (by simp [ht])
  | rejected ht hr =>
    refine iff_of_false nofun ?_
    rintro ⟨-, source', hs', -⟩
    exact hs'.not_rejects hr
  | unfolded ht hs hf => exact iff_of_true rfl ⟨ht, _, hs, hf⟩
  | unprinted ht hs hf | rewritten ht hs hf =>
    refine iff_of_false nofun ?_
    rintro ⟨-, source', hs', hf'⟩
    rw [hs.unique hs'] at hf'
    exact hf hf'

theorem changed_iff (h : Ending l t path bytes r) :
    r.status = .changed ↔ t.isTarget path ∧ ∃ source text, l.Parses t.mode path bytes source ∧
      (t.shrinkSource source).folds ≠ [] ∧
        l.print t.style (t.shrinkSource source).program = .ok text := by
  cases h with
  | passed ht => exact iff_of_false nofun (by simp [ht])
  | rejected ht hr =>
    refine iff_of_false nofun ?_
    rintro ⟨-, source', text, hs', -⟩
    exact hs'.not_rejects hr
  | unfolded ht hs hf =>
    refine iff_of_false nofun ?_
    rintro ⟨-, source', text, hs', hf', -⟩
    rw [hs.unique hs'] at hf'
    exact hf' hf
  | unprinted ht hs hf hp =>
    refine iff_of_false nofun ?_
    rintro ⟨-, source', text, hs', -, hp'⟩
    rw [hs.unique hs', hp] at hp'
    exact nomatch hp'
  | rewritten ht hs hf hp => exact iff_of_true rfl ⟨ht, _, _, hs, hf, hp⟩

theorem diagnostic_iff (h : Ending l t path bytes r) :
    r.diagnostic.isSome ↔ r.status = .failed := by
  cases h with
  | passed | unfolded | rewritten => exact iff_of_false nofun nofun
  | rejected | unprinted => exact iff_of_true rfl rfl

/-- A file that is written anew holds the print of what is left of its program. -/
theorem of_changed (h : Ending l t path bytes r) (hr : r.status = .changed) :
    ∃ source text, l.Parses t.mode path bytes source ∧
      l.print t.style (t.shrinkSource source).program = .ok text ∧ r.bytes = Utf8.encode text ∧
        r.folds = (t.shrinkSource source).folds ∧ r.folds ≠ [] := by
  cases h with
  | passed | rejected | unfolded | unprinted => exact nomatch hr
  | rewritten ht hs hf hp => exact ⟨_, _, hs, hp, rfl, rfl, hf⟩

theorem of_not_changed (h : Ending l t path bytes r) (hr : r.status ≠ .changed) :
    r.bytes = bytes ∧ r.folds = [] := by
  cases h with
  | passed | rejected | unfolded | unprinted => exact ⟨rfl, rfl⟩
  | rewritten => exact absurd rfl hr

end Ending

/-! ### The contract -/

/-- What settings say of a transformation. -/
theorem ofSettings_eq_ok {s : Settings} (h : Transform.ofSettings s = .ok t) :
    t.extensions = s.extensions ∧ t.mode = s.parseMode ∧ t.outerConstants = s.outerConstants ∧
      s.style = .ok t.style := by
  unfold Transform.ofSettings at h
  cases hstyle : s.style with
  | error fault =>
    rw [hstyle] at h
    exact nomatch h
  | ok style =>
    rw [hstyle] at h
    cases h
    exact ⟨rfl, rfl, rfl, rfl⟩

theorem isTarget_iff : t.isTarget path ↔ ∃ e ∈ t.extensions, DiskPath.extension? path = some e := by
  unfold Transform.isTarget
  cases DiskPath.extension? path with
  | none => simp
  | some e => simp

/-- **What becomes of a file.** For all settings that can be used, whatever programs
are read and printed by: a file passes through exactly if its extension is none of
those to shrink. Otherwise it has failed exactly if its bytes are no UTF-8 or no
program, or something is folded and what is left cannot be printed, and exactly then
there is a diagnostic; it is unchanged exactly if it is a program in which nothing is
folded; and it is changed exactly if it is a program in which something is folded and
what is left can be printed. Then its bytes are what is printed and its folds are
those that were made, at least one; else its bytes are as they were and there are no
folds. A program in which nothing is folded is not printed at all, so that it cannot
fail to be printed: hence the fold in the condition for a failed file. -/
theorem applyIn_contract (l : Language) (s : Settings) (t : Transform)
    (h : Transform.ofSettings s = .ok t) (path : String) (bytes : Bytes) :
    let r := t.applyIn l path bytes
    let isTarget := ∃ e ∈ s.extensions, DiskPath.extension? path = some e
    let Parses := l.Parses s.parseMode path bytes
    let left (source : Source) := shrink s.outerConstants source.locate source.program
    (r.status = .passThrough ↔ ¬ isTarget) ∧
      (r.status = .failed ↔ isTarget ∧ (l.Rejects s.parseMode path bytes ∨
        ∃ source failure, Parses source ∧ (left source).folds ≠ [] ∧
          l.print t.style (left source).program = .error failure)) ∧
      (r.diagnostic.isSome ↔ r.status = .failed) ∧
      (r.status = .unchanged ↔ isTarget ∧ ∃ source, Parses source ∧ (left source).folds = []) ∧
      (r.status = .changed ↔ isTarget ∧ ∃ source text, Parses source ∧
        (left source).folds ≠ [] ∧ l.print t.style (left source).program = .ok text) ∧
      (r.status = .changed → ∃ source text, Parses source ∧
        l.print t.style (left source).program = .ok text ∧ r.bytes = Utf8.encode text ∧
          r.folds = (left source).folds ∧ r.folds ≠ []) ∧
      (r.status ≠ .changed → r.bytes = bytes ∧ r.folds = []) := by
  obtain ⟨hextensions, hmode, houter, -⟩ := ofSettings_eq_ok h
  have ho := ending_applyIn l t path bytes
  rw [← hextensions, ← hmode, ← houter, ← isTarget_iff]
  refine ⟨?_, ho.failed_iff, ho.diagnostic_iff, ho.unchanged_iff, ho.changed_iff, ho.of_changed,
    ho.of_not_changed⟩
  rw [ho.passThrough_iff, Bool.not_eq_true]

/-- A language in which every text is one program with a dead branch, and every
program is printed as one text. -/
def constantLanguage : Language where
  read code path _ :=
    .ok ⟨⟨.script, none, [.stmt (.ifElse ⟨0, 9⟩ (.literal (.bool false)) .empty none)]⟩,
      code.toList, path, []⟩
  print _ _ := .ok ";"

/-- A text in this language is changed with the settings that hold by default. -/
theorem constantLanguage_changed :
    (Transform.applyIn constantLanguage ⟨["js"], .strict, false, {}⟩ "a.js" [0x61]).status =
      .changed := by
  have hcontract :=
    applyIn_contract constantLanguage {} ⟨["js"], .strict, false, {}⟩ rfl "a.js" [0x61]
  have htarget : DiskPath.extension? "a.js" = some "js" := by decide +kernel
  have hcode : Utf8.encode "a" = [0x61] := by decide +kernel
  refine hcontract.2.2.2.2.1.mpr
    ⟨⟨"js", by decide, htarget⟩, _, ";", ⟨"a", hcode, rfl⟩, ?_, rfl⟩
  decide +kernel

end DeadBranch
