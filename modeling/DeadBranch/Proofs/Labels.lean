/-
# Where a label points

A fault is reported by the line and the column of its byte, and its label is put
at the byte that `byteOffset?` finds for them. The two disagree in three ways. A
carriage return that no line feed follows ends a line of a report and no line of a
label, so that the label is missing or stands further down. The mark in front of a
source is dropped before it is read, but it is the first character of the first
line of a label. And a report counts a character outside the basic plane as two
columns, where a label counts characters. What is counted twice may be made up for
by the mark, or by the end of the line, past which no label is put.

Key definitions: `lastLine`, `LoneReturn`, `columnsOf`.
Key theorems: `lineColumnFrom_eq`, `line_lt_of_loneReturn`, `byteOffset?_eq_iff`,
`label_points_iff`.
-/
import DeadBranch.Diagnostic
import DeadBranch.Source.Read

namespace DeadBranch

/-! ### Bytes of characters -/

theorem byteLength_append (xs ys : List Char) :
    byteLength (xs ++ ys) = byteLength xs + byteLength ys := by
  induction xs with
  | nil => simp [byteLength]
  | cons c xs ih =>
    simp only [List.cons_append, byteLength, ih]
    omega

theorem byteLength_eq_zero_iff {cs : List Char} : byteLength cs = 0 ↔ cs = [] := by
  cases cs with
  | nil => simp [byteLength]
  | cons c cs =>
    have := c.utf8Size_pos
    simp only [byteLength, reduceCtorEq, iff_false]
    omega

/-- A piece of a text ends where one part of it does exactly if it is as long, or if
it is meant to be longer and there is nothing more. -/
theorem byteLength_take_eq_iff (part rest : List Char) (n : Nat) :
    byteLength ((part ++ rest).take n) = byteLength part ↔
      n = part.length ∨ part.length < n ∧ rest = [] := by
  rcases Nat.lt_trichotomy n part.length with hn | hn | hn
  · have hsplit : byteLength part = byteLength (part.take n) + byteLength (part.drop n) := by
      rw [← byteLength_append, List.take_append_drop]
    have hleft : byteLength (part.drop n) ≠ 0 := by
      rw [Ne, byteLength_eq_zero_iff, List.drop_eq_nil_iff]
      omega
    rw [List.take_append_of_le_length (by omega)]
    constructor
    · intro h
      omega
    · rintro (h | ⟨h, -⟩) <;> omega
  · simp [hn]
  · rw [List.take_append, List.take_of_length_le (by omega), byteLength_append]
    have hzero := @byteLength_eq_zero_iff (rest.take (n - part.length))
    rw [List.take_eq_nil_iff] at hzero
    constructor
    · intro h
      have hrest := hzero.mp (by omega)
      exact .inr ⟨hn, hrest.resolve_left (by omega)⟩
    · rintro (h | ⟨-, rfl⟩)
      · omega
      · simp [byteLength]

/-! ### Lines of a text -/

/-- The characters since the last line feed. -/
def lastLine : List Char → List Char
  | [] => []
  | c :: cs => if c = '\n' ∨ '\n' ∈ cs then lastLine cs else c :: cs

theorem lastLine_eq_self {cs : List Char} (h : '\n' ∉ cs) : lastLine cs = cs := by
  cases cs with
  | nil => rfl
  | cons c cs =>
    rw [List.mem_cons, not_or] at h
    rw [lastLine, if_neg]
    rintro (hc | hcs)
    · exact h.1 hc.symm
    · exact h.2 hcs

theorem lastLine_append_of_mem (xs : List Char) {ys : List Char} (h : '\n' ∈ ys) :
    lastLine (xs ++ ys) = lastLine ys := by
  induction xs with
  | nil => rfl
  | cons x xs ih =>
    rw [List.cons_append, lastLine, if_pos (.inr (List.mem_append_right xs h)), ih]

theorem notMem_lastLine (cs : List Char) : '\n' ∉ lastLine cs := by
  induction cs with
  | nil => simp [lastLine]
  | cons c cs ih =>
    unfold lastLine
    split
    · exact ih
    · rename_i h
      rw [not_or] at h
      rw [List.mem_cons, not_or]
      exact ⟨fun hc => h.1 hc.symm, h.2⟩

/-- A carriage return stands in the first part that no line feed follows. -/
def LoneReturn (before after : List Char) : Prop :=
  ∃ xs ys, before = xs ++ '\r' :: ys ∧ (ys ++ after).head? ≠ some '\n'

theorem not_loneReturn_nil (after : List Char) : ¬ LoneReturn [] after := by
  rintro ⟨xs, ys, h, -⟩
  simp at h

theorem loneReturn_cons {c : Char} {cs after : List Char} :
    LoneReturn (c :: cs) after ↔
      c = '\r' ∧ (cs ++ after).head? ≠ some '\n' ∨ LoneReturn cs after := by
  constructor
  · rintro ⟨xs, ys, h, hnext⟩
    cases xs with
    | nil =>
      rw [List.nil_append, List.cons.injEq] at h
      obtain ⟨rfl, rfl⟩ := h
      exact .inl ⟨rfl, hnext⟩
    | cons x xs =>
      rw [List.cons_append, List.cons.injEq] at h
      exact .inr ⟨xs, ys, h.2, hnext⟩
  · rintro (⟨rfl, hnext⟩ | ⟨xs, ys, rfl, hnext⟩)
    · exact ⟨[], cs, rfl, hnext⟩
    · exact ⟨c :: xs, ys, rfl, hnext⟩

instance LoneReturn.decide : ∀ before after, Decidable (LoneReturn before after)
  | [], after => .isFalse (not_loneReturn_nil after)
  | _ :: before, after =>
    have := LoneReturn.decide before after
    decidable_of_iff _ loneReturn_cons.symm

/-! ### Lines and columns of a report -/

section Reports

variable (width : Char → Nat)

/-- One character further. -/
theorem lineColumnFrom_cons (line column : Nat) (c : Char) (before after : List Char) :
    lineColumnFrom width line column (byteLength (c :: before)) (c :: (before ++ after)) =
      if c = '\n' ∨ c = '\r' ∧ (before ++ after).head? ≠ some '\n' then
        lineColumnFrom width (line + 1) 1 (byteLength before) (before ++ after)
      else lineColumnFrom width line (column + width c) (byteLength before) (before ++ after) := by
  rw [lineColumnFrom, if_neg (by simp [byteLength])]
  by_cases hfeed : c = '\n'
  · subst hfeed
    have hsize : '\n'.utf8Size = 1 := by decide
    simp [byteLength, hsize]
  · by_cases hreturn : c = '\r' ∧ (before ++ after).head? ≠ some '\n'
    · have hsize : '\r'.utf8Size = 1 := by decide
      rw [if_neg hfeed, if_pos hreturn, if_pos (.inr hreturn), byteLength, hreturn.1, hsize,
        Nat.add_sub_cancel_left]
    · rw [if_neg hfeed, if_neg hreturn, if_neg (by rintro (h | h) <;> contradiction), byteLength,
        Nat.add_sub_cancel_left]

/-- The columns that characters take up. -/
def columnsOf : List Char → Nat
  | [] => 0
  | c :: cs => width c + columnsOf cs

theorem lineColumnFrom_nil (line column : Nat) (after : List Char) :
    lineColumnFrom width line column (byteLength []) after = (line, column) := by
  cases after with
  | nil => rfl
  | cons c cs => rw [lineColumnFrom, if_pos (by simpa [byteLength] using c.utf8Size_pos)]

/-- Where every carriage return is followed by a line feed, a report counts the line
feeds and the width of what follows the last of them. -/
theorem lineColumnFrom_eq (before after : List Char) (line column : Nat)
    (h : ¬ LoneReturn before after) :
    lineColumnFrom width line column (byteLength before) (before ++ after) =
      (line + before.count '\n',
        (if '\n' ∈ before then 1 else column) + columnsOf width (lastLine before)) := by
  induction before generalizing line column with
  | nil => simp [lineColumnFrom_nil, lastLine, columnsOf]
  | cons c before ih =>
    rw [loneReturn_cons, not_or] at h
    rw [List.cons_append, lineColumnFrom_cons]
    by_cases hfeed : c = '\n'
    · rw [if_pos (.inl hfeed), ih _ _ h.2, hfeed]
      simp [lastLine, Nat.add_right_comm, Nat.add_assoc]
    · have hends : ¬ (c = '\n' ∨ c = '\r' ∧ (before ++ after).head? ≠ some '\n') :=
        not_or.mpr ⟨hfeed, h.1⟩
      rw [if_neg hends, ih _ _ h.2, List.count_cons_of_ne (by simpa using hfeed)]
      -- the character is on the last line if no line feed follows it
      by_cases hmem : '\n' ∈ before
      · simp [lastLine, hmem]
      · simp [lastLine, hmem, hfeed, Ne.symm hfeed, lastLine_eq_self hmem, columnsOf, Nat.add_assoc]

theorem count_le_line (before after : List Char) (line column : Nat) :
    line + before.count '\n' ≤
      (lineColumnFrom width line column (byteLength before) (before ++ after)).1 := by
  induction before generalizing line column with
  | nil => simp [lineColumnFrom_nil]
  | cons c before ih =>
    rw [List.cons_append, lineColumnFrom_cons]
    split
    · have hcount : (c :: before).count '\n' ≤ before.count '\n' + 1 := by
        rw [List.count_cons]
        split <;> omega
      have := ih (line + 1) 1
      omega
    · rename_i hends
      rw [List.count_cons_of_ne (by rw [not_or] at hends; simpa using hends.1)]
      exact ih line (column + width c)

/-- A carriage return on its own makes the line of a report greater than the line
feeds account for. -/
theorem line_lt_of_loneReturn (before after : List Char) (line column : Nat)
    (h : LoneReturn before after) :
    line + before.count '\n' <
      (lineColumnFrom width line column (byteLength before) (before ++ after)).1 := by
  induction before generalizing line column with
  | nil => exact absurd h (not_loneReturn_nil after)
  | cons c before ih =>
    rw [List.cons_append, lineColumnFrom_cons]
    by_cases hfeed : c = '\n'
    · rw [if_pos (.inl hfeed)]
      have hlone : LoneReturn before after := by
        rcases loneReturn_cons.mp h with ⟨hc, -⟩ | hlone
        · rw [hfeed] at hc
          exact absurd hc (by decide)
        · exact hlone
      have := ih (line + 1) 1 hlone
      rw [hfeed, List.count_cons_self]
      omega
    · rw [List.count_cons_of_ne (by simpa using hfeed)]
      rcases loneReturn_cons.mp h with hreturn | hlone
      · rw [if_pos (.inr hreturn)]
        have := count_le_line width before after (line + 1) 1
        omega
      · split
        · have := ih (line + 1) 1 hlone
          omega
        · exact ih line (column + width c) hlone

end Reports

/-! ### The byte of a label -/

/-- After as many line feeds as there are in a part of a text, the last line of that
part begins. -/
theorem dropLines_count (seen after : List Char) (passed : Nat) : ∃ start,
    dropLines (seen.count '\n') passed (seen ++ after) = some (start, lastLine seen ++ after) ∧
      start + byteLength (lastLine seen) = passed + byteLength seen := by
  induction seen generalizing passed with
  | nil =>
    refine ⟨passed, ?_, rfl⟩
    cases after <;> simp [dropLines, lastLine]
  | cons c seen ih =>
    by_cases hfeed : c = '\n'
    · obtain ⟨start, hdrop, hstart⟩ := ih (passed + 1)
      have hsize : '\n'.utf8Size = 1 := by decide
      rw [hfeed, List.count_cons_self, lastLine, if_pos (.inl rfl)]
      refine ⟨start, ?_, ?_⟩
      · rw [List.cons_append, dropLines, if_neg (by omega), if_pos rfl, Nat.add_sub_cancel, hdrop]
      · rw [byteLength, hsize, hstart]
        omega
    · rw [List.count_cons_of_ne (by simpa using hfeed)]
      by_cases hmem : '\n' ∈ seen
      · obtain ⟨start, hdrop, hstart⟩ := ih (passed + c.utf8Size)
        have hcount : seen.count '\n' ≠ 0 := Nat.ne_of_gt (List.count_pos_iff.mpr hmem)
        rw [lastLine, if_pos (.inr hmem)]
        refine ⟨start, ?_, ?_⟩
        · rw [List.cons_append, dropLines, if_neg hcount, if_neg hfeed, hdrop]
        · rw [hstart, byteLength]
          omega
      · rw [lastLine, if_neg (not_or.mpr ⟨hfeed, hmem⟩), List.count_eq_zero_of_not_mem hmem]
        exact ⟨passed, by simp [dropLines], rfl⟩

/-- Each line feed that is passed takes a byte. -/
theorem count_le_of_dropLines {cs : List Char} {count passed start : Nat} {rest : List Char}
    (h : dropLines count passed cs = some (start, rest)) : passed + count ≤ start := by
  induction cs generalizing count passed with
  | nil =>
    unfold dropLines at h
    split at h
    · simp_all
    · simp at h
  | cons c cs ih =>
    unfold dropLines at h
    split at h
    · simp_all
    · split at h
      · have := ih h
        omega
      · have := ih h
        omega

/-- After more line feeds than there are in a part of a text, that part is passed. -/
theorem lt_of_dropLines {seen after : List Char} {count passed start : Nat} {rest : List Char}
    (hcount : seen.count '\n' < count)
    (h : dropLines count passed (seen ++ after) = some (start, rest)) :
    passed + byteLength seen < start := by
  induction seen generalizing count passed with
  | nil =>
    have := count_le_of_dropLines h
    simp only [List.count_nil] at hcount
    simp only [byteLength]
    omega
  | cons c seen ih =>
    rw [List.cons_append, dropLines, if_neg (by omega)] at h
    rw [byteLength]
    by_cases hfeed : c = '\n'
    · have hsize : '\n'.utf8Size = 1 := by decide
      rw [if_pos hfeed] at h
      rw [hfeed, List.count_cons_self] at hcount
      have := ih (by omega) h
      rw [hfeed, hsize]
      omega
    · rw [if_neg hfeed] at h
      rw [List.count_cons_of_ne (by simpa using hfeed)] at hcount
      have := ih hcount h
      omega

/-- With the right line, a label is put at the end of a part of the text exactly if
its column counts the characters of the last line, or more and the line ends there. -/
theorem byteOffset?_eq_iff (seen after : List Char) (columns : Nat) :
    byteOffset? (seen ++ after) (1 + seen.count '\n') (1 + columns) = some (byteLength seen) ↔
      columns = (lastLine seen).length ∨
        (lastLine seen).length < columns ∧ ∀ c ∈ after.head?, c = '\n' := by
  obtain ⟨start, hdrop, hstart⟩ := dropLines_count seen after 0
  have hline : (lastLine seen ++ after).takeWhile (· ≠ '\n') =
      lastLine seen ++ after.takeWhile (· ≠ '\n') := by
    rw [List.takeWhile_append_of_pos]
    intro c hc
    simpa using fun h : c = '\n' => notMem_lastLine seen (h ▸ hc)
  have hend : after.takeWhile (· ≠ '\n') = [] ↔ ∀ c ∈ after.head?, c = '\n' := by
    cases after with
    | nil => simp
    | cons c cs => simp [List.takeWhile_cons]
  have hvalue : byteOffset? (seen ++ after) (1 + seen.count '\n') (1 + columns) =
      some (start + byteLength ((lastLine seen ++ after.takeWhile (· ≠ '\n')).take columns)) := by
    rw [← hline, byteOffset?, if_neg (by omega), Nat.add_sub_cancel_left, Nat.add_sub_cancel_left,
      hdrop, Option.map_some]
  rw [hvalue, Option.some.injEq, ← hend, ← byteLength_take_eq_iff]
  omega

/-- With a line that is too great, no label is put there. -/
theorem byteOffset?_ne_of_lt {seen after : List Char} {line column : Nat}
    (h : 1 + seen.count '\n' < line) :
    byteOffset? (seen ++ after) line column ≠ some (byteLength seen) := by
  intro hoffset
  unfold byteOffset? at hoffset
  split at hoffset
  · simp at hoffset
  · obtain ⟨⟨start, rest⟩, hdrop, hvalue⟩ := Option.map_eq_some_iff.mp hoffset
    have hpassed := lt_of_dropLines (by omega) hdrop
    simp only at hvalue
    omega

/-! ### Labels of reports -/

/-- A source is its text behind a mark, if it has one. -/
theorem exists_mark (source : List Char) : ∃ mark, source = mark ++ dropMark source ∧
    '\n' ∉ mark ∧ mark.length = if source = dropMark source then 0 else 1 := by
  unfold dropMark
  split
  · rename_i rest
    exact ⟨['\ufeff'], rfl, by decide, by simp⟩
  · exact ⟨[], rfl, by simp, by simp⟩

/-- Characters of the width that their columns are counted by put the label right
exactly if no carriage return stands alone before it, and the columns are as many as
the characters since the last line feed, the mark included, or more at a line's end. -/
theorem byteOffset?_lineColumnBy_iff (width : Char → Nat) {source before after : List Char}
    (h : dropMark source = before ++ after) :
    byteOffset? source (lineColumnBy width (dropMark source) (byteLength before)).1
        (lineColumnBy width (dropMark source) (byteLength before)).2 =
          some (byteLength source - byteLength after) ↔
      ¬ LoneReturn before after ∧
        (columnsOf width (lastLine before) = (lastLine before).length +
            (if source = before ++ after ∨ '\n' ∈ before then 0 else 1) ∨
          (lastLine before).length +
            (if source = before ++ after ∨ '\n' ∈ before then 0 else 1) <
              columnsOf width (lastLine before) ∧ ∀ c ∈ after.head?, c = '\n') := by
  obtain ⟨mark, hmark, hfeed, hlength⟩ := exists_mark source
  rw [h] at hlength hmark ⊢
  have hsource : source = (mark ++ before) ++ after := by rw [hmark, List.append_assoc]
  have hcount : (mark ++ before).count '\n' = before.count '\n' := by
    rw [List.count_append, List.count_eq_zero_of_not_mem hfeed, Nat.zero_add]
  have hlast : (lastLine (mark ++ before)).length = (lastLine before).length +
      (if source = before ++ after ∨ '\n' ∈ before then 0 else 1) := by
    by_cases hmem : '\n' ∈ before
    · rw [lastLine_append_of_mem mark hmem, if_pos (.inr hmem), Nat.add_zero]
    · rw [lastLine_eq_self (by simp [hfeed, hmem]), lastLine_eq_self hmem, List.length_append,
        hlength]
      simp only [hmem, or_false]
      omega
  have hposition : byteLength source - byteLength after = byteLength (mark ++ before) := by
    rw [hsource, byteLength_append]
    omega
  rw [hposition, ← hlast]
  by_cases hlone : LoneReturn before after
  · have hline := line_lt_of_loneReturn width before after 1 1 hlone
    rw [← hcount] at hline
    refine iff_of_false ?_ fun hr => hr.1 hlone
    rw [hsource]
    exact byteOffset?_ne_of_lt hline
  · have hreport : lineColumnBy width (before ++ after) (byteLength before) =
        (1 + (mark ++ before).count '\n', 1 + columnsOf width (lastLine before)) := by
      rw [lineColumnBy, lineColumnFrom_eq width before after 1 1 hlone, hcount, ite_self]
    rw [hreport, hsource, byteOffset?_eq_iff]
    simp only [hlone, not_false_eq_true, true_and]

theorem columnsOf_one (cs : List Char) : columnsOf (fun _ => 1) cs = cs.length := by
  induction cs with
  | nil => rfl
  | cons c cs ih => rw [columnsOf, ih, List.length_cons, Nat.add_comm]

theorem columnsOf_unitWidth (cs : List Char) :
    columnsOf unitWidth cs = cs.length + cs.countP fun c => 0x10000 ≤ c.toNat := by
  induction cs with
  | nil => rfl
  | cons c cs ih =>
    have hwidth : unitWidth c = 1 + if 0x10000 ≤ c.toNat then 1 else 0 := by
      unfold unitWidth Text.unitsOf
      split
      · rw [if_neg (by omega)]
        rfl
      · rw [if_pos (by omega)]
        rfl
    rw [columnsOf, ih, hwidth, List.length_cons, List.countP_cons]
    simp only [decide_eq_true_eq]
    omega

/-- **Where a label points.** Take a source and a place in it, behind the mark if it
begins with one. If a report counted columns in characters, its label would point at
that place exactly if no carriage return stands alone before it and it is not on
the first line behind a mark. As reports count 16-bit units, the label of a fault
points at it exactly if no carriage return stands alone before it and the characters
outside the basic plane before it on its line are none, or one if it is on the first
line behind a mark, or more than that with the line ending at the fault. -/
theorem label_points_iff (source before after : List Char) (h : dropMark source = before ++ after)
    (path : Option String) (cause : Cause) :
    let position := byteLength source - byteLength after
    let lead := if source = before ++ after ∨ '\n' ∈ before then 0 else 1
    let wide := (lastLine before).countP fun c => 0x10000 ≤ c.toNat
    let reported := lineColumnBy (fun _ => 1) (dropMark source) (byteLength before)
    let fault : Fault := ⟨byteLength before, cause⟩
    let diagnostic := Diagnostic.ofFailure (fault.toFailure (dropMark source) path)
    (byteOffset? source reported.1 reported.2 = some position ↔
        ¬ LoneReturn before after ∧ lead = 0) ∧
      (diagnostic.offset? source = some position ↔
        ¬ LoneReturn before after ∧
          (wide = lead ∨ lead < wide ∧ ∀ c ∈ after.head?, c = '\n')) := by
  intro position lead wide reported fault diagnostic
  constructor
  · rw [byteOffset?_lineColumnBy_iff (fun _ => 1) h, columnsOf_one]
    refine and_congr_right fun _ => ?_
    constructor
    · rintro (hcolumns | ⟨hcolumns, -⟩) <;> omega
    · intro hlead
      exact .inl (by omega)
  · have hoffset : diagnostic.offset? source =
        byteOffset? source (lineColumnBy unitWidth (dropMark source) (byteLength before)).1
          (lineColumnBy unitWidth (dropMark source) (byteLength before)).2 := rfl
    rw [hoffset, byteOffset?_lineColumnBy_iff unitWidth h, columnsOf_unitWidth]
    refine and_congr_right fun _ => ?_
    constructor
    · rintro (hcolumns | ⟨hcolumns, hend⟩)
      · exact .inl (by omega)
      · exact .inr ⟨by omega, hend⟩
    · rintro (hcolumns | ⟨hcolumns, hend⟩)
      · exact .inl (by omega)
      · exact .inr ⟨by omega, hend⟩

/-- On the second line behind a mark, with the lines ending in both characters, the
label points at the fault either way. -/
theorem secondLine_label :
    let source := "\ufeffé();\r\n😀)".toList
    let reported := lineColumnBy (fun _ => 1) (dropMark source) 7
    let fault : Fault := ⟨7, .expressionExpected⟩
    byteOffset? source reported.1 reported.2 = some 10 ∧
      (Diagnostic.ofFailure (fault.toFailure (dropMark source) none)).offset? source = some 10 := by
  have hlabel := label_points_iff "\ufeffé();\r\n😀)".toList "é();\r\n".toList "😀)".toList
    (by decide) none .expressionExpected
  exact ⟨hlabel.1.mpr (by decide), hlabel.2.mpr (by decide)⟩

/-- Even if columns are counted in characters, a label is not put at a fault behind a
carriage return that stands alone, nor on the first line behind a mark. -/
theorem exists_misplaced_label :
    (∃ source before after : List Char, dropMark source = source ∧ source = before ++ after ∧
      let reported := lineColumnBy (fun _ => 1) source (byteLength before)
      byteOffset? source reported.1 reported.2 ≠ some (byteLength before)) ∧
    ∃ source before after : List Char, '\r' ∉ source ∧ dropMark source = before ++ after ∧
      let reported := lineColumnBy (fun _ => 1) (dropMark source) (byteLength before)
      byteOffset? source reported.1 reported.2 ≠ some (byteLength source - byteLength after) :=
  ⟨⟨"a();\r)".toList, "a();\r".toList, ")".toList, by decide, by decide, by decide⟩,
    ⟨"\ufeff)".toList, [], ")".toList, by decide, by decide, by decide⟩⟩

end DeadBranch
