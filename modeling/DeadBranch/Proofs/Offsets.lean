/-
# The byte of a line and column

A boundary between two characters of a text stands on a line and in a column: one more
than the line feeds before it, and one more than the characters since the last of them
(`StandsAt`). `byteOffset?` goes back from the two to the byte. It passes line feeds and
then characters of one to four bytes, and it stops at the end of the line. So what it
gives is the last boundary of the line whose column is not past the one that was asked for
(`byteOffset?_greatest`), and it gives nothing exactly if the text has too few lines.

Key definitions: `StandsAt`.
Key theorems: `dropLines_eq_none_iff`, `exists_of_dropLines`, `byteOffset?_greatest`,
`offsets_invert_positions`.
-/
import DeadBranch.Proofs.Labels

namespace DeadBranch

/-! ### Boundaries of a text -/

theorem byteLength_toList (text : String) : byteLength text.toList = text.utf8ByteSize := by
  rw [← String.ofList_toList (s := text), String.toList_ofList]
  induction text.toList with
  | nil => rfl
  | cons c cs ih =>
    rw [byteLength, ih, ← List.singleton_append, String.ofList_append, String.utf8ByteSize_append]
    exact congrArg (· + _) String.utf8ByteSize_singleton.symm

/-- A byte is a boundary between characters of a text, on a line and in a column of it. The
line feed that ends a line stands on that line. -/
def StandsAt (text : String) (offset line column : Nat) : Prop :=
  ∃ before after : String, text = before ++ after ∧ offset = before.utf8ByteSize ∧
    line = 1 + before.toList.count '\n' ∧ column = 1 + (lastLine before.toList).length

theorem lastLine_append (xs : List Char) {ys : List Char} (h : '\n' ∉ ys) :
    lastLine (xs ++ ys) = lastLine xs ++ ys := by
  induction xs with
  | nil => exact lastLine_eq_self h
  | cons x xs ih =>
    rw [List.cons_append, lastLine, lastLine, ih]
    simp only [List.mem_append, h, or_false]
    split <;> rfl

/-! ### Passing lines -/

/-- There are too few lines exactly if there are too few line feeds. -/
theorem dropLines_eq_none_iff {cs : List Char} {count passed : Nat} :
    dropLines count passed cs = none ↔ cs.count '\n' < count := by
  induction cs generalizing count passed with
  | nil =>
    unfold dropLines
    split <;> simp <;> omega
  | cons c cs ih =>
    unfold dropLines
    split
    · simp only [reduceCtorEq, false_iff]
      omega
    · split
      · rename_i hfeed
        rw [ih, hfeed, List.count_cons_self]
        omega
      · rename_i hfeed
        rw [ih, List.count_cons_of_ne (by simpa using hfeed)]

/-- What is passed has as many line feeds as were asked for and ends with the last of
them. -/
theorem exists_of_dropLines {cs rest : List Char} {count passed start : Nat}
    (h : dropLines count passed cs = some (start, rest)) :
    ∃ front, cs = front ++ rest ∧ start = passed + byteLength front ∧
      front.count '\n' = count ∧ lastLine front = [] := by
  induction cs generalizing count passed with
  | nil =>
    unfold dropLines at h
    split at h
    · rename_i hcount
      cases h
      exact ⟨[], rfl, rfl, hcount.symm, rfl⟩
    · cases h
  | cons c cs ih =>
    unfold dropLines at h
    split at h
    · rename_i hcount
      cases h
      exact ⟨[], rfl, rfl, hcount.symm, rfl⟩
    · rename_i hcount
      split at h
      · rename_i hfeed
        obtain ⟨front, rfl, rfl, hfront, hlast⟩ := ih h
        have hsize : '\n'.utf8Size = 1 := by decide
        refine ⟨c :: front, rfl, ?_, ?_, ?_⟩
        · rw [hfeed, byteLength, hsize, Nat.add_assoc]
        · rw [hfeed, List.count_cons_self, hfront]
          omega
        · rw [lastLine, if_pos (.inl hfeed), hlast]
      · rename_i hfeed
        obtain ⟨front, rfl, rfl, hfront, hlast⟩ := ih h
        have hmem : '\n' ∈ front := List.count_pos_iff.mp (by omega)
        refine ⟨c :: front, rfl, ?_, ?_, ?_⟩
        · rw [byteLength, Nat.add_assoc]
        · rw [List.count_cons_of_ne (by simpa using hfeed), hfront]
        · rw [lastLine, if_pos (.inr hmem), hlast]

theorem byteOffset?_eq_none_iff {cs : List Char} {line column : Nat} (hline : 1 ≤ line)
    (hcolumn : 1 ≤ column) : byteOffset? cs line column = none ↔ cs.count '\n' < line - 1 := by
  rw [byteOffset?, if_neg (by omega), Option.map_eq_none_iff, dropLines_eq_none_iff]

/-! ### Going back to the byte -/

/-- The byte of a boundary is found by its line and column. -/
theorem byteOffset?_of_standsAt {text : String} {offset line column : Nat}
    (h : StandsAt text offset line column) : byteOffset? text.toList line column = some offset := by
  obtain ⟨before, after, rfl, rfl, rfl, rfl⟩ := h
  rw [String.toList_append, ← byteLength_toList, byteOffset?_eq_iff]
  exact .inl rfl

/-- What is found stands on the line, and not past the column. -/
theorem standsAt_of_byteOffset? {text : String} {offset line column : Nat}
    (h : byteOffset? text.toList line column = some offset) :
    ∃ found ≤ column, StandsAt text offset line found := by
  unfold byteOffset? at h
  split at h
  · cases h
  · rename_i hzero
    obtain ⟨⟨start, rest⟩, hdrop, hoffset⟩ := Option.map_eq_some_iff.mp h
    obtain ⟨front, hfront, hstart, hcount, hlast⟩ := exists_of_dropLines hdrop
    let piece := (rest.takeWhile (· ≠ '\n')).take (column - 1)
    have hlength : piece.length ≤ column - 1 := List.length_take_le _ _
    have hfeed : '\n' ∉ piece := fun hmem => by
      simpa using List.all_eq_true.mp List.all_takeWhile _ (List.mem_of_mem_take hmem)
    obtain ⟨after, hafter⟩ : piece <+: rest :=
      (List.take_prefix _ _).trans (List.takeWhile_prefix _)
    refine ⟨1 + piece.length, by omega, .ofList (front ++ piece), .ofList after, ?_, ?_, ?_, ?_⟩
    · rw [← String.ofList_append, List.append_assoc, hafter, ← hfront, String.ofList_toList]
    · rw [← byteLength_toList, String.toList_ofList, byteLength_append, ← hoffset, hstart,
        Nat.zero_add]
    · rw [String.toList_ofList, List.count_append, hcount, List.count_eq_zero_of_not_mem hfeed]
      omega
    · rw [String.toList_ofList, lastLine_append _ hfeed, hlast, List.nil_append]

theorem byteLength_take_le {m n : Nat} (h : m ≤ n) (cs : List Char) :
    byteLength (cs.take m) ≤ byteLength (cs.take n) := by
  obtain ⟨more, hmore⟩ := List.take_prefix_take_left (l := cs) h
  rw [← hmore, byteLength_append]
  exact Nat.le_add_right _ _

/-- On one line, a column further on is found no earlier. -/
theorem byteOffset?_mono {cs : List Char} {line column wider offset further : Nat}
    (hwider : column ≤ wider) (h : byteOffset? cs line column = some offset)
    (h' : byteOffset? cs line wider = some further) : offset ≤ further := by
  unfold byteOffset? at h h'
  split at h
  · cases h
  · rw [if_neg (by omega)] at h'
    obtain ⟨⟨start, rest⟩, hdrop, rfl⟩ := Option.map_eq_some_iff.mp h
    rw [hdrop, Option.map_some, Option.some.injEq] at h'
    rw [← h']
    exact Nat.add_le_add_left (byteLength_take_le (by omega) _) _

/-- What is found is the last boundary of the line that is not past the column. -/
theorem byteOffset?_greatest {text : String} {offset line column : Nat}
    (h : byteOffset? text.toList line column = some offset) {other found : Nat}
    (hother : StandsAt text other line found) (hfound : found ≤ column) : other ≤ offset :=
  byteOffset?_mono hfound (byteOffset?_of_standsAt hother) h

theorem StandsAt.offset_le {text : String} {offset line column : Nat}
    (h : StandsAt text offset line column) : offset ≤ text.utf8ByteSize := by
  obtain ⟨before, after, rfl, rfl, -, -⟩ := h
  rw [String.utf8ByteSize_append]
  exact Nat.le_add_right _ _

/-- **The byte of a line and column.** The line and the column of a boundary lead back to
it. Any line and column have a byte unless the text has too few line feeds; it is not past
the end of the text, and of the boundaries on that line it is the last one whose column is
not past the given one. A column further on has a byte no earlier. -/
theorem offsets_invert_positions (text : String) :
    (∀ offset line column, StandsAt text offset line column →
      byteOffset? text.toList line column = some offset) ∧
    ∀ line column, 1 ≤ line → 1 ≤ column →
      (byteOffset? text.toList line column = none ↔ text.toList.count '\n' < line - 1) ∧
      ∀ offset, byteOffset? text.toList line column = some offset →
        offset ≤ text.utf8ByteSize ∧
        (∃ found ≤ column, StandsAt text offset line found) ∧
        (∀ other, ∀ found ≤ column, StandsAt text other line found → other ≤ offset) ∧
        ∀ wider, column ≤ wider →
          ∃ further, byteOffset? text.toList line wider = some further ∧ offset ≤ further := by
  refine ⟨fun offset line column => byteOffset?_of_standsAt, fun line column hline hcolumn => ?_⟩
  refine ⟨byteOffset?_eq_none_iff hline hcolumn, fun offset h => ?_⟩
  obtain ⟨found, hfound, hstands⟩ := standsAt_of_byteOffset? h
  refine ⟨hstands.offset_le, ⟨found, hfound, hstands⟩,
    fun other found hfound hother => byteOffset?_greatest h hother hfound, fun wider hwider => ?_⟩
  -- whether there is a byte does not depend on the column
  have hsome : byteOffset? text.toList line wider ≠ none := by
    rw [Ne, byteOffset?_eq_none_iff hline (by omega), ← byteOffset?_eq_none_iff hline hcolumn, h]
    exact Option.some_ne_none offset
  obtain ⟨further, hfurther⟩ := Option.ne_none_iff_exists'.mp hsome
  exact ⟨further, hfurther, byteOffset?_mono hwider h hfurther⟩

/-- Behind a character of two bytes the byte is not the column. A column past the line leads
to the line feed at its end, and a line past the text nowhere. -/
theorem accentedLine_offsets :
    let text := "let a;\nconst é = ;\n"
    StandsAt text 16 2 9 ∧ byteOffset? text.toList 2 9 = some 16 ∧
      (∃ offset, byteOffset? text.toList 2 40 = some offset ∧ 16 ≤ offset ∧
        (∃ found ≤ 40, StandsAt text offset 2 found) ∧
        ∀ other, ∀ found ≤ 40, StandsAt text other 2 found → other ≤ offset) ∧
      byteOffset? text.toList 9 1 = none := by
  intro text
  obtain ⟨hexact, hany⟩ := offsets_invert_positions text
  have hstands : StandsAt text 16 2 9 :=
    ⟨"let a;\nconst é ", "= ;\n", by decide +kernel, by decide +kernel, by decide +kernel,
      by decide +kernel⟩
  have hbyte := hexact 16 2 9 hstands
  obtain ⟨further, hfurther, hle⟩ :=
    ((hany 2 9 (by decide) (by decide)).2 16 hbyte).2.2.2 40 (by decide)
  obtain ⟨-, hfound, hlast, -⟩ := (hany 2 40 (by decide) (by decide)).2 further hfurther
  refine ⟨hstands, hbyte, ⟨further, hfurther, hle, hfound, hlast⟩, ?_⟩
  exact (hany 9 1 (by decide) (by decide)).1.mpr (by decide +kernel)

end DeadBranch
