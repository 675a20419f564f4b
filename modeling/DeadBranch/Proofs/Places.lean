/-
# Paths and places

A path leads to one place, piece by piece, whatever is there; it is found if each
place on the way is a directory and something is at the end (`Disk.find_eq_ok_iff`).
Names put behind a path lead to the place below it that they spell
(`Disk.placeOf_join`). Writing changes one file only, makes the way to it, and takes
no directory away (`Disk.written_of_write`); a file that is already there can always
be written (`Disk.write_of_find`).

Key definitions: `DiskPath.IsName`, `Disk.IsTree`, `Disk.Leads`, `Disk.Written`.
Key theorems: `Disk.find_eq_ok_iff`, `Disk.exists_name_of_find`, `Disk.placeOf_join`,
`Disk.written_of_write`, `Disk.write_of_find`.
-/
import DeadBranch.Disk.Basic
import Mathlib.Data.List.Basic

namespace DeadBranch

/-! ### Pieces of a path -/

namespace DiskPath

theorem piecesOf_slash (cs : List Char) : piecesOf ('/' :: cs) = [] :: piecesOf cs := by
  rw [piecesOf]

theorem piecesOf_ne_nil (cs : List Char) : piecesOf cs ≠ [] := by
  unfold piecesOf
  split
  · simp
  · simp
  · split <;> simp

theorem piecesOf_cons {c : Char} (hc : c ≠ '/') (cs : List Char) :
    ∃ p ps, piecesOf cs = p :: ps ∧ piecesOf (c :: cs) = (c :: p) :: ps := by
  obtain ⟨p, ps, h⟩ := List.exists_cons_of_ne_nil (piecesOf_ne_nil cs)
  refine ⟨p, ps, h, ?_⟩
  rw [piecesOf, h]
  exact hc

theorem piecesOf_append (xs ys : List Char) :
    piecesOf (xs ++ '/' :: ys) = piecesOf xs ++ piecesOf ys := by
  induction xs with
  | nil => rw [List.nil_append, piecesOf_slash, piecesOf, List.singleton_append]
  | cons x xs ih =>
    by_cases hx : x = '/'
    · rw [hx, List.cons_append, piecesOf_slash, piecesOf_slash, ih, List.cons_append]
    · obtain ⟨p, ps, hp, hxs⟩ := piecesOf_cons hx xs
      obtain ⟨p', ps', hp', hxs'⟩ := piecesOf_cons hx (xs ++ '/' :: ys)
      rw [ih, hp, List.cons_append, List.cons.injEq] at hp'
      rw [List.cons_append, hxs', hxs, ← hp'.1, ← hp'.2, List.cons_append]

theorem piecesOf_eq_singleton {cs : List Char} (h : '/' ∉ cs) : piecesOf cs = [cs] := by
  induction cs with
  | nil => rfl
  | cons c cs ih =>
    rw [List.mem_cons, not_or] at h
    obtain ⟨p, ps, hp, hcs⟩ := piecesOf_cons (Ne.symm h.1) cs
    rw [ih h.2, List.cons.injEq] at hp
    rw [hcs, ← hp.1, ← hp.2]

theorem slash_notMem_of_mem_piecesOf {cs piece : List Char} (h : piece ∈ piecesOf cs) :
    '/' ∉ piece := by
  induction cs generalizing piece with
  | nil =>
    rw [piecesOf, List.mem_singleton] at h
    simp [h]
  | cons c cs ih =>
    by_cases hc : c = '/'
    · rw [hc, piecesOf_slash, List.mem_cons] at h
      rcases h with rfl | h
      · simp
      · exact ih h
    · obtain ⟨p, ps, hp, hcs⟩ := piecesOf_cons hc cs
      rw [hcs, List.mem_cons] at h
      rcases h with rfl | h
      · have hslash : '/' ∉ p := ih (by rw [hp]; exact List.mem_cons_self)
        rw [List.mem_cons, not_or]
        exact ⟨Ne.symm hc, hslash⟩
      · exact ih (by rw [hp]; exact List.mem_cons_of_mem _ h)

theorem pieces_ne_nil (path : String) : pieces path ≠ [] := by
  unfold pieces
  rw [Ne, List.map_eq_nil_iff]
  exact piecesOf_ne_nil _

theorem slash_notMem_of_mem_pieces {path piece : String} (h : piece ∈ pieces path) :
    '/' ∉ piece.toList := by
  obtain ⟨cs, hcs, rfl⟩ := List.mem_map.mp h
  rw [String.toList_ofList]
  exact slash_notMem_of_mem_piecesOf hcs

/-- A text is the name of a file or directory: a piece of a path that leads
further. -/
structure IsName (name : String) : Prop where
  nonempty : name ≠ ""
  ne_current : name ≠ "."
  ne_parent : name ≠ ".."
  slash_notMem : '/' ∉ name.toList

theorem isName_iff {name : String} :
    IsName name ↔ name ≠ "" ∧ name ≠ "." ∧ name ≠ ".." ∧ '/' ∉ name.toList :=
  ⟨fun h => ⟨h.nonempty, h.ne_current, h.ne_parent, h.slash_notMem⟩,
    fun h => ⟨h.1, h.2.1, h.2.2.1, h.2.2.2⟩⟩

instance (name : String) : Decidable (IsName name) := decidable_of_iff _ isName_iff.symm

theorem pieces_ofNames {names : List String} (hne : names ≠ [])
    (h : ∀ name ∈ names, IsName name) : pieces (ofNames names) = names := by
  induction names with
  | nil => exact absurd rfl hne
  | cons name names ih =>
    have hname := piecesOf_eq_singleton (h name List.mem_cons_self).slash_notMem
    unfold pieces ofNames at ih ⊢
    by_cases hnames : names = []
    · rw [hnames, String.intercalate_singleton, hname, List.map_singleton, String.ofList_toList]
    · have hrest := ih hnames fun other hother => h other (List.mem_cons_of_mem _ hother)
      have htext : ("/".intercalate (name :: names)).toList =
          name.toList ++ '/' :: ("/".intercalate names).toList := by
        rw [String.intercalate_cons_of_ne_nil hnames, String.toList_append, String.toList_append,
          List.append_assoc]
        rfl
      rw [htext, piecesOf_append, hname, List.singleton_append, List.map_cons, String.ofList_toList,
        hrest]

theorem not_isAbsolute_ofNames {names : List String} (hne : names ≠ [])
    (h : ∀ name ∈ names, IsName name) : isAbsolute (ofNames names) = false := by
  -- a path from the root has an empty piece in front
  by_contra habsolute
  rw [Bool.not_eq_false, isAbsolute, beq_iff_eq] at habsolute
  obtain ⟨cs, hcs⟩ := List.head?_eq_some_iff.mp habsolute
  have hpieces := pieces_ofNames hne h
  unfold pieces at hpieces
  rw [hcs, piecesOf_slash, List.map_cons] at hpieces
  exact (h (String.ofList []) (by rw [← hpieces]; exact List.mem_cons_self)).nonempty rfl

end DiskPath

open DiskPath

namespace Disk

variable {d d' : Disk} {p q : Place} {path : String} {bytes : Bytes}

/-! ### What is at a place -/

theorem isFileAt_iff : d.isFileAt p ↔ ∃ f ∈ d.files, f.1 = p := by
  unfold isFileAt fileAt?
  rw [List.lookup_isSome_iff]
  simp only [beq_iff_eq, @eq_comm _ p]

theorem isFileAt_of_fileAt? (h : d.fileAt? p = some bytes) : d.isFileAt p := by
  rw [isFileAt, h]
  rfl

theorem isDirAt_iff : d.isDirAt p ↔
    p = [] ∨ (∃ q ∈ d.dirs, p <+: q) ∨ ∃ f ∈ d.files, p <+: f.1 ∧ p ≠ f.1 := by
  unfold isDirAt
  simp only [Bool.or_eq_true, List.isEmpty_iff, List.any_eq_true, List.isPrefixOf_iff_prefix,
    Bool.and_eq_true, bne_iff_ne, or_assoc]

/-- What is above a directory is one. -/
theorem isDirAt_of_prefix (hq : q <+: p) (hp : d.isDirAt p) : d.isDirAt q := by
  rw [isDirAt_iff] at hp ⊢
  rcases hp with rfl | ⟨r, hr, hpr⟩ | ⟨f, hf, hpf, hne⟩
  · exact .inl (List.prefix_nil.mp hq)
  · exact .inr (.inl ⟨r, hr, hq.trans hpr⟩)
  · refine .inr (.inr ⟨f, hf, hq.trans hpf, ?_⟩)
    rintro rfl
    exact hne (hpf.eq_of_length_le hq.length_le)

/-- A disk is a tree of files: what leads to a file are names, and no file is a
directory. -/
def IsTree (d : Disk) : Prop :=
  ∀ f ∈ d.files, (∀ name ∈ f.1, IsName name) ∧ d.isDirAt f.1 = false

instance (d : Disk) : Decidable d.IsTree :=
  inferInstanceAs (Decidable (∀ f ∈ d.files, (∀ name ∈ f.1, IsName name) ∧ d.isDirAt f.1 = false))

theorem IsTree.not_isDirAt (hd : d.IsTree) (h : d.isFileAt p) : d.isDirAt p = false := by
  obtain ⟨f, hf, rfl⟩ := isFileAt_iff.mp h
  exact (hd f hf).2

theorem IsTree.not_isFileAt (hd : d.IsTree) (h : d.isDirAt p) : d.isFileAt p = false := by
  by_contra hfile
  rw [Bool.not_eq_false] at hfile
  rw [hd.not_isDirAt hfile] at h
  exact nomatch h

/-! ### Following a path -/

theorem along_name {name : String} (h : IsName name) (p : Place) : along p name = p ++ [name] := by
  unfold along
  rw [if_neg (by simp [h.nonempty, h.ne_current]), if_neg h.ne_parent]

theorem foldl_along_names {names : List String} (h : ∀ name ∈ names, IsName name) (p : Place) :
    names.foldl along p = p ++ names := by
  induction names generalizing p with
  | nil => simp
  | cons name names ih =>
    rw [List.foldl_cons, along_name (h name List.mem_cons_self),
      ih fun other hother => h other (List.mem_cons_of_mem _ hother), List.append_assoc,
      List.singleton_append]

/-- Each piece of a path is looked up in a directory. -/
def Leads (d : Disk) (p : Place) : List String → Prop
  | [] => True
  | piece :: pieces => d.isDirAt p ∧ d.Leads (along p piece) pieces

theorem leads_append (xs ys : List String) (p : Place) :
    d.Leads p (xs ++ ys) ↔ d.Leads p xs ∧ d.Leads (xs.foldl along p) ys := by
  induction xs generalizing p with
  | nil => simp [Leads]
  | cons x xs ih =>
    rw [List.cons_append, Leads, Leads, ih, List.foldl_cons, and_assoc]

theorem Leads.mono (hdirs : ∀ q, d.isDirAt q → d'.isDirAt q) {pieces : List String}
    (h : d.Leads p pieces) : d'.Leads p pieces := by
  induction pieces generalizing p with
  | nil => trivial
  | cons piece pieces ih => exact ⟨hdirs p h.1, ih h.2⟩

theorem step_eq_ok_iff {piece : String} : d.step p piece = .ok q ↔
    d.isDirAt p ∧ q = along p piece ∧ (d.isDirAt q ∨ d.isFileAt q) := by
  unfold step
  by_cases hp : d.isDirAt p
  · simp only [hp, Bool.not_true, Bool.false_eq_true, ↓reduceIte, Bool.or_eq_true, true_and]
    constructor
    · intro h
      split at h
      · rename_i hthere
        obtain rfl := Except.ok.inj h
        exact ⟨rfl, hthere⟩
      · exact nomatch h
    · rintro ⟨rfl, hthere⟩
      rw [if_pos hthere]
  · simp [hp]

theorem foldlM_step_iff (piece : String) (pieces : List String) :
    (piece :: pieces).foldlM d.step p = .ok q ↔
      d.Leads p (piece :: pieces) ∧ q = (piece :: pieces).foldl along p ∧
        (d.isDirAt q ∨ d.isFileAt q) := by
  induction pieces generalizing p piece with
  | nil =>
    have hlast : [piece].foldlM d.step p = d.step p piece := by
      rw [List.foldlM_cons]
      cases d.step p piece <;> rfl
    rw [hlast, step_eq_ok_iff]
    simp [Leads]
  | cons next pieces ih =>
    rw [List.foldlM_cons]
    constructor
    · intro h
      cases hstep : d.step p piece with
      | error fault =>
        rw [hstep] at h
        exact nomatch h
      | ok place =>
        rw [hstep] at h
        obtain ⟨hdir, rfl, -⟩ := step_eq_ok_iff.mp hstep
        obtain ⟨hleads, hq, hthere⟩ := (ih next).mp h
        exact ⟨⟨hdir, hleads⟩, hq, hthere⟩
    · rintro ⟨⟨hdir, hleads⟩, hq, hthere⟩
      have hstep : d.step p piece = .ok (along p piece) :=
        step_eq_ok_iff.mpr ⟨hdir, rfl, .inl hleads.1⟩
      rw [hstep]
      exact (ih next).mpr ⟨hleads, hq, hthere⟩

/-- A path is found if each of its pieces is looked up in a directory and there is
something where it leads to. -/
theorem find_eq_ok_iff : d.find path = .ok q ↔ path ≠ "" ∧
    d.Leads (d.start path) (pieces path) ∧ q = d.placeOf path ∧ (d.isDirAt q ∨ d.isFileAt q) := by
  unfold find placeOf
  obtain ⟨piece, rest, hpieces⟩ := List.exists_cons_of_ne_nil (pieces_ne_nil path)
  by_cases hpath : path = ""
  · simp [hpath]
  · rw [if_neg hpath, hpieces, foldlM_step_iff]
    simp [hpath]

theorem read_eq_ok_iff : d.read path = .ok bytes ↔
    ∃ p, d.find path = .ok p ∧ d.fileAt? p = some bytes := by
  unfold read
  cases hfind : d.find path with
  | error fault =>
    simp only [reduceCtorEq, false_and, exists_false, iff_false]
    exact nofun
  | ok p =>
    simp only [Except.ok.injEq, exists_eq_left']
    cases hfile : d.fileAt? p with
    | none => exact iff_of_false (by simp [bind, Except.bind, hfile, throw, throwThe,
        MonadExceptOf.throw]) nofun
    | some content => simp [bind, Except.bind, hfile, pure, Except.pure]

/-- A path that can be read is found, and its file is where it leads to. -/
theorem find_of_read (h : d.read path = .ok bytes) :
    d.find path = .ok (d.placeOf path) ∧ d.fileAt? (d.placeOf path) = some bytes := by
  obtain ⟨p, hfind, hfile⟩ := read_eq_ok_iff.mp h
  have hplace : p = d.placeOf path := (find_eq_ok_iff.mp hfind).2.2.1
  rw [← hplace]
  exact ⟨hfind, hfile⟩

/-- The last piece of a path that leads to no directory is a name. -/
theorem exists_name_of_find (h : d.find path = .ok p) (hp : d.isDirAt p = false) :
    ∃ front name, pieces path = front ++ [name] ∧ IsName name ∧
      p = front.foldl along (d.start path) ++ [name] := by
  obtain ⟨-, hleads, rfl, -⟩ := find_eq_ok_iff.mp h
  obtain hnil | ⟨front, name, hpieces⟩ := List.eq_nil_or_concat (pieces path)
  · exact absurd hnil (pieces_ne_nil path)
  rw [List.concat_eq_append] at hpieces
  rw [hpieces, leads_append] at hleads
  have habove : d.isDirAt (front.foldl along (d.start path)) := hleads.2.1
  have hplace : d.placeOf path = along (front.foldl along (d.start path)) name := by
    rw [placeOf, hpieces, List.foldl_append]
    rfl
  rw [hplace] at hp
  have hmem : name ∈ pieces path := by
    rw [hpieces]
    simp
  have hslash := slash_notMem_of_mem_pieces hmem
  -- any other piece leads to a directory again
  have hstays : ¬ (name = "" ∨ name = ".") := by
    intro hname
    rw [along, if_pos hname, habove] at hp
    exact nomatch hp
  have hup : name ≠ ".." := by
    intro hname
    rw [along, if_neg hstays, if_pos hname, isDirAt_of_prefix (List.dropLast_prefix _) habove] at hp
    exact nomatch hp
  rw [not_or] at hstays
  have hisName : IsName name := ⟨hstays.1, hstays.2, hup, hslash⟩
  exact ⟨front, name, hpieces, hisName, by rw [hplace, along_name hisName]⟩

/-- The name of a file is the last one that leads to its place. -/
theorem fileName?_of_find (h : d.find path = .ok p) (hp : d.isDirAt p = false) :
    fileName? path = p.getLast? := by
  obtain ⟨front, name, hpieces, hname, rfl⟩ := exists_name_of_find h hp
  have hcomponent : componentOf name = some (.name name) := by
    unfold componentOf
    rw [if_neg (by simp [hname.nonempty, hname.ne_current]), if_neg hname.ne_parent]
  have hrest : (pieces path).filterMap componentOf =
      front.filterMap componentOf ++ [.name name] := by
    rw [hpieces, List.filterMap_append, List.filterMap_cons_some hcomponent, List.filterMap_nil]
  have hlast : (components path).getLast? = some (.name name) := by
    unfold components
    rw [hrest]
    split
    · rw [← List.cons_append, List.getLast?_concat]
    · split
      · rw [← List.cons_append, List.getLast?_concat]
      · rw [List.getLast?_concat]
  rw [fileName?, hlast, List.getLast?_concat]

/-! ### Names behind a path -/

theorem pieces_join {names : List String} (hne : names ≠ []) (h : ∀ name ∈ names, IsName name)
    (d : Disk) (dir : String) : ∃ front,
      pieces (join dir (ofNames names)) = front ++ names ∧
        front.foldl along (d.start (join dir (ofNames names))) = d.placeOf dir := by
  have hrelative := not_isAbsolute_ofNames hne h
  have hnames := pieces_ofNames hne h
  unfold join
  by_cases hdir : dir = ""
  · rw [if_pos (.inr hdir), hdir]
    refine ⟨[], hnames, ?_⟩
    rw [start, hrelative]
    rfl
  · rw [if_neg (by simp [hrelative, hdir])]
    have hstart : ∀ tail : String, d.start (dir ++ tail) = d.start dir := by
      intro tail
      obtain ⟨c, cs, hcs⟩ := List.exists_cons_of_ne_nil (by simpa using hdir : dir.toList ≠ [])
      rw [start, start, isAbsolute, isAbsolute, String.toList_append, hcs]
      rfl
    by_cases hslash : dir.toList.getLast? = some '/'
    · -- the empty piece behind the last slash leads nowhere
      rw [if_pos hslash]
      obtain ⟨cs, hcs⟩ := List.getLast?_eq_some_iff.mp hslash
      have hsplit : (dir ++ ofNames names).toList = cs ++ '/' :: (ofNames names).toList := by
        rw [String.toList_append, hcs, List.append_assoc]
        rfl
      refine ⟨(piecesOf cs).map String.ofList, ?_, ?_⟩
      · rw [pieces, hsplit, piecesOf_append, List.map_append]
        exact congrArg _ hnames
      · rw [hstart, placeOf, pieces, hcs, piecesOf_append, List.map_append, List.foldl_append]
        rfl
    · rw [if_neg hslash]
      have hsplit : (dir ++ "/" ++ ofNames names).toList =
          dir.toList ++ '/' :: (ofNames names).toList := by
        rw [String.toList_append, String.toList_append, List.append_assoc]
        rfl
      refine ⟨pieces dir, ?_, ?_⟩
      · rw [pieces, hsplit, piecesOf_append, List.map_append]
        exact congrArg _ hnames
      · rw [String.append_assoc, hstart]
        rfl

/-- Names behind a path lead to the place below it that they spell. -/
theorem placeOf_join {names : List String} (hne : names ≠ []) (h : ∀ name ∈ names, IsName name)
    (d : Disk) (dir : String) :
    d.placeOf (join dir (ofNames names)) = d.placeOf dir ++ names := by
  obtain ⟨front, hpieces, hfront⟩ := pieces_join hne h d dir
  rw [placeOf, hpieces, List.foldl_append, hfront, foldl_along_names h]

/-! ### Writing -/

theorem fileAt?_put (d : Disk) (p q : Place) (bytes : Bytes) :
    (d.put p bytes).fileAt? q = if q = p then some bytes else d.fileAt? q := by
  unfold put fileAt?
  by_cases hfile : d.isFileAt p
  · have hlookup : ∀ files : List (Place × Bytes),
        (files.map fun f => if f.1 = p then (p, bytes) else f).lookup q =
          if q = p then (files.lookup q).map fun _ => bytes else files.lookup q := by
      intro files
      induction files with
      | nil => simp
      | cons f files ih =>
        obtain ⟨place, content⟩ := f
        rw [List.map_cons]
        by_cases hplace : place = p
        · rw [if_pos hplace, List.lookup_cons, List.lookup_cons, ih, hplace]
          by_cases hq : q = p
          · simp [hq]
          · simp [hq, beq_eq_false_iff_ne.mpr hq]
        · rw [if_neg hplace, List.lookup_cons, List.lookup_cons, ih]
          by_cases hq : q = place
          · rw [hq, if_neg hplace, if_neg hplace]
          · simp [beq_eq_false_iff_ne.mpr hq]
    simp only [hfile, ↓reduceIte, hlookup]
    by_cases hq : q = p
    · rw [if_pos hq, if_pos hq, hq]
      obtain ⟨content, hcontent⟩ := Option.isSome_iff_exists.mp hfile
      rw [fileAt?] at hcontent
      rw [hcontent]
      rfl
    · rw [if_neg hq, if_neg hq]
  · simp only [hfile, Bool.false_eq_true, ↓reduceIte]
    rw [List.lookup_append]
    by_cases hq : q = p
    · have hnone : d.files.lookup p = none := by
        rw [← Option.not_isSome_iff_eq_none]
        exact hfile
      rw [if_pos hq, hq, hnone, List.lookup_cons, beq_self_eq_true, Option.none_or]
    · simp [hq, beq_eq_false_iff_ne.mpr hq, List.lookup_cons]

theorem places_put_of_isFileAt (h : d.isFileAt p) (bytes : Bytes) :
    (d.put p bytes).files.map Prod.fst = d.files.map Prod.fst := by
  unfold put
  simp only [h, ↓reduceIte, List.map_map]
  refine List.map_congr_left fun f _ => ?_
  rw [Function.comp_apply]
  split
  · rename_i hf
    exact hf.symm
  · rfl

/-- Which places are directories depends on where files are, not on what is in
them. -/
theorem isDirAt_congr (hdirs : d'.dirs = d.dirs)
    (hfiles : d'.files.map Prod.fst = d.files.map Prod.fst) (p : Place) :
    d'.isDirAt p = d.isDirAt p := by
  have hany : ∀ files : List (Place × Bytes), (files.any fun f => p.isPrefixOf f.1 && p != f.1) =
      (files.map Prod.fst).any fun place => p.isPrefixOf place && p != place := by
    intro files
    rw [List.any_map]
    rfl
  rw [isDirAt, isDirAt, hdirs, hany, hany, hfiles]

theorem isDirAt_put_of_isFileAt (h : d.isFileAt p) (bytes : Bytes) (q : Place) :
    (d.put p bytes).isDirAt q = d.isDirAt q := by
  have hdirs : (d.put p bytes).dirs = d.dirs := rfl
  exact isDirAt_congr hdirs (places_put_of_isFileAt h bytes) q

theorem isDirAt_put (hq : d.isDirAt q) (p : Place) (bytes : Bytes) :
    (d.put p bytes).isDirAt q := by
  by_cases hfile : d.isFileAt p
  · rw [isDirAt_put_of_isFileAt hfile]
    exact hq
  · rw [isDirAt_iff] at hq ⊢
    unfold put
    simp only [hfile, Bool.false_eq_true, ↓reduceIte, List.mem_append]
    rcases hq with hq | hq | ⟨f, hf, hprefix⟩
    · exact .inl hq
    · exact .inr (.inl hq)
    · exact .inr (.inr ⟨f, .inl hf, hprefix⟩)

theorem makeDir_eq_ok (h : d.makeDir p = .ok d') :
    d'.files = d.files ∧ d'.here = d.here ∧ d'.isDirAt p ∧ ∀ q, d.isDirAt q → d'.isDirAt q := by
  unfold makeDir at h
  split at h
  · exact nomatch h
  · split at h
    · rename_i hdir
      obtain rfl := Except.ok.inj h
      exact ⟨rfl, rfl, hdir, fun _ hq => hq⟩
    · obtain rfl := Except.ok.inj h
      refine ⟨rfl, rfl, ?_, ?_⟩
      · exact isDirAt_iff.mpr (.inr (.inl ⟨p, by simp, List.prefix_rfl⟩))
      · intro q hq
        rw [isDirAt_iff] at hq ⊢
        simp only [List.mem_append]
        rcases hq with hq | ⟨r, hr, hprefix⟩ | hq
        · exact .inl hq
        · exact .inr (.inl ⟨r, .inl hr, hprefix⟩)
        · exact .inr (.inr hq)

theorem makeAlong_eq_ok {pieces : List String} (h : d.makeAlong p pieces = .ok d') :
    d'.files = d.files ∧ d'.here = d.here ∧ (∀ q, d.isDirAt q → d'.isDirAt q) ∧
      d'.Leads p pieces := by
  induction pieces generalizing d p with
  | nil =>
    obtain rfl := Except.ok.inj h
    exact ⟨rfl, rfl, fun _ hq => hq, trivial⟩
  | cons piece pieces ih =>
    rw [makeAlong] at h
    cases hmade : d.makeDir p with
    | error fault =>
      rw [hmade] at h
      exact nomatch h
    | ok made =>
      rw [hmade] at h
      obtain ⟨hfiles, hhere, hdir, hdirs⟩ := makeDir_eq_ok hmade
      obtain ⟨hfiles', hhere', hdirs', hleads⟩ := ih h
      exact ⟨hfiles'.trans hfiles, hhere'.trans hhere, fun q hq => hdirs' q (hdirs q hq),
        hdirs' p hdir, hleads⟩

/-- Where all directories of a way are there, none is made. -/
theorem makeAlong_of_leads (hd : d.IsTree) {pieces : List String} (h : d.Leads p pieces) :
    d.makeAlong p pieces = .ok d := by
  induction pieces generalizing p with
  | nil => rfl
  | cons piece pieces ih =>
    have hmade : d.makeDir p = .ok d := by
      rw [makeDir, if_neg (by simp [hd.not_isFileAt h.1]), if_pos h.1]
    rw [makeAlong, hmade]
    exact ih h.2

/-- What writing a file leaves: the file holds the bytes, all others are as they
were, and each piece of the path is looked up in a directory. -/
structure Written (d : Disk) (path : String) (bytes : Bytes) (d' : Disk) : Prop where
  here_eq : d'.here = d.here
  fileAt?_eq : ∀ q, d'.fileAt? q = if q = d.placeOf path then some bytes else d.fileAt? q
  isDirAt : ∀ q, d.isDirAt q → d'.isDirAt q
  leads : d'.Leads (d.start path) (pieces path)

theorem written_of_write (h : d.write path bytes = .ok d') : d.Written path bytes d' := by
  unfold write at h
  cases hmade : d.makeAlong (d.start path) (pieces path) with
  | error fault =>
    rw [hmade] at h
    exact nomatch h
  | ok made =>
    rw [hmade] at h
    obtain ⟨hfiles, hhere, hdirs, hleads⟩ := makeAlong_eq_ok hmade
    by_cases hdir : made.isDirAt (d.placeOf path)
    · simp [bind, Except.bind, hdir, throw, throwThe, MonadExceptOf.throw] at h
    · simp only [bind, Except.bind, hdir, Bool.false_eq_true, ↓reduceIte, pure, Except.pure,
        Except.ok.injEq] at h
      subst h
      have hput : ∀ q, made.isDirAt q → (made.put (d.placeOf path) bytes).isDirAt q :=
        fun q hq => isDirAt_put hq _ _
      refine ⟨hhere, fun q => ?_, fun q hq => hput q (hdirs q hq), hleads.mono hput⟩
      rw [fileAt?_put, fileAt?, fileAt?, hfiles]

theorem start_congr (h : d'.here = d.here) (path : String) : d'.start path = d.start path := by
  rw [start, start, h]

theorem placeOf_congr (h : d'.here = d.here) (path : String) :
    d'.placeOf path = d.placeOf path := by
  rw [placeOf, placeOf, start_congr h]

/-- A file that is found can be written, and nothing has to be made for it. -/
theorem write_of_find (hd : d.IsTree) (h : d.find path = .ok p) (hp : d.isFileAt p)
    (bytes : Bytes) : d.write path bytes = .ok (d.put p bytes) := by
  obtain ⟨-, hleads, rfl, -⟩ := find_eq_ok_iff.mp h
  unfold write
  rw [makeAlong_of_leads hd hleads]
  simp [bind, Except.bind, hd.not_isDirAt hp, pure, Except.pure]

theorem isFileAt_congr (hfiles : d'.files.map Prod.fst = d.files.map Prod.fst) (p : Place) :
    d'.isFileAt p = d.isFileAt p := by
  have hmem : ∀ d : Disk, d.isFileAt p ↔ p ∈ d.files.map Prod.fst := by
    intro d
    rw [isFileAt_iff, List.mem_map]
  rw [Bool.eq_iff_iff, hmem, hmem, hfiles]

/-- Other bytes in a file that is there leave all paths as they were. -/
theorem find_put (h : d.isFileAt p) (bytes : Bytes) (path : String) :
    (d.put p bytes).find path = d.find path := by
  have hstep : (d.put p bytes).step = d.step := by
    funext q piece
    simp only [step, isDirAt_put_of_isFileAt h, isFileAt_congr (places_put_of_isFileAt h bytes)]
  rw [find, find, hstep]
  rfl

theorem IsTree.put (hd : d.IsTree) (h : d.isFileAt p) (bytes : Bytes) :
    (d.put p bytes).IsTree := by
  have hplaces := places_put_of_isFileAt h bytes
  intro f hf
  have hmem : f.1 ∈ d.files.map Prod.fst := by
    rw [← hplaces]
    exact List.mem_map_of_mem hf
  obtain ⟨g, hg, hgf⟩ := List.mem_map.mp hmem
  rw [← hgf, isDirAt_put_of_isFileAt h]
  exact hd g hg

end Disk
end DeadBranch
