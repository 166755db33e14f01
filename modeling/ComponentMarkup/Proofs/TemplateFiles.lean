/-
  Templates in the files of a directory.

  * `Files.find_join_eq_ok_iff`: the path of a file below a directory leads to the entry that the
    directory has under the name of the file.
  * `splitExtension?_eq_some_iff`, `mem_templateNames`: the names of templates are what stands before
    the extension, which has no dot.
  * `DirectoryViews.run_of_mem`: a view runs the text of its file.
-/
import ComponentMarkup.Catalog.Discovery
import ComponentMarkup.Proofs.SplitPieces
import ComponentMarkup.View.Directory

namespace ComponentMarkup

/-! ## Pieces of a path -/

namespace Text

variable {c : Char} {cs before after last : List Char}

theorem piecesOf_append (h : c ∉ before) :
    piecesOf [c] (before ++ c :: after) = before :: piecesOf [c] after := by
  rw [List.append_cons]
  refine piecesOf_append_sep (List.cons_ne_nil _ _) ?_ after
  rwa [List.dropLast_singleton, List.append_nil, singleton_isInfix_iff]

theorem piecesOf_of_not_mem (h : c ∉ cs) : piecesOf [c] cs = [cs] :=
  piecesOf_of_not_isInfix (mt singleton_isInfix_iff.1 h)

/-- What comes after the last occurrence of a character is one more piece. -/
theorem piecesOf_concat (h : c ∉ last) (cs : List Char) :
    piecesOf [c] (cs ++ c :: last) = piecesOf [c] cs ++ [last] := by
  by_cases hc : c ∈ cs
  · obtain ⟨before, after, hcs, hbefore⟩ := List.eq_append_cons_of_mem hc
    have hshorter : after.length < cs.length := by
      rw [hcs, List.length_append, List.length_cons]
      omega
    rw [hcs, List.append_assoc, List.cons_append, piecesOf_append hbefore, piecesOf_append hbefore,
      piecesOf_concat h after, List.cons_append]
  · rw [piecesOf_append hc, piecesOf_of_not_mem h, piecesOf_of_not_mem hc, List.singleton_append]
termination_by cs.length

end Text

/-! ## Paths below a directory -/

namespace Files

variable {files : Files} {dir file path : String} {location : Location} {entry : Entry}

theorem splitAt_slash (h : '/' ∉ file.toList) (dir : String) :
    Text.splitAt "/" (dir ++ "/" ++ file) = Text.splitAt "/" dir ++ [file] := by
  have hslash : "/".toList = ['/'] := rfl
  rw [Text.splitAt, Text.splitAt, String.toList_append, String.toList_append, hslash,
    List.append_assoc, List.singleton_append, Text.piecesOf_concat h, List.map_append]
  simp

/-- The names of a path below a directory are those of the directory, up to an empty one at their
end, and the one of the file. -/
theorem splitAt_join (hdir : dir ≠ "") (h : '/' ∉ file.toList) : ∃ names, names ≠ [] ∧
    (Text.splitAt "/" dir = names ∨ Text.splitAt "/" dir = names ++ [""]) ∧
      Text.splitAt "/" (join dir file) = names ++ [file] := by
  have hne (s : String) : Text.splitAt "/" s ≠ [] := fun hs =>
    Text.piecesOf_ne_nil _ _ (List.map_eq_nil_iff.1 hs)
  have hrelative : ¬ (file.startsWith "/" = true ∨ dir = "") := by
    rintro (hstart | hempty)
    · rw [String.startsWith_string_iff] at hstart
      exact h (hstart.subset (List.mem_singleton_self '/'))
    · exact hdir hempty
  rw [join, if_neg hrelative]
  split
  next hend =>
    rw [String.endsWith_eq_endsWith_toSlice, String.Slice.endsWith_string_iff,
      String.copy_toSlice] at hend
    obtain ⟨start, hstart⟩ := hend
    obtain rfl : dir = String.ofList start ++ "/" := by
      rw [← String.toList_inj, String.toList_append, String.toList_ofList, hstart]
    refine ⟨_, hne (String.ofList start), .inr ?_, splitAt_slash h _⟩
    have hempty : Text.splitAt "/" (String.ofList start ++ "/" ++ "") =
        Text.splitAt "/" (String.ofList start) ++ [""] := splitAt_slash List.not_mem_nil _
    rwa [String.append_empty] at hempty
  next => exact ⟨_, hne dir, .inl rfl, splitAt_slash h dir⟩

/-- Where a path starts depends on its first name only. -/
theorem exists_route (files : Files) {names : List String} (hne : names ≠ []) :
    ∃ start before, ∀ path more, Text.splitAt "/" path = names ++ more →
      files.route path = (start, before ++ more) := by
  obtain ⟨first, rest, rfl⟩ := List.exists_cons_of_ne_nil hne
  by_cases hfirst : first = ""
  · subst hfirst
    refine ⟨[], rest, fun path more h => ?_⟩
    rw [route, h]
    rfl
  · refine ⟨files.workingDirectory, first :: rest, fun path more h => ?_⟩
    rw [route, h]
    simp [hfirst]

theorem find_eq_ok_iff : files.find path = .ok (location, entry) ↔ path ≠ "" ∧
    (files.route path).2.foldlM files.step (files.route path).1 = .ok location ∧
      files.entryAt location = some entry := by
  rw [find]
  split
  next hempty => exact iff_of_false nofun fun h => h.1 hempty
  next hne =>
    rw [and_iff_right hne]
    dsimp only
    cases hfold : (files.route path).2.foldlM files.step (files.route path).1 with
    | error e => exact iff_of_false nofun fun h => nomatch h.1
    | ok found =>
      simp only [bind, Except.bind, Except.ok.injEq]
      cases he : files.entryAt found with
      | none => exact iff_of_false nofun fun h => by rw [← h.1, he] at h; cases h.2
      | some other =>
        constructor
        · intro h
          cases h
          exact ⟨rfl, he⟩
        · rintro ⟨rfl, h⟩
          cases he.symm.trans h
          rfl

/-- From a directory, a name leads to its entry, and an empty name leads nowhere else. -/
theorem step_eq_ok_iff {name : String} {next : Location} : files.step location name = .ok next ↔
    files.entryAt location = some .directory ∧ move location name = next := by
  unfold step
  split
  next h => simp [h]
  next h => simp [h]
  next h => simp [h]

/-- The names of a path below a directory lead to where the directory has the file. -/
theorem follow_join (hdir : files.find dir = .ok (location, .directory))
    (hslash : '/' ∉ file.toList) (hname : file ∉ ["", ".", ".."]) : join dir file ≠ "" ∧
    (files.route (join dir file)).2.foldlM files.step (files.route (join dir file)).1 =
      .ok (location ++ [file]) := by
  obtain ⟨hne, hfold, hdirectory⟩ := find_eq_ok_iff.1 hdir
  obtain ⟨names, hnames, hsplit, hjoin⟩ := splitAt_join hne hslash
  obtain ⟨start, before, hroute⟩ := files.exists_route hnames
  -- the names before the one of the file lead to the directory
  have hbefore : before.foldlM files.step start = .ok location := by
    rcases hsplit with hsplit | hsplit
    · rwa [hroute dir [] (by rw [hsplit, List.append_nil]), List.append_nil] at hfold
    · rw [hroute dir [""] hsplit, List.foldlM_append] at hfold
      cases hb : before.foldlM files.step start with
      | error e => rw [hb] at hfold; cases hfold
      | ok found =>
        rw [hb] at hfold
        have hsame := (step_eq_ok_iff.1 ((bind_pure _).symm.trans hfold)).2
        rw [← hsame]
        rfl
  have hstep : files.step location file = .ok (location ++ [file]) := by
    simp only [List.mem_cons, List.not_mem_nil, or_false, not_or] at hname
    rw [step_eq_ok_iff, move, if_neg (not_or.2 ⟨hname.1, hname.2.1⟩), if_neg hname.2.2]
    exact ⟨hdirectory, rfl⟩
  refine ⟨fun hempty => hnames ?_, ?_⟩
  · have hone : Text.splitAt "/" "" = [""] :=
      congrArg (List.map String.ofList) (Text.piecesOf_of_not_mem (c := '/') List.not_mem_nil)
    rw [hempty, hone] at hjoin
    exact (List.append_eq_singleton_iff.1 hjoin.symm).elim (·.1) fun h => nomatch h.2
  · rw [hroute _ _ hjoin, List.foldlM_append, hbefore]
    exact (bind_pure _).trans hstep

/-- **A path below a directory** leads to the entry that the directory has under the name of the
file and nowhere else, also if the path of the directory ends in a slash. -/
theorem find_join_eq_ok_iff {found : Location} (hdir : files.find dir = .ok (location, .directory))
    (hslash : '/' ∉ file.toList) (hname : file ∉ ["", ".", ".."]) :
    files.find (join dir file) = .ok (found, entry) ↔
      found = location ++ [file] ∧ files.entryAt (location ++ [file]) = some entry := by
  obtain ⟨hne, hfold⟩ := follow_join hdir hslash hname
  rw [find_eq_ok_iff, hfold, and_iff_right hne, Except.ok.injEq]
  constructor
  · rintro ⟨rfl, he⟩
    exact ⟨rfl, he⟩
  · rintro ⟨rfl, he⟩
    exact ⟨rfl, he⟩

theorem list_eq_ok_iff {entries : List (String × Entry)} : files.list path = .ok entries ↔
    ∃ location, files.find path = .ok (location, .directory) ∧
      entries = files.entriesIn location := by
  rw [list]
  cases files.find path with
  | error e => exact iff_of_false nofun fun ⟨_, h, _⟩ => nomatch h
  | ok found =>
    obtain ⟨location, entry⟩ := found
    cases entry with
    | file content => exact iff_of_false nofun fun ⟨_, h, _⟩ => nomatch h
    | directory =>
      constructor
      · intro h
        cases h
        exact ⟨location, rfl, rfl⟩
      · rintro ⟨other, h, rfl⟩
        cases h
        rfl

/-- Text that is written to a file is read again. -/
theorem read_of_find {text : String}
    (h : files.find path = .ok (location, .file text.toUTF8)) : files.read path = .ok text := by
  have htext : String.fromUTF8? text.toByteArray = some text := dif_pos text.isValidUTF8
  simp [read, h, htext, bind, Except.bind, pure, Except.pure]

end Files

/-! ## Names of templates -/

variable {name extension : String}

theorem of_splitExtension? {file stem : String}
    (h : splitExtension? file = some (stem, extension)) :
    stem ≠ "" ∧ '.' ∉ extension.toList ∧ file = stem ++ "." ++ extension := by
  unfold splitExtension? at h
  dsimp only at h
  split at h
  next c rest hdrop =>
    cases h
    have hfile := List.takeWhile_append_dropWhile (p := (· != '.')) (l := file.toList.reverse)
    rw [hdrop] at hfile
    refine ⟨?_, ?_, ?_⟩
    · rw [Ne, String.ofList_eq_empty_iff]
      simp
    · rw [String.toList_ofList, List.mem_reverse]
      exact fun hm => by simpa using List.all_eq_true.1 List.all_takeWhile _ hm
    · have hdot : ".".toList = ['.'] := rfl
      rw [← String.toList_inj, ← List.reverse_inj]
      refine hfile.symm.trans ?_
      simp [hdot]
  next => cases h

theorem splitExtension?_append {stem : String} (hne : stem ≠ "") (hext : '.' ∉ extension.toList) :
    splitExtension? (stem ++ "." ++ extension) = some (stem, extension) := by
  have hdot : ".".toList = ['.'] := rfl
  obtain ⟨c, rest, hstem⟩ := List.exists_cons_of_ne_nil (l := stem.toList.reverse) (by simpa)
  have hall : ∀ d ∈ extension.toList.reverse, (d != '.') = true := fun d hd => by
    rw [bne_iff_ne]
    rintro rfl
    exact hext (List.mem_reverse.1 hd)
  have hbackwards : (stem ++ "." ++ extension).toList.reverse =
      extension.toList.reverse ++ '.' :: c :: rest := by
    simp [hdot, hstem]
  have hdrop : ('.' :: c :: rest).dropWhile (· != '.') = '.' :: c :: rest := rfl
  have htake : ('.' :: c :: rest).takeWhile (· != '.') = [] := rfl
  unfold splitExtension?
  dsimp only
  rw [hbackwards, List.dropWhile_append_of_pos hall, List.takeWhile_append_of_pos hall, hdrop,
    htake]
  change some (String.ofList (c :: rest).reverse, _) = _
  rw [← hstem]
  simp

/-- **A file name is split at its last dot**, if something stands before it. -/
theorem splitExtension?_eq_some_iff {file stem : String} :
    splitExtension? file = some (stem, extension) ↔
      stem ≠ "" ∧ '.' ∉ extension.toList ∧ file = stem ++ "." ++ extension := by
  refine ⟨of_splitExtension?, ?_⟩
  rintro ⟨hne, hext, rfl⟩
  exact splitExtension?_append hne hext

theorem templateName?_eq_some_iff_split {file : String} : templateName? extension file = some name ↔
    splitExtension? file = some (name, extension) := by
  unfold templateName?
  cases splitExtension? file with
  | none => exact iff_of_false nofun nofun
  | some parts =>
    obtain ⟨stem, found⟩ := parts
    simp only [Option.ite_none_right_eq_some, Option.some.injEq, Prod.mk.injEq]
    exact and_comm

/-- **The name of a template** is what stands before its extension. -/
theorem templateName?_eq_some_iff {file : String} (hext : '.' ∉ extension.toList) :
    templateName? extension file = some name ↔ name ≠ "" ∧ file = name ++ "." ++ extension := by
  rw [templateName?_eq_some_iff_split, splitExtension?_eq_some_iff, and_iff_right hext]

/-- The templates of a directory are those of its regular files. -/
theorem mem_templateNames_iff {entries : List (String × Entry)} :
    name ∈ templateNames extension entries ↔
      ∃ e ∈ entries, e.2.isFile = true ∧ templateName? extension e.1 = some name := by
  rw [templateNames, List.mem_mergeSort, List.mem_filterMap]
  refine exists_congr fun e => ?_
  rw [List.mem_filter, and_assoc]

theorem mem_templateNames {entries : List (String × Entry)} (hext : '.' ∉ extension.toList) :
    name ∈ templateNames extension entries ↔ name ≠ "" ∧
      ∃ entry, (name ++ "." ++ extension, entry) ∈ entries ∧ entry.isFile = true := by
  rw [mem_templateNames_iff]
  constructor
  · rintro ⟨⟨file, entry⟩, hm, hfile, hname⟩
    obtain ⟨hne, rfl⟩ := (templateName?_eq_some_iff hext).1 hname
    exact ⟨hne, entry, hm, hfile⟩
  · rintro ⟨hne, entry, hm, hfile⟩
    exact ⟨_, hm, hfile, (templateName?_eq_some_iff hext).2 ⟨hne, rfl⟩⟩

/-! ## Views -/

/-- With an extension that has no dot, the file of a template is no name of a directory. -/
theorem concat_extension_not_mem (hne : extension ≠ "") (hext : '.' ∉ extension.toList) :
    name ++ "." ++ extension ∉ ["", ".", ".."] := by
  obtain ⟨front, last, hlast⟩ := (List.eq_nil_or_concat extension.toList).resolve_left (by simpa)
  have hc : last ≠ '.' := fun hc => hext (by rw [hlast, hc]; simp)
  have hend : (name ++ "." ++ extension).toList.getLast? = some last := by
    rw [String.toList_append, hlast, List.concat_eq_append, ← List.append_assoc,
      List.getLast?_concat]
  simp only [List.mem_cons, List.not_mem_nil, or_false]
  rintro (h | h | h)
  all_goals
    rw [h] at hend
    simp [Ne.symm hc] at hend

/-- **A view runs the text of its file**, if the directory lists one under its name. -/
theorem DirectoryViews.run_of_mem (views : DirectoryViews) {entries : List (String × Entry)}
    {text : String} (hlist : views.files.list views.dir = .ok entries)
    (hne : views.extension ≠ "") (hext : '.' ∉ views.extension.toList)
    (hm : (name ++ "." ++ views.extension, .file text.toUTF8) ∈ entries)
    (hslash : '/' ∉ (name ++ "." ++ views.extension).toList) (bindings : Bindings) :
    views.run name bindings = runSource views.voids name text bindings := by
  obtain ⟨location, hdir, rfl⟩ := Files.list_eq_ok_iff.1 hlist
  have hread : views.files.read (views.path name) = .ok text :=
    Files.read_of_find ((Files.find_join_eq_ok_iff hdir hslash (concat_extension_not_mem hne hext)).2
      ⟨rfl, views.files.mem_entriesIn.1 hm⟩)
  unfold run source
  rw [hread]

end ComponentMarkup
