/-
  The templates that are found in a directory, and the files that views read.

  * `Files.pairwise_entriesIn`: a directory lists every name once.
  * `pairwise_templateNames`: the names of its templates come in order, each once.
  * `DirectoryViews.find_path_iff`: the path of a view leads to the file that the directory lists
    under its name.
  * `DirectoryViews.value_discover`: what is found are exactly the names for which the directory has
    the file of the view, if the extension has no dot; with a dot, nothing is found
    (`DirectoryViews.discover_ne_of_dot_in_extension`).
-/
import Mathlib.Data.String.Basic
import ComponentMarkup.Proofs.TemplateFiles

namespace ComponentMarkup

variable {files : Files} {location : Location} {entries : List (String × Entry)}
  {extension name : String}

/-! ## Entries of a directory -/

/-- A directory lists every name once. -/
theorem Files.pairwise_entriesIn (files : Files) (location : Location) :
    (files.entriesIn location).Pairwise fun a b => a.1 ≠ b.1 := by
  have hkeys : files.entries.entries.Pairwise fun a b => a.1 ≠ b.1 :=
    List.pairwise_map.1 files.entries.nodup
  -- an entry is listed under the last name of its location
  obtain ⟨listed?, hlisted, hlocation⟩ : ∃ listed? : Location × Entry → Option (String × Entry),
      files.entriesIn location = files.entries.entries.filterMap listed? ∧
        ∀ a b, listed? a = some b → a.1 = location ++ [b.1] := by
    refine ⟨_, rfl, fun a b h => ?_⟩
    split at h
    next last hlast =>
      split at h
      next hfront =>
        cases h
        obtain ⟨front, hfile⟩ := List.getLast?_eq_some_iff.1 hlast
        rw [← hfront, hfile, List.dropLast_concat]
      next => cases h
    next => cases h
  rw [hlisted, List.pairwise_filterMap]
  refine hkeys.imp fun {a a'} hne b hb b' hb' hsame => hne ?_
  rw [hlocation a b hb, hlocation a' b' hb', hsame]

theorem Files.pairwise_of_list {dir : String} (h : files.list dir = .ok entries) :
    entries.Pairwise fun a b => a.1 ≠ b.1 := by
  obtain ⟨location, -, rfl⟩ := list_eq_ok_iff.1 h
  exact files.pairwise_entriesIn location

/-- **The names of templates come in order, each once**, if no two entries have the same name. -/
theorem pairwise_templateNames (h : entries.Pairwise fun a b => a.1 ≠ b.1) (extension : String) :
    (templateNames extension entries).Pairwise (· < ·) := by
  have hnodup : (templateNames extension entries).Nodup := by
    rw [templateNames, (List.mergeSort_perm ..).nodup_iff, List.Nodup, List.pairwise_filterMap]
    refine (h.filter _).imp fun hne name hname other hother hsame => hne ?_
    rw [templateName?_eq_some_iff_split, splitExtension?_eq_some_iff] at hname hother
    rw [hname.2.2, hother.2.2, hsame]
  have hsorted : (templateNames extension entries).Pairwise (· ≤ ·) := by
    rw [templateNames]
    exact (List.pairwise_mergeSort (by simpa using fun _ _ _ => le_trans)
      (by simpa using le_total) _).imp of_decide_eq_true
  exact hsorted.imp₂ (fun _ _ hle hne => lt_of_le_of_ne hle hne) hnodup

theorem mem_templateNames_iff_file : name ∈ templateNames extension entries ↔ name ≠ "" ∧
    '.' ∉ extension.toList ∧ ∃ content, (name ++ "." ++ extension, .file content) ∈ entries := by
  rw [mem_templateNames_iff]
  constructor
  · rintro ⟨⟨file, entry⟩, hm, hfile, hname⟩
    rw [templateName?_eq_some_iff_split, splitExtension?_eq_some_iff] at hname
    obtain ⟨hne, hdot, rfl⟩ := hname
    cases entry with
    | directory => cases hfile
    | file content => exact ⟨hne, hdot, content, hm⟩
  · rintro ⟨hne, hdot, content, hm⟩
    refine ⟨_, hm, rfl, ?_⟩
    exact (templateName?_eq_some_iff hdot).2 ⟨hne, rfl⟩

/-- With a dot in the extension, nothing is a template. -/
theorem templateNames_of_dot (hdot : '.' ∈ extension.toList) (entries : List (String × Entry)) :
    templateNames extension entries = [] :=
  List.eq_nil_iff_forall_not_mem.2 fun _ hm => (mem_templateNames_iff_file.1 hm).2.1 hdot

/-! ## Files that views read -/

/-- The text can be the name of a file in a directory. -/
def IsFileName (file : String) : Prop := '/' ∉ file.toList ∧ file ∉ ["", ".", ".."]

namespace DirectoryViews

/-- The name of the file of a view. -/
def fileName (views : DirectoryViews) (name : String) : String := name ++ "." ++ views.extension

/-- **The path of a view** leads to a regular file exactly if the directory lists one under the name
of the file of the view. -/
theorem find_path_iff (views : DirectoryViews) (hlist : views.files.list views.dir = .ok entries)
    (hfile : IsFileName (views.fileName name)) (content : ByteArray) :
    (∃ location, views.files.find (views.path name) = .ok (location, .file content)) ↔
      (views.fileName name, .file content) ∈ entries := by
  obtain ⟨location, hdir, rfl⟩ := Files.list_eq_ok_iff.1 hlist
  rw [views.files.mem_entriesIn]
  constructor
  · rintro ⟨found, hfound⟩
    exact ((Files.find_join_eq_ok_iff hdir hfile.1 hfile.2).1 hfound).2
  · exact fun he => ⟨_, (Files.find_join_eq_ok_iff hdir hfile.1 hfile.2).2 ⟨rfl, he⟩⟩

/-- **Discovery finds the views of a directory**, if their extension has no dot, and nothing if it
has one. The names come in order, each once. -/
theorem value_discover (views : DirectoryViews) (separator : String)
    (hlist : views.files.list views.dir = .ok entries) :
    (Catalog.discover views.files views.dir views.extension separator).value =
        .ok (.ofNames separator (templateNames views.extension entries)) ∧
      (templateNames views.extension entries).Pairwise (· < ·) ∧
      (∀ name, name ∈ templateNames views.extension entries ↔ name ≠ "" ∧
        '.' ∉ views.extension.toList ∧ ∃ content, (views.fileName name, .file content) ∈ entries) ∧
      ∀ name content, IsFileName (views.fileName name) →
        ((∃ location, views.files.find (views.path name) = .ok (location, .file content)) ↔
          (views.fileName name, .file content) ∈ entries) := by
  refine ⟨?_, pairwise_templateNames (Files.pairwise_of_list hlist) _,
    fun name => mem_templateNames_iff_file,
    fun name content hfile => views.find_path_iff hlist hfile content⟩
  rw [Catalog.discover, hlist]
  rfl

/-- A directory of views that has one regular file. -/
def single (extension file text : String) : DirectoryViews where
  files := ⟨.ofList [(["views"], .directory), (["views", file], .file text.toUTF8)], []⟩
  dir := "views"
  extension := extension
  voids := .ofList []

theorem list_single (extension file text : String) :
    (single extension file text).files.list "views" = .ok [(file, .file text.toUTF8)] := by
  have hsplit : Text.splitAt "/" "views" = ["views"] := by
    rw [Text.splitAt, show "/".toList = ['/'] from rfl, Text.piecesOf_of_not_mem (by decide)]
    simp
  have hroute : (single extension file text).files.route "views" = ([], ["views"]) := by
    rw [Files.route, hsplit]
    rfl
  refine Files.list_eq_ok_iff.2 ⟨["views"], Files.find_eq_ok_iff.2 ⟨by decide, ?_, ?_⟩, ?_⟩
  · rw [hroute]
    rfl
  · rfl
  · rfl

/-- A file with more dots in its name is the one of a view whose name has a dot. -/
theorem value_discover_box :
    (single "html" "card.box.html" "<p></p>").files.list "views" =
        .ok [("card.box.html", .file "<p></p>".toUTF8)] ∧
      IsFileName "card.box.html" ∧
      "card.box" ∈ templateNames "html" [("card.box.html", .file "<p></p>".toUTF8)] ∧
      ∃ location, (single "html" "card.box.html" "<p></p>").files.find
        ((single "html" "card.box.html" "<p></p>").path "card.box") =
          .ok (location, .file "<p></p>".toUTF8) := by
  have hlist := list_single "html" "card.box.html" "<p></p>"
  have hfile : IsFileName "card.box.html" := ⟨by decide, by decide⟩
  have hm : ("card.box.html", Entry.file "<p></p>".toUTF8) ∈
      [("card.box.html", Entry.file "<p></p>".toUTF8)] := List.mem_singleton_self _
  obtain ⟨-, -, hnames, hpath⟩ := value_discover (single "html" "card.box.html" "<p></p>") "-" hlist
  exact ⟨hlist, hfile, (hnames "card.box").2 ⟨by decide, by decide, _, hm⟩,
    (hpath "card.box" _ hfile).2 hm⟩

/-- **Views whose extension has a dot are not found**: the file of this one is there and its view
reads it, but the catalog of the directory is empty. -/
theorem discover_ne_of_dot_in_extension :
    (single "view.html" "card.view.html" "<p></p>").files.list "views" =
        .ok [("card" ++ "." ++ "view.html", .file "<p></p>".toUTF8)] ∧
      (single "view.html" "card.view.html" "<p></p>").source "card" = .ok "<p></p>" ∧
      templateNames "view.html" [("card.view.html", .file "<p></p>".toUTF8)] = [] ∧
      (Catalog.discover (single "view.html" "card.view.html" "<p></p>").files "views" "view.html"
        "-").value = .ok (.ofNames "-" []) := by
  have hlist := list_single "view.html" "card.view.html" "<p></p>"
  have hnone : templateNames "view.html" [("card.view.html", .file "<p></p>".toUTF8)] = [] :=
    templateNames_of_dot (by decide) _
  have hfile : IsFileName ((single "view.html" "card.view.html" "<p></p>").fileName "card") :=
    ⟨by decide, by decide⟩
  obtain ⟨location, hfind⟩ :=
    (find_path_iff _ hlist hfile "<p></p>".toUTF8).2 (List.mem_singleton_self _)
  refine ⟨hlist, ?_, hnone, ?_⟩
  · rw [source, Files.read_of_find hfind]
  · rw [Catalog.discover, hlist, ← hnone]
    rfl

end DirectoryViews

end ComponentMarkup
