/-
  Templates in files and templates in memory.

  * `Expander.compile_congr`: compiled documents depend on the settings, on the templates that are
    tried, and on what the views give for them.
  * `Expander.mem_of_mem_templates`: only names of the catalog are tried.
  * `Expander.ofSources`: the expander for templates that are kept in memory.
  * `Expander.areTemplatesOf_of_perm`: the templates of a directory may be put there in any order.
  * `Expander.compile_ofFiles`: with the templates of a directory, in whatever order they were put
    into memory, it compiles every document as the expander for that directory does.
-/
import ComponentMarkup.Command.Run
import ComponentMarkup.Proofs.ExpandedTree
import ComponentMarkup.Proofs.TemplateFiles
import ComponentMarkup.Proofs.TemplateRanking

namespace ComponentMarkup

namespace Expander

variable {x y : Expander} {place : Place} {separator name : String} {names : List String}

/-! ## What compiled documents depend on -/

/-- The templates to try depend on what the catalog finds. -/
theorem templates_congr (hs : y.catalog.separator = x.catalog.separator)
    (hcomposites : y.catalog.composites = x.catalog.composites)
    (hnames : ∀ tag, y.catalog.canonical? tag = x.catalog.canonical? tag) (place : Place) :
    y.templates place = x.templates place := by
  unfold templates candidates
  simp only [Logged.value_bind, Catalog.value_resolve_congr hs hcomposites, hnames,
    Logged.value_pure]

section
variable (hconfig : y.config = x.config)
  (htemplates : ∀ place, y.templates place = x.templates place)
  (hviews : ∀ place, ∀ name ∈ x.templates place, ∀ bindings,
    (y.views name bindings).value = (x.views name bindings).value)
include hconfig htemplates hviews

theorem applied?_congr (place : Place) : y.applied? place = x.applied? place := by
  obtain ⟨config, catalog, views⟩ := x
  obtain ⟨config', catalog', views'⟩ := y
  obtain rfl : config' = config := hconfig
  rw [applied?_eq, applied?_eq, htemplates]
  exact congrArg (Option.bind · _) (toOption_runFirst_congr fun name hn => hviews place name hn _)

/-- **Compiled documents** depend on the settings, on the templates that are tried for elements, and
on what the views give for these templates. -/
theorem compile_congr (source : String) : (y.compile source).value = (x.compile source).value := by
  have hexpand (root : Node) : (y.expandDocument root).value = (x.expandDocument root).value := by
    have hexpanded := expanded?_congr (applied?_congr hconfig htemplates hviews) hconfig
      y.config.classes.maxDepth ⟨root, .none, none⟩
    rw [← value_expand, hconfig, ← value_expand] at hexpanded
    exact hexpanded
  rw [value_compile, value_compile]
  simp only [hexpand, read, hconfig, funext fun root => show y.write root = x.write root by
    rw [write, write, hconfig]]

end

/-! ## Templates that are tried -/

theorem value_candidates (path : List String) (tag : String) : (x.candidates path tag).value =
    (x.catalog.resolve path).value.toList.map (·.name) ++
      (x.catalog.canonical? tag).toList.filter fun name =>
        !((x.catalog.resolve path).value.toList.map (·.name)).contains name := rfl

/-- **Only names of the catalog are tried**, and never the empty one. -/
theorem mem_of_mem_templates (hcatalog : x.catalog = .ofNames separator names)
    (h : name ∈ x.templates place) : name ∈ names ∧ name ≠ "" := by
  rw [templates, value_candidates, hcatalog, List.mem_append] at h
  rcases h with h | h
  · obtain ⟨entry, hentry, rfl⟩ := List.mem_map.1 h
    have hm := Catalog.mem_composites_of_resolve (Catalog.isSplit_ofNames separator names)
      (Option.mem_toList.1 hentry)
    obtain ⟨name, hname, hne, -, rfl⟩ := Catalog.of_mem_composites hm
    exact ⟨hname, hne⟩
  · have hfound := Option.mem_toList.1 (List.mem_filter.1 h).1
    obtain ⟨hname, hne, -⟩ := Catalog.of_canonical? hfound
    exact ⟨hname, hne⟩

/-! ## Both stores -/

/-- The expander for templates that are kept in memory, with the names and sources that were put
there one after another. -/
def ofSources (config : Config) (sources : List (String × String)) : Logged Expander :=
  ofConfig config (.ofNames config.templates.separator (sources.map Prod.fst))
    (StoredViews.ofList config.markup.voids sources).run

theorem value_ofFiles {files : Files} {config : Config} {entries : List (String × Entry)}
    (h : files.list config.templates.dir = .ok entries) : (ofFiles files config).value =
      .ok ⟨config, .ofNames config.templates.separator
          (templateNames config.templates.extension entries),
        DirectoryViews.run ⟨files, config.templates.dir, config.templates.extension,
          config.markup.voids⟩⟩ := by
  rw [ofFiles, Catalog.discover, h]
  rfl

/-- A stored view runs the source that it was put into memory with. -/
theorem run_ofList {voids : Markup.VoidTags} {sources : List (String × String)} {name text : String}
    (h : (name, text) ∈ sources) (hsame : ∀ other, (name, other) ∈ sources → other = text)
    (bindings : Bindings) : (StoredViews.ofList voids sources).run name bindings =
      runSource voids name text bindings := by
  have hget : (StoredViews.ofList voids sources).sources.get? name = some text :=
    OrderedMap.get?_foldl_insert_of_mem h hsame ∅
  rw [StoredViews.run, hget]
  rfl

/-- The sources are those of the templates among texts: the text of every file `name.extension`
under the name, unless that is empty. -/
def AreTemplatesOf (extension : String) (texts : OrderedMap String String)
    (sources : List (String × String)) : Prop :=
  ∀ name text, (name, text) ∈ sources ↔
    name ≠ "" ∧ texts.get? (name ++ "." ++ extension) = some text

/-- The templates among texts, in the order of the texts. -/
def templatesOf (extension : String) (texts : OrderedMap String String) : List (String × String) :=
  texts.entries.filterMap fun e => (templateName? extension e.1).map (·, e.2)

/-- The entries of a directory of texts. -/
def entriesOf (texts : OrderedMap String String) : List (String × Entry) :=
  texts.entries.map fun e => (e.1, .file e.2.toUTF8)

section
variable {texts : OrderedMap String String} {sources : List (String × String)}
  {extension file text : String} {entry : Entry}

/-- **Every directory of texts has its templates**, and they may stand in any order. -/
theorem areTemplatesOf_of_perm (hdot : '.' ∉ extension.toList)
    (h : sources.Perm (templatesOf extension texts)) : AreTemplatesOf extension texts sources := by
  intro name text
  rw [h.mem_iff, templatesOf, List.mem_filterMap, OrderedMap.get?_eq_some_iff]
  constructor
  · rintro ⟨⟨file, _⟩, hm, hfound⟩
    obtain ⟨found, hname, heq⟩ := Option.map_eq_some_iff.1 hfound
    cases heq
    obtain ⟨hempty, rfl⟩ := (templateName?_eq_some_iff hdot).1 hname
    exact ⟨hempty, hm⟩
  · rintro ⟨hempty, hm⟩
    exact ⟨_, hm, Option.map_eq_some_iff.2
      ⟨name, (templateName?_eq_some_iff hdot).2 ⟨hempty, rfl⟩, rfl⟩⟩

theorem mem_entriesOf : (file, entry) ∈ entriesOf texts ↔
    ∃ text, texts.get? file = some text ∧ entry = .file text.toUTF8 := by
  rw [entriesOf, List.mem_map]
  constructor
  · rintro ⟨⟨_, text⟩, hm, heq⟩
    cases heq
    exact ⟨text, OrderedMap.get?_eq_some_iff.2 hm, rfl⟩
  · rintro ⟨text, htext, rfl⟩
    exact ⟨_, OrderedMap.get?_eq_some_iff.1 htext, rfl⟩

theorem mem_templateNames_entriesOf (hdot : '.' ∉ extension.toList)
    (hsources : AreTemplatesOf extension texts sources) :
    name ∈ templateNames extension (entriesOf texts) ↔ name ∈ sources.map Prod.fst := by
  rw [mem_templateNames hdot, List.mem_map]
  constructor
  · rintro ⟨hempty, entry, hm, -⟩
    obtain ⟨text, htext, -⟩ := mem_entriesOf.1 hm
    exact ⟨(name, text), (hsources name text).2 ⟨hempty, htext⟩, rfl⟩
  · rintro ⟨⟨_, text⟩, hm, rfl⟩
    obtain ⟨hempty, htext⟩ := (hsources _ text).1 hm
    exact ⟨hempty, _, mem_entriesOf.2 ⟨text, htext, rfl⟩, rfl⟩

/-- A template runs the same source from its file and from memory. -/
theorem run_eq_of_mem (views : DirectoryViews)
    (hlist : views.files.list views.dir = .ok (entriesOf texts))
    (hslash : ∀ file ∈ texts.keys, '/' ∉ file.toList)
    (hne : views.extension ≠ "") (hdot : '.' ∉ views.extension.toList)
    (hsources : AreTemplatesOf views.extension texts sources) (hm : (name, text) ∈ sources)
    (bindings : Bindings) :
    views.run name bindings = (StoredViews.ofList views.voids sources).run name bindings := by
  obtain ⟨-, htext⟩ := (hsources name text).1 hm
  have hkey : name ++ "." ++ views.extension ∈ texts.keys := by
    rw [← OrderedMap.contains_iff, OrderedMap.contains, htext]
    rfl
  have hsame (other : String) (hother : (name, other) ∈ sources) : other = text :=
    Option.some_inj.1 (((hsources name other).1 hother).2.symm.trans htext)
  rw [run_ofList hm hsame]
  exact views.run_of_mem hlist hne hdot (mem_entriesOf.2 ⟨text, htext, rfl⟩)
    (hslash _ hkey) bindings

end

/-- **Templates in files and templates in memory give the same documents.** A directory lists texts
under names without slashes, and the extension is not empty and has no dot. In memory are the same
templates, of which no two have the same name in small letters. Then there is an expander for the
directory, and it compiles every source as the one for the templates in memory does, in whatever
order these were put there. -/
theorem compile_ofFiles (files : Files) (config : Config) {texts : OrderedMap String String}
    {sources : List (String × String)}
    (hlist : files.list config.templates.dir = .ok (entriesOf texts))
    (hslash : ∀ file ∈ texts.keys, '/' ∉ file.toList)
    (hne : config.templates.extension ≠ "") (hdot : '.' ∉ config.templates.extension.toList)
    (hsources : AreTemplatesOf config.templates.extension texts sources)
    (hdistinct : Catalog.AreDistinct (sources.map Prod.fst)) :
    ∃ x, (ofFiles files config).value = .ok x ∧ ∀ source,
      (x.compile source).value = ((ofSources config sources).value.compile source).value := by
  let extension := config.templates.extension
  let names := templateNames extension (entriesOf texts)
  let views : DirectoryViews := ⟨files, config.templates.dir, extension, config.markup.voids⟩
  let x : Expander := ⟨config, .ofNames config.templates.separator names, views.run⟩
  let y : Expander := (ofSources config sources).value
  refine ⟨x, value_ofFiles hlist, fun source => ?_⟩
  have hnames (name : String) : name ∈ names ↔ name ∈ sources.map Prod.fst :=
    mem_templateNames_entriesOf hdot hsources
  have hdistinct' : Catalog.AreDistinct names := fun a ha b hb =>
    hdistinct a ((hnames a).1 ha) b ((hnames b).1 hb)
  have htemplates : ∀ place, x.templates place = y.templates place :=
    templates_congr (by rw [Catalog.separator_ofNames]; exact (Catalog.separator_ofNames ..).symm)
      (Catalog.composites_congr hdistinct' hdistinct fun name _ => hnames name)
      (Catalog.canonical?_congr hdistinct' hdistinct fun name _ => hnames name)
  have hcatalog : y.catalog = .ofNames config.templates.separator (sources.map Prod.fst) := rfl
  have hviews : ∀ place, ∀ name ∈ y.templates place, ∀ bindings,
      (x.views name bindings).value = (y.views name bindings).value := by
    intro place name hname bindings
    obtain ⟨hname, -⟩ := mem_of_mem_templates hcatalog hname
    obtain ⟨⟨name, text⟩, hm, rfl⟩ := List.mem_map.1 hname
    have hrun : views.run name bindings =
        (StoredViews.ofList views.voids sources).run name bindings :=
      run_eq_of_mem views hlist hslash hne hdot hsources hm bindings
    exact congrArg Logged.value hrun
  exact compile_congr (x := y) (y := x) rfl htemplates hviews source

/-- One of the names has a dot, two files are no templates, and the order in memory is another
one. -/
theorem compile_ofFiles_cards :
    let card := "<p>{{ title }}</p>"
    let texts : OrderedMap String String :=
      ⟨[("card.v2.view", card), (".view", "<i/>"), ("list-card.view", "<li><yield/></li>"),
        ("notes.txt", "none")], by decide⟩
    let files : Files :=
      ⟨⟨(["views"], .directory) :: (entriesOf texts).map fun e => (["views", e.1], e.2), by decide⟩,
        []⟩
    let sources := [("list-card", "<li><yield/></li>"), ("card.v2", card)]
    let document := "<list><card>a</card><Card.v2 title='b'/></list>"
    (∃ x, (ofFiles files {}).value = .ok x ∧ (x.compile document).value =
      ((ofSources {} sources).value.compile document).value) ∧
    ((ofSources {} sources).value.compile document).value =
      .ok "<list><li class=\"card\">a</li><p class=\"card-v2\">b</p></list>" := by
  intro card texts files sources document
  have hdot : '.' ∉ "view".toList := by decide
  have hsplit : Text.splitAt "/" "views" = ["views"] :=
    congrArg (List.map String.ofList) (Text.piecesOf_of_not_mem (c := '/') (by decide))
  have hroute : files.route "views" = ([], ["views"]) := by
    rw [Files.route, hsplit]
    rfl
  have hlist : files.list "views" = .ok (entriesOf texts) := by
    refine Files.list_eq_ok_iff.2 ⟨["views"], Files.find_eq_ok_iff.2 ⟨by decide, ?_, ?_⟩, ?_⟩
    · rw [hroute]
      rfl
    · rfl
    · rfl
  have hsources : AreTemplatesOf "view" texts sources := areTemplatesOf_of_perm hdot (by decide)
  have hslash : ∀ file ∈ texts.keys, '/' ∉ file.toList := by decide
  have hdistinct : Catalog.AreDistinct (sources.map Prod.fst) := by
    unfold Catalog.AreDistinct
    decide +kernel
  obtain ⟨x, hx, hcompile⟩ := compile_ofFiles files {} hlist hslash (by decide) hdot hsources
    hdistinct
  exact ⟨⟨x, hx, hcompile document⟩, by decide +kernel⟩

end Expander

end ComponentMarkup
