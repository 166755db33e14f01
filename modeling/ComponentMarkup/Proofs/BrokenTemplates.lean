/-
  Templates that can never be used.

  * `Views.Breaks`: a template that gives an error, or a tree whose slot cannot be filled, for all
    bindings.
  * `Catalog.canonical?_append`: names that are added to a catalog are found only for tags that had
    no template before. `Expander.templates_append`: at most one of them is tried, and that last.
  * `Expander.applied?_append`: if the added templates are broken, no component becomes anything
    else.
  * `Expander.expand_append_broken`: nor does a document, and a component whose templates are broken
    is kept and leaves no trace in its surroundings.
-/
import ComponentMarkup.Proofs.ExpansionPath
import ComponentMarkup.Proofs.Splicing
import ComponentMarkup.Proofs.TemplateRanking

namespace ComponentMarkup

open Bindings (slotName)

/-- Whatever the bindings are, the template gives an error, or a tree that is a slot or has several
ones. -/
def Views.Breaks (views : Views) (name : String) : Prop :=
  ∀ bindings, (∃ e, (views name bindings).value = .error e) ∨
    ∃ root, (views name bindings).value = .ok root ∧
      (Text.sameName root.name slotName = true ∨ 1 < slotCount root)

theorem fillSlot?_eq_none {root : Node} (children : List Child)
    (h : Text.sameName root.name slotName = true ∨ 1 < slotCount root) :
    fillSlot? children root = none := by
  unfold fillSlot? slotCount at *
  rcases h with h | h
  · simp [h]
  · rw [if_neg (by omega), if_neg]
    simp only [Bool.and_eq_true, decide_eq_true_eq]
    omega

/-- A broken template gives no tree that children can go into. -/
theorem fillSlot?_of_breaks {views : Views} {name : String} {bindings : Bindings} {root : Node}
    (hb : views.Breaks name) (h : (views name bindings).value = .ok root) (children : List Child) :
    fillSlot? children root = none := by
  rcases hb bindings with ⟨e, he⟩ | ⟨tree, htree, hslots⟩
  · rw [he] at h
    cases h
  · rw [htree] at h
    cases h
    exact fillSlot?_eq_none children hslots

/-! ## Catalogs with more names -/

namespace Catalog

variable {catalog : Catalog} {separator tag : String} {names broken : List String}

/-- **A name that is added** is found only for tags that had no template before. -/
theorem canonical?_append
    (h : ∀ b ∈ broken, ∀ name ∈ names, Text.lowercase b ≠ Text.lowercase name) :
    (ofNames separator (names ++ broken)).canonical? tag = (ofNames separator names).canonical? tag ∨
      (ofNames separator names).canonical? tag = none ∧
        ∃ b ∈ broken, (ofNames separator (names ++ broken)).canonical? tag = some b := by
  rw [canonical?_ofNames, canonical?_ofNames, List.foldl_append]
  rcases canonical?_foldl_add (names.foldl add ⟨separator, ∅, []⟩) broken tag with
    hsame | ⟨b, hb, ⟨-, hkey⟩, hfound⟩
  · exact .inl hsame
  · refine .inr ⟨?_, b, hb, hfound⟩
    rcases canonical?_foldl_add ⟨separator, ∅, []⟩ names tag with hnone | ⟨name, hname, ⟨-, hkey'⟩, -⟩
    · exact hnone
    · exact absurd (hkey.trans hkey'.symm) (h b hb name hname)

/-- Names that the separator does not split add no composite ones. -/
theorem composites_append (h : ∀ b ∈ broken, splits separator b = false) :
    (ofNames separator (names ++ broken)).composites = (ofNames separator names).composites := by
  have hfold (catalog : Catalog) (hs : catalog.separator = separator) :
      (broken.foldl add catalog).composites = catalog.composites := by
    induction broken generalizing catalog with
    | nil => rfl
    | cons name names ih =>
      have hname : (catalog.add name).composites = catalog.composites := by
        rw [composites_add, hs, h name (List.mem_cons_self ..), if_neg (by simp)]
      rw [List.foldl_cons, ih (fun b hb => h b (List.mem_cons_of_mem _ hb)), hname]
      rw [separator_add, hs]
  simp only [ofNames, List.foldl_append, hfold _ (separator_foldl_add ⟨separator, ∅, []⟩ names)]

theorem value_resolve_append (h : ∀ b ∈ broken, splits separator b = false) (path : List String) :
    ((ofNames separator (names ++ broken)).resolve path).value =
      ((ofNames separator names).resolve path).value :=
  value_resolve_congr (by rw [separator_ofNames, separator_ofNames]) (composites_append h) path

end Catalog

namespace Expander

variable {x : Expander} {separator : String} {names broken : List String}

variable (x) in
/-- The expander with templates of other names. -/
def withNames (separator : String) (names : List String) : Expander :=
  { x with catalog := .ofNames separator names }

theorem applied?_withNames (place : Place) : (x.withNames separator names).applied? place =
    (x.runFirst place.node.name (x.inside place) (x.bindingsFor place)
      ((x.withNames separator names).templates place)).value.toOption.bind fun run =>
        (fillSlot? place.node.children run.2).map
          (x.merged (x.classesFor place) place.node place.scope) := by
  rw [applied?_eq]
  exact congrArg (Option.bind · _) (toOption_runFirst_congr fun _ _ => rfl)

/-! ## Added templates -/

section
variable (hs : ∀ b ∈ broken, Catalog.splits separator b = false)
  (hkeys : ∀ b ∈ broken, ∀ name ∈ names, Text.lowercase b ≠ Text.lowercase name)
include hs hkeys

/-- **At most one of the added templates is tried**, and that after the others. -/
theorem templates_append (place : Place) :
    let old := (x.withNames separator names).templates place
    let new := (x.withNames separator (names ++ broken)).templates place
    new = old ∨ ∃ b ∈ broken, new = old ++ [b] := by
  unfold templates candidates withNames
  simp only [Logged.value_bind, Logged.value_pure]
  rw [Catalog.value_resolve_append hs]
  rcases Catalog.canonical?_append hkeys with hsame | ⟨hnone, b, hb, hfound⟩
  · exact .inl (by rw [hsame])
  · rw [hnone, hfound, Option.toList_none, Option.toList_some, List.filter_nil, List.append_nil,
      List.filter_singleton, cond_eq_ite]
    split
    · exact .inr ⟨b, hb, rfl⟩
    · exact .inl (List.append_nil _)

variable (hbroken : ∀ b ∈ broken, x.views.Breaks b)
include hbroken

/-- **Broken templates do not take part**: no component becomes anything else when they are added. -/
theorem applied?_append (place : Place) :
    (x.withNames separator (names ++ broken)).applied? place =
      (x.withNames separator names).applied? place := by
  rw [applied?_withNames, applied?_withNames]
  rcases templates_append hs hkeys place with hsame | ⟨b, hb, hnew⟩
  · rw [hsame]
  · rw [hnew, value_runFirst_append]
    split
    next hnone =>
      rw [hnone, Option.bind_eq_none_iff.2]
      · rfl
      · -- the added template may give a tree, but nothing can be put into it
        rintro ⟨name, tree⟩ hrun
        obtain ⟨hname, hview⟩ := value_of_runFirst hrun
        rw [List.mem_singleton.1 hname] at hview
        rw [fillSlot?_of_breaks (hbroken b hb) hview, Option.map_none]
    next => rfl

end

/-! ## Broken templates -/

/-- A component is kept if all of its templates are broken. -/
theorem applied?_of_breaks {place : Place}
    (h : ∀ name ∈ x.templates place, x.views.Breaks name) : x.applied? place = none := by
  rw [Option.eq_none_iff_forall_ne_some]
  intro result happlied
  obtain ⟨name, tree, filled, hname, hview, hfill, -⟩ := of_applied? happlied
  rw [fillSlot?_of_breaks (h name hname) hview] at hfill
  cases hfill

/-- **A component whose templates cannot be used** keeps its name and attributes. Its children are
expanded in its own scope and below the class tokens that were there before it, and afterwards all
is as before. -/
theorem value_expandNode_of_none {place : Place} (h : x.applied? place = none) (depth : Nat) :
    let inner : Surroundings :=
      ⟨place.surroundings.path ++ [place.node.name], place.surroundings.tokens⟩
    ∃ children,
      ((mapElements (x.expandNode depth place.scope) place.node.children).run inner).value =
        (children, inner) ∧
      ((x.expandNode (depth + 1) place.scope place.node).run place.surroundings).value =
        ((x.prune ⟨place.node.name, place.node.attributes, children⟩).value,
          place.surroundings) := by
  intro inner
  have hchildren : Leads x.views (fun _ _ _ => True)
      (mapElements (x.expandNode depth place.scope) place.node.children) inner
      (mapChildren (fun node => x.expanded? depth ⟨node, inner, place.scope⟩) place.node.children)
      inner :=
    leads_mapElements fun node _ =>
      (leads_expandNode depth ⟨node, inner, place.scope⟩).mono fun _ _ _ _ => trivial
  refine ⟨_, hchildren.value, ?_⟩
  rw [(leads_expandNode (depth + 1) place).value, expanded?, replaced_of_none h, value_prune]
  rfl

/-- **Broken templates are harmless.** Added to a catalog under names that the separator does not
split and that are new in any case of their letters, they change no expanded document. A component
that has no others is kept with its name and attributes, its children are expanded in the scope and
below the class tokens around it, and no other element comes below a class token of it: the tokens
above an element are those of the elements on the way to it that a template is applied to. -/
theorem expand_append_broken (x : Expander) {separator : String} {names broken : List String}
    (hs : ∀ b ∈ broken, Catalog.splits separator b = false)
    (hkeys : ∀ b ∈ broken, ∀ name ∈ names, Text.lowercase b ≠ Text.lowercase name)
    (hbroken : ∀ b ∈ broken, x.views.Breaks b) (root : Node) :
    let y := x.withNames separator (names ++ broken)
    (y.expand root).value = ((x.withNames separator names).expand root).value ∧
      (∀ place, (∀ name ∈ y.templates place, name ∈ broken) → y.applied? place = none) ∧
      (∀ place, y.applied? place = none → ∀ depth,
        let inner : Surroundings :=
          ⟨place.surroundings.path ++ [place.node.name], place.surroundings.tokens⟩
        ∃ children,
          ((mapElements (y.expandNode depth place.scope) place.node.children).run inner).value =
            (children, inner) ∧
          ((y.expandNode (depth + 1) place.scope place.node).run place.surroundings).value =
            ((y.prune ⟨place.node.name, place.node.attributes, children⟩).value,
              place.surroundings)) ∧
      ∀ around target, y.Reaches ⟨root, .none, none⟩ around target →
        target.surroundings.tokens = around.flatMap fun above =>
          if above.applied then y.tokenOf above.node else [] := by
  intro y
  refine ⟨?_, fun place h => ?_, fun place h depth => value_expandNode_of_none h depth,
    fun around target h => ?_⟩
  · rw [value_expand, value_expand]
    exact expanded?_congr (applied?_append hs hkeys hbroken) rfl _ _
  · exact applied?_of_breaks fun name hname => hbroken name (h name hname)
  · rw [surroundings_of_reaches h]
    rfl

/-- One template is an error, and the tree of the other has two slots. -/
theorem expand_append_broken_card :
    let x : Expander := ⟨{}, .ofNames "-" [], fun name _ => pure <|
      if name = "card" then .ok ⟨"p", ∅, [.element (.leaf "yield")]⟩
      else if name = "twice" then .ok ⟨"p", ∅, [.element (.leaf "yield"), .element (.leaf "yield")]⟩
      else .error (.invalid name "")⟩
    let root : Node := ⟨"card", ∅, [.element ⟨"Twice", ∅, [.element ⟨"card", ∅, [.text "a"]⟩]⟩]⟩
    let y := x.withNames "-" (["card"] ++ ["twice", "Wrong"])
    let place : Place := ⟨⟨"Twice", ∅, [.text "a"]⟩, ⟨["card"], ["card"]⟩, none⟩
    (∀ b ∈ ["twice", "Wrong"], x.views.Breaks b) ∧
      (y.expand root).value = ((x.withNames "-" ["card"]).expand root).value ∧
      y.templates place = ["twice"] ∧ y.applied? place = none := by
  intro x root y place
  have hbroken : ∀ b ∈ ["twice", "Wrong"], x.views.Breaks b := by
    intro b hb bindings
    simp only [List.mem_cons, List.not_mem_nil, or_false] at hb
    rcases hb with rfl | rfl
    · exact .inr ⟨_, rfl, .inr (by decide)⟩
    · exact .inl ⟨_, rfl⟩
  have htemplates : y.templates place = ["twice"] := by decide +kernel
  have hs : ∀ b ∈ ["twice", "Wrong"], Catalog.splits "-" b = false := by decide +kernel
  have hkeys : ∀ b ∈ ["twice", "Wrong"], ∀ name ∈ ["card"],
      Text.lowercase b ≠ Text.lowercase name := by decide +kernel
  obtain ⟨hexpand, hkept, -, -⟩ := expand_append_broken x hs hkeys hbroken root
  exact ⟨hbroken, hexpand, htemplates, hkept place (by rw [htemplates]; decide)⟩

end Expander

end ComponentMarkup
