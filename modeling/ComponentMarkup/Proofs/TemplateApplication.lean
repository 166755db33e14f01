/-
  What a component becomes when its templates are tried.

  * `exists_mergeAttributes`: attributes and classes are merged onto a root whatever its children
    are, and only its attributes change.
  * `Expander.toOption_applyTemplate`: the first template that exists gives the tree, and there is
    an element in the place of the component if the slot of that tree can be filled.
  * `Expander.exists_merged`: the children do not take part in what it is merged to.
  * `Expander.toOption_runFirst_congr`: what the views give for the templates decides which one it is.
  * `Expander.value_runFirst_append`: further templates are tried only if none of the first exists.
-/
import ComponentMarkup.Expansion.Basic

namespace ComponentMarkup

/-! ## Attributes -/

section
variable (component : Node) (name : String) (attributes : Attributes)

theorem exists_passOn (passAttributes : List String) : ∃ passed, ∀ children,
    passOn passAttributes component ⟨name, attributes, children⟩ = ⟨name, passed, children⟩ := by
  unfold passOn
  induction passAttributes generalizing attributes with
  | nil => exact ⟨attributes, fun _ => rfl⟩
  | cons key keys ih =>
    have hhas : ∀ children, Node.attribute? ⟨name, attributes, children⟩ key =
        attributes.get? key := fun _ => rfl
    simp only [List.foldl_cons, hhas]
    split
    · exact ih attributes
    · split
      next value _ => exact ih (attributes.insert key value)
      next => exact ih attributes

theorem exists_mergeClasses (computed : String) : ∃ merged, ∀ children,
    mergeClasses computed component ⟨name, attributes, children⟩ = ⟨name, merged, children⟩ := by
  have hclass : ∀ children, Node.attribute? ⟨name, attributes, children⟩ "class" =
      attributes.get? "class" := fun _ => rfl
  unfold mergeClasses
  simp only [hclass]
  split
  · exact ⟨attributes.erase "class", fun _ => rfl⟩
  · exact ⟨attributes.insert "class" _, fun _ => rfl⟩

/-- **Merging changes the attributes only**, and does not look at the children. -/
theorem exists_mergeAttributes (markup : MarkupConfig) (computed : String) :
    ∃ merged, ∀ children, mergeAttributes markup computed component ⟨name, attributes, children⟩ =
      ⟨name, merged, children⟩ := by
  obtain ⟨passed, hpassed⟩ := exists_passOn component name attributes markup.passAttributes
  obtain ⟨merged, hmerged⟩ := exists_mergeClasses component name passed computed
  exact ⟨merged, fun children => by rw [mergeAttributes, hpassed, hmerged]⟩

end

namespace Expander

variable (x : Expander)

/-! ## The element in the place of a component -/

/-- The classes of a component in its surroundings. -/
def classesIn (s : Surroundings) (node : Node) (scope : Option String) : ClassSet :=
  (x.config.classes.compute node s.tokens scope).value

/-- The bindings of a component in its surroundings. -/
def bindingsIn (s : Surroundings) (node : Node) (scope : Option String) : Bindings :=
  Bindings.ofNode node s.parents (x.classesIn s node scope)
    (Markup.Writer.renderInner ⟨x.config.output, x.config.markup⟩ node)

/-- The tree with the children in its slot, merged with the component; and the scope of the
children. -/
def merged (classes : ClassSet) (node : Node) (scope : Option String) (filled : Node) :
    Node × Option String :=
  let root := mergeAttributes x.config.markup classes.default node filled
  (x.unmarkScope root,
    if x.isScopeRoot node || x.isScopeRoot root then classes.level? 1 else scope)

variable {x} {s : Surroundings} {node : Node} {scope : Option String} {tag : String}
  {bindings : Bindings} {names : List String}

theorem exists_merged (classes : ClassSet) (node : Node) (scope : Option String) (name : String)
    (attributes : Attributes) : ∃ attrs inner, ∀ children,
      x.merged classes node scope ⟨name, attributes, children⟩ =
        (⟨name, attrs, children⟩, inner) := by
  obtain ⟨attrs, hattrs⟩ := exists_mergeAttributes node name attributes x.config.markup
    classes.default
  let inner : Option String :=
    if x.isScopeRoot node || x.isScopeRoot ⟨name, attrs, []⟩ then classes.level? 1 else scope
  simp only [merged, hattrs]
  unfold unmarkScope
  split
  · exact ⟨attrs, inner, fun _ => rfl⟩
  · exact ⟨attrs.erase x.config.classes.scopeAttribute, inner, fun _ => rfl⟩

/-- The root in the place of a component has the name and the children of the tree. -/
theorem merged_eq (classes : ClassSet) (node filled : Node) (scope : Option String) :
    ∃ attrs inner, x.merged classes node scope filled =
      (⟨filled.name, attrs, filled.children⟩, inner) := by
  cases filled with
  | mk name attributes children =>
    obtain ⟨attrs, inner, h⟩ := exists_merged (x := x) classes node scope name attributes
    exact ⟨attrs, inner, h children⟩

/-- **A component becomes** what the tree of the first template that exists is merged to, if the slot
of that tree can be filled. -/
theorem toOption_applyTemplate (s : Surroundings) (node : Node) (names : List String)
    (scope : Option String) : (x.applyTemplate s node names scope).value.toOption =
      (x.runFirst node.name s (x.bindingsIn s node scope) names).value.toOption.bind fun run =>
        (fillSlot? node.children run.2).map (x.merged (x.classesIn s node scope) node scope) := by
  unfold applyTemplate
  simp only [Logged.value_bind]
  split
  next hrun => rw [bindingsIn, classesIn, hrun]; rfl
  next name root hrun =>
    rw [bindingsIn, classesIn, hrun]
    simp only [Logged.value_bind, Except.toOption, Option.bind_some]
    cases fillSlot? node.children root <;> rfl

/-- The first template that exists, whose tree has a slot that can be filled. -/
theorem value_applyTemplate {name : String} {tree filled : Node}
    (hrun : (x.runFirst node.name s (x.bindingsIn s node scope) names).value = .ok (name, tree))
    (hfill : fillSlot? node.children tree = some filled) :
    (x.applyTemplate s node names scope).value =
      .ok (x.merged (x.classesIn s node scope) node scope filled) := by
  rw [bindingsIn, classesIn] at hrun
  unfold applyTemplate
  simp only [Logged.value_bind, hrun, hfill]
  rfl

/-- A single template, whose tree has a slot that can be filled. -/
theorem value_applyTemplate_single {name : String} {tree filled : Node}
    (hview : (x.views name (x.bindingsIn s node scope)).value = .ok tree)
    (hfill : fillSlot? node.children tree = some filled) :
    (x.applyTemplate s node [name] scope).value =
      .ok (x.merged (x.classesIn s node scope) node scope filled) := by
  have hrun : (x.runFirst node.name s (x.bindingsIn s node scope) [name]).value =
      .ok (name, tree) := by
    rw [runFirst]
    simp only [Logged.value_bind, hview]
    rfl
  exact value_applyTemplate hrun hfill

/-- The view that a component gets its tree from is the first one that exists. -/
theorem value_of_runFirst {name : String} {tree : Node}
    (h : (x.runFirst tag s bindings names).value.toOption = some (name, tree)) :
    name ∈ names ∧ (x.views name bindings).value = .ok tree := by
  induction names with
  | nil => cases h
  | cons first rest ih =>
    rw [runFirst] at h
    simp only [Logged.value_bind] at h
    split at h
    next hv => cases h; exact ⟨List.mem_cons_self .., hv⟩
    next => exact ⟨List.mem_cons_of_mem _ (ih h).1, (ih h).2⟩
    next => cases h

/-- Which template is the first that exists depends only on what the views give for those that are
tried. -/
theorem toOption_runFirst_congr {y : Expander} {tag' : String} {s' : Surroundings}
    {other : Bindings}
    (h : ∀ name ∈ names, (y.views name other).value = (x.views name bindings).value) :
    (y.runFirst tag' s' other names).value.toOption =
      (x.runFirst tag s bindings names).value.toOption := by
  induction names with
  | nil => rfl
  | cons name names ih =>
    rw [runFirst, runFirst]
    simp only [Logged.value_bind]
    rw [h name (List.mem_cons_self ..)]
    cases (x.views name bindings).value with
    | ok root => rfl
    | error e =>
      cases e with
      | notFound => exact ih fun name hn => h name (List.mem_cons_of_mem _ hn)
      | invalid => rfl

theorem value_runFirst_append (more : List String) :
    (x.runFirst tag s bindings (names ++ more)).value =
      match (x.runFirst tag s bindings names).value with
      | .error (.noTemplate _) => (x.runFirst tag s bindings more).value
      | result => result := by
  induction names with
  | nil => rfl
  | cons name names ih =>
    rw [List.cons_append, runFirst, runFirst]
    simp only [Logged.value_bind]
    cases (x.views name bindings).value with
    | ok root => rfl
    | error e =>
      cases e with
      | notFound => exact ih
      | invalid => rfl

end Expander

end ComponentMarkup
