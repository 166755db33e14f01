/-
  The case of tags never matters.

  * `Node.lowerTags`: a tree with the ASCII capitals in its tags lowered. Two trees are equal except
    for the case of their tags if they agree when lowered. `Expander.Place.lowerTags` is the same for
    an element and the path to it.
  * `Views.IgnoreBindings`: views that give the same result for all bindings.
  * `lowerTags_replaced`: what takes the place of an element, up to the case of tags.
    `lowerTags_expanded?`: what is left of it. `exists_reaches`: the elements that are come to.
  * `expand_lowerTags`: both for documents.
-/
import ComponentMarkup.Proofs.ExpansionPath
import ComponentMarkup.Proofs.LoweredText
import ComponentMarkup.Proofs.Pruning

namespace ComponentMarkup

/-! ## Trees -/

mutual

/-- The element with the ASCII capitals lowered in its tag and in those below it. -/
def Node.lowerTags : Node → Node
  | ⟨name, attributes, children⟩ =>
    ⟨Text.asciiLower name, attributes, Child.lowerTags children⟩

/-- The children with the ASCII capitals lowered in their tags and in those below them. -/
def Child.lowerTags : List Child → List Child
  | [] => []
  | .text s :: rest => .text s :: Child.lowerTags rest
  | .element node :: rest => .element node.lowerTags :: Child.lowerTags rest

end

variable {node : Node} {children more : List Child}

theorem Node.lowerTags_eq (node : Node) : node.lowerTags =
    ⟨Text.asciiLower node.name, node.attributes, Child.lowerTags node.children⟩ := by
  cases node
  rw [lowerTags]

@[simp] theorem Node.name_lowerTags (node : Node) :
    node.lowerTags.name = Text.asciiLower node.name := by
  rw [lowerTags_eq]

@[simp] theorem Node.attributes_lowerTags (node : Node) :
    node.lowerTags.attributes = node.attributes := by
  rw [lowerTags_eq]

@[simp] theorem Node.children_lowerTags (node : Node) :
    node.lowerTags.children = Child.lowerTags node.children := by
  rw [lowerTags_eq]

theorem Child.lowerTags_append (children more : List Child) :
    lowerTags (children ++ more) = lowerTags children ++ lowerTags more := by
  induction children with
  | nil => rfl
  | cons child rest ih =>
    cases child <;> rw [List.cons_append, lowerTags, lowerTags, ih, List.cons_append]

theorem Child.lowerTags_lowerTags (children : List Child) :
    lowerTags (lowerTags children) = lowerTags children := by
  induction children using Child.inductionOn with
  | nil => rfl
  | text s rest ih => rw [lowerTags, lowerTags, ih]
  | element node rest ih ih' =>
    rw [lowerTags, lowerTags, ih', node.lowerTags_eq, Node.lowerTags, Text.asciiLower_asciiLower, ih]

@[simp] theorem Node.lowerTags_lowerTags (node : Node) :
    node.lowerTags.lowerTags = node.lowerTags := by
  rw [node.lowerTags_eq, lowerTags, Text.asciiLower_asciiLower, Child.lowerTags_lowerTags]

theorem Child.mem_lowerTags : .element node ∈ lowerTags children ↔
    ∃ other, .element other ∈ children ∧ other.lowerTags = node := by
  induction children with
  | nil => simp [lowerTags]
  | cons child rest ih => cases child <;> simp [lowerTags, ih, or_and_right, exists_or, eq_comm]

@[simp] theorem Node.attribute?_lowerTags (node : Node) (key : String) :
    node.lowerTags.attribute? key = node.attribute? key := by
  rw [attribute?, attributes_lowerTags, attribute?]

theorem Child.any_isContent_lowerTags (children : List Child) :
    (lowerTags children).any isContent = children.any isContent := by
  induction children with
  | nil => rfl
  | cons child rest ih =>
    cases child <;> simp only [lowerTags, List.any_cons, ih, isContent]

/-- Children that are put into a gap keep their tags up to case. -/
theorem ChildContext.lowerTags_fill (children : List Child) (context : ChildContext) :
    Child.lowerTags (context.fill (Child.lowerTags children)) =
      Child.lowerTags (context.fill children) := by
  induction context with
  | here before after =>
    rw [fill, fill]
    simp only [Child.lowerTags_append, Child.lowerTags_lowerTags]
  | inside before tag attributes inner after ih =>
    rw [fill, fill]
    simp only [Child.lowerTags_append, Child.lowerTags, Node.lowerTags, ih]

/-! ## Names and settings -/

@[simp] theorem Naming.slug_asciiLower (joiner : TagJoiner) (label : String) :
    slug joiner (Text.asciiLower label) = slug joiner label := by
  have hwords : slugWords (Text.asciiLower label) = slugWords label := by
    rw [slugWords, Text.lowercase_asciiLower, slugWords]
  unfold slug
  rw [hwords]

namespace ClassConfig

variable (config : ClassConfig)

@[simp] theorem token_lowerTags (node : Node) : config.token node.lowerTags = config.token node := by
  rw [token, token, Node.attribute?_lowerTags, Node.name_lowerTags, Naming.slug_asciiLower]

@[simp] theorem participates_asciiLower (tag : String) :
    config.participates (Text.asciiLower tag) = config.participates tag := by
  rw [participates, participates, Text.lowercase_asciiLower]

/-- The tag of a component counts for its classes only through its token. -/
theorem compute_lowerTags (node : Node) (stack : List String) (scope : Option String) :
    config.compute node.lowerTags stack scope = config.compute node stack scope := by
  have hlength : config.lengthFor node.lowerTags = config.lengthFor node := by
    rw [lengthFor, lengthFor, Node.attribute?_lowerTags]
  rw [compute, compute, token_lowerTags, hlength]

end ClassConfig

@[simp] theorem MarkupConfig.keepsEmpty_asciiLower (config : MarkupConfig) (name : String) :
    config.keepsEmpty (Text.asciiLower name) = config.keepsEmpty name := by
  simp only [keepsEmpty, isVoid, Text.sameName, Text.asciiLower_asciiLower]

namespace Catalog

variable (catalog : Catalog)

@[simp] theorem canonical?_asciiLower (name : String) :
    catalog.canonical? (Text.asciiLower name) = catalog.canonical? name := by
  rw [canonical?, canonical?, Text.lowercase_asciiLower]

theorem value_resolve_map_asciiLower (path : List String) :
    (catalog.resolve (path.map Text.asciiLower)).value = (catalog.resolve path).value := by
  have hpath : (path.map Text.asciiLower).map Text.lowercase = path.map Text.lowercase := by
    rw [List.map_map]
    exact List.map_congr_left fun tag _ => Text.lowercase_asciiLower tag
  rw [value_resolve, value_resolve, matchesFor, matchesFor, hpath]

end Catalog

/-! ## Elements in their places -/

/-- Views that give the same result for all bindings. -/
def Views.IgnoreBindings (views : Views) : Prop :=
  ∀ name bindings other, (views name bindings).value = (views name other).value

/-- The surroundings with the ASCII capitals lowered in the tags of the open elements. -/
def Surroundings.lowerTags (s : Surroundings) : Surroundings :=
  ⟨s.path.map Text.asciiLower, s.tokens⟩

@[simp] theorem Surroundings.lowerTags_lowerTags (s : Surroundings) :
    s.lowerTags.lowerTags = s.lowerTags := by
  simp [lowerTags]

namespace Expander

/-- The place with the ASCII capitals lowered in the tags of the element, in those below it and in
those around it. -/
def Place.lowerTags (place : Place) : Place :=
  ⟨place.node.lowerTags, place.surroundings.lowerTags, place.scope⟩

/-- An element on the way to another one, with the ASCII capitals lowered in its tags. -/
def Enclosing.lowerTags (e : Enclosing) : Enclosing := ⟨e.node.lowerTags, e.applied⟩

variable {x : Expander} {place place' : Place}

theorem lowerTags_enter (s : Surroundings) (name : String) :
    (s.enter name).lowerTags = s.lowerTags.enter (Text.asciiLower name) := by
  rw [Surroundings.enter, Surroundings.lowerTags, List.map_append]
  rfl

theorem tokenOf_lowerTags (node : Node) : x.tokenOf node.lowerTags = x.tokenOf node := by
  rw [tokenOf, tokenOf, Node.name_lowerTags, ClassConfig.participates_asciiLower,
    ClassConfig.token_lowerTags]

theorem inside_lowerTags (place : Place) : x.inside place.lowerTags = (x.inside place).lowerTags := by
  rw [inside_eq, inside_eq, Place.lowerTags, tokenOf_lowerTags, Node.name_lowerTags]
  simp only [Surroundings.lowerTags, List.map_append, List.map_cons, List.map_nil]

/-- **The templates to try** are the same in any case of the tags. -/
theorem templates_lowerTags (place : Place) : x.templates place.lowerTags = x.templates place := by
  have hpath : (place.lowerTags.surroundings.enter place.lowerTags.node.name).path =
      (place.surroundings.enter place.node.name).path.map Text.asciiLower := by
    rw [Place.lowerTags, Node.name_lowerTags, ← lowerTags_enter]
    rfl
  rw [templates, hpath]
  simp only [templates, candidates, Logged.value_bind, Catalog.value_resolve_map_asciiLower,
    Place.lowerTags, Node.name_lowerTags, Catalog.canonical?_asciiLower]

theorem classesFor_lowerTags (place : Place) : x.classesFor place.lowerTags = x.classesFor place := by
  rw [classesFor, classesFor, inside_lowerTags, Place.lowerTags, ClassConfig.compute_lowerTags]
  rfl

/-! ## Pruning -/

theorem kept?_lowerTags (node : Node) :
    x.kept? node.lowerTags = (x.kept? node).map Node.lowerTags := by
  rw [kept?_eq, kept?_eq, Node.children_lowerTags, Child.any_isContent_lowerTags,
    Node.name_lowerTags, MarkupConfig.keepsEmpty_asciiLower]
  split <;> rfl

theorem lowerTags_mapChildren (step step' : Node → Option Node)
    (h : ∀ node : Node, (step' node.lowerTags).map Node.lowerTags =
      (step node).map Node.lowerTags) (children : List Child) :
    Child.lowerTags (mapChildren step' (Child.lowerTags children)) =
      Child.lowerTags (mapChildren step children) := by
  induction children with
  | nil => rfl
  | cons child rest ih =>
    cases child with
    | text s => rw [Child.lowerTags, mapChildren, mapChildren, Child.lowerTags, Child.lowerTags, ih]
    | element node =>
      have hnode := h node
      rw [Child.lowerTags, mapChildren, mapChildren]
      cases hs : step node with
      | none =>
        rw [hs, Option.map_none, Option.map_eq_none_iff] at hnode
        rw [hnode]
        exact ih
      | some kept =>
        rw [hs, Option.map_some, Option.map_eq_some_iff] at hnode
        obtain ⟨kept', hkept, hsame⟩ := hnode
        rw [hkept]
        simp only [Child.lowerTags, hsame, ih]

/-! ## What takes the place of an element -/

variable (x) in
/-- The first template of an element that exists, with its tree. -/
def firstRun? (place : Place) : Option (String × Node) :=
  (x.runFirst place.node.name (x.inside place) (x.bindingsFor place)
    (x.templates place)).value.toOption

variable (x) in
/-- The template that is applied to an element. -/
def appliedTemplate? (place : Place) : Option String :=
  (x.firstRun? place).bind fun run => (fillSlot? place.node.children run.2).map fun _ => run.1

section
variable (hx : x.views.IgnoreBindings)
include hx

theorem firstRun?_lowerTags (place : Place) : x.firstRun? place.lowerTags = x.firstRun? place := by
  rw [firstRun?, templates_lowerTags]
  exact toOption_runFirst_congr fun name _ => hx name _ _

theorem appliedTemplate?_lowerTags (place : Place) :
    x.appliedTemplate? place.lowerTags = x.appliedTemplate? place := by
  rw [appliedTemplate?, appliedTemplate?, firstRun?_lowerTags hx]
  refine Option.bind_congr fun run _ => ?_
  rcases fillSlot?_cases run.2 with h | ⟨-, h⟩ | ⟨context, found, -, -, h⟩
  all_goals simp only [h, Option.map_none, Option.map_some]

/-- **What a component becomes** is the same up to the case of tags: the children go into the slot
with the case that they have, and all else comes from the template and from the attributes. -/
theorem lowerTags_applied? (place : Place) :
    (x.applied? place.lowerTags).map (Prod.map Node.lowerTags id) =
      (x.applied? place).map (Prod.map Node.lowerTags id) := by
  have hmerged (filled : Node) : x.merged (x.classesFor place) place.lowerTags.node
      place.lowerTags.scope filled =
        x.merged (x.classesFor place) place.node place.scope filled := by
    cases place with
    | mk node s scope => cases node; rfl
  have happlied (place : Place) : x.applied? place = (x.firstRun? place).bind fun run =>
      (fillSlot? place.node.children run.2).map
        (x.merged (x.classesFor place) place.node place.scope) := applied?_eq place
  rw [happlied, happlied, firstRun?_lowerTags hx, classesFor_lowerTags, funext hmerged]
  cases x.firstRun? place with
  | none => rfl
  | some run =>
    rw [Option.bind_some, Option.bind_some]
    rcases fillSlot?_cases run.2 with h | ⟨-, h⟩ | ⟨context, found, -, -, h⟩
    · rw [h, h]
    · rw [h, h]
    · obtain ⟨attrs, inner, hroot⟩ := exists_merged (x := x) (x.classesFor place) place.node
        place.scope context.name context.attributes
      rw [h, h]
      simp only [Option.map_some, NodeContext.fill, hroot, Prod.map, Node.lowerTags,
        Place.lowerTags, Node.children_lowerTags, ChildContext.lowerTags_fill]

/-- **What takes the place of an element**, and where its children stand, is the same up to the case
of tags. -/
theorem lowerTags_replaced (place : Place) :
    (x.replaced place.lowerTags).lowerTags = (x.replaced place).lowerTags := by
  have happlied := lowerTags_applied? hx place
  cases h : x.applied? place with
  | none =>
    rw [h, Option.map_none, Option.map_eq_none_iff] at happlied
    rw [replaced_of_none h, replaced_of_none happlied]
    simp only [Place.lowerTags, Node.lowerTags_lowerTags, Node.name_lowerTags, ← lowerTags_enter,
      Surroundings.lowerTags_lowerTags]
  | some result =>
    obtain ⟨root, inner⟩ := result
    rw [h, Option.map_some, Option.map_eq_some_iff] at happlied
    obtain ⟨⟨root', inner'⟩, hother, hsame⟩ := happlied
    obtain ⟨hroot, rfl⟩ : root'.lowerTags = root.lowerTags ∧ inner' = inner :=
      Prod.mk.inj hsame
    rw [replaced_of_some h, replaced_of_some hother, inside_lowerTags]
    simp only [Place.lowerTags, hroot, Surroundings.lowerTags_lowerTags]

theorem isSome_applied?_lowerTags (place : Place) :
    (x.applied? place.lowerTags).isSome = (x.applied? place).isSome := by
  have happlied := congrArg Option.isSome (lowerTags_applied? hx place)
  rwa [Option.isSome_map, Option.isSome_map] at happlied

/-! ## What is left of an element -/

/-- **What is left of an element** is the same up to the case of tags, at every depth. -/
theorem lowerTags_expanded? (depth : Nat) (place : Place) :
    (x.expanded? depth place.lowerTags).map Node.lowerTags =
      (x.expanded? depth place).map Node.lowerTags := by
  induction depth generalizing place with
  | zero =>
    rw [expanded?, expanded?, Option.map_some, Option.map_some, Place.lowerTags,
      Node.lowerTags_lowerTags]
  | succ depth ih =>
    -- what is left of an element with its children, in a place and in the lowered one
    let left (inner : Place) : Node := ⟨inner.node.name, inner.node.attributes,
      mapChildren (fun node => x.expanded? depth { inner with node }) inner.node.children⟩
    have hexpanded (place : Place) : (x.expanded? (depth + 1) place).map Node.lowerTags =
        x.kept? (left (x.replaced place)).lowerTags := by
      rw [kept?_lowerTags, expanded?]
    have hleft (inner : Place) : (left inner.lowerTags).lowerTags = (left inner).lowerTags := by
      have hchildren := lowerTags_mapChildren (fun node => x.expanded? depth { inner with node })
        (fun node => x.expanded? depth { inner.lowerTags with node })
        (fun node => ih { inner with node }) inner.node.children
      simp only [left, Node.lowerTags, Place.lowerTags, Node.name_lowerTags,
        Text.asciiLower_asciiLower, Node.attributes_lowerTags, Node.children_lowerTags]
      exact congrArg _ hchildren
    rw [hexpanded, hexpanded, ← hleft, lowerTags_replaced hx, hleft]

/-- **The elements that are come to** are the same up to the case of tags, and so are the ones on
the way to them. -/
theorem exists_reaches {place target : Place} {around : List Enclosing}
    (h : x.Reaches place around target) {other : Place} (hsame : other.lowerTags = place.lowerTags) :
    ∃ around' target', x.Reaches other around' target' ∧
      around'.map Enclosing.lowerTags = around.map Enclosing.lowerTags ∧
      target'.lowerTags = target.lowerTags := by
  induction h generalizing other with
  | start => exact ⟨[], other, .start, rfl, hsame⟩
  | @step place target node around hc _ ih =>
    have hreplaced : (x.replaced other).lowerTags = (x.replaced place).lowerTags := by
      rw [← lowerTags_replaced hx, hsame, lowerTags_replaced hx]
    have happlied : (x.applied? other).isSome = (x.applied? place).isSome := by
      rw [← isSome_applied?_lowerTags hx, hsame, isSome_applied?_lowerTags hx]
    have hnode : other.node.lowerTags = place.node.lowerTags := congrArg Place.node hsame
    have hchildren : Child.lowerTags (x.replaced other).node.children =
        Child.lowerTags (x.replaced place).node.children := by
      rw [← Node.children_lowerTags, ← Node.children_lowerTags]
      exact congrArg (·.node.children) hreplaced
    have hmem : .element node.lowerTags ∈ Child.lowerTags (x.replaced other).node.children :=
      hchildren ▸ Child.mem_lowerTags.2 ⟨node, hc, rfl⟩
    obtain ⟨node', hc', hlower⟩ := Child.mem_lowerTags.1 hmem
    have hplace : Place.lowerTags { x.replaced other with node := node' } =
        Place.lowerTags { x.replaced place with node } := by
      simp only [Place.lowerTags, Place.mk.injEq] at hreplaced ⊢
      exact ⟨hlower, hreplaced.2⟩
    obtain ⟨around', target', hreaches, haround, htarget⟩ := ih hplace
    refine ⟨_, target', .step hc' hreaches, ?_, htarget⟩
    rw [List.map_cons, List.map_cons, haround, Enclosing.lowerTags, Enclosing.lowerTags, hnode,
      happlied]

end

/-! ## Documents -/

/-- **The case of tags never matters.** If views ignore their bindings, two documents that are equal
except for the case of their tags are both dropped or become documents that are equal except for the
case of tags. The expansion of the one comes to the same elements as that of the other, on the same
way, below the same class tokens and in the same scope. For each of these elements the same
templates are tried, the same one is applied, the same token and classes are computed, and at every
depth the same is left of it. -/
theorem expand_lowerTags (x : Expander) (hx : x.views.IgnoreBindings) {root root' : Node}
    (h : root'.lowerTags = root.lowerTags) :
    (x.expand root').value.map Node.lowerTags = (x.expand root).value.map Node.lowerTags ∧
      ∀ around target, x.Reaches ⟨root, .none, none⟩ around target →
        ∃ around' target', x.Reaches ⟨root', .none, none⟩ around' target' ∧
          around'.map Enclosing.lowerTags = around.map Enclosing.lowerTags ∧
          target'.lowerTags = target.lowerTags ∧
          x.templates target' = x.templates target ∧
          x.appliedTemplate? target' = x.appliedTemplate? target ∧
          (x.inside target').tokens = (x.inside target).tokens ∧
          x.classesFor target' = x.classesFor target ∧
          ∀ depth, (x.expanded? depth target').map Node.lowerTags =
            (x.expanded? depth target).map Node.lowerTags := by
  have hplace : Place.lowerTags ⟨root', .none, none⟩ = Place.lowerTags ⟨root, .none, none⟩ := by
    rw [Place.lowerTags, h, Place.lowerTags]
  refine ⟨?_, fun around target hr => ?_⟩
  · rw [value_expand, value_expand, ← lowerTags_expanded? hx, hplace, lowerTags_expanded? hx]
  · obtain ⟨around', target', hr', haround, htarget⟩ := exists_reaches hx hr hplace
    refine ⟨around', target', hr', haround, htarget, ?_, ?_, ?_, ?_, fun depth => ?_⟩
    · rw [← templates_lowerTags, htarget, templates_lowerTags]
    · rw [← appliedTemplate?_lowerTags hx, htarget, appliedTemplate?_lowerTags hx]
    · have hinside : (x.inside target').lowerTags = (x.inside target).lowerTags := by
        rw [← inside_lowerTags, htarget, inside_lowerTags]
      exact congrArg (·.tokens) hinside
    · rw [← classesFor_lowerTags, htarget, classesFor_lowerTags]
    · rw [← lowerTags_expanded? hx, htarget, lowerTags_expanded? hx]

/-- The composite name applies in any case of both tags, and an empty element is pruned. -/
theorem expand_lowerTags_card :
    let x : Expander := ⟨{}, .ofNames "-" ["card-Item"], fun name _ => pure <|
      .ok ⟨"div", ∅, [.text name, .element (.leaf "Yield")]⟩⟩
    let root : Node := ⟨"CARD", ∅, [.element ⟨"iTem", ∅, [.text "a"]⟩, .element (.leaf "B")]⟩
    x.views.IgnoreBindings ∧ (x.expand root).value.isSome = true ∧
      (x.expand root.lowerTags).value.map Node.lowerTags =
        (x.expand root).value.map Node.lowerTags ∧
      ∃ around' target', x.Reaches ⟨root.lowerTags, .none, none⟩ around' target' ∧
        around'.length = 1 ∧ x.appliedTemplate? target' = some "card-Item" := by
  intro x root
  have hx : x.views.IgnoreBindings := fun _ _ _ => rfl
  have hsome : (x.expand root).value.isSome = true := by decide +kernel
  obtain ⟨hexpand, hreaches⟩ := expand_lowerTags x hx root.lowerTags_lowerTags
  let place : Place := ⟨root, .none, none⟩
  have hitem : ((x.replaced place).node.children[0]?.bind Child.element?).bind
      (fun node => x.appliedTemplate? { x.replaced place with node }) = some "card-Item" := by
    decide +kernel
  obtain ⟨node, hnode, happlied⟩ := Option.bind_eq_some_iff.1 hitem
  obtain ⟨child, hget, helement⟩ := Option.bind_eq_some_iff.1 hnode
  have hc : .element node ∈ (x.replaced place).node.children := by
    cases child with
    | text s => cases helement
    | element other => cases helement; exact List.mem_of_getElem? hget
  obtain ⟨around', target', hr, haround, -, -, htemplate, -⟩ := hreaches _ _ (.step hc .start)
  refine ⟨hx, hsome, hexpand, around', target', hr, ?_, htemplate.trans happlied⟩
  have hlength := congrArg List.length haround
  rwa [List.length_map, List.length_map] at hlength

end Expander

end ComponentMarkup
