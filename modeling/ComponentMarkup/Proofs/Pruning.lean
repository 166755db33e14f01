/-
  Expansion drops exactly the elements without content.

  * `Node.pruned?`: a tree pruned from below, with nothing expanded.
  * `Node.IsPruned`: above a depth, every element has content or is kept without.
    `Node.pruned?_eq_self`: pruning leaves such trees as they are.
  * `isPruned_of_expanded?`: what the expansion of an element leaves is pruned.
  * `expanded?_eq_pruned?`: without templates, expansion only prunes.
  * `expand_prunes`: both for documents.
-/
import ComponentMarkup.Proofs.TemplateRanking
import ComponentMarkup.Proofs.VisibleText

namespace ComponentMarkup

variable {keeps : String → Bool} {node : Node} {children : List Child}

/-! ## Pruning from below -/

/-- An element, or visible text. -/
def Child.isContent : Child → Bool
  | .element _ => true
  | .text s => Text.isVisible s

mutual

/-- The element with its children pruned, unless it is left without content and its name is not one
that is kept. At depth zero nothing is pruned. -/
def Node.pruned? (keeps : String → Bool) : Nat → Node → Option Node
  | 0, node => some node
  | depth + 1, ⟨name, attributes, children⟩ =>
    let left := Child.pruned keeps depth children
    if left.any Child.isContent || keeps name then some ⟨name, attributes, left⟩ else none

/-- The texts, and the elements as far as something is left of them. -/
def Child.pruned (keeps : String → Bool) : Nat → List Child → List Child
  | _, [] => []
  | depth, .text s :: rest => .text s :: Child.pruned keeps depth rest
  | depth, .element node :: rest =>
    match node.pruned? keeps depth with
    | some left => .element left :: Child.pruned keeps depth rest
    | none => Child.pruned keeps depth rest

end

theorem Node.pruned?_zero (node : Node) : node.pruned? keeps 0 = some node := by
  cases node; rfl

/-- Every element above the depth has content, or a name that is kept. -/
def Node.IsPruned (keeps : String → Bool) (depth : Nat) (root : Node) : Prop :=
  ∀ level target, root.HasAt level target → level < depth →
    (∃ child ∈ target.children, child.isContent = true) ∨ keeps target.name = true

theorem Node.IsPruned.child {depth : Nat} {child : Node} (h : node.IsPruned keeps (depth + 1))
    (hc : .element child ∈ node.children) : child.IsPruned keeps depth :=
  fun _ _ ht hlt => h _ _ (.step hc ht) (Nat.succ_lt_succ hlt)

theorem Node.isPruned_succ {depth : Nat}
    (hroot : (∃ child ∈ node.children, child.isContent = true) ∨ keeps node.name = true)
    (h : ∀ child, .element child ∈ node.children → child.IsPruned keeps depth) :
    node.IsPruned keeps (depth + 1) := by
  intro level target ht hlt
  cases ht with
  | root => exact hroot
  | step hc ht => exact h _ hc _ _ ht (Nat.lt_of_succ_lt_succ hlt)

theorem Node.isEmpty_eq (node : Node) : node.isEmpty = !node.children.any Child.isContent := by
  unfold isEmpty hasElements hasVisibleText
  induction node.children with
  | nil => rfl
  | cons child rest ih =>
    cases child with
    | element node => rfl
    | text s =>
      cases hs : Text.isVisible s
      · simpa [Child.isContent, Child.element?, Child.text?, hs] using ih
      · simp [Child.isContent, Child.text?, hs]

namespace Expander

variable {x : Expander} {place : Place}

theorem mapChildren_pruned? (depth : Nat) (children : List Child) :
    mapChildren (Node.pruned? keeps depth) children = Child.pruned keeps depth children := by
  induction children with
  | nil => rfl
  | cons child rest ih =>
    cases child with
    | text s => rw [mapChildren, Child.pruned, ih]
    | element node =>
      cases hn : node.pruned? keeps depth <;> simp only [mapChildren, Child.pruned, hn, ih]

theorem mapChildren_eq_self {step : Node → Option Node}
    (h : ∀ node, .element node ∈ children → step node = some node) :
    mapChildren step children = children := by
  induction children with
  | nil => rfl
  | cons child rest ih =>
    have hrest := ih fun node hn => h node (List.mem_cons_of_mem _ hn)
    cases child with
    | text s => rw [mapChildren, hrest]
    | element node => rw [mapChildren, h node (List.mem_cons_self ..), hrest]

theorem kept?_eq (node : Node) : x.kept? node =
    if node.children.any Child.isContent || x.config.markup.keepsEmpty node.name then some node
    else none := by
  rw [kept?, Node.isEmpty_eq, ← Bool.not_or]
  cases node.children.any Child.isContent || x.config.markup.keepsEmpty node.name <;> rfl

theorem pruned?_succ (depth : Nat) (node : Node) :
    node.pruned? x.config.markup.keepsEmpty (depth + 1) =
      x.kept? ⟨node.name, node.attributes,
        mapChildren (Node.pruned? x.config.markup.keepsEmpty depth) node.children⟩ := by
  cases node
  rw [kept?_eq, mapChildren_pruned?, Node.pruned?]

theorem isPruned_of_kept? {depth : Nat} {kept : Node} (hkept : x.kept? node = some kept)
    (h : ∀ child, .element child ∈ node.children → child.IsPruned x.config.markup.keepsEmpty depth) :
    kept.IsPruned x.config.markup.keepsEmpty (depth + 1) := by
  rw [kept?_eq] at hkept
  split at hkept
  next hcontent =>
    cases hkept
    rw [Bool.or_eq_true, List.any_eq_true] at hcontent
    exact Node.isPruned_succ hcontent h
  next => cases hkept

/-- **What is left of an element is pruned**, whatever the templates are. -/
theorem isPruned_of_expanded? (depth : Nat) (place : Place) {kept : Node}
    (h : x.expanded? depth place = some kept) :
    kept.IsPruned x.config.markup.keepsEmpty depth := by
  induction depth generalizing place kept with
  | zero => exact fun _ _ _ hlt => absurd hlt (Nat.not_lt_zero _)
  | succ depth ih =>
    refine isPruned_of_kept? h fun child hc => ?_
    obtain ⟨node, -, hchild⟩ := exists_of_mem_mapChildren hc
    exact ih { x.replaced place with node } hchild

/-- Nothing is dropped from a tree that is pruned. -/
theorem pruned?_eq_self {depth : Nat} (h : node.IsPruned x.config.markup.keepsEmpty depth) :
    node.pruned? x.config.markup.keepsEmpty depth = some node := by
  induction depth generalizing node with
  | zero => exact Node.pruned?_zero node
  | succ depth ih =>
    have hsame := mapChildren_eq_self fun child hc => ih (h.child hc)
    have hcontent := h 0 node .root (Nat.succ_pos _)
    rw [← List.any_eq_true, ← Bool.or_eq_true] at hcontent
    rw [pruned?_succ, hsame, kept?_eq, if_pos hcontent]
    cases node; rfl

theorem visibleTexts_mapChildren {step : Node → Option Node}
    (h : ∀ node, visibleTextsOf (step node) = node.visibleTexts) :
    Child.visibleTexts (mapChildren step children) = Child.visibleTexts children := by
  induction children with
  | nil => rfl
  | cons child rest ih =>
    cases child with
    | text s => rw [mapChildren, Child.visibleTexts, Child.visibleTexts, ih]
    | element node =>
      rw [mapChildren, Child.visibleTexts, ← h node, ← ih]
      cases step node <;> rfl

/-- Pruning drops no visible text. -/
theorem visibleTextsOf_pruned? (depth : Nat) (node : Node) :
    visibleTextsOf (node.pruned? x.config.markup.keepsEmpty depth) = node.visibleTexts := by
  induction depth generalizing node with
  | zero => rw [Node.pruned?_zero]; rfl
  | succ depth ih =>
    rw [pruned?_succ, visibleTextsOf_kept?, Node.visibleTexts, Node.visibleTexts_eq,
      visibleTexts_mapChildren ih]

/-! ## Without templates -/

theorem expanded?_eq_pruned? (h : ∀ place, x.templates place = []) (depth : Nat) (place : Place) :
    x.expanded? depth place = place.node.pruned? x.config.markup.keepsEmpty depth := by
  induction depth generalizing place with
  | zero => rw [Node.pruned?_zero, expanded?]
  | succ depth ih =>
    have hsame : (x.replaced place).node = place.node := by
      rw [replaced_of_none (applied?_of_templates_nil (h place))]
    have hstep (node : Node) := ih { x.replaced place with node }
    rw [pruned?_succ, expanded?, hsame, funext hstep]

theorem templates_of_empty {separator : String} (h : x.catalog = ⟨separator, ∅, []⟩)
    (place : Place) : x.templates place = [] := by
  have hmatches (path : List String) : x.catalog.matchesFor path = [] := by
    rw [h, Catalog.matchesFor]
    split <;> rfl
  unfold templates candidates
  rw [Logged.value_bind, Catalog.value_resolve, hmatches, h]
  rfl

/-- **Expansion drops exactly the elements without content.** In an expanded document, each element
above the depth limit has an element child or visible text, or it is void or one that is kept when
empty. With an empty catalog this is all that happens: the document is pruned from below, which
changes nothing when it is repeated and drops no visible text. -/
theorem expand_prunes (x : Expander) (root : Node) :
    (∀ kept, (x.expand root).value = some kept → ∀ depth target, kept.HasAt depth target →
      depth < x.config.classes.maxDepth →
        (∃ child, .element child ∈ target.children) ∨
        (∃ s, .text s ∈ target.children ∧ Text.isVisible s = true) ∨
        ∃ tag ∈ x.config.markup.voidTags ++ x.config.markup.emptyTags,
          Text.sameName tag target.name = true) ∧
    ∀ separator names, x.catalog = .ofNames separator names → x.catalog.size = 0 →
      (x.expand root).value =
        root.pruned? x.config.markup.keepsEmpty x.config.classes.maxDepth ∧
      (∀ kept, (x.expand root).value = some kept → (x.expand kept).value = some kept) ∧
      visibleTextsOf (x.expand root).value = root.visibleTexts := by
  have hpruned (kept : Node) (h : (x.expand root).value = some kept) :
      kept.IsPruned x.config.markup.keepsEmpty x.config.classes.maxDepth :=
    isPruned_of_expanded? _ _ ((value_expand root).symm.trans h)
  refine ⟨fun kept h depth target ht hlt => ?_, fun separator names hnames hsize => ?_⟩
  · rcases hpruned kept h depth target ht hlt with ⟨child | s, hc, hcontent⟩ | hkeeps
    · exact .inl ⟨child, hc⟩
    · exact .inr (.inl ⟨s, hc, hcontent⟩)
    · rw [MarkupConfig.keepsEmpty, MarkupConfig.isVoid, ← List.any_append, List.any_eq_true]
        at hkeeps
      exact .inr (.inr hkeeps)
  · have hempty : x.catalog = ⟨separator, ∅, []⟩ := by
      rw [hnames] at hsize ⊢
      exact Catalog.ofNames_eq_empty_of_size hsize
    have hexpand (root : Node) : (x.expand root).value =
        root.pruned? x.config.markup.keepsEmpty x.config.classes.maxDepth := by
      rw [value_expand, expanded?_eq_pruned? (templates_of_empty hempty)]
    refine ⟨hexpand root, fun kept h => ?_, ?_⟩
    · rw [hexpand]
      exact pruned?_eq_self (hpruned kept h)
    · rw [hexpand, visibleTextsOf_pruned?]

/-- The inner element goes first, and then the one around it; `TD` is kept. -/
theorem expand_prunes_list :
    let x : Expander := ⟨{}, .ofNames "-" [""], fun name _ => pure (.error (.notFound name))⟩
    let root : Node := ⟨"ul", ∅, [.element ⟨"li", ∅, [.element ⟨"b", ∅, [.text " "]⟩]⟩, .text "a",
      .element (.leaf "TD")]⟩
    let kept : Node := ⟨"ul", ∅, [.text "a", .element (.leaf "TD")]⟩
    x.catalog.size = 0 ∧ (x.expand root).value = some kept ∧
      ((∃ child, .element child ∈ (Node.leaf "TD").children) ∨
        (∃ s, .text s ∈ (Node.leaf "TD").children ∧ Text.isVisible s = true) ∨
        ∃ tag ∈ x.config.markup.voidTags ++ x.config.markup.emptyTags,
          Text.sameName tag "TD" = true) ∧
      (x.expand kept).value = some kept ∧
      visibleTextsOf (x.expand root).value = root.visibleTexts := by
  intro x root kept
  have hsize : x.catalog.size = 0 := by decide +kernel
  obtain ⟨hcontent, hempty⟩ := expand_prunes x root
  obtain ⟨hexpand, hagain, htexts⟩ := hempty "-" [""] rfl hsize
  have hkept : (x.expand root).value = some kept := hexpand.trans rfl
  exact ⟨hsize, hkept, hcontent kept hkept 1 (.leaf "TD") (.step (by simp [kept]) .root) (by decide),
    hagain kept hkept, htexts⟩

end Expander

end ComponentMarkup
