/-
  Visible texts are never lost.

  * `Node.visibleTexts`: the visible texts of a tree in document order.
  * `Views.GivesSlots`: views that give trees with a slot only.
  * `sublist_of_applied?`: the tree of a template keeps the texts of the component;
    `sublist_expanded?`: so does an expanded element.
  * `visibleTexts_sublist_expand`: an expanded document has the visible texts of the document, in
    their order; one with visible text is never dropped.
-/
import ComponentMarkup.Proofs.PlainExpansion
import ComponentMarkup.Proofs.Splicing

namespace ComponentMarkup

open Bindings (slotName)

variable {node root : Node} {children : List Child}

/-! ## Visible texts -/

mutual

/-- The visible texts below an element, in document order. -/
def Node.visibleTexts : Node → List String
  | ⟨_, _, children⟩ => Child.visibleTexts children

/-- The visible texts in and below a list of children, in document order. -/
def Child.visibleTexts : List Child → List String
  | [] => []
  | .text s :: rest =>
    if Text.isVisible s then s :: Child.visibleTexts rest else Child.visibleTexts rest
  | .element node :: rest => node.visibleTexts ++ Child.visibleTexts rest

end

theorem Node.visibleTexts_eq (node : Node) :
    node.visibleTexts = Child.visibleTexts node.children := by
  cases node; rfl

theorem Child.visibleTexts_append (children more : List Child) :
    visibleTexts (children ++ more) = visibleTexts children ++ visibleTexts more := by
  induction children with
  | nil => rfl
  | cons child rest ih =>
    cases child with
    | text s =>
      rw [List.cons_append, visibleTexts, visibleTexts, ih]
      split <;> rfl
    | element node => rw [List.cons_append, visibleTexts, visibleTexts, ih, List.append_assoc]

theorem Child.visibleTexts_eq_nil (helements : ∀ child ∈ children, ¬ child.element?.isSome = true)
    (htexts : ∀ child ∈ children, ¬ child.text?.any Text.isVisible = true) :
    visibleTexts children = [] := by
  induction children with
  | nil => rfl
  | cons child rest ih =>
    have hrest := ih (fun c hc => helements c (List.mem_cons_of_mem _ hc))
      fun c hc => htexts c (List.mem_cons_of_mem _ hc)
    cases child with
    | text s =>
      have hs : ¬ Text.isVisible s = true := htexts (.text s) (List.mem_cons_self ..)
      rw [visibleTexts, if_neg hs, hrest]
    | element node => exact absurd rfl (helements (.element node) (List.mem_cons_self ..))

/-- An element without content has no visible text below it. -/
theorem Node.visibleTexts_of_isEmpty (h : node.isEmpty = true) : node.visibleTexts = [] := by
  rw [isEmpty, Bool.and_eq_true, Bool.not_eq_true', Bool.not_eq_true', hasElements,
    hasVisibleText, List.any_eq_false, List.any_eq_false] at h
  rw [visibleTexts_eq]
  exact Child.visibleTexts_eq_nil h.1 h.2

/-! ## Filling the slot -/

theorem ChildContext.sublist_fill (new : List Child) (context : ChildContext) :
    (Child.visibleTexts new).Sublist (Child.visibleTexts (context.fill new)) := by
  induction context with
  | here before after =>
    rw [fill, Child.visibleTexts_append, Child.visibleTexts_append]
    exact (List.sublist_append_left ..).trans (List.sublist_append_right ..)
  | inside before tag attributes inner after ih =>
    rw [fill, Child.visibleTexts_append, Child.visibleTexts, Node.visibleTexts]
    exact ih.trans ((List.sublist_append_left ..).trans (List.sublist_append_right ..))

/-- **Filling a slot keeps the visible texts of the children.** -/
theorem sublist_fillSlot? {filled : Node} (hroot : slotCount root ≠ 0)
    (h : fillSlot? children root = some filled) :
    (Child.visibleTexts children).Sublist filled.visibleTexts := by
  rcases of_fillSlot? h with ⟨hnone, -⟩ | ⟨context, found, -, rfl, -⟩
  · exact absurd (slotCount_eq_zero_iff.2 hnone) hroot
  · exact context.inner.sublist_fill children

/-! ## Templates -/

/-- Every tree that the views give has a slot, whatever the name and the bindings are. -/
def Views.GivesSlots (views : Views) : Prop :=
  ∀ name bindings root, (views name bindings).value = .ok root → slotCount root ≠ 0

namespace Expander

variable {x : Expander} {place : Place}

/-- The tree in the place of a component has the visible texts of the component. -/
theorem sublist_of_applied? {inner : Option String} (hx : x.views.GivesSlots)
    (h : x.applied? place = some (root, inner)) :
    place.node.visibleTexts.Sublist root.visibleTexts := by
  obtain ⟨name, tree, filled, -, hview, hfill, hmerged⟩ := of_applied? h
  obtain ⟨attributes, scope, heq⟩ := merged_eq (x.classesFor place) place.node filled place.scope
  obtain ⟨rfl, rfl⟩ := Prod.mk.inj (heq.symm.trans hmerged)
  rw [Node.visibleTexts_eq, Node.visibleTexts, ← Node.visibleTexts_eq filled]
  exact sublist_fillSlot? (hx _ _ _ hview) hfill

theorem sublist_replaced (hx : x.views.GivesSlots) (place : Place) :
    place.node.visibleTexts.Sublist (x.replaced place).node.visibleTexts := by
  cases h : x.applied? place with
  | none =>
    have hsame : (x.replaced place).node = place.node := by rw [replaced_of_none h]
    exact hsame ▸ List.Sublist.refl _
  | some result =>
    rw [replaced_of_some h]
    exact sublist_of_applied? hx h

/-! ## Documents -/

/-- The visible texts of what is left of an element. -/
def visibleTextsOf (result : Option Node) : List String := (result.map Node.visibleTexts).getD []

theorem visibleTextsOf_kept? (node : Node) : visibleTextsOf (x.kept? node) = node.visibleTexts := by
  unfold kept?
  split
  next h =>
    rw [Bool.and_eq_true] at h
    rw [Node.visibleTexts_of_isEmpty h.1]
    rfl
  next => rfl

theorem sublist_mapChildren {step : Node → Option Node} {children : List Child}
    (h : ∀ node : Node, node.visibleTexts.Sublist (visibleTextsOf (step node))) :
    (Child.visibleTexts children).Sublist (Child.visibleTexts (mapChildren step children)) := by
  induction children with
  | nil => exact List.Sublist.slnil
  | cons child rest ih =>
    cases child with
    | text s =>
      rw [mapChildren, Child.visibleTexts, Child.visibleTexts]
      split
      · exact ih.cons_cons s
      · exact ih
    | element node =>
      have hnode := h node
      rw [mapChildren, Child.visibleTexts]
      cases hs : step node with
      | none =>
        rw [hs] at hnode
        rw [List.sublist_nil.1 hnode]
        exact ih
      | some kept =>
        rw [hs] at hnode
        rw [Child.visibleTexts]
        exact hnode.append ih

/-- **What is left of an element has its visible texts**, at every depth and in every place. -/
theorem sublist_expanded? (hx : x.views.GivesSlots) (depth : Nat) (place : Place) :
    place.node.visibleTexts.Sublist (visibleTextsOf (x.expanded? depth place)) := by
  induction depth generalizing place with
  | zero => exact List.Sublist.refl _
  | succ depth ih =>
    rw [expanded?, visibleTextsOf_kept?, Node.visibleTexts]
    refine (sublist_replaced hx place).trans ?_
    rw [Node.visibleTexts_eq]
    exact sublist_mapChildren fun node => ih { x.replaced place with node }

/-- **With a slot in every template, no visible text is lost or moved**: the visible texts of a
document are among those of the expanded document, in the same order, and a document that has any is
not dropped. -/
theorem visibleTexts_sublist_expand (hx : x.views.GivesSlots) (root : Node) :
    root.visibleTexts.Sublist (visibleTextsOf (x.expand root).value) ∧
      (root.visibleTexts ≠ [] → ∃ expanded, (x.expand root).value = some expanded) := by
  rw [value_expand]
  have hsub := sublist_expanded? hx x.config.classes.maxDepth ⟨root, .none, none⟩
  refine ⟨hsub, fun hne => ?_⟩
  cases he : x.expanded? x.config.classes.maxDepth ⟨root, .none, none⟩ with
  | some expanded => exact ⟨expanded, rfl⟩
  | none =>
    rw [he] at hsub
    exact absurd (List.sublist_nil.1 hsub) hne

theorem visibleTexts_sublist_expand_card :
    let tree (title : String) : Node :=
      ⟨"div", ∅, [.text title, .element ⟨"p", ∅, [.element (.leaf "Yield")]⟩]⟩
    let x : Expander := ⟨{}, .ofNames "-" ["card"], fun name bindings => pure <|
      if name = "card" then .ok (tree (((bindings.get? "title").bind Value.render?).getD ""))
      else .error (.notFound name)⟩
    let root : Node := ⟨"Card", .ofList [("title", "news")],
      [.text "a", .element ⟨"b", ∅, [.text " "]⟩, .element ⟨"card", ∅, [.text "c"]⟩]⟩
    x.views.GivesSlots ∧ root.visibleTexts = ["a", "c"] ∧
      root.visibleTexts.Sublist (visibleTextsOf (x.expand root).value) ∧
      (root.visibleTexts ≠ [] → ∃ expanded, (x.expand root).value = some expanded) := by
  intro tree x root
  have hslots : ∀ title, slotCount (tree title) = slotCount (tree "") := fun _ => rfl
  have hx : x.views.GivesSlots := by
    intro name bindings given h
    simp only [x, Logged.value_pure] at h
    split at h
    next => cases h; rw [hslots]; decide
    next => cases h
  exact ⟨hx, by decide, visibleTexts_sublist_expand hx root⟩

end Expander

end ComponentMarkup
