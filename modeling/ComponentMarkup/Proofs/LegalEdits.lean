/-
  Edits that keep a tree legal.

  * `Node.isLegal_withAttributes`, `Node.isLegal_withChildren`: other attributes with legal names,
    and other children for an element that has an element among its own.
  * `isLegal_mergeAttributes`, `isLegal_fillSlot?`: a component and the tree of its template made
    one.
  * `isLegal_bodyOf`: the body of a document.
-/
import ComponentMarkup.Expansion.Merge
import ComponentMarkup.Proofs.LegalTree
import ComponentMarkup.Proofs.Splicing
import ComponentMarkup.View.Basic

namespace ComponentMarkup

open Markup (VoidTags isRawName)

variable {voids : VoidTags} {node root component : Node} {children new : List Child}

/-! ## Attributes -/

theorem Node.isLegal_withAttributes {attributes : Attributes} (h : node.isLegal voids = true)
    (hk : ∀ key ∈ attributes.keys, isLegalKey key = true) :
    Node.isLegal voids { node with attributes } = true := by
  obtain ⟨hname, -, hrest⟩ := isLegal_iff.1 h
  exact isLegal_iff.2 ⟨hname, hk, hrest⟩

theorem Node.isLegal_setAttribute {key value : String} (hk : isLegalKey key = true)
    (h : node.isLegal voids = true) : (node.setAttribute key value).isLegal voids = true := by
  obtain ⟨-, hkeys, -⟩ := isLegal_iff.1 h
  refine isLegal_withAttributes h ?_
  rw [OrderedMap.keys_insert]
  split
  · exact hkeys
  · intro k hmem
    rcases List.mem_append.1 hmem with hold | hnew
    · exact hkeys k hold
    · rw [List.mem_singleton.1 hnew]
      exact hk

theorem Node.isLegal_removeAttribute {key : String} (h : node.isLegal voids = true) :
    (node.removeAttribute key).isLegal voids = true := by
  obtain ⟨-, hkeys, -⟩ := isLegal_iff.1 h
  refine isLegal_withAttributes h fun k hmem => hkeys k ?_
  rw [OrderedMap.keys_erase] at hmem
  exact (List.mem_filter.1 hmem).1

theorem Node.isLegalKey_of_attribute? {key value : String} (h : node.isLegal voids = true)
    (ha : node.attribute? key = some value) : isLegalKey key = true := by
  obtain ⟨-, hkeys, -⟩ := isLegal_iff.1 h
  exact hkeys key (List.mem_map_of_mem (OrderedMap.get?_eq_some_iff.1 ha))

theorem isLegal_passOn {passAttributes : List String} (hc : component.isLegal voids = true)
    (hr : root.isLegal voids = true) :
    (passOn passAttributes component root).isLegal voids = true := by
  unfold passOn
  induction passAttributes generalizing root with
  | nil => exact hr
  | cons key keys ih =>
    rw [List.foldl_cons]
    apply ih
    split
    · exact hr
    · split
      next ha => exact Node.isLegal_setAttribute (Node.isLegalKey_of_attribute? hc ha) hr
      next => exact hr

theorem isLegal_mergeClasses {computed : String} (hr : root.isLegal voids = true) :
    (mergeClasses computed component root).isLegal voids = true := by
  unfold mergeClasses
  split
  · exact Node.isLegal_removeAttribute hr
  · exact Node.isLegal_setAttribute (by decide) hr

/-- **Merging attributes and classes keeps a tree legal.** -/
theorem isLegal_mergeAttributes {markup : MarkupConfig} {computed : String}
    (hc : component.isLegal voids = true) (hr : root.isLegal voids = true) :
    (mergeAttributes markup computed component root).isLegal voids = true :=
  isLegal_mergeClasses (isLegal_passOn hc hr)

/-! ## Children -/

theorem isRawContent_of_element {name : String} (h : .element node ∈ children) :
    isRawContent name children = false := by
  unfold isRawContent
  split
  · cases h
  · rcases List.mem_singleton.1 h
  · rfl

/-- An element with an element child is neither void nor does it have a raw body. -/
theorem Node.plain_of_element (h : root.isLegal voids = true) (he : .element node ∈ root.children) :
    voids.has root.name = false ∧ isRawName root.name = false := by
  obtain ⟨-, -, hvoid, hraw, -⟩ := isLegal_iff.1 h
  constructor <;> rw [← Bool.not_eq_true]
  · intro hv
    rw [hvoid hv] at he
    cases he
  · intro hr
    have := hraw hr
    rw [isRawContent_of_element he] at this
    cases this

/-- An element with an element among its children can have any other legal children. -/
theorem Node.isLegal_withChildren (h : root.isLegal voids = true)
    (he : .element node ∈ root.children) (hc : Child.areLegal voids children = true) :
    Node.isLegal voids ⟨root.name, root.attributes, children⟩ = true := by
  obtain ⟨hname, hkeys, -⟩ := isLegal_iff.1 h
  obtain ⟨hvoid, hraw⟩ := plain_of_element h he
  refine isLegal_iff.2 ⟨hname, hkeys, fun hv => ?_, fun hr => ?_, hc⟩
  · rw [hvoid] at hv
    cases hv
  · rw [hraw] at hr
    cases hr

/-- An element in the gap keeps void elements and raw bodies away from it. -/
theorem Child.areLegal_fill {context : ChildContext}
    (h : areLegal voids (context.fill [.element node]) = true) (hn : areLegal voids new = true) :
    areLegal voids (context.fill new) = true := by
  induction context with
  | here before after =>
    simp only [ChildContext.fill, areLegal_append] at h ⊢
    exact ⟨h.1, hn, h.2.2⟩
  | inside before name attributes inner after ih =>
    simp only [ChildContext.fill, areLegal_append, areLegal, Bool.and_eq_true] at h ⊢
    obtain ⟨hbefore, hnode, hafter⟩ := h
    obtain ⟨child, hc⟩ := inner.exists_element_fill node
    obtain ⟨-, -, -, -, hchildren⟩ := Node.isLegal_iff.1 hnode
    have hfilled := Node.isLegal_withChildren hnode hc (ih hchildren)
    exact ⟨hbefore, hfilled, hafter⟩

theorem NodeContext.isLegal_fill {context : NodeContext}
    (h : (context.fill [.element node]).isLegal voids = true)
    (hn : Child.areLegal voids new = true) : (context.fill new).isLegal voids = true := by
  obtain ⟨child, hc⟩ := context.inner.exists_element_fill node
  obtain ⟨-, -, -, -, hchildren⟩ := Node.isLegal_iff.1 h
  have hfilled := Node.isLegal_withChildren h hc (Child.areLegal_fill hchildren hn)
  exact hfilled

/-- **Filling the slot keeps a tree legal.** -/
theorem isLegal_fillSlot? {filled : Node} (hc : Child.areLegal voids children = true)
    (hr : root.isLegal voids = true) (h : fillSlot? children root = some filled) :
    filled.isLegal voids = true := by
  rcases of_fillSlot? h with ⟨-, rfl⟩ | ⟨context, found, rfl, rfl, -⟩
  · exact hr
  · exact NodeContext.isLegal_fill hr hc

/-! ## Documents -/

theorem isLegal_bodyOf (h : root.isLegal voids = true) : (bodyOf root).isLegal voids = true := by
  obtain ⟨-, -, -, -, hchildren⟩ := Node.isLegal_iff.1 h
  unfold bodyOf
  split
  · cases hb : root.elements.find? fun node => Text.sameName node.name "body" with
    | none => exact h
    | some body =>
      obtain ⟨child, hmem, he⟩ := List.mem_filterMap.1 (List.mem_of_find?_eq_some hb)
      cases child with
      | text => cases he
      | element node => cases he; exact Child.areLegal_iff.1 hchildren _ hmem
  · exact h

end ComponentMarkup
