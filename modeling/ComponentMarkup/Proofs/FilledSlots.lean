/-
  No slot is left in an expanded document.

  * `lacks_fillSlot?`: filling the slot of any tree leaves none, if the children bring none.
  * `lacks_expand`: neither does expansion, whatever the views give.
-/
import ComponentMarkup.Proofs.PlainExpansion
import ComponentMarkup.Proofs.Splicing

namespace ComponentMarkup

open Bindings (slotName)

variable {root : Node} {children : List Child}

/-- **Filling the slot uses it up.** A tree that is filled has at most one slot, and the children
in its place have none. -/
theorem lacks_fillSlot? {filled : Node}
    (hc : ∀ child, .element child ∈ children → child.Lacks slotName)
    (h : fillSlot? children root = some filled) : filled.Lacks slotName := by
  rcases of_fillSlot? h with ⟨hnone, rfl⟩ | ⟨context, found, -, rfl, hrest⟩
  · exact hnone
  · rw [← slotCount_eq_zero_iff, context.slotCount_fill, hrest, Child.countNamed_eq_zero_iff.2 hc]

namespace Expander

variable {x : Expander} {place : Place}

theorem lacks_replaced (h : place.node.Lacks slotName) :
    (x.replaced place).node.Lacks slotName := by
  cases ha : x.applied? place with
  | none => rwa [replaced_of_none ha]
  | some result =>
    obtain ⟨name, tree, filled, -, -, hfill, rfl⟩ := of_applied? ha
    obtain ⟨attributes, scope, heq⟩ := merged_eq (x.classesFor place) place.node filled place.scope
    have hfilled := lacks_fillSlot? (fun child => h.child) hfill
    rw [heq] at ha
    rw [replaced_of_some ha]
    exact Node.lacks_of_children hfilled.root fun child hc => hfilled.child hc

/-- **What is left of an element without slots has none**, at every depth and in every place. -/
theorem lacks_expanded? (depth : Nat) (place : Place) (hn : place.node.Lacks slotName) {kept : Node}
    (h : x.expanded? depth place = some kept) : kept.Lacks slotName := by
  induction depth generalizing place kept with
  | zero =>
    cases h
    exact hn
  | succ depth ih =>
    have hreplaced := lacks_replaced (x := x) hn
    rw [expanded?, kept?] at h
    split at h
    next => cases h
    next =>
      cases h
      refine Node.lacks_of_children hreplaced.root fun child hc => ?_
      obtain ⟨node, hnode, hchild⟩ := exists_of_mem_mapChildren hc
      exact ih { x.replaced place with node } (hreplaced.child hnode) hchild

/-- **An expanded document has no slots**, unless the document has some itself: neither those of the
templates are left, whatever trees the views give, nor any below the depth limit. -/
theorem lacks_expand (x : Expander) (root : Node) (hroot : root.Lacks slotName) (kept : Node)
    (h : (x.expand root).value = some kept) : kept.Lacks slotName :=
  lacks_expanded? _ ⟨root, .none, none⟩ hroot ((value_expand root).symm.trans h)

/-- A template with its slot below a list, and one whose tree is a slot itself. -/
theorem lacks_expand_card :
    let tree : Node := ⟨"div", ∅, [.element ⟨"ul", ∅, [.element (.leaf "YIELD")]⟩]⟩
    let x : Expander := ⟨{}, .ofNames "-" ["card", "bare"], fun name _ => pure <|
      if name = "card" then .ok tree else .ok (.leaf "yield")⟩
    let root : Node := ⟨"Card", ∅, [.element ⟨"bare", ∅, [.text "a"]⟩]⟩
    root.Lacks slotName ∧ ∃ kept, (x.expand root).value = some kept ∧
      kept.Lacks slotName := by
  intro tree x root
  have hroot : root.Lacks slotName := Node.lacks_iff.2 ⟨by decide, by decide⟩
  have hsome : (x.expand root).value.isSome = true := by decide +kernel
  obtain ⟨kept, hkept⟩ := Option.isSome_iff_exists.1 hsome
  exact ⟨hroot, kept, hkept, lacks_expand x root hroot kept hkept⟩

end Expander

end ComponentMarkup
