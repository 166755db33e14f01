/-
  Splicing as an edit of a tree.

  * `ChildContext.eq_of_fill_eq`: where only one element has a name, there is only one gap in which
    an element with the name can be.
  * `Node.splice_replaces`: splicing does nothing if no element is counted. Otherwise it replaces
    one element and keeps all around it. What is counted afterwards is what was counted before
    without that element and those below it, together with those among the children in its place.
    If only one element was counted, it is the one that is replaced.
-/
import Mathlib.Data.List.Basic
import ComponentMarkup.Proofs.Splicing

namespace ComponentMarkup

variable {name : String} {node found found' : Node} {child child' : Child}
  {children before after before' after' : List Child}

/-! ## The only gap -/

theorem Child.not_mem_of_countNamed (h : countNamed name children = 0)
    (hchild : countNamed name [child] ≠ 0) : child ∉ children := by
  intro hmem
  obtain ⟨before, after, rfl⟩ := List.append_of_mem hmem
  rw [← List.singleton_append, countNamed_append, countNamed_append] at h
  omega

/-- Children of which one counts are taken apart at it in one way. -/
theorem Child.eq_of_append_cons (hone : countNamed name (before ++ child :: after) = 1)
    (hchild : countNamed name [child] ≠ 0) (hchild' : countNamed name [child'] ≠ 0)
    (h : before ++ child :: after = before' ++ child' :: after') :
    before = before' ∧ child = child' ∧ after = after' := by
  rw [← List.singleton_append, countNamed_append, countNamed_append] at hone
  have hbefore : child' ∉ before := not_mem_of_countNamed (by omega) hchild'
  have hafter : child' ∉ after := not_mem_of_countNamed (by omega) hchild'
  exact (List.append_cons_inj_of_notMem hbefore hafter).1 h

theorem Child.countNamed_element (name : String) (node : Node) :
    countNamed name [.element node] =
      (if Text.sameName node.name name then 1 else 0) + Child.countNamed name node.children := by
  rw [countNamed, countNamed, Nat.add_zero, Node.countNamed_eq]

theorem Child.countNamed_element_ne_zero (h : Text.sameName node.name name = true) :
    countNamed name [.element node] ≠ 0 := by
  rw [countNamed_element, if_pos h]
  omega

theorem ChildContext.countNamed_fill_ne_zero (hname : Text.sameName found.name name = true)
    (context : ChildContext) : Child.countNamed name (context.fill [.element found]) ≠ 0 := by
  have := Child.countNamed_element_ne_zero hname
  rw [countNamed_fill]
  omega

/-- An element with the name that has one below it is not the only one. -/
theorem ChildContext.countNamed_element_ne_one (hname : Text.sameName node.name name = true)
    (hfound : Text.sameName found.name name = true) {context : ChildContext}
    (h : node.children = context.fill [.element found]) :
    Child.countNamed name (before ++ .element node :: after) ≠ 1 := by
  have := countNamed_fill_ne_zero hfound context
  rw [← List.singleton_append, Child.countNamed_append, Child.countNamed_append,
    Child.countNamed_element, if_pos hname, h]
  omega

/-- **The only gap**: if one element has the name, contexts with such an element in the gap that
give the same children are the same. -/
theorem ChildContext.eq_of_fill_eq {context context' : ChildContext}
    (hname : Text.sameName found.name name = true) (hname' : Text.sameName found'.name name = true)
    (hone : Child.countNamed name (context.fill [.element found]) = 1)
    (h : context.fill [.element found] = context'.fill [.element found']) :
    context = context' ∧ found = found' := by
  have hcounts := Child.countNamed_element_ne_zero hname
  have hcounts' := Child.countNamed_element_ne_zero hname'
  have hinside (tag : String) (attributes : Attributes) (inner : ChildContext) {node : Node}
      (hnode : Text.sameName node.name name = true) :
      Child.countNamed name [.element ⟨tag, attributes, inner.fill [.element node]⟩] ≠ 0 := by
    have := countNamed_fill_ne_zero hnode inner
    rw [Child.countNamed_element]
    dsimp only
    omega
  induction context generalizing context' with
  | here before after =>
    cases context' with
    | here before' after' =>
      obtain ⟨rfl, heq, rfl⟩ := Child.eq_of_append_cons hone hcounts hcounts' h
      exact ⟨rfl, Child.element.inj heq⟩
    | inside before' tag attributes inner after' =>
      obtain ⟨-, heq, -⟩ :=
        Child.eq_of_append_cons hone hcounts (hinside tag attributes inner hname') h
      exact absurd hone (countNamed_element_ne_one hname hname'
        (congrArg Node.children (Child.element.inj heq)))
  | inside before tag attributes inner after ih =>
    have hcounted := hinside tag attributes inner hname
    cases context' with
    | here before' after' =>
      obtain ⟨-, heq, -⟩ := Child.eq_of_append_cons hone hcounted hcounts' h
      rw [fill, heq] at hone
      exact absurd hone (countNamed_element_ne_one hname' hname
        (congrArg Node.children (Child.element.inj heq)).symm)
    | inside before' tag' attributes' inner' after' =>
      obtain ⟨rfl, heq, rfl⟩ :=
        Child.eq_of_append_cons hone hcounted (hinside tag' attributes' inner' hname') h
      obtain ⟨rfl, rfl, hfill⟩ := Node.mk.inj (Child.element.inj heq)
      have hinner : Child.countNamed name (inner.fill [.element found]) = 1 := by
        have := countNamed_fill_ne_zero hname inner
        rw [fill, ← List.singleton_append, Child.countNamed_append, Child.countNamed_append,
          Child.countNamed_element] at hone
        dsimp only at hone
        omega
      obtain ⟨rfl, rfl⟩ := ih hinner hfill
      exact ⟨rfl, rfl⟩

/-! ## The edit -/

/-- **Splicing replaces one element and touches nothing else.** It does nothing if no element below
the node has the name. Otherwise the children take the place of one that has it: the tree is a
context with that element in its gap, and becomes the same context with the children in the gap.
So one element with the name is left out together with those below it, those among the children are
added, and if there was one only, no other element with the name could have been in any gap. -/
theorem Node.splice_replaces (name : String) (new : List Child) (node : Node) :
    (node.countNamed name = 0 ∧ node.splice name new = (false, node)) ∨
    (node.countNamed name ≠ 0 ∧ ∃ (context : NodeContext) (found : Node),
      Text.sameName found.name name = true ∧ node = context.fill [.element found] ∧
      node.splice name new = (true, context.fill new) ∧
      (context.fill new).countNamed name + 1 + found.countNamed name =
        node.countNamed name + Child.countNamed name new ∧
      (node.countNamed name = 1 → ∀ (context' : NodeContext) (found' : Node),
        Text.sameName found'.name name = true → node = context'.fill [.element found'] →
          context = context' ∧ found = found')) := by
  by_cases hcount : node.countNamed name = 0
  · refine .inl ⟨hcount, ?_⟩
    rw [splice, spliceNamed?_of_countNamed hcount]
  · refine .inr ⟨hcount, ?_⟩
    obtain ⟨spliced, hs⟩ := exists_spliceNamed? new hcount
    obtain ⟨context, found, hname, rfl, rfl⟩ := splices_of_spliceNamed? hs
    refine ⟨context, found, hname, rfl, by rw [splice, hs], ?_, ?_⟩
    · rw [context.countNamed_fill name new, context.countNamed_fill name [.element found],
        Child.countNamed_element, if_pos hname, countNamed_eq found]
      omega
    · intro hone context' found' hname' h
      obtain ⟨htag, hattributes, hfill⟩ := Node.mk.inj h
      rw [NodeContext.fill, countNamed] at hone
      obtain ⟨hinner, hfound⟩ := ChildContext.eq_of_fill_eq hname hname' hone hfill
      refine ⟨?_, hfound⟩
      obtain ⟨tag, attributes, inner⟩ := context
      exact (NodeContext.mk.injEq ..).mpr ⟨htag, hattributes, hinner⟩

/-- A direct child is replaced before one that comes earlier but stands deeper. -/
example : Node.splice "slot" [.text "x"]
    ⟨"p", ∅, [.element ⟨"b", ∅, [.element (.leaf "slot")]⟩, .element (.leaf "SLOT")]⟩ =
      (true, ⟨"p", ∅, [.element ⟨"b", ∅, [.element (.leaf "slot")]⟩, .text "x"]⟩) := by
  rfl

end ComponentMarkup
