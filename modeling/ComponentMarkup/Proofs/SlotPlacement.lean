/-
  Two ways in which a template places the children of a component.

  * `value_runSource`: a source whose placeholders are filled in is read as a tree.
  * `value_runSource_slot`: with a slot element in the gap of a written tree, the view gives that tree
    in normal form.
  * `value_runSource_placeholder`: with the placeholder for the markup of the children, it gives the
    tree that is filled with them, in normal form.
  * `Expander.applyTemplate_slot_placeholder`: a component becomes the same, up to normal form.
-/
import ComponentMarkup.Proofs.Placeholders
import ComponentMarkup.Proofs.ReservedKeys
import ComponentMarkup.Proofs.TemplateApplication
import ComponentMarkup.Proofs.WrittenContext

namespace ComponentMarkup

open Bindings (slotName)
open Markup (Cursor Spells Writer isRawName)

/-! ## Views -/

/-- A view whose filled-in source is read as a tree gives that tree, if it is no document. -/
theorem value_runSource {voids : Markup.VoidTags} {name source markup : String} {bindings : Bindings}
    {template : Template} {root : Node} (ht : Template.parse source = .ok template)
    (hr : (template.render fun key => (bindings.get? key).bind Value.render?) = markup)
    (hp : (Markup.parse voids markup).value = .ok root)
    (hroot : Text.sameName root.name "html" = false) :
    (runSource voids name source bindings).value = .ok root := by
  unfold runSource
  rw [ht]
  simp only [Logged.value_bind, hr, hp]
  rw [bodyOf, hroot, if_neg Bool.false_ne_true]
  rfl

/-- A slot as it is written in a template. -/
def slotTag : String := "<" ++ slotName ++ "/>"

theorem toList_slotTag : slotTag.toList = '<' :: (slotName.toList ++ ['/', '>']) := by
  simp [slotTag]

theorem spells_slotTag {voids : Markup.VoidTags} {a b : Cursor} (h : a.Reads slotTag.toList b) :
    Spells voids [.element (.leaf slotName)] a b := by
  rw [toList_slotTag] at h
  exact .selfClosed (by decide) h

section
variable {w : Writer} {context : NodeContext}

/-- Around the gap no placeholder begins. -/
theorem exists_writeContext (h : '{' ∉ (w.writeContext "" context).toList) :
    ∃ before after, bracesApart before.toList = true ∧ bracesApart after.toList = true ∧
      ∀ slot, w.writeContext slot context = before ++ (slot ++ after) := by
  obtain ⟨before, after, hsource⟩ := w.exists_writeAround
    (.inside [] context.name context.attributes context.inner [])
  rw [Writer.writeContext, hsource, String.empty_append, String.toList_append, List.mem_append,
    not_or] at h
  exact ⟨before, after, bracesApart_of_not_mem h.1, bracesApart_of_not_mem h.2, hsource⟩

variable (hw : w.KeepsRaw)
  (hl : (context.fill [.element (.leaf slotName)]).isLegal w.markup.voids = true)
  (hroot : Text.sameName context.name "html" = false)
  (hbrace : '{' ∉ (w.writeContext "" context).toList)
include hw hl hroot hbrace

/-- **A slot element in the gap** stays there, and the tree around it is in normal form. -/
theorem value_runSource_slot (name : String) (bindings : Bindings) :
    (runSource w.markup.voids name (w.writeContext slotTag context) bindings).value =
      .ok (context.normalize.fill [.element (.leaf slotName)]) := by
  obtain ⟨before, after, hbefore, hafter, hsource⟩ := exists_writeContext hbrace
  have hslot : bracesApart slotTag.toList = true := by decide
  have happart : bracesApart (w.writeContext slotTag context).toList = true := by
    rw [hsource, String.toList_append, String.toList_append]
    exact bracesApart_append hbefore (bracesApart_append hslot hafter)
  obtain ⟨template, ht, hrender⟩ := Template.parse_literal happart
  have hparse := hw.parse_writeContext (by rw [toList_slotTag]; rfl) spells_slotTag hl rfl
  exact value_runSource ht (hrender _) hparse hroot

/-- **The placeholder for the markup of the children in the gap** gives the tree that is filled with
them, in normal form. -/
theorem value_runSource_placeholder (name : String) {bindings : Bindings} {children : List Child}
    (hc : Child.areLegal w.markup.voids children = true)
    (hinner : bindings.get? slotName = some (.text (w.writeChildren false children))) :
    (runSource w.markup.voids name (w.writeContext (Piece.rawMark slotName) context) bindings).value =
      .ok (context.fill children).normalize := by
  obtain ⟨before, after, hbefore, hafter, hsource⟩ := exists_writeContext hbrace
  have hkey : Template.isLegalKey slotName = true := by decide
  obtain ⟨template, ht, hrender⟩ := Template.parse_rawMark hkey hbefore hafter
  rw [← hsource] at ht
  have hwritten : (template.render fun key => (bindings.get? key).bind Value.render?) =
      w.writeElement none (context.fill children) := by
    rw [hrender, hinner, Option.bind_some, Value.render?, Option.getD_some, ← hsource,
      Writer.writeContext_writeChildren hl]
  have hparse := hw.parse_writeElement (NodeContext.isLegal_fill hl hc)
  refine value_runSource ht hwritten hparse ?_
  rw [Node.normalize_eq]
  exact hroot

end

namespace Expander

variable {x : Expander} {s : Surroundings} {node : Node} {scope : Option String}

variable (x) in
/-- Writing with the settings of the expander. -/
def writer : Writer := ⟨x.config.output, x.config.markup⟩

/-- A component whose children are no raw body finds them written out under the name of the slot. -/
theorem get?_bindingsIn (hname : isRawName node.name = false) :
    (x.bindingsIn s node scope).get? slotName =
      some (.text (x.writer.writeChildren false node.children)) := by
  have hinner : x.writer.renderInner node = x.writer.writeChildren false node.children := by
    rw [Writer.renderInner, Writer.keepsBody, hname, Bool.and_false]
  have hreserved : (slotName, Value.text (x.writer.renderInner node)) ∈
      Bindings.reserved node s.parents (x.classesIn s node scope) (x.writer.renderInner node) := by
    simp [Bindings.reserved]
  rw [← hinner]
  exact Bindings.get?_ofNode hreserved

/-- **The two ways to place children agree.** A template is a written tree with a gap, which stands
where an element may stand, as the slot element in it makes sure. Whether the slot is in the gap or
the placeholder for the markup of the children, a component with legal children becomes the same
tree up to normal form, and the scope of the children is the same. -/
theorem applyTemplate_slot_placeholder (x : Expander)
    (hvoid : ∀ tag ∈ x.config.markup.voidTags, isRawName tag = false)
    (hbody : x.config.output.preserveScriptBody = true) {context : NodeContext}
    (hl : (context.fill [.element (.leaf slotName)]).isLegal x.config.markup.voids = true)
    (hroot : Text.sameName context.name "html" = false)
    (hbrace : '{' ∉ (x.writer.writeContext "" context).toList)
    (hslots : slotCount (context.fill []) = 0) {a b : String}
    (ha : x.views a =
      runSource x.config.markup.voids a (x.writer.writeContext "<yield/>" context))
    (hb : x.views b = runSource x.config.markup.voids b
      (x.writer.writeContext "\x7b\x7b\x7b yield \x7d\x7d\x7d" context))
    (s : Surroundings) (scope : Option String) {node : Node}
    (hname : isRawName node.name = false)
    (hc : Child.areLegal x.config.markup.voids node.children = true)
    (hnone : node.countNamed slotName = 0) : ∃ rootA rootB inner,
      (x.applyTemplate s node [a] scope).value = .ok (rootA, inner) ∧
      (x.applyTemplate s node [b] scope).value = .ok (rootB, inner) ∧
      rootA.normalize = rootB.normalize := by
  have hw : x.writer.KeepsRaw := ⟨hbody, hvoid⟩
  -- the trees that the two templates give, and what is put into their slots
  have hviewA : (x.views a (x.bindingsIn s node scope)).value =
      .ok (context.normalize.fill [.element (.leaf slotName)]) := by
    rw [ha]
    exact value_runSource_slot hw hl hroot hbrace a _
  have hviewB : (x.views b (x.bindingsIn s node scope)).value =
      .ok (context.fill node.children).normalize := by
    rw [hb]
    exact value_runSource_placeholder hw hl hroot hbrace b hc (get?_bindingsIn hname)
  have hfillA : fillSlot? node.children (context.normalize.fill [.element (.leaf slotName)]) =
      some (context.normalize.fill node.children) :=
    NodeContext.fillSlot?_fill _ (context.slotCount_normalize.trans hslots) _
  have hfillB : fillSlot? node.children (context.fill node.children).normalize =
      some (context.fill node.children).normalize := by
    have hcount : slotCount (context.fill node.children).normalize = 0 := by
      rw [Node.slotCount_normalize, NodeContext.slotCount_fill, hslots, ← Node.countNamed_eq, hnone]
    rw [fillSlot?, if_pos hcount]
  obtain ⟨attributes, inner, hmerged⟩ := exists_merged (x := x) (x.classesIn s node scope) node scope
    context.name context.attributes
  have happlyA := value_applyTemplate_single hviewA hfillA
  have happlyB := value_applyTemplate_single hviewB hfillB
  rw [NodeContext.fill, NodeContext.normalize, hmerged] at happlyA
  rw [NodeContext.fill, Node.normalize, hmerged] at happlyB
  refine ⟨_, _, inner, happlyA, happlyB, ?_⟩
  have hsame : (context.normalize.fill node.children).normalize =
      (context.fill node.children).normalize.normalize := by
    rw [Node.normalize_eq_self (Node.isNormal_normalize _)]
    exact hw.normalize_fill_normalize hl rfl hc
  exact Node.normalize_congr hsame context.name attributes

/-- The gap is between two texts, and the children begin and end with texts. -/
theorem applyTemplate_slot_placeholder_list :
    let context : NodeContext := ⟨"div", .ofList [("class", "box")],
      .inside [.text "x"] "ul" ∅ (.here [.text "1 <"] [.text "2", .element (.leaf "br")]) []⟩
    let written (slot : String) := Writer.writeContext ⟨{}, {}⟩ slot context
    let view := runSource (MarkupConfig.voids {})
    let views : Views := fun name =>
      if name = "a" then view "a" (written "<yield/>")
      else view "b" (written "\x7b\x7b\x7b yield \x7d\x7d\x7d")
    let x : Expander := ⟨{}, .ofNames "-" ["a", "b"], views⟩
    let node : Node := ⟨"Card", .ofList [("class", "big"), ("yield", "no")],
      [.text "a & b", .element ⟨"i", ∅, [.text ""]⟩, .text "c"]⟩
    ∃ rootA rootB inner,
      (x.applyTemplate ⟨["Card"], ["card"]⟩ node ["a"] none).value = .ok (rootA, inner) ∧
      (x.applyTemplate ⟨["Card"], ["card"]⟩ node ["b"] none).value = .ok (rootB, inner) ∧
      rootA.normalize = rootB.normalize := by
  intro context written view views x node
  exact applyTemplate_slot_placeholder x (by decide) rfl (by decide +kernel) (by decide)
    (by decide +kernel) (by decide) (if_pos rfl) (if_neg (by decide)) _ _ (by decide)
    (by decide +kernel) (by decide)

end Expander

end ComponentMarkup
