/-
  Trees with a gap as they are written.

  * `Writer.writeAround`: what is written around a gap, with a text in it.
    `writeAround_writeChildren`: with written children in the gap this is the filled tree as it is
    written.
  * `KeepsRaw.parse_writeContext`: a text that spells an element can stand in the gap, and what is
    read is the tree with the element there, in normal form.
  * `KeepsRaw.normalize_eq_of_writeElement`: legal trees that are written alike have the same normal
    form.
-/
import ComponentMarkup.Proofs.LegalEdits
import ComponentMarkup.Proofs.RoundTrip

namespace ComponentMarkup

variable {node : Node} {children : List Child}

/-! ## Normal forms around a gap -/

namespace ChildContext

/-- The children on both sides of the gap in normal form. -/
def normalize : ChildContext → ChildContext
  | here before after =>
    here (Child.joinTexts (Child.normalizeAll before)) (Child.joinTexts (Child.normalizeAll after))
  | inside before name attributes inner after =>
    inside (Child.joinTexts (Child.normalizeAll before)) name attributes inner.normalize
      (Child.joinTexts (Child.normalizeAll after))

/-- An element in the gap keeps the texts around it apart. -/
theorem fill_normalize (node : Node) (context : ChildContext) :
    context.normalize.fill [.element node.normalize] =
      Child.joinTexts (Child.normalizeAll (context.fill [.element node])) := by
  induction context with
  | here before after =>
    rw [normalize, fill, fill, List.singleton_append, List.singleton_append,
      Child.normalizeAll_append, Child.normalizeAll, Child.joinTexts_append_element]
  | inside before name attributes inner after ih =>
    rw [normalize, fill, fill, Child.normalizeAll_append, Child.normalizeAll,
      Child.joinTexts_append_element, ih, Node.normalize]

end ChildContext

/-- The element with all children around the gap in normal form. -/
def NodeContext.normalize (context : NodeContext) : NodeContext :=
  { context with inner := context.inner.normalize }

theorem NodeContext.fill_normalize (node : Node) (context : NodeContext) :
    context.normalize.fill [.element node.normalize] = (context.fill [.element node]).normalize := by
  rw [fill, normalize, ChildContext.fill_normalize, fill, Node.normalize]

theorem Child.countNamed_joinTexts (name : String) (children : List Child) :
    countNamed name (joinTexts children) = countNamed name children := by
  induction children with
  | nil => rfl
  | cons child rest ih =>
    cases child with
    | element node => rw [joinTexts, countNamed, countNamed, ih]
    | text s =>
      rw [joinTexts, countNamed, ← ih]
      split
      next he => rw [he, countNamed, countNamed]
      next => rw [countNamed]

theorem Child.countNamed_normalizeAll (name : String) (children : List Child) :
    countNamed name (normalizeAll children) = countNamed name children := by
  induction children using Child.inductionOn with
  | nil => rfl
  | text s rest ih =>
    rw [normalizeAll, countNamed]
    split
    · exact ih
    · exact ih
  | element node rest ih ih' =>
    rw [normalizeAll, countNamed, countNamed, ih', Node.normalize_eq, Node.countNamed,
      countNamed_joinTexts, ih, ← Node.countNamed_eq]

open Bindings (slotName)

theorem Node.slotCount_normalize (node : Node) : slotCount node.normalize = slotCount node := by
  rw [slotCount, slotCount, normalize_eq, countNamed, Child.countNamed_joinTexts,
    Child.countNamed_normalizeAll, ← countNamed_eq]

theorem NodeContext.slotCount_normalize (context : NodeContext) :
    slotCount (context.normalize.fill []) = slotCount (context.fill []) := by
  have hslot := context.fill_normalize (.leaf slotName)
  have hcount := congrArg slotCount hslot
  rw [Node.slotCount_normalize, slotCount_fill, slotCount_fill context] at hcount
  exact Nat.add_right_cancel hcount

namespace Markup.Writer

variable {w : Writer} {slot : String} {context : ChildContext} {a b : Cursor}

/-! ## Writing around a gap -/

/-- Children with a gap as they are written, with a text in the gap. -/
def writeAround (w : Writer) (slot : String) : ChildContext → String
  | .here before after => w.writeChildren false before ++ (slot ++ w.writeChildren false after)
  | .inside before name attributes inner after =>
    w.writeChildren false before ++ ((writeStartTag ⟨name, attributes, []⟩ ++
      (w.writeAround slot inner ++ writeEndTag name)) ++ w.writeChildren false after)

/-- An element with a gap as it is written, with a text in the gap. -/
def writeContext (w : Writer) (slot : String) (context : NodeContext) : String :=
  w.writeAround slot (.inside [] context.name context.attributes context.inner [])

/-- The text in the gap stands between two parts that do not depend on it. -/
theorem exists_writeAround (w : Writer) (context : ChildContext) :
    ∃ before after, ∀ slot, w.writeAround slot context = before ++ (slot ++ after) := by
  induction context with
  | here before after => exact ⟨_, _, fun _ => rfl⟩
  | inside before name attributes inner after ih =>
    obtain ⟨left, right, h⟩ := ih
    refine ⟨w.writeChildren false before ++ (writeStartTag ⟨name, attributes, []⟩ ++ left),
      right ++ (writeEndTag name ++ w.writeChildren false after), fun slot => ?_⟩
    simp only [writeAround, h, String.append_assoc]

theorem writeChildren_append (kept : Bool) (children more : List Child) :
    w.writeChildren kept (children ++ more) =
      w.writeChildren kept children ++ w.writeChildren kept more := by
  induction children with
  | nil => exact String.empty_append.symm
  | cons child rest ih =>
    cases child <;> rw [List.cons_append, writeChildren, writeChildren, ih, String.append_assoc]

theorem writeElement_plain {name : String} {attributes : Attributes} {children : List Child}
    (hvoid : w.markup.voids.has name = false) (hraw : isRawName name = false) :
    w.writeElement none ⟨name, attributes, children⟩ = writeStartTag ⟨name, attributes, []⟩ ++
      (w.writeChildren false children ++ writeEndTag name) := by
  rw [writeElement_none, ← w.markup.has_voids, hvoid, Bool.false_and, if_neg Bool.false_ne_true,
    keepsBody, hraw, Bool.and_false]
  rfl

/-- What legality says about an element around the gap, and its siblings. -/
theorem of_areLegal_inside {before after : List Child} {name : String} {attributes : Attributes}
    {inner : ChildContext} (h : Child.areLegal w.markup.voids
      ((ChildContext.inside before name attributes inner after).fill [.element node]) = true) :
    Child.areLegal w.markup.voids before = true ∧ Child.areLegal w.markup.voids after = true ∧
      Node.isLegal w.markup.voids ⟨name, attributes, inner.fill [.element node]⟩ = true ∧
      Child.areLegal w.markup.voids (inner.fill [.element node]) = true ∧
      w.markup.voids.has name = false ∧ isRawName name = false := by
  rw [ChildContext.fill, Child.areLegal_append, Child.areLegal, Bool.and_eq_true] at h
  obtain ⟨hbefore, hnode, hafter⟩ := h
  obtain ⟨child, hc⟩ := inner.exists_element_fill node
  obtain ⟨-, -, -, -, hchildren⟩ := Node.isLegal_iff.1 hnode
  have hplain := Node.plain_of_element hnode hc
  exact ⟨hbefore, hafter, hnode, hchildren, hplain⟩

/-- **Written children in the gap** give what is written with the children there. -/
theorem writeAround_writeChildren
    (hl : Child.areLegal w.markup.voids (context.fill [.element node]) = true)
    (new : List Child) :
    w.writeAround (w.writeChildren false new) context = w.writeChildren false (context.fill new) := by
  induction context with
  | here before after =>
    rw [writeAround, ChildContext.fill, writeChildren_append, writeChildren_append]
  | inside before name attributes inner after ih =>
    obtain ⟨-, -, -, hinner, hvoid, hraw⟩ := of_areLegal_inside hl
    rw [writeAround, ChildContext.fill, writeChildren_append, writeChildren,
      writeElement_plain hvoid hraw, ih hinner]

theorem writeAround_normalize
    (hl : Child.areLegal w.markup.voids (context.fill [.element node]) = true) (slot : String) :
    w.writeAround slot context.normalize = w.writeAround slot context := by
  induction context with
  | here before after =>
    rw [ChildContext.fill, Child.areLegal_append, Child.areLegal_append] at hl
    rw [ChildContext.normalize, writeAround, writeAround, writeChildren_joinTexts,
      writeChildren_joinTexts, writeChildren_normalizeAll _ hl.1,
      writeChildren_normalizeAll _ hl.2.2]
  | inside before name attributes inner after ih =>
    obtain ⟨hbefore, hafter, -, hinner, -, -⟩ := of_areLegal_inside hl
    rw [ChildContext.normalize, writeAround, writeAround, writeChildren_joinTexts,
      writeChildren_joinTexts, writeChildren_normalizeAll _ hbefore,
      writeChildren_normalizeAll _ hafter, ih hinner]

section
variable {context : NodeContext} (hl : (context.fill [.element node]).isLegal w.markup.voids = true)
include hl

theorem areLegal_single : Child.areLegal w.markup.voids
    ((ChildContext.inside [] context.name context.attributes context.inner []).fill
      [.element node]) = true := by
  have hsingle : Child.areLegal w.markup.voids [.element (context.fill [.element node])] = true := by
    rw [Child.areLegal, hl]
    rfl
  exact hsingle

theorem writeContext_writeChildren (new : List Child) :
    w.writeContext (w.writeChildren false new) context = w.writeElement none (context.fill new) := by
  rw [writeContext, writeAround_writeChildren (areLegal_single hl), ← writeChildren_singleton false]
  rfl

theorem writeContext_normalize (slot : String) :
    w.writeContext slot context.normalize = w.writeContext slot context :=
  writeAround_normalize (areLegal_single hl) slot

end

/-! ## Reading around a gap -/

namespace KeepsRaw

variable (hw : w.KeepsRaw)
include hw

/-- An element that some text spells, between written children. -/
theorem spells_between {before after : List Child} {text : List Char}
    (hl : Child.areLegal w.markup.voids (before ++ .element node :: after) = true)
    (hj : Child.isJoined (before ++ .element node :: after) = true)
    (hn : Child.areNormal (before ++ .element node :: after) = true)
    (hhead : text.head? = some '<')
    (htext : ∀ {a b : Cursor}, a.Reads text b → Spells w.markup.voids [.element node] a b)
    (h : a.Reads ((w.writeChildren false before).toList ++
      (text ++ (w.writeChildren false after).toList)) b)
    (hb : ∀ c ∈ b.rest.head?, c = '<') :
    Spells w.markup.voids (before ++ .element node :: after) a b := by
  rw [Child.areLegal_append, Child.areLegal, Bool.and_eq_true] at hl
  rw [Child.isJoined_append_element, Bool.and_eq_true] at hj
  rw [Child.areNormal_append, Child.areNormal, Bool.and_eq_true, Bool.and_eq_true] at hn
  obtain ⟨opening, hbefore, h⟩ := h.split
  obtain ⟨closing, helement, hafter⟩ := h.split
  have hlt : ∀ c ∈ opening.rest.head?, c = '<' := by
    rw [helement.1, List.head?_append, hhead]
    simp
  exact (hw.spells_writeChildren hl.1 hj.1 hn.1 hbefore hlt).trans
    ((htext helement).trans (hw.spells_writeChildren hl.2.2 hj.2 hn.2.2 hafter hb))

/-- An element that is neither void nor has a raw body, with a text that spells its children between
its tags. -/
theorem spells_plain {text : List Char} (hn : node.isCanonical w.markup.voids = true)
    (hvoid : w.markup.voids.has node.name = false) (hraw : isRawName node.name = false)
    (htext : ∀ {a b : Cursor}, a.Reads text b → (∀ c ∈ b.rest.head?, c = '<') →
      Spells w.markup.voids node.children a b)
    (h : a.Reads (startTagText node.name (node.attributes.entries.map quotedAttribute) ++
      (text ++ endTagText node.name)) b) : Spells w.markup.voids [.element node] a b := by
  obtain ⟨-, hkeys, -⟩ := Node.isLegal_iff.1 (Bool.and_eq_true_iff.1 hn).1
  have hwrites : WritesChildren w.markup.voids node text :=
    ⟨fun hr => absurd hr (Bool.eq_false_iff.1 hraw), fun _ => htext⟩
  have hread : a.Reads (elementText w.markup.voids w.output.stripVoidClosing node.name
      (node.attributes.entries.map quotedAttribute) text) b := by
    rw [elementText, hvoid, if_neg Bool.false_ne_true]
    exact h
  exact spells_elementText hn hw.isRawName_of_void (isLegal_quotedAttribute hkeys)
    (map_entry_quotedAttribute _) hwrites hread

variable (hhead : slot.toList.head? = some '<')
  (hslot : ∀ {a b : Cursor}, a.Reads slot.toList b → Spells w.markup.voids [.element node] a b)
include hhead hslot

/-- A text that spells an element can stand for it in a gap. -/
theorem spells_writeAround
    (hl : Child.areLegal w.markup.voids (context.fill [.element node]) = true)
    (hj : Child.isJoined (context.fill [.element node]) = true)
    (hn : Child.areNormal (context.fill [.element node]) = true)
    (h : a.Reads (w.writeAround slot context).toList b) (hb : ∀ c ∈ b.rest.head?, c = '<') :
    Spells w.markup.voids (context.fill [.element node]) a b := by
  induction context generalizing a b with
  | here before after =>
    rw [writeAround, String.toList_append, String.toList_append] at h
    exact hw.spells_between hl hj hn hhead hslot h hb
  | inside before name attributes inner after ih =>
    obtain ⟨-, -, hnode, hinner, hvoid, hraw⟩ := of_areLegal_inside hl
    have hnormal : Node.isNormal ⟨name, attributes, inner.fill [.element node]⟩ = true := by
      rw [ChildContext.fill, Child.areNormal_append, Child.areNormal, Bool.and_eq_true,
        Bool.and_eq_true] at hn
      exact hn.2.1
    obtain ⟨hjoined, hnormals⟩ := Bool.and_eq_true_iff.1 hnormal
    have hcanonical : Node.isCanonical w.markup.voids
        ⟨name, attributes, inner.fill [.element node]⟩ = true :=
      Bool.and_eq_true_iff.2 ⟨hnode, hnormal⟩
    rw [writeAround, String.toList_append, String.toList_append, String.toList_append,
      String.toList_append, toList_writeStartTag, toList_writeEndTag] at h
    exact hw.spells_between hl hj hn rfl
      (hw.spells_plain hcanonical hvoid hraw (ih hinner hjoined hnormals)) h hb

/-- **A text that spells an element is read as it**, in the gap of any legal tree. -/
theorem parse_writeContext {context : NodeContext}
    (hl : (context.fill [.element node]).isLegal w.markup.voids = true)
    (hn : node.isNormal = true) : (parse w.markup.voids (w.writeContext slot context)).value =
      .ok (context.normalize.fill [.element node]) := by
  have hfill := context.fill_normalize node
  rw [Node.normalize_eq_self hn] at hfill
  have hlegal : (context.normalize.fill [.element node]).isLegal w.markup.voids = true := by
    rw [hfill]
    exact Node.isLegal_normalize hl
  have hnormal : Child.areNormal [.element (context.normalize.fill [.element node])] = true := by
    rw [Child.areNormal, hfill, Node.isNormal_normalize]
    rfl
  have hread := Cursor.reads_finish (.ofString (w.writeContext slot context.normalize))
  rw [← writeContext_normalize hl]
  exact parse_of_spells
    (hw.spells_writeAround hhead hslot (areLegal_single hlegal) rfl hnormal hread
      (by rintro _ ⟨⟩)) rfl

end KeepsRaw

/-- **Legal trees that are written alike have the same normal form.** -/
theorem KeepsRaw.normalize_eq_of_writeElement (hw : w.KeepsRaw) {m n : Node}
    (hm : m.isLegal w.markup.voids = true) (hn : n.isLegal w.markup.voids = true)
    (h : w.writeElement none m = w.writeElement none n) : m.normalize = n.normalize := by
  have hparse := hw.parse_writeElement hm
  rw [h, hw.parse_writeElement hn] at hparse
  exact (Except.ok.inj hparse).symm

/-- It makes no difference to the normal form whether the children around a gap are normalized before
it is filled. -/
theorem KeepsRaw.normalize_fill_normalize (hw : w.KeepsRaw) {context : NodeContext}
    (hl : (context.fill [.element node]).isLegal w.markup.voids = true)
    (hn : node.isNormal = true) (hc : Child.areLegal w.markup.voids children = true) :
    (context.normalize.fill children).normalize = (context.fill children).normalize := by
  have hlegal : (context.normalize.fill [.element node]).isLegal w.markup.voids = true := by
    rw [← Node.normalize_eq_self hn, context.fill_normalize]
    exact Node.isLegal_normalize hl
  refine hw.normalize_eq_of_writeElement (NodeContext.isLegal_fill hlegal hc)
    (NodeContext.isLegal_fill hl hc) ?_
  rw [← writeContext_writeChildren hlegal, ← writeContext_writeChildren hl, writeContext_normalize hl]

end Markup.Writer

end ComponentMarkup
