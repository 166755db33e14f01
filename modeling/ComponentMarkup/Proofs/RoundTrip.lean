/-
  Writing a tree and reading it back.

  * `spells_writeElement`, `spells_writeChildren`: what is written without indentation spells the
    tree, provided that the tree is canonical and raw bodies are kept.
  * `parse_render`: reading a written tree gives it back.
  * `writeElement_normalize`: a legal tree and its normal form are written alike.
-/
import ComponentMarkup.Markup.Writer
import ComponentMarkup.Proofs.Spelling

namespace ComponentMarkup.Markup.Writer

/-! ## Tags -/

/-- An attribute as it is written: the value escaped, between double quotes. -/
def quotedAttribute (attr : String × String) : QuotedAttribute :=
  ⟨attr.1, '"', (escapeAttribute attr.2).toList⟩

theorem toList_writeAttribute (attr : String × String) :
    (writeAttribute attr).toList = (quotedAttribute attr).text := by
  simp [writeAttribute, QuotedAttribute.text, quotedAttribute]

theorem entry_quotedAttribute (attr : String × String) : (quotedAttribute attr).entry = attr := by
  rw [QuotedAttribute.entry, quotedAttribute, (encodes_escapeAttribute attr.2).decode,
    String.ofList_toList]

theorem map_entry_quotedAttribute (entries : List (String × String)) :
    (entries.map quotedAttribute).map QuotedAttribute.entry = entries := by
  rw [List.map_map]
  exact (List.map_congr_left fun attr _ => entry_quotedAttribute attr).trans (List.map_id _)

theorem isLegal_quotedAttribute {attributes : Attributes}
    (h : ∀ key ∈ attributes.keys, isLegalKey key = true) :
    ∀ attr ∈ attributes.entries.map quotedAttribute, attr.IsLegal := by
  intro attr ha
  obtain ⟨entry, he, rfl⟩ := List.mem_map.1 ha
  have hkey : entry.1 ∈ attributes.keys := List.mem_map_of_mem he
  simpa [QuotedAttribute.IsLegal, quotedAttribute] using
    And.intro (h entry.1 hkey) (quote_not_mem_escapeAttribute entry.2)

theorem toList_writeStartTag (node : Node) : (writeStartTag node).toList =
    startTagText node.name (node.attributes.entries.map quotedAttribute) := by
  have hattrs : (String.join (node.attributes.entries.map writeAttribute)).toList =
      (node.attributes.entries.map quotedAttribute).flatMap QuotedAttribute.text := by
    rw [String.toList_join, List.flatMap_map, List.flatMap_map]
    exact congrArg (List.flatMap · _) (funext toList_writeAttribute)
  simp [writeStartTag, startTagText, hattrs]

theorem toList_writeEndTag (name : String) : (writeEndTag name).toList = endTagText name := by
  simp [writeEndTag, endTagText]

/-! ## Elements on one line -/

variable {w : Writer} {node : Node} {children : List Child} {a b : Cursor}

theorem writeElement_eq (w : Writer) (indent : Option Nat) (node : Node) :
    w.writeElement indent node = writeStartTag node ++
      if w.markup.isVoid node.name && node.children.isEmpty then
        if w.output.stripVoidClosing then "" else writeEndTag node.name
      else
        match w.blockDepth? indent node with
        | some depth =>
          w.writeLines (depth + 1) node.children ++ newLine depth ++ writeEndTag node.name
        | none =>
          w.writeChildren (w.keepsBody node.name) node.children ++ writeEndTag node.name := by
  cases node
  unfold writeElement
  rfl

theorem writeElement_none (w : Writer) (node : Node) : w.writeElement none node =
    writeStartTag node ++
      if w.markup.isVoid node.name && node.children.isEmpty then
        if w.output.stripVoidClosing then "" else writeEndTag node.name
      else w.writeChildren (w.keepsBody node.name) node.children ++ writeEndTag node.name := by
  have hblock : w.blockDepth? none node = none := by
    unfold blockDepth?
    split <;> rfl
  rw [writeElement_eq, hblock]

theorem writeChildren_singleton (kept : Bool) (node : Node) :
    w.writeChildren kept [.element node] = w.writeElement none node := by
  rw [writeChildren, writeChildren, String.append_empty]

theorem render_of_not_format (h : w.output.format = false) (node : Node) :
    w.render node = w.writeElement none node := by
  rw [render, h]
  rfl

theorem toList_writeElement (hl : node.isLegal w.markup.voids = true) :
    (w.writeElement none node).toList =
      elementText w.markup.voids w.output.stripVoidClosing node.name
        (node.attributes.entries.map quotedAttribute)
        (w.writeChildren (w.keepsBody node.name) node.children).toList := by
  obtain ⟨-, -, hchildless, -, -⟩ := Node.isLegal_iff.1 hl
  rw [writeElement_none, elementText, String.toList_append, toList_writeStartTag]
  cases hv : w.markup.isVoid node.name with
  | true =>
    rw [(w.markup.has_voids node.name).trans hv, if_pos rfl,
      hchildless ((w.markup.has_voids node.name).trans hv)]
    cases w.output.stripVoidClosing with
    | true => rfl
    | false => rw [← toList_writeEndTag]; rfl
  | false =>
    rw [(w.markup.has_voids node.name).trans hv, Bool.false_and, if_neg Bool.false_ne_true,
      if_neg Bool.false_ne_true, String.toList_append, toList_writeEndTag]

theorem writeElement_none_head (w : Writer) (node : Node) :
    ∃ cs, (w.writeElement none node).toList = '<' :: cs := by
  rw [writeElement_none, String.toList_append, toList_writeStartTag]
  exact ⟨_, rfl⟩

/-! ## Written trees spell themselves -/

/-- The settings under which raw bodies are written and read alike. -/
structure KeepsRaw (w : Writer) : Prop where
  preserves : w.output.preserveScriptBody = true
  notVoid : ∀ tag ∈ w.markup.voidTags, isRawName tag = false

theorem isRawName_congr {a b : String} (h : Text.sameName a b = true) :
    isRawName a = isRawName b := by
  rw [Text.sameName_iff] at h
  simp only [isRawName, Text.sameName, h]

theorem writeChildren_raw (hn : node.isCanonical w.markup.voids = true)
    (hr : isRawName node.name = true) :
    node.children = if w.writeChildren true node.children = "" then []
      else [.text (w.writeChildren true node.children)] := by
  rw [Node.isCanonical, Bool.and_eq_true, Node.isLegal_iff, Node.isNormal_eq, Bool.and_eq_true] at hn
  obtain ⟨⟨-, -, -, hraw, -⟩, -, hnormal⟩ := hn
  have hcontent := hraw hr
  unfold isRawContent at hcontent
  split at hcontent
  next he => rw [he]; rfl
  next body he =>
    have hne : body ≠ "" := by
      rw [he] at hnormal
      simpa [Child.areNormal] using hnormal
    rw [he, writeChildren, writeChildren, writeText, if_pos rfl, String.append_empty, if_neg hne]
  next => cases hcontent

namespace KeepsRaw

variable (hw : w.KeepsRaw)
include hw

theorem keepsBody_eq (name : String) : w.keepsBody name = isRawName name := by
  rw [keepsBody, hw.preserves, Bool.true_and]

theorem isRawName_of_void {name : String} (h : w.markup.voids.has name = true) :
    isRawName name = false := by
  obtain ⟨tag, ht, hs⟩ := Markup.VoidTags.has_ofList.1 h
  rw [← isRawName_congr hs]
  exact hw.notVoid tag ht

theorem spells_writeElement (hn : node.isCanonical w.markup.voids = true)
    (ih : ∀ {a b : Cursor}, a.Reads (w.writeChildren false node.children).toList b →
      (∀ c ∈ b.rest.head?, c = '<') → Spells w.markup.voids node.children a b)
    (h : a.Reads (w.writeElement none node).toList b) :
    Spells w.markup.voids [.element node] a b := by
  have hlegal := (Bool.and_eq_true_iff.1 hn).1
  rw [toList_writeElement hlegal, hw.keepsBody_eq] at h
  refine spells_elementText hn hw.isRawName_of_void
    (isLegal_quotedAttribute (Node.isLegal_iff.1 hlegal).2.1) (map_entry_quotedAttribute _)
    ⟨fun hr => ?_, fun hr => ?_⟩ h
  · rw [hr, String.ofList_toList]
    exact writeChildren_raw hn hr
  · rw [hr]
    exact ih

/-- Children that are written one after another, before a tag or the end of the text. -/
theorem spells_writeChildren (hl : Child.areLegal w.markup.voids children = true)
    (hj : Child.isJoined children = true) (hn : Child.areNormal children = true)
    (h : a.Reads (w.writeChildren false children).toList b)
    (hb : ∀ c ∈ b.rest.head?, c = '<') : Spells w.markup.voids children a b := by
  induction children using Child.inductionOn generalizing a b with
  | nil =>
    rw [writeChildren] at h
    obtain rfl := (Cursor.Reads.refl a).unique h
    exact .refl a
  | text s rest ih =>
    simp only [Child.isJoined, Child.areNormal, Bool.and_eq_true, Bool.not_eq_true', bne_iff_ne]
      at hj hn
    rw [writeChildren, String.toList_append] at h
    obtain ⟨next, htext, hrest⟩ := h.split
    refine Spells.trans
      (.text hn.1 (encodes_escapeText s) (angle_not_mem_escapeText (.inl rfl) s) htext ?_)
      (ih hl hj.2 hn.2 hrest hb)
    -- no text follows a text, so the next character begins a tag
    cases rest with
    | nil =>
      obtain rfl := (Cursor.Reads.refl next).unique hrest
      exact hb
    | cons child more =>
      cases child with
      | text => cases hj.1
      | element node =>
        obtain ⟨cs, hcs⟩ := writeElement_none_head w node
        rw [hrest.1, writeChildren, String.toList_append, hcs]
        simp
  | element node rest ih ih' =>
    simp only [Child.areLegal, Child.isJoined, Child.areNormal, Bool.and_eq_true] at hl hj hn
    have hnode := Bool.and_eq_true_iff.1 (node.isNormal_eq ▸ hn.1)
    have hcanonical : node.isCanonical w.markup.voids = true :=
      Bool.and_eq_true_iff.2 ⟨hl.1, hn.1⟩
    rw [writeChildren, String.toList_append] at h
    obtain ⟨next, helement, hrest⟩ := h.split
    refine Spells.trans (hw.spells_writeElement hcanonical (fun h' hb' => ?_) helement)
      (ih' hl.2 hj hn.2 hrest hb)
    exact ih (Node.isLegal_iff.1 hl.1).2.2.2.2 hnode.1 hnode.2 h' hb'

end KeepsRaw

/-! ## Normal forms -/

theorem writeChildren_joinTexts (kept : Bool) (children : List Child) :
    w.writeChildren kept (Child.joinTexts children) = w.writeChildren kept children := by
  have writeText_append : ∀ s t, writeText kept (s ++ t) = writeText kept s ++ writeText kept t := by
    intro s t
    cases kept with
    | true => rfl
    | false => exact escapeText_append s t
  induction children with
  | nil => rfl
  | cons child rest ih =>
    cases child with
    | element node => rw [Child.joinTexts, writeChildren, writeChildren, ih]
    | text s =>
      rw [Child.joinTexts, writeChildren, ← ih]
      split
      next t more he =>
        rw [he, writeChildren, writeChildren, writeText_append, String.append_assoc]
      next => rw [writeChildren]

theorem writeChildren_normalizeAll (kept : Bool) {children : List Child}
    (hl : Child.areLegal w.markup.voids children = true) :
    w.writeChildren kept (Child.normalizeAll children) = w.writeChildren kept children := by
  have writeText_empty : ∀ kept, writeText kept "" = "" := by
    intro kept
    cases kept <;> rfl
  induction children using Child.inductionOn generalizing kept with
  | nil => rfl
  | text s rest ih =>
    rw [Child.normalizeAll, writeChildren]
    split
    next hs => rw [ih kept hl, hs, writeText_empty, String.empty_append]
    next => rw [writeChildren, ih kept hl]
  | element node rest ih ih' =>
    rw [Child.areLegal, Bool.and_eq_true] at hl
    obtain ⟨-, -, hvoid, -, hchildren⟩ := Node.isLegal_iff.1 hl.1
    rw [Child.normalizeAll, writeChildren, writeChildren, ih' kept hl.2, writeElement_none,
      writeElement_none, node.normalize_eq]
    simp only [writeChildren_joinTexts, ih _ hchildren]
    cases hv : w.markup.isVoid node.name with
    | true => rw [hvoid ((w.markup.has_voids _).trans hv)]; rfl
    | false => rfl

/-- **A legal tree and its normal form are written alike.** -/
theorem writeElement_normalize {node : Node} (hl : node.isLegal w.markup.voids = true) :
    w.writeElement none node.normalize = w.writeElement none node := by
  have hsingle : Child.areLegal w.markup.voids [.element node] = true := by
    rw [Child.areLegal, hl]
    rfl
  have := writeChildren_normalizeAll false hsingle
  rwa [Child.normalizeAll, Child.normalizeAll, writeChildren_singleton,
    writeChildren_singleton] at this

/-! ## Round trip -/

/-- Reading a legal tree that was written without indentation gives its normal form. -/
theorem KeepsRaw.parse_writeElement (hw : w.KeepsRaw) {node : Node}
    (hl : node.isLegal w.markup.voids = true) :
    (parse w.markup.voids (w.writeElement none node)).value = .ok node.normalize := by
  have hread := Cursor.reads_finish (.ofString (w.writeElement none node.normalize))
  have hlegal : Child.areLegal w.markup.voids [.element node.normalize] = true := by
    rw [Child.areLegal, Node.isLegal_normalize hl]
    rfl
  have hnormal : Child.areNormal [.element node.normalize] = true := by
    rw [Child.areNormal, Node.isNormal_normalize]
    rfl
  rw [← writeElement_normalize hl]
  rw [← writeChildren_singleton false] at hread ⊢
  exact parse_of_spells (hw.spells_writeChildren hlegal rfl hnormal hread (by rintro _ ⟨⟩)) rfl

/-- **Reading a legal tree that was written gives its normal form.** -/
theorem KeepsRaw.parse_render_of_isLegal (hw : w.KeepsRaw) (hf : w.output.format = false)
    {node : Node} (hl : node.isLegal w.markup.voids = true) :
    (parse w.markup.voids (w.render node)).value = .ok node.normalize := by
  rw [render_of_not_format hf]
  exact hw.parse_writeElement hl

/-- **Writing a canonical tree and reading it gives it back**, whatever the void elements are, as
long as none has a raw body. -/
theorem parse_render {markup : MarkupConfig} {output : OutputConfig}
    (hvoid : ∀ tag ∈ markup.voidTags, isRawName tag = false) (hf : output.format = false)
    (hbody : output.preserveScriptBody = true) {node : Node}
    (hn : node.isCanonical markup.voids = true) :
    (parse markup.voids (render ⟨output, markup⟩ node)).value = .ok node := by
  rw [Node.isCanonical, Bool.and_eq_true] at hn
  have hw : KeepsRaw ⟨output, markup⟩ := ⟨hbody, hvoid⟩
  have := hw.parse_render_of_isLegal hf hn.1
  rwa [Node.normalize_eq_self hn.2] at this

theorem parse_render_paragraph :
    (parse (MarkupConfig.voids {}) (render ⟨{ stripVoidClosing := false }, {}⟩
      ⟨"p", .ofList [("title", "\"a\" & b")],
        [.text "1 < 2", .element (.leaf "br"), .element ⟨"Script", ∅, [.text "a </b"]⟩]⟩)).value =
      .ok ⟨"p", .ofList [("title", "\"a\" & b")],
        [.text "1 < 2", .element (.leaf "br"), .element ⟨"Script", ∅, [.text "a </b"]⟩]⟩ :=
  parse_render (by decide) rfl rfl (by decide)

end ComponentMarkup.Markup.Writer
