/-
  Views keep their structure, whatever values are filled in.

  * `AttributesWritten.exists_quoted`: with escaped values the attributes are legal ones that hold
    the filled values, unless a value holds the single quotes around it.
  * `ChildrenWritten.spells`: then the children spell the filled ones. Between double quotes all
    values do (`spells_childrenPieces`).
  * `parse_render_view`: a written view is a template, and a filled-in template is read as the
    filled tree.
-/
import ComponentMarkup.Proofs.ViewPieces

namespace ComponentMarkup.Markup.Writer

/-! ## Values in what is written -/

section
variable {w : Writer} {value : String → String} {node : ViewNode} {children : List ViewChild}
  {lookup : String → Option String} {pieces : List Piece} {form : String → String}

theorem encodes_joined (lookup : String → Option String)
    (hform : ∀ s, Encodes (form s).toList s.toList) (pieces : List Piece) : Encodes
      (Piece.joined (Template.escapedValue lookup) (pieces.map (formPiece form))).toList
      (Piece.filled lookup pieces).toList := by
  unfold Piece.filled
  induction pieces with
  | nil => exact encodes_nil
  | cons piece rest ih =>
    rw [List.map_cons, Piece.joined_cons, Piece.joined_cons, String.toList_append,
      String.toList_append]
    refine Encodes.append ?_ ih
    cases piece with
    | literal s => exact hform s
    | placeholder key => exact encodes_escapeAttribute _

theorem not_mem_joined {c : Char} (hform : ∀ s, c ∉ (form s).toList)
    (hvalue : ∀ s, c ∉ (escapeAttribute s).toList) (pieces : List Piece) :
    c ∉ (Piece.joined (Template.escapedValue lookup) (pieces.map (formPiece form))).toList := by
  induction pieces with
  | nil => simp
  | cons piece rest ih =>
    rw [List.map_cons, Piece.joined_cons, String.toList_append, List.mem_append, not_or]
    refine ⟨?_, ih⟩
    cases piece with
    | literal s => exact hform s
    | placeholder key => exact hvalue _

theorem entry_quotedPieces (attr : String × List Piece) :
    (quotedPieces (Template.escapedValue lookup) attr).entry =
      (attr.1, Piece.filled lookup attr.2) := by
  rw [QuotedAttribute.entry, quotedPieces, (encodes_joined lookup encodes_escapeAttribute attr.2).decode,
    String.ofList_toList]

theorem isLegal_quotedPieces {attr : String × List Piece} (h : isPlainKey attr.1 = true) :
    (quotedPieces (Template.escapedValue lookup) attr).IsLegal :=
  ⟨(Bool.and_eq_true_iff.1 h).1, .inl rfl,
    not_mem_joined quote_not_mem_escapeAttribute quote_not_mem_escapeAttribute attr.2⟩

/-- An attribute between single quotes with a text for each key. -/
def singleQuoted (value : String → String) (attr : String × List Piece) : QuotedAttribute :=
  ⟨attr.1, '\'', (Piece.joined value attr.2).toList⟩

theorem toList_singlePieces (attr : String × List Piece) :
    (Piece.joined value (singlePieces attr)).toList = (singleQuoted value attr).text := by
  simp [singlePieces, QuotedAttribute.text, singleQuoted, Piece.text]

/-- Literals that can stand between single quotes as they are decode to themselves. -/
theorem encodes_of_isPlainPiece (lookup : String → Option String)
    (h : ∀ piece ∈ pieces, isPlainPiece piece = true) : Encodes
      (Piece.joined (Template.escapedValue lookup) pieces).toList
      (Piece.filled lookup pieces).toList := by
  unfold Piece.filled
  induction pieces with
  | nil => exact encodes_nil
  | cons piece rest ih =>
    rw [List.forall_mem_cons] at h
    rw [Piece.joined_cons, Piece.joined_cons, String.toList_append, String.toList_append]
    refine Encodes.append ?_ (ih h.2)
    cases piece with
    | literal s =>
      refine encodes_of_not_mem fun hmem => ?_
      simpa using List.all_eq_true.1 h.1 '&' hmem
    | placeholder key => exact encodes_escapeAttribute _

theorem entry_singleQuoted {attr : String × List Piece}
    (h : ∀ piece ∈ attr.2, isPlainPiece piece = true) :
    (singleQuoted (Template.escapedValue lookup) attr).entry =
      (attr.1, Piece.filled lookup attr.2) := by
  rw [QuotedAttribute.entry, singleQuoted, (encodes_of_isPlainPiece lookup h).decode,
    String.ofList_toList]

/-- Single quotes come from values only, which keep them. -/
theorem single_mem_joined_iff (h : ∀ piece ∈ pieces, isPlainPiece piece = true) :
    '\'' ∈ (Piece.joined (Template.escapedValue lookup) pieces).toList ↔
      ∃ key ∈ keysOf pieces, '\'' ∈ ((lookup key).getD "").toList := by
  induction pieces with
  | nil => simp [keysOf]
  | cons piece rest ih =>
    rw [List.forall_mem_cons] at h
    rw [Piece.joined_cons, String.toList_append, List.mem_append, ih h.2]
    cases piece with
    | literal s =>
      have hfree : '\'' ∉ s.toList := fun hmem => by simpa using List.all_eq_true.1 h.1 '\'' hmem
      simp [Piece.text, hfree, keysOf]
    | placeholder key =>
      simp [Piece.text, Template.escapedValue, single_mem_escapeAttribute_iff, keysOf]

theorem isLegal_singleQuoted {attr : String × List Piece} (hk : isPlainKey attr.1 = true)
    (h : ∀ piece ∈ attr.2, isPlainPiece piece = true)
    (hfree : ∀ key ∈ keysOf attr.2, '\'' ∉ ((lookup key).getD "").toList) :
    (singleQuoted (Template.escapedValue lookup) attr).IsLegal := by
  refine ⟨(Bool.and_eq_true_iff.1 hk).1, .inr rfl, fun hmem => ?_⟩
  obtain ⟨key, hkey, hquote⟩ := (single_mem_joined_iff h).1 hmem
  exact hfree key hkey hquote

/-- Written attributes are legal ones with their values filled in, unless a value holds the single
quotes around it. -/
theorem AttributesWritten.exists_quoted {entries : List (String × List Piece)} {attrs : List Piece}
    {singles : List String} (h : AttributesWritten entries attrs singles)
    (hkeys : ∀ attr ∈ entries, isPlainKey attr.1 = true)
    (hfree : ∀ key ∈ singles, '\'' ∉ ((lookup key).getD "").toList) :
    ∃ quoted : List QuotedAttribute,
      (Piece.joined (Template.escapedValue lookup) attrs).toList =
        quoted.flatMap QuotedAttribute.text ∧
      (∀ attr ∈ quoted, attr.IsLegal) ∧
      quoted.map QuotedAttribute.entry = entries.map fun e => (e.1, Piece.filled lookup e.2) := by
  induction h with
  | nil => exact ⟨[], by simp, by simp, rfl⟩
  | @double attr _ _ _ _ ih =>
    rw [List.forall_mem_cons] at hkeys
    obtain ⟨quoted, htext, hlegal, hentries⟩ := ih hkeys.2 hfree
    refine ⟨quotedPieces (Template.escapedValue lookup) attr :: quoted, ?_, ?_, ?_⟩
    · rw [Piece.joined_append, String.toList_append, toList_attributePieces, htext,
        List.flatMap_cons]
    · exact List.forall_mem_cons.2 ⟨isLegal_quotedPieces hkeys.1, hlegal⟩
    · rw [List.map_cons, List.map_cons, entry_quotedPieces, hentries]
  | @single attr _ _ _ hplain _ ih =>
    rw [List.forall_mem_cons] at hkeys
    rw [List.forall_mem_append] at hfree
    obtain ⟨quoted, htext, hlegal, hentries⟩ := ih hkeys.2 hfree.2
    refine ⟨singleQuoted (Template.escapedValue lookup) attr :: quoted, ?_, ?_, ?_⟩
    · rw [Piece.joined_append, String.toList_append, toList_singlePieces, htext, List.flatMap_cons]
    · exact List.forall_mem_cons.2 ⟨isLegal_singleQuoted hkeys.1 hplain hfree.1, hlegal⟩
    · rw [List.map_cons, List.map_cons, entry_singleQuoted hplain, hentries]

/-- A raw body is written as it is, without placeholders. -/
theorem ChildrenWritten.normalizeAll_raw {name : String} {voids : VoidTags} {singles : List String}
    (hwritten : ChildrenWritten voids true children pieces singles)
    (h : ViewChild.isRawContent name children = true) :
    Child.normalizeAll (ViewChild.fillAll lookup children) =
      if Piece.joined value pieces = "" then [] else [.text (Piece.joined value pieces)] := by
  unfold ViewChild.isRawContent at h
  split at h
  · cases hwritten
    rfl
  next body =>
    cases hwritten with
    | text hrest =>
      cases hrest
      have hbody : ∀ value, Piece.joined value [.literal body] = body := by
        intro value
        rw [Piece.joined_cons, Piece.joined_nil, String.append_empty]
        rfl
      rw [if_pos rfl, List.append_nil, hbody, ViewChild.fillAll, ViewChild.fillAll, Piece.filled,
        hbody, Child.normalizeAll, Child.normalizeAll]
  · cases h

/-! ## Filled views spell filled trees -/

variable {voids : VoidTags} {a b : Cursor}

theorem spells_tagPieces {stripsEnd : Bool} {attrs inner : List Piece}
    {attrSingles innerSingles : List String} (hn : node.isCanonical voids = true)
    (hvoid : voids.has node.name = true → isRawName node.name = false)
    (hattrs : AttributesWritten node.attributes.entries attrs attrSingles)
    (hwritten : ChildrenWritten voids (isRawName node.name) node.children inner innerSingles)
    (hfree : ∀ key ∈ attrSingles, '\'' ∉ ((lookup key).getD "").toList)
    (ih : isRawName node.name = false → ∀ {a b : Cursor},
      a.Reads (Piece.joined (Template.escapedValue lookup) inner).toList b →
      (∀ c ∈ b.rest.head?, c = '<') →
        Spells voids (Child.normalizeAll (ViewChild.fillAll lookup node.children)) a b)
    (h : a.Reads (Piece.joined (Template.escapedValue lookup)
      (tagPieces voids stripsEnd node.name attrs inner)).toList b) :
    Spells voids [.element (node.fill lookup).normalize] a b := by
  obtain ⟨-, hkeys, -, -, hraw, hjoined, -⟩ := ViewNode.isCanonical_iff.1 hn
  have hcanonical : (node.fill lookup).normalize.isCanonical voids = true :=
    Bool.and_eq_true_iff.2
      ⟨Node.isLegal_normalize (ViewNode.isLegal_fill hn), Node.isNormal_normalize _⟩
  have hchildren : (node.fill lookup).normalize.children =
      Child.normalizeAll (ViewChild.fillAll lookup node.children) := by
    rw [Node.normalize_eq, node.fill_eq]
    exact Child.joinTexts_eq_self (ViewChild.isJoined_normalizeAll hjoined)
  obtain ⟨quoted, htext, hlegal, hentries⟩ := hattrs.exists_quoted
    (fun attr hattr => hkeys _ (List.mem_map_of_mem hattr)) hfree
  have hname : (node.fill lookup).normalize.name = node.name := by
    rw [Node.normalize_eq, node.fill_eq]
  have hattributes : quoted.map QuotedAttribute.entry =
      (node.fill lookup).normalize.attributes.entries := by
    rw [hentries, Node.normalize_eq, node.fill_eq]
    rfl
  rw [toList_tagPieces htext, ← hname] at h
  refine spells_elementText hcanonical (by rwa [hname]) hlegal hattributes
    ⟨fun hr => ?_, fun hr => ?_⟩ h
  · rw [hname] at hr
    rw [hr] at hwritten
    rw [hchildren, String.ofList_toList]
    exact hwritten.normalizeAll_raw (hraw hr)
  · rw [hname] at hr
    rw [hchildren]
    exact ih hr

/-- A text spells its filled form, which may be empty. -/
theorem spells_text (voids : VoidTags) (lookup : String → Option String) (h : a.Reads
      (Piece.joined (Template.escapedValue lookup) (pieces.map (formPiece escapeText))).toList b)
    (hb : ∀ c ∈ b.rest.head?, c = '<') :
    Spells voids (if Piece.filled lookup pieces = "" then []
      else [.text (Piece.filled lookup pieces)]) a b := by
  have hencodes := encodes_joined lookup encodes_escapeText pieces
  split
  next hempty =>
    rw [hempty] at hencodes
    rw [eq_nil_of_decodeReferences hencodes.decode] at h
    obtain rfl := (Cursor.Reads.refl a).unique h
    exact .refl a
  next hempty =>
    exact .text hempty hencodes
      (not_mem_joined (angle_not_mem_escapeText (.inl rfl))
        (angle_not_mem_escapeAttribute (.inl rfl)) pieces) h hb

/-- Children that do not begin with a text begin with a tag. -/
theorem ChildrenWritten.head?_eq {kept : Bool} {singles : List String}
    (hwritten : ChildrenWritten voids kept children pieces singles)
    (hstart : ViewChild.startsWithText children = false)
    (h : a.Reads (Piece.joined value pieces).toList b) (hb : ∀ c ∈ b.rest.head?, c = '<') :
    ∀ c ∈ a.rest.head?, c = '<' := by
  cases hwritten with
  | nil =>
    obtain rfl := (Cursor.Reads.refl a).unique h
    exact hb
  | text => cases hstart
  | element =>
    rw [h.1]
    simp [tagPieces, Piece.text]

/-- **Children spell their filled forms**, whatever quotes are used, if no value holds the single
quotes around it. -/
theorem ChildrenWritten.spells {kept : Bool} {singles : List String}
    (hvoid : ∀ name, voids.has name = true → isRawName name = false)
    (hwritten : ChildrenWritten voids kept children pieces singles) (hkept : kept = false)
    (hfree : ∀ key ∈ singles, '\'' ∉ ((lookup key).getD "").toList)
    (hc : ViewChild.areCanonical voids children = true) (hj : ViewChild.isJoined children = true)
    (h : a.Reads (Piece.joined (Template.escapedValue lookup) pieces).toList b)
    (hb : ∀ c ∈ b.rest.head?, c = '<') :
    Spells voids (Child.normalizeAll (ViewChild.fillAll lookup children)) a b := by
  induction hwritten generalizing a b with
  | nil =>
    obtain rfl := (Cursor.Reads.refl a).unique h
    exact .refl a
  | text hmore ih =>
    subst hkept
    rw [ViewChild.areCanonical, Bool.and_eq_true] at hc
    simp only [ViewChild.isJoined, Bool.and_eq_true, Bool.not_eq_true'] at hj
    rw [Piece.joined_append, String.toList_append, if_neg Bool.false_ne_true] at h
    obtain ⟨next, htext, hrest⟩ := h.split
    have hspells := spells_text voids lookup htext (hmore.head?_eq hj.1 hrest hb)
    have hread := hspells.trans (ih rfl hfree hc.2 hj.2 hrest hb)
    rw [ViewChild.fillAll, Child.normalizeAll]
    split at hread
    next hempty => rwa [if_pos hempty]
    next hempty => rwa [if_neg hempty]
  | element hattrs hinner _ ih ih' =>
    rw [ViewChild.areCanonical, Bool.and_eq_true] at hc
    obtain ⟨-, -, -, -, -, hjoined, hchildren⟩ := ViewNode.isCanonical_iff.1 hc.1
    rw [List.forall_mem_append, List.forall_mem_append] at hfree
    rw [Piece.joined_append, String.toList_append] at h
    obtain ⟨next, helement, hrest⟩ := h.split
    exact Spells.trans
      (spells_tagPieces hc.1 (hvoid _) hattrs hinner hfree.1
        (fun hr => ih hr hfree.2.1 hchildren hjoined) helement)
      (ih' hkept hfree.2.2 hc.2 hj hrest hb)

theorem spells_childrenPieces (hw : w.KeepsRaw)
    (hc : ViewChild.areCanonical w.markup.voids children = true)
    (hj : ViewChild.isJoined children = true)
    (h : a.Reads
      (Piece.joined (Template.escapedValue lookup) (w.childrenPieces false children)).toList b)
    (hb : ∀ c ∈ b.rest.head?, c = '<') :
    Spells w.markup.voids (Child.normalizeAll (ViewChild.fillAll lookup children)) a b :=
  (childrenWritten_childrenPieces w false children).spells (fun _ => hw.isRawName_of_void) rfl
    (by simp) hc hj h hb

end

/-! ## Filled templates -/

/-- **Values cannot change the structure of a view**: a canonical tree that is written with
placeholders is a template, and whatever values are put in, the text is read as the tree with these
values in the place of the placeholders, without empty texts. -/
theorem parse_render_view {markup : MarkupConfig} {output : OutputConfig}
    (hvoid : ∀ tag ∈ markup.voidTags, isRawName tag = false) (hf : output.format = false)
    (hbody : output.preserveScriptBody = true) {view : ViewNode}
    (hv : view.isCanonical markup.voids = true) : ∃ template,
      Template.parse (render ⟨output, markup⟩ (view.fill marks)) = .ok template ∧
        ∀ lookup, (parse markup.voids (template.render lookup)).value =
          .ok (view.fill lookup).normalize := by
  have hw : KeepsRaw ⟨output, markup⟩ := ⟨hbody, hvoid⟩
  have hsingle : ViewChild.areCanonical markup.voids [.element view] = true :=
    ViewChild.areCanonical_singleton.2 hv
  have hprinted := joined_childrenPieces hw false hsingle
  rw [ViewChild.fillAll, ViewChild.fillAll, writeChildren_singleton,
    ← render_of_not_format (w := ⟨output, markup⟩) hf] at hprinted
  obtain ⟨template, hparse, hrender⟩ := Template.parse_joined
    (isWritable_childrenPieces (w := ⟨output, markup⟩) false hsingle)
  refine ⟨template, hprinted ▸ hparse, fun lookup => ?_⟩
  rw [hrender]
  have hspells : Spells markup.voids [.element (view.fill lookup).normalize] _ _ :=
    spells_childrenPieces hw hsingle rfl (Cursor.reads_finish (.ofString _)) (by rintro _ ⟨⟩)
  exact parse_of_spells hspells rfl

theorem parse_render_view_greeting : ∃ template,
    Template.parse (render ⟨{}, {}⟩ (ViewNode.fill marks
      ⟨"p", .ofList [("title", [.placeholder "name"])],
        [.text [.literal "Hello & ", .placeholder "name"]]⟩)) = .ok template ∧
      ∀ lookup, (parse (MarkupConfig.voids {}) (template.render lookup)).value =
        .ok (ViewNode.fill lookup ⟨"p", .ofList [("title", [.placeholder "name"])],
          [.text [.literal "Hello & ", .placeholder "name"]]⟩).normalize :=
  parse_render_view (by decide) rfl rfl (by decide)

end ComponentMarkup.Markup.Writer
