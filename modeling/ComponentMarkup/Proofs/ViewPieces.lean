/-
  What is written for a tree with placeholders, piece by piece.

  * `elementPieces`, `childrenPieces`: what the writer gives. With the placeholders as they are
    written its text is the writer's (`joined_childrenPieces`).
  * `AttributesWritten`, `ChildrenWritten`: the ways to write a tree with quotes of either kind, with
    the keys of which the values stand between single ones. The writer's is one of them
    (`childrenWritten_childrenPieces`), and in none do placeholders begin elsewhere
    (`ChildrenWritten.isWritable`).
-/
import ComponentMarkup.Proofs.RoundTrip
import ComponentMarkup.Proofs.ViewTree

namespace ComponentMarkup.Markup.Writer

/-! ## Pieces of written views -/

/-- The piece with its literal text in a written form. -/
def formPiece (form : String → String) : Piece → Piece
  | .literal s => .literal (form s)
  | .placeholder key => .placeholder key

/-- An attribute, with a space before it. -/
def attributePieces (attr : String × List Piece) : List Piece :=
  .literal (" " ++ attr.1 ++ "=\"") :: (attr.2.map (formPiece escapeAttribute) ++ [.literal "\""])

variable (w : Writer)

mutual

/-- What is written for an element. -/
def elementPieces : ViewNode → List Piece
  | ⟨name, attributes, children⟩ =>
    .literal ("<" ++ name) :: (attributes.entries.flatMap attributePieces ++ .literal ">" ::
      if w.markup.voids.has name then
        if w.output.stripVoidClosing then [] else [.literal (writeEndTag name)]
      else childrenPieces (isRawName name) children ++ [.literal (writeEndTag name)])

/-- What is written for children, one directly after another. -/
def childrenPieces (kept : Bool) : List ViewChild → List Piece
  | [] => []
  | .text pieces :: rest =>
    (if kept then pieces else pieces.map (formPiece escapeText)) ++ childrenPieces kept rest
  | .element node :: rest => elementPieces node ++ childrenPieces kept rest

end

/-- The pieces of an element around those of its attributes and of what is in it. A void element can
have an end tag too. -/
def tagPieces (voids : VoidTags) (stripsEnd : Bool) (name : String) (attrs inner : List Piece) :
    List Piece :=
  .literal ("<" ++ name) :: (attrs ++ .literal ">" ::
    if voids.has name then if stripsEnd then [] else [.literal (writeEndTag name)]
    else inner ++ [.literal (writeEndTag name)])

variable {w} {value : String → String} {node : ViewNode} {children : List ViewChild}

theorem elementPieces_eq (node : ViewNode) : w.elementPieces node =
    tagPieces w.markup.voids w.output.stripVoidClosing node.name
      (node.attributes.entries.flatMap attributePieces)
      (w.childrenPieces (isRawName node.name) node.children) := by
  cases node
  rw [elementPieces, tagPieces]

/-- An attribute with a text for each key. -/
def quotedPieces (value : String → String) (attr : String × List Piece) : QuotedAttribute :=
  ⟨attr.1, '"', (Piece.joined value (attr.2.map (formPiece escapeAttribute))).toList⟩

theorem toList_attributePieces (attr : String × List Piece) :
    (Piece.joined value (attributePieces attr)).toList = (quotedPieces value attr).text := by
  simp [attributePieces, QuotedAttribute.text, quotedPieces, Piece.text]

theorem toList_flatMap_attributePieces (entries : List (String × List Piece)) :
    (Piece.joined value (entries.flatMap attributePieces)).toList =
      (entries.map (quotedPieces value)).flatMap QuotedAttribute.text := by
  induction entries with
  | nil => simp
  | cons attr rest ih => simp [ih, toList_attributePieces]

theorem toList_tagPieces {voids : VoidTags} {stripsEnd : Bool} {name : String}
    {attrs inner : List Piece} {quoted : List QuotedAttribute}
    (h : (Piece.joined value attrs).toList = quoted.flatMap QuotedAttribute.text) :
    (Piece.joined value (tagPieces voids stripsEnd name attrs inner)).toList =
      elementText voids stripsEnd name quoted (Piece.joined value inner).toList := by
  rw [tagPieces, elementText, startTagText]
  cases voids.has name <;> cases stripsEnd <;> simp [h, Piece.text, toList_writeEndTag]

theorem toList_elementPieces : (Piece.joined value (w.elementPieces node)).toList =
    elementText w.markup.voids w.output.stripVoidClosing node.name
      (node.attributes.entries.map (quotedPieces value))
      (Piece.joined value (w.childrenPieces (isRawName node.name) node.children)).toList := by
  rw [elementPieces_eq, toList_tagPieces (toList_flatMap_attributePieces _)]

/-! ## Ways to write a view -/

/-- An attribute between single quotes as it is, with a space before it. -/
def singlePieces (attr : String × List Piece) : List Piece :=
  .literal (" " ++ attr.1 ++ "='") :: (attr.2 ++ [.literal "'"])

/-- A placeholder, or a literal that can stand between single quotes as it is. -/
def isPlainPiece : Piece → Bool
  | .literal s => s.toList.all fun c => c != '\'' && c != '&' && c != '{'
  | .placeholder _ => true

/-- The keys of the placeholders among pieces. -/
def keysOf (pieces : List Piece) : List String :=
  pieces.filterMap fun
    | .literal _ => none
    | .placeholder key => some key

/-- Attributes as they are written between quotes of either kind, and the keys of which the values
stand between single ones. -/
inductive AttributesWritten : List (String × List Piece) → List Piece → List String → Prop
  | nil : AttributesWritten [] [] []
  | double {attr rest more singles} : AttributesWritten rest more singles →
      AttributesWritten (attr :: rest) (attributePieces attr ++ more) singles
  | single {attr rest more singles} : (∀ piece ∈ attr.2, isPlainPiece piece = true) →
      AttributesWritten rest more singles →
      AttributesWritten (attr :: rest) (singlePieces attr ++ more) (keysOf attr.2 ++ singles)

/-- Children as they are written one directly after another, with attributes between quotes of
either kind. -/
inductive ChildrenWritten (voids : VoidTags) :
    Bool → List ViewChild → List Piece → List String → Prop
  | nil {kept} : ChildrenWritten voids kept [] [] []
  | text {kept pieces rest more singles} : ChildrenWritten voids kept rest more singles →
      ChildrenWritten voids kept (.text pieces :: rest)
        ((if kept then pieces else pieces.map (formPiece escapeText)) ++ more) singles
  | element {kept node stripsEnd rest attrs attrSingles inner innerSingles more singles} :
      AttributesWritten node.attributes.entries attrs attrSingles →
      ChildrenWritten voids (isRawName node.name) node.children inner innerSingles →
      ChildrenWritten voids kept rest more singles →
      ChildrenWritten voids kept (.element node :: rest)
        (tagPieces voids stripsEnd node.name attrs inner ++ more)
        (attrSingles ++ (innerSingles ++ singles))

theorem attributesWritten_flatMap (entries : List (String × List Piece)) :
    AttributesWritten entries (entries.flatMap attributePieces) [] := by
  induction entries with
  | nil => exact .nil
  | cons attr rest ih => exact .double ih

/-- The writer writes all attributes between double quotes. -/
theorem childrenWritten_childrenPieces (w : Writer) (kept : Bool) (children : List ViewChild) :
    ChildrenWritten w.markup.voids kept children (w.childrenPieces kept children) [] := by
  induction children using ViewChild.inductionOn generalizing kept with
  | nil =>
    rw [childrenPieces]
    exact .nil
  | text pieces rest ih =>
    rw [childrenPieces]
    exact .text (ih kept)
  | element node rest ih ih' =>
    rw [childrenPieces, elementPieces_eq]
    exact .element (attributesWritten_flatMap _) (ih _) (ih' kept)

/-! ## No other placeholders -/

section
variable {voids : VoidTags} {piece : Piece}

open Template (IsWritable)

theorem isWritable_of_isLegal (h : piece.isLegal = true) : IsWritable piece := by
  cases piece with
  | literal s => exact bracesApart_of_isBraceSafe h
  | placeholder key => exact h

theorem isWritable_formPiece {form : String → String}
    (hform : ∀ s : String, bracesApart s.toList = true → bracesApart (form s).toList = true)
    (h : piece.isLegal = true) : IsWritable (formPiece form piece) := by
  cases piece with
  | literal s => exact hform s (bracesApart_of_isBraceSafe h)
  | placeholder key => exact h

theorem brace_not_mem_name {name : String} (h : isLegalName name = true) : '{' ∉ name.toList := by
  obtain ⟨_, _, -, -, hall⟩ := isLegalName_iff.1 h
  exact fun hmem => absurd (hall '{' hmem) (by decide)

theorem isWritable_attributePieces {attr : String × List Piece} (hk : isPlainKey attr.1 = true)
    (hp : ∀ piece ∈ attr.2, piece.isLegal = true) :
    ∀ piece ∈ attributePieces attr, IsWritable piece := by
  rw [isPlainKey, Bool.and_eq_true, Bool.not_eq_true'] at hk
  intro piece hmem
  rw [attributePieces, List.mem_cons, List.mem_append, List.mem_map, List.mem_singleton] at hmem
  rcases hmem with rfl | ⟨inner, hinner, rfl⟩ | rfl
  · refine bracesApart_of_not_mem ?_
    simpa using hk.2
  · exact isWritable_formPiece (fun _ => bracesApart_escapeAttribute) (hp inner hinner)
  · rfl

theorem isWritable_singlePieces {attr : String × List Piece} (hk : isPlainKey attr.1 = true)
    (hp : ∀ piece ∈ attr.2, piece.isLegal = true) :
    ∀ piece ∈ singlePieces attr, IsWritable piece := by
  rw [isPlainKey, Bool.and_eq_true, Bool.not_eq_true'] at hk
  intro piece hmem
  rw [singlePieces, List.mem_cons, List.mem_append, List.mem_singleton] at hmem
  rcases hmem with rfl | hmem | rfl
  · refine bracesApart_of_not_mem ?_
    simpa using hk.2
  · exact isWritable_of_isLegal (hp piece hmem)
  · rfl

theorem AttributesWritten.isWritable {entries : List (String × List Piece)} {attrs : List Piece}
    {singles : List String} (h : AttributesWritten entries attrs singles)
    (hkeys : ∀ attr ∈ entries, isPlainKey attr.1 = true)
    (hvalues : ∀ attr ∈ entries, ∀ piece ∈ attr.2, piece.isLegal = true) :
    ∀ piece ∈ attrs, IsWritable piece := by
  induction h with
  | nil => simp
  | double _ ih =>
    rw [List.forall_mem_cons] at hkeys hvalues
    rw [List.forall_mem_append]
    exact ⟨isWritable_attributePieces hkeys.1 hvalues.1, ih hkeys.2 hvalues.2⟩
  | single _ _ ih =>
    rw [List.forall_mem_cons] at hkeys hvalues
    rw [List.forall_mem_append]
    exact ⟨isWritable_singlePieces hkeys.1 hvalues.1, ih hkeys.2 hvalues.2⟩

theorem isWritable_tagPieces {stripsEnd : Bool} {name : String} {attrs inner : List Piece}
    (hname : isLegalName name = true) (hattrs : ∀ piece ∈ attrs, IsWritable piece)
    (hinner : ∀ piece ∈ inner, IsWritable piece) :
    ∀ piece ∈ tagPieces voids stripsEnd name attrs inner, IsWritable piece := by
  have hbrace := brace_not_mem_name hname
  have hstart : IsWritable (.literal ("<" ++ name)) :=
    bracesApart_of_not_mem (by simpa using hbrace)
  have hend : IsWritable (.literal (writeEndTag name)) :=
    bracesApart_of_not_mem (by simpa [writeEndTag] using hbrace)
  rw [tagPieces, List.forall_mem_cons, List.forall_mem_append, List.forall_mem_cons]
  refine ⟨hstart, hattrs, rfl, ?_⟩
  split
  · split <;> simp [hend]
  · rw [List.forall_mem_append]
    exact ⟨hinner, by simpa using hend⟩

/-- **Placeholders begin nowhere else**, whatever quotes are used. -/
theorem ChildrenWritten.isWritable {kept : Bool} {pieces : List Piece} {singles : List String}
    (h : ChildrenWritten voids kept children pieces singles)
    (hc : ViewChild.areCanonical voids children = true) : ∀ piece ∈ pieces, IsWritable piece := by
  induction h with
  | nil => simp
  | @text kept pieces rest more singles _ ih =>
    rw [ViewChild.areCanonical, Bool.and_eq_true, List.all_eq_true] at hc
    rw [List.forall_mem_append]
    refine ⟨fun piece hmem => ?_, ih hc.2⟩
    split at hmem
    · exact isWritable_of_isLegal (hc.1 piece hmem)
    · obtain ⟨inner, hinner, rfl⟩ := List.mem_map.1 hmem
      exact isWritable_formPiece (fun _ => bracesApart_escapeText) (hc.1 inner hinner)
  | element hattrs _ _ ih ih' =>
    rw [ViewChild.areCanonical, Bool.and_eq_true, ViewNode.isCanonical_iff] at hc
    obtain ⟨⟨hname, hkeys, hvalues, -, -, -, hchildren⟩, hrest⟩ := hc
    rw [List.forall_mem_append]
    refine ⟨isWritable_tagPieces hname (hattrs.isWritable ?_ ?_) (ih hchildren), ih' hrest⟩
    · exact fun attr hattr => hkeys _ (List.mem_map_of_mem hattr)
    · exact fun attr hattr => hvalues _ (List.mem_map_of_mem hattr)

theorem isWritable_childrenPieces (kept : Bool)
    (hc : ViewChild.areCanonical w.markup.voids children = true) :
    ∀ piece ∈ w.childrenPieces kept children, IsWritable piece :=
  (childrenWritten_childrenPieces w kept children).isWritable hc

end

/-! ## What the writer gives -/

theorem plain_of_mem_mark {key : String} (hk : Template.isLegalKey key = true) :
    ∀ c ∈ (Piece.mark key).toList, c ≠ '&' ∧ c ≠ '<' ∧ c ≠ '>' ∧ c ≠ '"' := by
  have plain : ∀ c, Template.isKeyChar c = true → c ≠ '&' ∧ c ≠ '<' ∧ c ≠ '>' ∧ c ≠ '"' := by
    refine fun c hc => ⟨?_, ?_, ?_, ?_⟩ <;> (rintro rfl; revert hc; decide)
  simp only [Template.isLegalKey, Bool.and_eq_true, List.all_eq_true] at hk
  have hmark : (Piece.mark key).toList = ['{', '{', ' '] ++ (key.toList ++ [' ', '}', '}']) := by
    simp [Piece.mark]
  intro c hc
  rw [hmark, List.mem_append, List.mem_append] at hc
  rcases hc with hopen | hkey | hclose
  · simp only [List.mem_cons, List.not_mem_nil, or_false] at hopen
    rcases hopen with rfl | rfl | rfl <;> decide
  · exact plain c (hk.2 c hkey)
  · simp only [List.mem_cons, List.not_mem_nil, or_false] at hclose
    rcases hclose with rfl | rfl | rfl <;> decide

theorem textForm_of_plain {c : Char} (h : c ≠ '&' ∧ c ≠ '<' ∧ c ≠ '>' ∧ c ≠ '"') :
    textForm c = [c] := by
  unfold textForm
  split
  · exact absurd rfl h.1
  · exact absurd rfl h.2.1
  · exact absurd rfl h.2.2.1
  · rfl

theorem attributeForm_of_plain {c : Char} (h : c ≠ '&' ∧ c ≠ '<' ∧ c ≠ '>' ∧ c ≠ '"') :
    attributeForm c = [c] := by
  unfold attributeForm
  split
  · exact absurd rfl h.2.2.2
  · exact textForm_of_plain h

theorem flatMap_eq_self {form : Char → List Char} {s : List Char} (h : ∀ c ∈ s, form c = [c]) :
    s.flatMap form = s := by
  induction s with
  | nil => rfl
  | cons c cs ih =>
    rw [List.forall_mem_cons] at h
    rw [List.flatMap_cons, h.1, ih h.2]
    rfl

theorem escapeText_mark {key : String} (hk : Template.isLegalKey key = true) :
    escapeText (Piece.mark key) = Piece.mark key := by
  rw [escapeText, flatMap_eq_self fun c hc => textForm_of_plain (plain_of_mem_mark hk c hc),
    String.ofList_toList]

theorem escapeAttribute_mark {key : String} (hk : Template.isLegalKey key = true) :
    escapeAttribute (Piece.mark key) = Piece.mark key := by
  rw [escapeAttribute, flatMap_eq_self fun c hc => attributeForm_of_plain (plain_of_mem_mark hk c hc),
    String.ofList_toList]

/-- The lookup that gives every key its own placeholder. -/
def marks (key : String) : Option String := some (Piece.mark key)

/-- A written form that works piece by piece and keeps placeholders. -/
theorem form_filled_marks {form : String → String} (hempty : form "" = "")
    (happend : ∀ s t, form (s ++ t) = form s ++ form t)
    (hmark : ∀ key, Template.isLegalKey key = true → form (Piece.mark key) = Piece.mark key)
    {pieces : List Piece} (hp : ∀ piece ∈ pieces, piece.isLegal = true) :
    form (Piece.filled marks pieces) = Piece.joined Piece.mark (pieces.map (formPiece form)) := by
  unfold Piece.filled
  induction pieces with
  | nil => exact hempty
  | cons piece rest ih =>
    rw [List.forall_mem_cons] at hp
    rw [Piece.joined_cons, happend, ih hp.2, List.map_cons, Piece.joined_cons]
    cases piece with
    | literal s => rfl
    | placeholder key =>
      show form (Piece.mark key) ++ _ = _
      rw [hmark key hp.1]
      rfl

section
variable (hw : w.KeepsRaw)
include hw

theorem joined_elementPieces_of (hn : node.isCanonical w.markup.voids = true)
    (ih : ∀ kept, Piece.joined Piece.mark (w.childrenPieces kept node.children) =
      w.writeChildren kept (ViewChild.fillAll marks node.children)) :
    Piece.joined Piece.mark (w.elementPieces node) = w.writeElement none (node.fill marks) := by
  obtain ⟨-, -, hvalues, -⟩ := ViewNode.isCanonical_iff.1 hn
  have hattrs : node.attributes.entries.map (quotedPieces Piece.mark) =
      (node.fill marks).attributes.entries.map quotedAttribute := by
    rw [node.fill_eq]
    simp only [OrderedMap.mapValues, List.map_map]
    refine List.map_congr_left fun attr hattr => ?_
    have hform := form_filled_marks rfl escapeAttribute_append (fun _ => escapeAttribute_mark)
      (hvalues _ (List.mem_map_of_mem hattr))
    simp only [quotedPieces, quotedAttribute, Function.comp_apply, hform]
  rw [← String.toList_inj, toList_elementPieces, hattrs, ih,
    toList_writeElement (ViewNode.isLegal_fill hn), hw.keepsBody_eq, node.fill_eq]

/-- **The pieces with placeholders as they are written** are what the writer gives. -/
theorem joined_childrenPieces (kept : Bool)
    (hc : ViewChild.areCanonical w.markup.voids children = true) :
    Piece.joined Piece.mark (w.childrenPieces kept children) =
      w.writeChildren kept (ViewChild.fillAll marks children) := by
  induction children using ViewChild.inductionOn generalizing kept with
  | nil =>
    rw [childrenPieces, ViewChild.fillAll, writeChildren]
    rfl
  | text pieces rest ih =>
    rw [ViewChild.areCanonical, Bool.and_eq_true, List.all_eq_true] at hc
    rw [childrenPieces, ViewChild.fillAll, writeChildren, Piece.joined_append, ih kept hc.2]
    cases kept with
    | true => rfl
    | false =>
      rw [writeText, if_neg Bool.false_ne_true, if_neg Bool.false_ne_true,
        form_filled_marks rfl escapeText_append (fun _ => escapeText_mark) hc.1]
  | element node rest ih ih' =>
    rw [ViewChild.areCanonical, Bool.and_eq_true] at hc
    obtain ⟨-, -, -, -, -, -, hchildren⟩ := ViewNode.isCanonical_iff.1 hc.1
    rw [childrenPieces, ViewChild.fillAll, writeChildren, Piece.joined_append, ih' kept hc.2,
      joined_elementPieces_of hw hc.1 fun kept => ih kept hchildren]

end

end ComponentMarkup.Markup.Writer
