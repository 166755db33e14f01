/-
  Documents that are read, written and read again.

  * `Node.isJoined`: no two texts are adjacent, below any element. Parsed documents are such
    (`isJoined_of_parse`).
  * `Node.dropEmptyTexts`: the tree without its empty texts. If no texts are adjacent, this is its
    normal form (`Node.normalize_of_isJoined`).
  * `eq_cdata_of_mem_scan`: the only tokens that are an empty text are empty CDATA sections.
  * `parse_render_of_parse`: writing a parsed document and reading it again loses nothing but empty
    texts.
-/
import ComponentMarkup.Proofs.ExpandedTree

namespace ComponentMarkup

/-! ## Trees with joined texts -/

mutual

/-- A tree without adjacent texts. -/
def Node.isJoined : Node → Bool
  | ⟨_, _, children⟩ => Child.isJoined children && Child.areJoined children

/-- Children of which all elements are trees without adjacent texts. -/
def Child.areJoined : List Child → Bool
  | [] => true
  | .text _ :: rest => Child.areJoined rest
  | .element node :: rest => node.isJoined && Child.areJoined rest

end

mutual

/-- The tree without its empty texts. -/
def Node.dropEmptyTexts : Node → Node
  | ⟨name, attributes, children⟩ => ⟨name, attributes, Child.dropEmptyTexts children⟩

/-- The children without empty texts, among them and below them. -/
def Child.dropEmptyTexts : List Child → List Child
  | [] => []
  | .text s :: rest =>
    if s = "" then Child.dropEmptyTexts rest else .text s :: Child.dropEmptyTexts rest
  | .element node :: rest => .element node.dropEmptyTexts :: Child.dropEmptyTexts rest

end

theorem Node.isJoined_iff {node : Node} : node.isJoined = true ↔
    Child.isJoined node.children = true ∧ Child.areJoined node.children = true := by
  cases node
  rw [isJoined, Bool.and_eq_true]

namespace Child

variable {children : List Child}

theorem areJoined_joinTexts : areJoined (joinTexts children) = areJoined children := by
  induction children with
  | nil => rfl
  | cons child rest ih =>
    cases child with
    | element node => rw [joinTexts, areJoined, areJoined, ih]
    | text s =>
      rw [areJoined, ← ih, joinTexts]
      split
      next he => rw [he, areJoined, areJoined]
      next => rfl

/-- A text that goes leaves no texts next to each other, since there were none beside it. -/
theorem isJoined_dropEmptyTexts (h : isJoined children = true) :
    isJoined (dropEmptyTexts children) = true ∧
      (startsWithText (dropEmptyTexts children) = true → startsWithText children = true) := by
  induction children with
  | nil => exact ⟨rfl, id⟩
  | cons child rest ih =>
    cases child with
    | element node => exact ⟨(ih h).1, id⟩
    | text s =>
      simp only [isJoined, Bool.and_eq_true, Bool.not_eq_true'] at h
      obtain ⟨hrest, hstarts⟩ := ih h.2
      rw [dropEmptyTexts]
      split
      · exact ⟨hrest, fun _ => rfl⟩
      · refine ⟨?_, fun _ => rfl⟩
        rw [isJoined, hrest, Bool.and_true, Bool.not_eq_true', ← Bool.not_eq_true]
        intro htext
        rw [hstarts htext] at h
        cases h.1

theorem normalizeAll_of_areJoined (h : areJoined children = true) :
    normalizeAll children = dropEmptyTexts children := by
  induction children using Child.inductionOn with
  | nil => rfl
  | text s rest ih => rw [normalizeAll, dropEmptyTexts, ih h]
  | element node rest ih ih' =>
    rw [areJoined, Bool.and_eq_true, Node.isJoined_iff] at h
    obtain ⟨⟨hjoined, hbelow⟩, hrest⟩ := h
    rw [normalizeAll, dropEmptyTexts, ih' hrest, Node.normalize_eq, ih hbelow,
      joinTexts_eq_self (isJoined_dropEmptyTexts hjoined).1]
    cases node
    rfl

theorem dropEmptyTexts_of_areNormal (h : areNormal children = true) :
    dropEmptyTexts children = children := by
  induction children using Child.inductionOn with
  | nil => rfl
  | text s rest ih =>
    simp only [areNormal, Bool.and_eq_true, bne_iff_ne] at h
    rw [dropEmptyTexts, if_neg h.1, ih h.2]
  | element node rest ih ih' =>
    simp only [areNormal, Bool.and_eq_true, Node.isNormal_eq] at h
    cases node
    rw [dropEmptyTexts, ih' h.2, Node.dropEmptyTexts, ih h.1.2]

end Child

/-- **Without adjacent texts, the normal form is the tree without its empty texts.** -/
theorem Node.normalize_of_isJoined {node : Node} (h : node.isJoined = true) :
    node.normalize = node.dropEmptyTexts := by
  obtain ⟨hjoined, hbelow⟩ := isJoined_iff.1 h
  cases node
  rw [normalize_eq, Child.normalizeAll_of_areJoined hbelow,
    Child.joinTexts_eq_self (Child.isJoined_dropEmptyTexts hjoined).1, dropEmptyTexts]

namespace Markup

/-! ## Where texts come from -/

section
variable {voids : VoidTags} {tokens : List Token} {children : List Child}

/-- Adjacent texts of an element are one. -/
theorem areJoined_of_content (h : Content voids tokens children) :
    Child.areJoined children = true := by
  induction h with
  | nil => rfl
  | text _ _ ih => exact ih
  | leaf _ _ ih => exact ih
  | element _ _ _ _ ihb ih =>
    rw [Child.areJoined, Bool.and_eq_true, Node.isJoined_iff, Child.areJoined_joinTexts]
    exact ⟨⟨Child.isJoined_joinTexts _, ihb⟩, ih⟩

/-- Tokens without an empty text stand for children without one. -/
theorem areNormal_of_content (h : Content voids tokens children)
    (ht : ∀ token ∈ tokens, token.text? ≠ some "") : Child.areNormal children = true := by
  induction h with
  | nil => rfl
  | @text token s tokens children htext _ ih =>
    rw [List.forall_mem_cons] at ht
    have hs : s ≠ "" := fun he => ht.1 (he ▸ htext)
    rw [Child.areNormal, ih ht.2, Bool.and_true, bne_iff_ne]
    exact hs
  | leaf _ _ ih => exact ih (List.forall_mem_cons.1 ht).2
  | element _ _ _ _ ihb ih =>
    simp only [List.forall_mem_cons, List.forall_mem_append] at ht
    rw [Child.areNormal, Bool.and_eq_true, Node.isNormal_eq, Bool.and_eq_true]
    exact ⟨⟨Child.isJoined_joinTexts _, Child.areNormal_joinTexts (ihb ht.2.1)⟩, ih ht.2.2.2⟩

/-- The only token that is an empty text is an empty CDATA section. -/
theorem eq_cdata_of_scanToken {cur next : Cursor} {token : Token} (hne : cur.rest ≠ [])
    (h : scanToken cur = .ok (token, next)) (ht : token.text? = some "") : token = .cdata "" := by
  obtain ⟨text, -, htext⟩ := tokenText_of_scanToken hne h
  cases htext with
  | startTag | endTag => cases ht
  | angle => exact absurd ht (by decide)
  | text hraw =>
    -- some text was read, and no reference stands for nothing
    have hdecoded := String.ofList_eq_empty_iff.1 (Option.some_inj.1 ht)
    exact absurd (eq_nil_of_decodeReferences hdecoded) hraw
  | delimited hparts =>
    cases token with
    | cdata => cases ht; rfl
    | text | rawText => cases hparts
    | _ => cases ht

theorem eq_cdata_of_mem_scan (cur : Cursor) :
    ∀ placed, .ok placed ∈ scan cur → placed.token.text? = some "" → placed.token = .cdata "" := by
  apply scan_induction (motive := fun _ pieces => ∀ placed, .ok placed ∈ pieces →
    placed.token.text? = some "" → placed.token = .cdata "")
  case finished => simp
  case fault =>
    intro cur fault _ _ ih placed hp
    rcases List.mem_cons.1 hp with hp | hp
    · cases hp
    · exact ih placed hp
  case token =>
    intro cur token next hne htoken _ ih placed hp
    rcases List.mem_cons.1 hp with hp | hp
    · cases hp; exact eq_cdata_of_scanToken hne htoken
    · exact ih placed hp
  case body =>
    intro cur token next body after hne htoken hbody ih placed hp
    rcases List.mem_cons.1 hp with hp | hp
    · cases hp; exact eq_cdata_of_scanToken hne htoken
    rcases List.mem_cons.1 hp with hp | hp
    · cases hp
      intro ht
      obtain ⟨_, _, -, -, hne⟩ := startTag_of_scanBody? hbody
      exact absurd (String.ofList_eq_empty_iff.1 (Option.some_inj.1 ht)) hne
    · exact ih placed hp

end

/-! ## Parsed documents -/

section
variable {voids : VoidTags} {source : String} {root : Node}

/-- **A parsed document has no adjacent texts.** -/
theorem isJoined_of_parse (h : (parse voids source).value = .ok root) : root.isJoined = true := by
  obtain ⟨tokens, -, before, element, after, -, -, hcontent, -⟩ := isDocument_of_parse h
  have := areJoined_of_content hcontent
  rwa [Child.areJoined, Child.areJoined, Bool.and_true] at this

/-- **Empty texts come from empty CDATA sections only.** -/
theorem dropEmptyTexts_of_parse (h : (parse voids source).value = .ok root)
    {tokens : List PlacedToken} (ht : tokenize source = .ok tokens)
    (hcdata : ∀ placed ∈ tokens, placed.token ≠ .cdata "") : root.dropEmptyTexts = root := by
  obtain ⟨tokens', ht', before, element, after, htokens, -, hcontent, -⟩ := isDocument_of_parse h
  obtain rfl : tokens' = tokens := Except.ok.inj (ht'.symm.trans ht)
  have hscan := scan_of_tokenize ht
  have hnonempty : ∀ token ∈ element, token.text? ≠ some "" := by
    intro token hmem hempty
    have hstructural : token ∈ structuralTokens voids tokens' := by simp [htokens, hmem]
    obtain ⟨placed, hp, rfl⟩ := List.mem_map.1 (List.mem_filter.1 hstructural).1
    refine hcdata placed hp (eq_cdata_of_mem_scan (.ofString source) placed ?_ hempty)
    rw [hscan]
    exact List.mem_map_of_mem hp
  have := Child.dropEmptyTexts_of_areNormal (areNormal_of_content hcontent hnonempty)
  rw [Child.dropEmptyTexts, Child.dropEmptyTexts] at this
  injection this with hnode
  injection hnode

end

/-- **Reading gives trees that can be written and read again without loss.** If no void tag begins
like an element with a raw body, a document that is read is legal and has no adjacent texts. When it
is written on one line with its raw bodies kept and is read again, it is the same except for its
empty texts, and it has such texts only if the source has empty CDATA sections. -/
theorem parse_render_of_parse {markup : MarkupConfig} {source : String} {root : Node}
    (hvoid : ∀ tag ∈ markup.voidTags, beginsRaw tag = false)
    (h : (parse markup.voids source).value = .ok root) :
    root.isLegal markup.voids = true ∧ root.isJoined = true ∧
      (∀ output : OutputConfig, output.format = false → output.preserveScriptBody = true →
        (parse markup.voids (Writer.render ⟨output, markup⟩ root)).value =
          .ok root.dropEmptyTexts) ∧
      ∀ tokens, tokenize source = .ok tokens → (∀ placed ∈ tokens, placed.token ≠ .cdata "") →
        root.dropEmptyTexts = root := by
  have hlegal := isLegal_of_parse (avoidsRaw_ofList hvoid) h
  have hjoined := isJoined_of_parse h
  refine ⟨hlegal, hjoined, fun output hf hbody => ?_, fun tokens => dropEmptyTexts_of_parse h⟩
  rw [← Node.normalize_of_isJoined hjoined]
  exact (Expander.keepsRaw_of_not_beginsRaw hbody hvoid).parse_render_of_isLegal hf hlegal

open Expander in
/-- The empty section is a text of the document that is gone when it has been written. Another
document without such a section stays as it is. -/
theorem parse_render_of_parse_section :
    let markup : MarkupConfig := {}
    let root : Node := ⟨"P", ∅, [.text "", .element (.leaf "br"), .text "<"]⟩
    let plain : Node := ⟨"p", ∅, [.text "a"]⟩
    (parse markup.voids "<P><![CDATA[]]><br>&lt;</p>").value = .ok root ∧
      root.isLegal markup.voids = true ∧ root.isJoined = true ∧
      (parse markup.voids (Writer.render ⟨{}, markup⟩ root)).value =
        .ok ⟨"P", ∅, [.element (.leaf "br"), .text "<"]⟩ ∧
      (parse markup.voids "<p>a</p>").value = .ok plain ∧ plain.dropEmptyTexts = plain := by
  intro markup root plain
  have hvoid : ∀ tag ∈ markup.voidTags, beginsRaw tag = false := by decide
  have htokens : tokenize "<P><![CDATA[]]><br>&lt;</p>" =
      .ok [⟨.startTag "P" [] false, .between 0 3⟩, ⟨.cdata "", .between 3 15⟩,
        ⟨.startTag "br" [] false, .between 15 19⟩, ⟨.text "<", .between 19 23⟩,
        ⟨.endTag "p", .between 23 27⟩] := by decide +kernel
  have hplain : tokenize "<p>a</p>" = .ok [⟨.startTag "p" [] false, .between 0 3⟩,
      ⟨.text "a", .between 3 4⟩, ⟨.endTag "p", .between 4 8⟩] := by decide +kernel
  have h : (parse markup.voids "<P><![CDATA[]]><br>&lt;</p>").value = .ok root := by
    rw [value_parse_of_tokenize htokens]
    rfl
  have h' : (parse markup.voids "<p>a</p>").value = .ok plain := by
    rw [value_parse_of_tokenize hplain]
    rfl
  obtain ⟨hlegal, hjoined, hrender, -⟩ := parse_render_of_parse hvoid h
  obtain ⟨-, -, -, hkept⟩ := parse_render_of_parse hvoid h'
  exact ⟨h, hlegal, hjoined, hrender {} rfl rfl, h', hkept _ hplain (by decide)⟩

end Markup

end ComponentMarkup
