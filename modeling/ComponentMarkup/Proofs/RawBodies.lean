/-
  Elements with raw bodies, read from their text.

  * `textLength`, `tagLength`: the characters of text that tokens have, and those that their tags
    take at least. Together they are no more than the source has (`TokensFrom.length_le`), and a
    document has no more text directly below its root than its tokens (`IsDocument.textLength_le`).
  * `rawElementText`: an element with a raw body as it is written.
  * `parse_rawElement_iff`: the body is read as it is written exactly if not even the beginning of an
    end tag of its element stands in it.
  * `OpensEndTag`: an end tag up to its `>`. A body without end tags can still be cut
    (`parse_rawElement_ne_of_longer_name`).
-/
import Mathlib.Algebra.GroupWithZero.Nat
import ComponentMarkup.Proofs.ParsedTree
import ComponentMarkup.Proofs.SourceTiling

namespace ComponentMarkup

/-! ## Amounts of text -/

/-- The number of characters of the texts among children. -/
def Child.textLength (children : List Child) : Nat :=
  (children.map fun child => (child.text?.map String.length).getD 0).sum

theorem Child.textLength_joinTexts (children : List Child) :
    textLength (joinTexts children) = textLength children := by
  induction children with
  | nil => rfl
  | cons child rest ih =>
    cases child with
    | element node =>
      rw [joinTexts]
      simpa [Child.textLength, Child.text?] using ih
    | text s =>
      rw [joinTexts]
      split
      next t more he =>
        rw [he] at ih
        simp only [Child.textLength, Child.text?, List.map_cons, Option.map_some,
          Option.getD_some, List.sum_cons, String.length_append] at ih ⊢
        omega
      next =>
        simp only [Child.textLength, List.map_cons, List.sum_cons] at ih ⊢
        omega

namespace Markup

/-- The number of characters of text that a token has for the element around it. -/
def Token.textLength (token : Token) : Nat := (token.text?.map String.length).getD 0

/-- The least number of characters that a tag takes: its name and what stands around it. -/
def Token.tagLength : Token → Nat
  | .startTag name _ _ => name.length + 2
  | .endTag name => name.length + 3
  | _ => 0

/-- The number of characters of text that tokens have. -/
def textLength (tokens : List Token) : Nat := (tokens.map Token.textLength).sum

/-- The least number of characters that the tags among tokens take. -/
def tagLength (tokens : List Token) : Nat := (tokens.map Token.tagLength).sum

section
variable {voids : VoidTags} {a b : Cursor} {token : Token} {tokens more : List Token}
  {children : List Child} {text : List Char} {next : Option Char} {start : Nat} {root : Node}

@[simp] theorem textLength_cons :
    textLength (token :: tokens) = token.textLength + textLength tokens := by
  simp [textLength]

@[simp] theorem tagLength_cons :
    tagLength (token :: tokens) = token.tagLength + tagLength tokens := by
  simp [tagLength]

@[simp] theorem textLength_append :
    textLength (tokens ++ more) = textLength tokens + textLength more := by
  simp [textLength]

theorem textLength_filter_le (p : Token → Bool) (tokens : List Token) :
    textLength (tokens.filter p) ≤ textLength tokens := by
  induction tokens with
  | nil => exact Nat.le_refl _
  | cons token rest ih =>
    rw [List.filter_cons]
    split <;> simp only [textLength_cons] <;> omega

theorem tagLength_le_of_mem (h : token ∈ tokens) : token.tagLength ≤ tagLength tokens := by
  obtain ⟨before, after, rfl⟩ := List.append_of_mem h
  simp only [tagLength, List.map_append, List.map_cons, List.sum_append, List.sum_cons]
  omega

theorem length_decodeReferences_le (cs : List Char) : (decodeReferences cs).length ≤ cs.length := by
  fun_induction decodeReferences cs with
  | case1 => exact Nat.le_refl 0
  | case2 cs d after h ih =>
    have := length_takeReference? h
    simp only [List.length_cons]
    omega
  | case3 cs h ih => exact Nat.succ_le_succ ih
  | case4 c cs hc ih => exact Nat.succ_le_succ ih

/-- A token takes at least the characters of its text and of its tag. -/
theorem TokenText.length_le (h : TokenText next start token text) :
    token.textLength + token.tagLength ≤ text.length := by
  cases h with
  | @startTag name attributes selfClosing =>
    have hend : 0 < (startTagEnd selfClosing).length := by cases selfClosing <;> decide
    simp only [Token.textLength, Token.text?, Token.tagLength, Option.map_none, Option.getD_none,
      List.length_cons, List.length_append, String.length_toList]
    omega
  | endTag =>
    simp only [Token.textLength, Token.text?, Token.tagLength, Option.map_none, Option.getD_none,
      List.length_cons, List.length_append, String.length_toList, List.length_nil]
    omega
  | angle => exact Nat.le_refl 1
  | text =>
    simpa [Token.textLength, Token.text?, Token.tagLength] using length_decodeReferences_le _
  | delimited hparts =>
    cases token with
    | cdata s =>
      cases hparts
      simp only [Token.textLength, Token.text?, Token.tagLength, Option.map_some, Option.getD_some,
        List.length_append, String.length_toList]
      omega
    | comment | declaration | instruction => exact Nat.zero_le _
    | startTag | endTag | text | rawText => cases hparts

/-- **Reading makes no text longer**: texts and tags have room in the source. -/
theorem TokensFrom.length_le {placed : List PlacedToken} (h : TokensFrom a placed) :
    textLength (placed.map PlacedToken.token) + tagLength (placed.map PlacedToken.token) ≤
      a.rest.length := by
  induction h with
  | finished => exact Nat.zero_le _
  | token hread ht _ ih =>
    have htext := ht.length_le
    simp only [List.map_cons, textLength_cons, tagLength_cons, hread.length_eq]
    omega
  | @body _ _ _ _ _ _ body _ hread ht _ hbody _ _ ih =>
    have htext := ht.length_le
    have hraw : (Token.rawText (String.ofList body)).textLength = body.length :=
      String.length_ofList
    have htag : (Token.rawText (String.ofList body)).tagLength = 0 := rfl
    simp only [List.map_cons, textLength_cons, tagLength_cons, hread.length_eq, hbody.length_eq,
      hraw, htag]
    omega

theorem Content.textLength_le (h : Content voids tokens children) :
    Child.textLength children ≤ textLength tokens := by
  induction h with
  | nil => exact Nat.le_refl 0
  | text ht _ ih =>
    rw [textLength_cons, Token.textLength, ht]
    exact Nat.add_le_add_left ih _
  | leaf _ _ ih =>
    rw [textLength_cons]
    simp only [Child.textLength, Child.text?, List.map_cons, List.sum_cons, Option.map_none,
      Option.getD_none] at ih ⊢
    omega
  | element _ _ _ _ _ ih =>
    rw [textLength_cons, textLength_append, textLength_cons]
    simp only [Child.textLength, Child.text?, List.map_cons, List.sum_cons, Option.map_none,
      Option.getD_none] at ih ⊢
    omega

/-- A document has no more text directly below its root than its tokens have. -/
theorem IsDocument.textLength_le (h : IsDocument voids tokens root) :
    Child.textLength root.children ≤ textLength tokens := by
  obtain ⟨before, element, after, rfl, -, hcontent, -⟩ := h
  rw [textLength_append, textLength_append]
  cases hcontent with
  | leaf => exact Nat.zero_le _
  | element _ _ hinner =>
    have := hinner.textLength_le
    rw [Child.textLength_joinTexts, textLength_cons, textLength_append]
    omega

end

/-! ## Documents with a raw body -/

theorem length_toList_asciiLower (name : String) :
    (Text.asciiLower name).toList.length = name.length := by
  rw [Text.asciiLower, String.toList_ofList, List.length_map, String.length_toList]

theorem isLegalName_asciiLower (name : String) :
    isLegalName (Text.asciiLower name) = isLegalName name := by
  have hstart : (fun c : Char => isNameStart c.toLower) = isNameStart := by
    funext c
    rcases Text.toLower_eq_self_or c with h | ⟨n, hn, rfl⟩
    · rw [h]
    · revert n
      decide
  have hchar : isNameChar ∘ Char.toLower = isNameChar := funext isNameChar_toLower
  rw [isLegalName, isLegalName, Text.asciiLower, String.toList_ofList, List.head?_map,
    Option.any_map, List.all_map, hstart, hchar]

theorem isLegalName_of_isRawName {name : String} (h : isRawName name = true) :
    isLegalName name = true := by
  rw [isRawName, Bool.or_eq_true, Text.sameName_iff, Text.sameName_iff] at h
  rw [← isLegalName_asciiLower]
  rcases h with h | h <;> rw [h] <;> decide

section
variable {voids : VoidTags} {name body : String} {tokens : List Token} {root : Node}
  {attributes : List TagAttribute}

/-- What stops a raw body counts, unless it is the end tag of a void element. -/
theorem RawTail.filter_or (voids : VoidTags) (h : RawTail name tokens) :
    RawTail name (tokens.filter (Token.isStructural voids)) ∨
      ∃ tag, .endTag tag ∈ tokens ∧ voids.has tag = true ∧
        (Text.asciiLower name).toList <+: (Text.asciiLower tag).toList := by
  have ends : ∀ {tokens : List Token}, EndsRaw name tokens →
      EndsRaw name (tokens.filter (Token.isStructural voids)) ∨
        ∃ tag, .endTag tag ∈ tokens ∧ voids.has tag = true ∧
          (Text.asciiLower name).toList <+: (Text.asciiLower tag).toList := by
    rintro tokens (rfl | ⟨tag, rest, rfl, hp⟩)
    · exact .inl (.inl rfl)
    cases hv : voids.has tag with
    | true => exact .inr ⟨tag, by simp, hv, hp⟩
    | false =>
      have hcounts : (Token.endTag tag).isStructural voids = true := by simp [Token.isStructural, hv]
      exact .inl (.inr ⟨tag, _, List.filter_cons_of_pos hcounts, hp⟩)
  rcases h with h | ⟨body, rest, rfl, hbody, hends⟩
  · exact (ends h).imp_left .inl
  · refine (ends hends).imp (fun h => .inr ⟨body, _, List.filter_cons_of_pos rfl, hbody, h⟩) ?_
    rintro ⟨tag, hmem, hrest⟩
    exact ⟨tag, List.mem_cons_of_mem _ hmem, hrest⟩

/-- A document that begins with an element with a raw body has nothing else in that element. -/
theorem IsDocument.isRawContent (hv : voids.has name = false)
    (h : IsDocument voids (.startTag name attributes false :: tokens) root)
    (ht : RawTail name tokens) : isRawContent name root.children = true := by
  obtain ⟨before, element, after, htokens, hbefore, hcontent, -⟩ := h
  obtain rfl : before = [] := by
    cases before with
    | nil => rfl
    | cons first before =>
      rw [List.append_assoc, List.cons_append, List.cons.injEq] at htokens
      obtain ⟨s, hs, -⟩ := hbefore first (by simp)
      rw [← htokens.1] at hs
      cases hs
  cases hcontent with
  | leaf hleaf =>
    cases htokens
    rw [hv] at hleaf
    cases hleaf
  | element _ _ hinner hnone =>
    cases hnone
    rw [List.nil_append, List.cons_append, List.cons.injEq] at htokens
    obtain ⟨hstart, rfl⟩ := htokens
    cases hstart
    rw [List.append_assoc, List.cons_append] at ht
    exact isRawContent_of_rawTail hinner ht

end

/-! ## Elements with raw bodies -/

/-- An element with a raw body, as it is written. -/
def rawElementText (name body : String) : String :=
  "<" ++ name ++ ">" ++ body ++ "</" ++ name ++ ">"

/-- The text is an end tag of an element up to its `>`. -/
def OpensEndTag (name : String) (text : List Char) : Prop :=
  ∃ written gap, text = ['<', '/'] ++ (written ++ gap) ∧
    written.map Char.toLower = (Text.asciiLower name).toList ∧ IsGap gap

/-- An element with a raw body. -/
def rawElement (name body : String) : Node :=
  ⟨name, ∅, if body = "" then [] else [.text body]⟩

section
variable {voids : VoidTags} {name body : String}

theorem toList_rawElementText (name body : String) : (rawElementText name body).toList =
    startTagText name [] ++ (body.toList ++ endTagText name) := by
  simp [rawElementText, startTagText, endTagText]

theorem parse_rawElementText (hraw : isRawName name = true) (hv : voids.has name = false)
    (hbody : isRawBody name body = true) :
    (parse voids (rawElementText name body)).value = .ok (rawElement name body) := by
  have hread := Cursor.reads_finish (.ofString (rawElementText name body))
  rw [Cursor.ofString, toList_rawElementText] at hread
  obtain ⟨opened, hopen, hrest⟩ := hread.split
  obtain ⟨closing, hinner, hclose⟩ := hrest.split
  have hspells : Spells voids [.element (rawElement name body)] _ _ :=
    .rawElement (isLegalName_of_isRawName hraw) hv hraw hbody (by simp) rfl hopen hinner hclose
  exact parse_of_spells (by rwa [Cursor.ofString, toList_rawElementText]) rfl

theorem exists_tokens_rawElementText {placed : List PlacedToken} (hn : isLegalName name = true)
    (h : scan (.ofString (rawElementText name body)) = placed.map .ok) : ∃ attributes rest,
      placed.map PlacedToken.token = .startTag name attributes false :: rest := by
  have hread := Cursor.reads_finish (.ofString (rawElementText name body))
  have hrest : (Cursor.ofString (rawElementText name body)).rest = _ :=
    toList_rawElementText name body
  rw [hrest] at hread
  obtain ⟨opened, hopen, -⟩ := hread.split
  obtain ⟨attributes, hstart, -⟩ := scanToken_startTag hn (by simp) hopen
  obtain ⟨token, next, rest, htoken, hmore⟩ := scan_cases (startTagText_ne_nil hopen) h
  cases hstart.symm.trans htoken
  rcases hmore with ⟨-, -, rfl⟩ | ⟨body, _, -, -, rfl⟩
  · exact ⟨attributes, _, rfl⟩
  · exact ⟨attributes, _, rfl⟩

theorem length_rest_rawElementText (name body : String) :
    (Cursor.ofString (rawElementText name body)).rest.length =
      body.length + 2 * name.length + 5 := by
  rw [Cursor.ofString, toList_rawElementText]
  simp only [startTagText, endTagText, List.length_append, List.length_cons, List.length_nil,
    List.flatMap_nil, String.length_toList]
  omega

theorem length_lt_of_has {tag : String} (hv : voids.has name = false) (htag : voids.has tag = true)
    (h : (Text.asciiLower name).toList <+: (Text.asciiLower tag).toList) :
    name.length < tag.length := by
  have hle := h.length_le
  rw [length_toList_asciiLower, length_toList_asciiLower] at hle
  refine Nat.lt_of_le_of_ne hle fun heq => ?_
  have hlower : (Text.asciiLower name).toList = (Text.asciiLower tag).toList :=
    h.eq_of_length (by rw [length_toList_asciiLower, length_toList_asciiLower, heq])
  rw [VoidTags.has, String.toList_inj.mp hlower, ← VoidTags.has, htag] at hv
  cases hv

theorem isRawBody_of_parse (hraw : isRawName name = true) (hv : voids.has name = false)
    (h : (parse voids (rawElementText name body)).value = .ok (rawElement name body)) :
    isRawBody name body = true := by
  by_cases hempty : body = ""
  · rw [hempty]
    rfl
  obtain ⟨placed, htokenize, hdocument⟩ := isDocument_of_parse h
  have hscan := scan_of_tokenize htokenize
  obtain ⟨attributes, rest, htokens⟩ :=
    exists_tokens_rawElementText (isLegalName_of_isRawName hraw) hscan
  have hscanned := isScanned_of_scan hscan
  have hlength := (tokensFrom_of_scan hscan).length_le
  rw [structuralTokens, htokens] at hdocument
  rw [htokens] at hscanned hlength
  rcases (hscanned.2.1 name attributes rfl hraw).filter_or voids with
    htail | ⟨tag, hmem, htag, hbegins⟩
  · have hcontent := hdocument.isRawContent hv htail
    simpa [rawElement, hempty, isRawContent] using hcontent
  · -- the end tag that stops the body is longer, so the tokens have less text than the body
    exfalso
    have hlonger := length_lt_of_has hv htag hbegins
    have htext := hdocument.textLength_le
    have hfilter := textLength_filter_le (Token.isStructural voids)
      (.startTag name attributes false :: rest)
    have htags := tagLength_le_of_mem hmem
    have hroot : Child.textLength (rawElement name body).children = body.length := by
      simp [rawElement, hempty, Child.textLength, Child.text?]
    rw [length_rest_rawElementText, tagLength_cons] at hlength
    simp only [Token.tagLength] at hlength htags
    omega

/-- **A raw body is read as it is written** exactly if the beginning of an end tag of its element
does not stand in it, in any case of letters. -/
theorem parse_rawElement_iff (hraw : isRawName name = true) (hv : voids.has name = false)
    (body : String) :
    (parse voids (rawElementText name body)).value = .ok (rawElement name body) ↔
      isRawBody name body = true :=
  ⟨isRawBody_of_parse hraw hv, parse_rawElementText hraw hv⟩

end

/-- A style sheet may have other tags and references in it. -/
theorem parse_rawElement_style :
    isRawName "Style" = true ∧ (VoidTags.ofList VoidTags.html).has "Style" = false ∧
    (parse (.ofList VoidTags.html) (rawElementText "Style" "a > b &lt; </sty>")).value =
      .ok (rawElement "Style" "a > b &lt; </sty>") :=
  ⟨by decide, by decide,
    (parse_rawElement_iff (by decide) (by decide) "a > b &lt; </sty>").2 (by decide +kernel)⟩

/-- What begins like an end tag of a script in `</scripts>` stops before the last two characters. -/
theorem OpensEndTag.append_eq_scripts {before tag after : List Char}
    (h : OpensEndTag "script" tag) (htext : before ++ tag ++ after = "</scripts>".toList) :
    after = ['s', '>'] := by
  obtain ⟨written, gap, rfl, hname, hgap⟩ := h
  have hbody : "</scripts>".toList = '<' :: '/' :: ("script".toList ++ ['s', '>']) := by decide
  have hlength : written.length = "script".toList.length := by
    have hmapped := congrArg List.length hname
    rwa [List.length_map] at hmapped
  rw [hbody] at htext
  -- the only `<` is the first character, so the name takes all but two of those after it
  have hrest : gap ++ after = ['s', '>'] := by
    cases before with
    | cons c before =>
      have hmem : '<' ∈ '/' :: ("script".toList ++ ['s', '>']) := by
        rw [← (List.cons.inj htext).2]
        simp
      exact absurd hmem (by decide)
    | nil =>
      have hname : written ++ (gap ++ after) = "script".toList ++ ['s', '>'] := by
        simpa only [List.nil_append, List.cons_append, List.append_assoc, List.cons.injEq,
          true_and] using htext
      exact (List.append_inj hname hlength).2
  cases gap with
  | nil => exact hrest
  | cons c gap =>
    have hc := hgap c List.mem_cons_self
    rw [(List.cons.inj hrest).1] at hc
    exact absurd hc (by decide)

/-- **A body without an end tag is cut**: `</scripts>` is no end tag of a script and does not end in
the beginning of one, but a script with this body is not read as it is written. -/
theorem parse_rawElement_ne_of_longer_name :
    isRawName "script" = true ∧ (VoidTags.ofList VoidTags.html).has "script" = false ∧
    (∀ tag, OpensEndTag "script" tag →
      ¬ tag ++ ['>'] <:+: "</scripts>".toList ∧ ¬ tag <:+ "</scripts>".toList) ∧
    (parse (.ofList VoidTags.html) (rawElementText "script" "</scripts>")).value ≠
      .ok (rawElement "script" "</scripts>") := by
  refine ⟨by decide, by decide, fun tag htag => ⟨?_, ?_⟩, fun h => ?_⟩
  · rintro ⟨before, after, h⟩
    have hafter : '>' :: after = ['s', '>'] :=
      htag.append_eq_scripts (by rw [← h]; simp only [List.append_assoc]; rfl)
    cases hafter
  · rintro ⟨before, h⟩
    have hafter : [] = ['s', '>'] := htag.append_eq_scripts (by rw [List.append_nil, h])
    cases hafter
  · exact absurd (isRawBody_of_parse (by decide) (by decide) h) (by decide)

end Markup

end ComponentMarkup
