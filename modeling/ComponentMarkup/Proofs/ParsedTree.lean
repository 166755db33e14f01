/-
  Parsed trees are legal.

  * `Token.IsLegal`: a token whose names could be read; `RawTail`: what follows the start tag of an
    element with a raw body. `IsScanned` says both of a token list, and scanning gives such a list
    (`isScanned_of_scan`).
  * `NoRawPrefix`: void elements whose names do not begin as those of elements with raw bodies. With
    them, the end tag that stops a raw body counts.
  * `isLegal_of_content`, `isLegal_of_parse`: what scanned tokens stand for is legal, and so is a
    parsed document.
-/
import ComponentMarkup.Proofs.Spelling

namespace ComponentMarkup.Markup

/-! ## Case of name characters -/

theorem isNameChar_toLower (c : Char) : isNameChar c.toLower = isNameChar c := by
  rcases Text.toLower_eq_self_or c with h | ⟨n, hn, rfl⟩
  · rw [h]
  · revert n
    decide

theorem isNameChar_of_toLower_eq {c d : Char} (h : c.toLower = d.toLower)
    (hd : isNameChar d = true) : isNameChar c = true := by
  rw [← isNameChar_toLower, h, isNameChar_toLower, hd]

/-! ## Legal tokens -/

/-- A token whose names of elements and attributes are legal. -/
def Token.IsLegal : Token → Prop
  | .startTag name attributes _ =>
    isLegalName name = true ∧ ∀ attr ∈ attributes, isLegalKey attr.name = true
  | _ => True

section
variable {cur inner next : Cursor} {token : Token}

theorem token_of_scanEndTag (h : scanEndTag cur inner = .ok (token, next)) :
    token = .endTag (String.ofList (inner.rest.takeWhile isNameChar)) := by
  unfold scanEndTag at h
  split at h
  next name named hn =>
    obtain rfl : inner.rest.takeWhile isNameChar = name := congrArg Prod.fst hn
    split at h
    · exact (scanTagEnd_iff.1 h).2
    · cases h

theorem AttributesText.isLegalKey {after : Option Char} {start : Nat} {text : List Char}
    {attributes : List TagAttribute} (h : AttributesText after start attributes text) :
    ∀ attr ∈ attributes, isLegalKey attr.name = true := by
  induction h with
  | nil => simp
  | cons _ _ hattr _ ih =>
    rw [List.forall_mem_cons]
    refine ⟨?_, ih⟩
    cases hattr with
    | plain hkey => exact hkey
    | assigned hkey => exact hkey

theorem isLegal_of_scanToken (hne : cur.rest ≠ []) (h : scanToken cur = .ok (token, next)) :
    token.IsLegal := by
  obtain ⟨text, -, ht⟩ := tokenText_of_scanToken hne h
  cases ht with
  | startTag hname hattributes => exact ⟨hname, hattributes.isLegalKey⟩
  | @delimited _ _ _ _ hparts =>
    cases token with
    | startTag => cases hparts
    | _ => trivial
  | _ => trivial

end

/-! ## Raw bodies -/

/-- Nothing, or an end tag whose name begins with the given one. -/
def EndsRaw (name : String) (tokens : List Token) : Prop :=
  tokens = [] ∨ ∃ tag rest, tokens = .endTag tag :: rest ∧
    (Text.asciiLower name).toList <+: (Text.asciiLower tag).toList

/-- What can follow the start tag of an element with a raw body: perhaps the body, and then what
ends it. -/
def RawTail (name : String) (tokens : List Token) : Prop :=
  EndsRaw name tokens ∨
    ∃ body rest, tokens = .rawText body :: rest ∧ isRawBody name body = true ∧ EndsRaw name rest

/-- Tokens as they are scanned: legal, and with a raw body where it belongs. -/
def IsScanned : List Token → Prop
  | [] => True
  | token :: rest =>
    token.IsLegal ∧ (∀ name attributes, token = .startTag name attributes false →
      isRawName name = true → RawTail name rest) ∧ IsScanned rest

theorem splitBefore_fst (opening cs : List Char) (hne : opening ≠ []) :
    ¬ opening <:+: (splitBefore opening cs).1.map Char.toLower := by
  induction cs with
  | nil => simpa [splitBefore] using hne
  | cons c cs ih =>
    rw [splitBefore]
    split
    next => simpa using hne
    next h =>
      rw [List.map_cons, List.infix_cons_iff]
      rintro (hp | hi)
      · refine h (beq_iff_eq.2 ?_)
        have hall : opening <+: (c :: cs).map Char.toLower := by
          refine hp.trans ⟨(splitBefore opening cs).2.map Char.toLower, ?_⟩
          rw [List.map_cons, List.cons_append, ← List.map_append, splitBefore_append]
        rw [List.map_take]
        exact (List.prefix_iff_eq_take.1 hall).symm
      · exact ih hi

theorem splitBefore_snd (opening cs : List Char) : (splitBefore opening cs).2 = [] ∨
    opening <+: (splitBefore opening cs).2.map Char.toLower := by
  induction cs with
  | nil => exact .inl rfl
  | cons c cs ih =>
    rw [splitBefore]
    split
    next h =>
      right
      rw [← eq_of_beq h, List.map_take]
      exact List.take_prefix _ _
    next => exact ih

section
variable {a b : Cursor} {token : Token} {tokens : List PlacedToken} {name : String}

/-- The first of the scanned tokens, and the body after it. -/
theorem scan_cases (hne : a.rest ≠ []) (h : scan a = tokens.map .ok) :
    ∃ token next rest, scanToken a = .ok (token, next) ∧
      ((scanBody? token next = none ∧ scan next = rest.map .ok ∧
        tokens = ⟨token, a.spanTo next⟩ :: rest) ∨
      ∃ body after, scanBody? token next = some (body, after) ∧ scan after = rest.map .ok ∧
        tokens = ⟨token, a.spanTo next⟩ ::
          ⟨.rawText (String.ofList body), next.spanTo after⟩ :: rest) := by
  cases ht : scanToken a with
  | error fault =>
    rw [scan_fault hne ht, eq_comm, List.map_eq_cons_iff] at h
    obtain ⟨_, _, -, hp, -⟩ := h
    cases hp
  | ok result =>
    obtain ⟨token, next⟩ := result
    cases hb : scanBody? token next with
    | none =>
      rw [scan_token hne ht hb, eq_comm, List.map_eq_cons_iff] at h
      obtain ⟨placed, rest, rfl, hp, hr⟩ := h
      cases hp
      exact ⟨token, next, rest, rfl, .inl ⟨hb, hr.symm, rfl⟩⟩
    | some result =>
      obtain ⟨body, after⟩ := result
      rw [scan_token_body hne ht hb, eq_comm, List.map_eq_cons_iff] at h
      obtain ⟨placed, more, rfl, hp, hmore⟩ := h
      obtain ⟨placed', rest, rfl, hp', hr⟩ := List.map_eq_cons_iff.1 hmore
      cases hp
      cases hp'
      exact ⟨token, next, rest, rfl, .inr ⟨body, after, hb, hr.symm, rfl⟩⟩

/-- Where the beginning of the end tag comes next, an end tag is scanned. -/
theorem endsRaw_of_scan (hn : isLegalName name = true)
    (hopen : a.rest = [] ∨
      ['<', '/'] ++ (Text.asciiLower name).toList <+: a.rest.map Char.toLower)
    (h : scan a = tokens.map .ok) : EndsRaw name (tokens.map PlacedToken.token) := by
  by_cases hne : a.rest = []
  · rw [scan_of_end hne, eq_comm, List.map_eq_nil_iff] at h
    exact .inl (by rw [h]; rfl)
  obtain ⟨t, ht⟩ := hopen.resolve_left hne
  obtain ⟨opening, rest, hrest, hlow, -⟩ := List.map_eq_append_iff.1 ht.symm
  obtain ⟨lt, slashed, rfl, hlt, hslashed⟩ := List.map_eq_cons_iff.1 hlow
  obtain ⟨slash, named, rfl, hslash, hnamed⟩ := List.map_eq_cons_iff.1 hslashed
  obtain rfl := eq_of_toLower_eq hlt (by decide)
  obtain rfl := eq_of_toLower_eq hslash (by decide)
  rw [List.append_eq, List.nil_append, Text.asciiLower, String.toList_ofList] at hnamed
  -- the name as it stands there differs in case only, so it is read as part of a name
  have hchars : ∀ c ∈ named, isNameChar c = true := by
    obtain ⟨_, _, -, -, hall⟩ := isLegalName_iff.1 hn
    intro c hc
    obtain ⟨d, hd, hcd⟩ := List.mem_map.1 (hnamed ▸ List.mem_map_of_mem hc)
    exact isNameChar_of_toLower_eq hcd.symm (hall d hd)
  obtain ⟨token, next, more, htoken, hmore⟩ := scan_cases hne h
  rw [scanToken_of_slash hrest] at htoken
  have hend := token_of_scanEndTag htoken
  rw [Cursor.past, List.append_eq, List.takeWhile_append_of_pos hchars] at hend
  subst hend
  refine .inr ⟨String.ofList (named ++ rest.takeWhile isNameChar), more.map PlacedToken.token,
    ?_, ?_⟩
  · rcases hmore with ⟨-, -, rfl⟩ | ⟨_, _, hbody, -, -⟩
    · rfl
    · cases hbody
  · rw [Text.asciiLower, Text.asciiLower, String.toList_ofList, String.toList_ofList,
      String.toList_ofList, List.map_append, hnamed]
    exact List.prefix_append _ _

theorem rawTail_of_scanBody?_none {attributes : List TagAttribute} (hn : isLegalName name = true)
    (hraw : isRawName name = true) (hb : scanBody? (.startTag name attributes false) a = none)
    (h : scan a = tokens.map .ok) : RawTail name (tokens.map PlacedToken.token) := by
  refine .inl (endsRaw_of_scan hn ?_ h)
  have hsnd := splitBefore_snd (['<', '/'] ++ (Text.asciiLower name).toList) a.rest
  have happend := splitBefore_append (['<', '/'] ++ (Text.asciiLower name).toList) a.rest
  rw [scanBody?, if_pos hraw] at hb
  split at hb
  next hs => rw [hs] at hsnd happend; rwa [← happend]
  next => cases hb

theorem rawTail_of_scanBody?_some {attributes : List TagAttribute} {body : List Char}
    (hn : isLegalName name = true) (hraw : isRawName name = true)
    (hb : scanBody? (.startTag name attributes false) a = some (body, b))
    (h : scan b = tokens.map .ok) :
    RawTail name (.rawText (String.ofList body) :: tokens.map PlacedToken.token) := by
  have hfst := splitBefore_fst (['<', '/'] ++ (Text.asciiLower name).toList) a.rest (by simp)
  have hsnd := splitBefore_snd (['<', '/'] ++ (Text.asciiLower name).toList) a.rest
  rw [scanBody?, if_pos hraw] at hb
  split at hb
  next => cases hb
  next hs =>
    cases hb
    rw [hs] at hfst hsnd
    refine .inr ⟨_, _, rfl, ?_, endsRaw_of_scan hn hsnd h⟩
    rw [isRawBody, Bool.not_eq_true', ← Bool.not_eq_true, Text.occursIn_iff, Text.asciiLower,
      Text.asciiLower, String.toList_ofList, String.toList_ofList, String.toList_ofList]
    rwa [Text.asciiLower, String.toList_ofList] at hfst

/-- **Scanning gives tokens with legal names and with raw bodies up to their end tag.** -/
theorem isScanned_of_scan (h : scan a = tokens.map .ok) :
    IsScanned (tokens.map PlacedToken.token) := by
  induction hlen : a.rest.length using Nat.strongRecOn generalizing a tokens with
  | ind n ih =>
    subst hlen
    by_cases hne : a.rest = []
    · rw [scan_of_end hne, eq_comm, List.map_eq_nil_iff] at h
      rw [h]
      trivial
    obtain ⟨token, next, rest, htoken, hmore⟩ := scan_cases hne h
    have hlegal := isLegal_of_scanToken hne htoken
    obtain ⟨s, hs, hread⟩ := reads_scanToken hne htoken
    have hlt := hread.length_lt hs
    rcases hmore with ⟨hbody, hscan, rfl⟩ | ⟨body, after, hbody, hscan, rfl⟩
    · refine ⟨hlegal, ?_, ih _ hlt hscan rfl⟩
      rintro name attributes rfl hraw
      exact rawTail_of_scanBody?_none hlegal.1 hraw hbody hscan
    · have hle := (reads_scanBody? hbody).length_le
      refine ⟨hlegal, ?_, trivial, ?_, ih _ (by omega) hscan rfl⟩
      · rintro name attributes rfl hraw
        exact rawTail_of_scanBody?_some hlegal.1 hraw hbody hscan
      · rintro name attributes ⟨⟩

end

/-! ## Void elements beside raw ones -/

/-- A name that begins as that of an element with a raw body. -/
def beginsRaw (name : String) : Bool :=
  ["script", "style"].any fun raw => raw.toList.isPrefixOf (Text.asciiLower name).toList

/-- No void element has a name that begins as that of an element with a raw body. -/
def VoidTags.AvoidsRaw (voids : VoidTags) : Prop :=
  ∀ name, beginsRaw name = true → voids.has name = false

theorem beginsRaw_of_lowered {name tag : String} (hraw : isRawName name = true)
    (h : (Text.asciiLower name).toList <+: (Text.asciiLower tag).toList) :
    beginsRaw tag = true := by
  have hscript : Text.asciiLower "script" = "script" := by decide
  have hstyle : Text.asciiLower "style" = "style" := by decide
  rw [isRawName, Bool.or_eq_true, Text.sameName_iff, Text.sameName_iff, hscript, hstyle] at hraw
  refine List.any_eq_true.2 ⟨Text.asciiLower name, ?_, List.isPrefixOf_iff_prefix.2 h⟩
  rcases hraw with hr | hr <;> rw [hr] <;> decide

theorem beginsRaw_of_isRawName {name : String} (hraw : isRawName name = true) :
    beginsRaw name = true :=
  beginsRaw_of_lowered hraw (List.prefix_refl _)

theorem beginsRaw_congr {a b : String} (h : Text.sameName a b = true) :
    beginsRaw a = beginsRaw b := by
  rw [beginsRaw, beginsRaw, Text.sameName_iff.1 h]

theorem avoidsRaw_ofList {tags : List String} (h : ∀ tag ∈ tags, beginsRaw tag = false) :
    (VoidTags.ofList tags).AvoidsRaw := by
  intro name hraw
  rw [← Bool.not_eq_true, VoidTags.has_ofList]
  rintro ⟨tag, ht, hs⟩
  rw [← beginsRaw_congr hs, h tag ht] at hraw
  cases hraw

section
variable {voids : VoidTags} {tokens tail : List Token} {children : List Child} {name tag : String}

theorem EndsRaw.filter (hv : voids.AvoidsRaw) (hraw : isRawName name = true)
    (h : EndsRaw name tokens) : EndsRaw name (tokens.filter (Token.isStructural voids)) := by
  rcases h with rfl | ⟨tag, rest, rfl, hp⟩
  · exact .inl rfl
  · have : (Token.endTag tag).isStructural voids = true := by
      rw [Token.isStructural, hv tag (beginsRaw_of_lowered hraw hp)]
      rfl
    rw [List.filter_cons_of_pos this]
    exact .inr ⟨tag, _, rfl, hp⟩

theorem RawTail.filter (hv : voids.AvoidsRaw) (hraw : isRawName name = true)
    (h : RawTail name tokens) : RawTail name (tokens.filter (Token.isStructural voids)) := by
  rcases h with h | ⟨body, rest, rfl, hbody, hends⟩
  · exact .inl (h.filter hv hraw)
  · exact .inr ⟨body, _, List.filter_cons_of_pos rfl, hbody, hends.filter hv hraw⟩

/-- The end tag that stops a raw body counts, so dropping what does not count loses nothing. -/
theorem IsScanned.filter (hv : voids.AvoidsRaw) (h : IsScanned tokens) :
    IsScanned (tokens.filter (Token.isStructural voids)) := by
  induction tokens with
  | nil => trivial
  | cons token rest ih =>
    obtain ⟨hlegal, hraw, hrest⟩ := h
    rw [List.filter_cons]
    split
    · exact ⟨hlegal, fun name attributes ht hr => (hraw name attributes ht hr).filter hv hr,
        ih hrest⟩
    · exact ih hrest

theorem IsScanned.of_append (h : IsScanned (tokens ++ tail)) : IsScanned tail := by
  induction tokens with
  | nil => exact h
  | cons token rest ih => exact ih h.2.2

/-! ## Content of scanned tokens -/

theorem nil_of_endsRaw (hc : Content voids tokens children)
    (h : EndsRaw name (tokens ++ .endTag tag :: tail)) : children = [] := by
  rcases h with h | ⟨_, _, h, -⟩
  · cases tokens <;> cases h
  · cases hc with
    | nil => rfl
    | text ht _ => cases h; cases ht
    | leaf => cases h
    | element => cases h

theorem isRawContent_of_rawTail (hc : Content voids tokens children)
    (h : RawTail name (tokens ++ .endTag tag :: tail)) :
    isRawContent name (Child.joinTexts children) = true := by
  rcases h with h | ⟨body, rest, h, hbody, hends⟩
  · rw [nil_of_endsRaw hc h]
    rfl
  · cases hc with
    | nil => rfl
    | text ht hrest =>
      cases h
      cases ht
      rw [nil_of_endsRaw hrest hends]
      exact hbody
    | leaf => cases h
    | element => cases h

theorem isLegalKey_firstAttributes {attributes : List TagAttribute}
    (h : ∀ attr ∈ attributes, isLegalKey attr.name = true) :
    ∀ key ∈ (firstAttributes attributes).keys, isLegalKey key = true := by
  have sublist : ∀ attributes, (firstOnly attributes).Sublist attributes := by
    intro attributes
    induction attributes with
    | nil => exact .slnil
    | cons attr rest ih => exact (List.filter_sublist.trans ih).cons_cons attr
  intro key hkey
  obtain ⟨entry, he, rfl⟩ := List.mem_map.1 hkey
  obtain ⟨attr, ha, rfl⟩ := List.mem_map.1 he
  exact h attr ((sublist attributes).subset ha)

/-- **Scanned tokens stand for legal children**, whatever comes after them. -/
theorem areLegal_of_content (hc : Content voids tokens children)
    (hs : IsScanned (tokens ++ tail)) : Child.areLegal voids children = true := by
  induction hc generalizing tail with
  | nil => rfl
  | text _ _ ih => exact ih hs.2.2
  | @leaf name attributes selfClosing tokens children hl _ ih =>
    obtain ⟨⟨hname, hkeys⟩, -, hrest⟩ := hs
    rw [Child.areLegal, Bool.and_eq_true, Node.isLegal_iff]
    exact ⟨⟨hname, isLegalKey_firstAttributes hkeys, fun _ => rfl, fun _ => rfl, rfl⟩, ih hrest⟩
  | @element name attributes body inner tag tokens children hv _ hbody _ ihb ih =>
    obtain ⟨⟨hname, hkeys⟩, hraw, hrest⟩ := hs
    rw [List.append_eq, List.append_assoc, List.cons_append] at hraw hrest
    rw [Child.areLegal, Bool.and_eq_true, Node.isLegal_iff, Child.areLegal_joinTexts]
    refine ⟨⟨hname, isLegalKey_firstAttributes hkeys, fun h => ?_, fun h => ?_, ihb hrest⟩,
      ih hrest.of_append.2.2⟩
    · rw [hv] at h
      cases h
    · exact isRawContent_of_rawTail hbody (hraw name attributes rfl h)

/-- The tokens of a parsed document are well nested. -/
theorem isDocument_of_parse {source : String} {root : Node}
    (h : (parse voids source).value = .ok root) : ∃ tokens, tokenize source = .ok tokens ∧
      IsDocument voids (structuralTokens voids tokens) root := by
  cases ht : tokenize source with
  | error e => rw [parse, ht] at h; cases h
  | ok tokens =>
    rw [value_parse_of_tokenize ht] at h
    cases hb : buildTree voids tokens with
    | error e => rw [hb] at h; cases h
    | ok result =>
      obtain ⟨root', warnings⟩ := result
      rw [hb] at h
      cases h
      exact ⟨tokens, rfl, isDocument_of_buildTree hb⟩

/-- **A parsed document is legal.** -/
theorem isLegal_of_parse {source : String} {root : Node} (hv : voids.AvoidsRaw)
    (h : (parse voids source).value = .ok root) : root.isLegal voids = true := by
  obtain ⟨tokens, ht, before, element, after, htokens, -, hcontent, -⟩ := isDocument_of_parse h
  have hscanned := (isScanned_of_scan (scan_of_tokenize ht)).filter hv
  rw [structuralTokens] at htokens
  rw [htokens, List.append_assoc] at hscanned
  have := areLegal_of_content hcontent hscanned.of_append
  rwa [Child.areLegal, Child.areLegal, Bool.and_true] at this

end

end ComponentMarkup.Markup
