/-
  Scanning loses nothing of the source.

  * `PlacedToken.since`: a token with its places counted from an offset.
  * `PlacedToken.IsReadAs`: what a token tells about its slice of the source. A raw body is the
    slice; any other token has the slice as its text, and the slice alone is read as that token.
  * `TokensFrom`: tokens read one after another up to the end of the text. Scanning without a fault
    gives such tokens (`tokensFrom_of_scan`).
  * `areLossless_of_tokenize`: the tokens of a source lie side by side from its start to its end,
    and each of them can be told from its slice.
-/
import ComponentMarkup.Proofs.ReportedPlaces

namespace ComponentMarkup.Markup

/-! ## Places counted from an offset -/

/-- The place, counted from the offset `start`. -/
def Span.since (start : Nat) (span : Span) : Span :=
  ⟨span.start - start, span.stop - start, Nat.sub_le_sub_right span.start_le_stop start⟩

/-- The attribute, with its place counted from the offset `start`. -/
def TagAttribute.since (start : Nat) (attr : TagAttribute) : TagAttribute :=
  { attr with span := attr.span.since start }

/-- The token, with all places in it counted from the offset `start`. -/
def Token.since (start : Nat) : Token → Token
  | .startTag name attributes selfClosing =>
    .startTag name (attributes.map (·.since start)) selfClosing
  | token => token

/-- The token, with its place and all places in it counted from the offset `start`. -/
def PlacedToken.since (start : Nat) (placed : PlacedToken) : PlacedToken :=
  ⟨placed.token.since start, placed.span.since start⟩

section
variable {next : Option Char} {start d : Nat} {attr : TagAttribute} {attributes : List TagAttribute}
  {token : Token} {text : List Char}

theorem Span.since_between (start length d : Nat) :
    (Span.between (start + d) (start + d + length)).since d = .between start (start + length) := by
  simp only [since, between, Span.mk.injEq]
  omega

theorem AttributeText.since (h : AttributeText next (start + d) attr text) :
    AttributeText next start (attr.since d) text := by
  cases h with
  | plain hkey =>
    rw [TagAttribute.since, Span.since_between]
    exact .plain hkey
  | assigned hkey hassigned =>
    rw [TagAttribute.since, Span.since_between]
    exact .assigned hkey hassigned

theorem AttributesText.since (h : AttributesText next (start + d) attributes text) :
    AttributesText next start (attributes.map (·.since d)) text := by
  generalize hstart : start + d = s at h
  induction h generalizing start with
  | nil => exact .nil
  | @cons _ gap attr text attributes rest hne hgap hattr _ ih =>
    subst hstart
    rw [Nat.add_right_comm] at hattr
    exact .cons hne hgap hattr.since (ih (by omega))

/-- A text of a token is one of the same token at any other place. -/
theorem TokenText.since (h : TokenText next (start + d) token text) :
    TokenText next start (token.since d) text := by
  cases h with
  | startTag hname hattributes hgap =>
    rw [Nat.add_right_comm] at hattributes
    exact .startTag hname hattributes.since hgap
  | endTag hname hgap => exact .endTag hname hgap
  | angle hnext => exact .angle hnext
  | text hraw hlt hnext => exact .text hraw hlt hnext
  | delimited hparts hfirst hdeclaration =>
    have hsame : token.since d = token := by
      cases token with
      | startTag => cases hparts
      | _ => rfl
    rw [hsame]
    exact .delimited hparts hfirst hdeclaration

/-- A text of a token is one where nothing comes after it, too. -/
theorem TokenText.alone (h : TokenText next start token text) :
    TokenText none start token text := by
  cases h with
  | startTag hname hattributes hgap => exact .startTag hname hattributes hgap
  | endTag hname hgap => exact .endTag hname hgap
  | angle => exact .angle (by simp)
  | text hraw hlt => exact .text hraw hlt (by simp)
  | delimited hparts hfirst hdeclaration => exact .delimited hparts hfirst hdeclaration

end

/-! ## Places of attributes -/

/-- A range that begins after another one begins and ends before that one ends, and is not empty. -/
def Span.IsInside (inner outer : Span) : Prop :=
  outer.start < inner.start ∧ inner.start < inner.stop ∧ inner.stop < outer.stop

section
variable {next : Option Char} {start : Nat} {attr : TagAttribute} {attributes : List TagAttribute}
  {token : Token} {text : List Char}

theorem AttributeText.places (h : AttributeText next start attr text) :
    attr.span.start = start ∧ attr.span.stop = start + utf8Length text ∧ 0 < utf8Length text := by
  obtain ⟨c, cs, rfl, -⟩ := h.exists_cons
  rw [h.span_eq, Span.between_of_le (Nat.le_add_right ..)]
  exact ⟨rfl, rfl, utf8Length_pos (List.cons_ne_nil c cs)⟩

/-- Attributes come after spaces, one behind the other. -/
theorem AttributesText.places (h : AttributesText next start attributes text) :
    (∀ attr ∈ attributes, start < attr.span.start ∧ attr.span.start < attr.span.stop ∧
      attr.span.stop ≤ start + utf8Length text) ∧
    attributes.Pairwise fun attr other => attr.span.stop < other.span.start := by
  induction h with
  | nil => simp
  | cons hne _ hattr _ ih =>
    obtain ⟨hinside, hpairwise⟩ := ih
    obtain ⟨hstart, hstop, hpos⟩ := hattr.places
    have hgap := utf8Length_pos hne
    rw [utf8Length_append, utf8Length_append, List.forall_mem_cons, List.pairwise_cons]
    refine ⟨⟨by omega, fun other hother => ?_⟩, fun other hother => ?_, hpairwise⟩
    · have := hinside other hother
      omega
    · have := hinside other hother
      omega

/-- The places in a token are inside its own, in order. -/
theorem TokenText.places (h : TokenText next start token text) :
    (∀ span ∈ token.spans, span.IsInside (.between start (start + utf8Length text))) ∧
    token.spans.Pairwise fun s t => s.stop < t.start := by
  cases h with
  | @startTag name attributes selfClosing written gap _ hattributes =>
    obtain ⟨hinside, hpairwise⟩ := hattributes.places
    rw [Token.spans, List.forall_mem_map, List.pairwise_map]
    refine ⟨fun attr hattr => ?_, hpairwise⟩
    have hplaces := hinside attr hattr
    have hend : 0 < utf8Length (gap ++ startTagEnd selfClosing) :=
      utf8Length_pos (by cases selfClosing <;> simp [startTagEnd])
    rw [Span.IsInside, Span.between_of_le (Nat.le_add_right ..), ← List.cons_append,
      utf8Length_append, utf8Length_append]
    dsimp only
    omega
  | @delimited _ _ _ _ hparts =>
    cases token with
    | startTag => cases hparts
    | _ => simp [Token.spans]
  | _ => simp [Token.spans]

end

/-! ## Slices -/

/-- The range of a source that holds the text. -/
def Span.Holds (source : String) (text : List Char) (span : Span) : Prop :=
  ∃ before after, source.toList = before ++ text ++ after ∧
    span = .between (utf8Length before) (utf8Length before + utf8Length text)

/-- What a token tells about its slice of the source: a raw body is the slice. Any other token has
the slice as its text, and the slice alone is read as that token, with places counted from its
start. -/
def PlacedToken.IsReadAs (slice : List Char) (placed : PlacedToken) : Prop :=
  match placed.token with
  | .rawText body => body.toList = slice
  | token => TokenText none placed.span.start token slice ∧
    tokenize (String.ofList slice) = .ok [placed.since placed.span.start]

section
variable {a b : Cursor} {token : Token} {text before : List Char} {source : String}

theorem scanBody?_of_end (h : b.rest = []) : scanBody? token b = none := by
  unfold scanBody?
  split
  · rw [h, splitBefore]
    split <;> rfl
  · rfl

/-- The text of a token alone is read as that token. -/
theorem tokenize_of_tokenText (h : TokenText none 0 token text) :
    tokenize (String.ofList text) = .ok [⟨token, .between 0 (utf8Length text)⟩] := by
  have hread : (Cursor.ofString (String.ofList text)).Reads text ⟨utf8Length text, []⟩ :=
    ⟨by simp [Cursor.ofString], by simp [Cursor.ofString]⟩
  have hne : (Cursor.ofString (String.ofList text)).rest ≠ [] := by
    rw [hread.1]
    simpa using h.ne_nil
  refine tokenize_of_scan ?_
  rw [scan_token hne (scanToken_of_tokenText hread h) (scanBody?_of_end rfl), scan_of_end rfl]
  rfl

theorem isReadAs_of_tokenText (hread : a.Reads text b)
    (h : TokenText b.rest.head? a.offset token text) :
    PlacedToken.IsReadAs text ⟨token, a.spanTo b⟩ := by
  have hstart : (a.spanTo b).start = a.offset := rfl
  have hoffset : TokenText none (0 + a.offset) token text := by
    rw [Nat.zero_add]
    exact h.alone
  have halone := tokenize_of_tokenText hoffset.since
  have hspan : (a.spanTo b).since a.offset = .between 0 (utf8Length text) := by
    have := Span.since_between 0 (utf8Length text) a.offset
    rwa [Nat.zero_add, Nat.zero_add, ← hread.spanTo_eq] at this
  have hraw : ∀ body, token ≠ .rawText body := by
    rintro body rfl
    cases h with
    | delimited hparts => cases hparts
  unfold PlacedToken.IsReadAs
  split
  next body ht => exact absurd ht (hraw body)
  next => rw [hstart, PlacedToken.since, hspan]; exact ⟨h.alone, halone⟩

theorem Cursor.Reads.holds (hbefore : (Cursor.ofString source).Reads before a)
    (hread : a.Reads text b) : (a.spanTo b).Holds source text := by
  refine ⟨before, b.rest, (hbefore.trans hread).1, ?_⟩
  have hoffset : a.offset = utf8Length before := by
    rw [hbefore.2]
    exact Nat.zero_add _
  rw [hread.spanTo_eq, hoffset]

end

/-! ## Tokens one after another -/

/-- Tokens read one after another from a position to the end of the text. A raw body comes only
directly after the start tag of its element. -/
inductive TokensFrom : Cursor → List PlacedToken → Prop
  | finished {a} : a.rest = [] → TokensFrom a []
  | token {a b token text rest} : a.Reads text b → TokenText b.rest.head? a.offset token text →
      TokensFrom b rest → TokensFrom a (⟨token, a.spanTo b⟩ :: rest)
  | body {a b c name attributes text body rest} : a.Reads text b →
      TokenText b.rest.head? a.offset (.startTag name attributes false) text →
      isRawName name = true → b.Reads body c → body ≠ [] → TokensFrom c rest →
      TokensFrom a (⟨.startTag name attributes false, a.spanTo b⟩ ::
        ⟨.rawText (String.ofList body), b.spanTo c⟩ :: rest)

theorem tokensFrom_of_scan {a : Cursor} {tokens : List PlacedToken} (h : scan a = tokens.map .ok) :
    TokensFrom a tokens := by
  revert tokens
  apply scan_induction (motive := fun a pieces => ∀ {tokens : List PlacedToken},
    pieces = tokens.map .ok → TokensFrom a tokens)
  case finished =>
    intro a hend tokens h
    rw [List.map_eq_nil_iff.1 h.symm]
    exact .finished hend
  case fault =>
    intro a fault _ _ _ tokens h
    obtain ⟨_, _, -, hp, -⟩ := List.map_eq_cons_iff.1 h.symm
    cases hp
  case token =>
    intro a token b hne htoken _ ih tokens h
    obtain ⟨_, rest, rfl, hp, hr⟩ := List.map_eq_cons_iff.1 h.symm
    cases hp
    obtain ⟨text, hread, ht⟩ := tokenText_of_scanToken hne htoken
    exact .token hread ht (ih hr.symm)
  case body =>
    intro a token b body c hne htoken hbody ih tokens h
    obtain ⟨_, more, rfl, hp, hmore⟩ := List.map_eq_cons_iff.1 h.symm
    obtain ⟨_, rest, rfl, hp', hr⟩ := List.map_eq_cons_iff.1 hmore
    cases hp
    cases hp'
    obtain ⟨text, hread, ht⟩ := tokenText_of_scanToken hne htoken
    obtain ⟨name, attributes, rfl, hraw, hne'⟩ := startTag_of_scanBody? hbody
    exact .body hread ht hraw (reads_scanBody? hbody) hne' (ih hr.symm)

/-- Ranges side by side, none of them empty, from the offset `start` to the offset `stop`. -/
def AreTiles (start stop : Nat) : List Span → Prop
  | [] => start = stop
  | span :: rest => span.start = start ∧ span.start < span.stop ∧ AreTiles span.stop stop rest

section
variable {a b : Cursor} {tokens : List PlacedToken} {text : List Char} {source : String}

theorem AreTiles.cons {stop : Nat} {spans : List Span} (hread : a.Reads text b) (ht : text ≠ [])
    (h : AreTiles b.offset stop spans) : AreTiles a.offset stop (a.spanTo b :: spans) := by
  have hpos := utf8Length_pos ht
  have hspan : a.spanTo b = ⟨a.offset, b.offset, hread.isBefore.offset_le⟩ :=
    hread.isBefore.spanTo_eq
  have hoffset := hread.2
  rw [hspan]
  exact ⟨rfl, by simp only; omega, h⟩

theorem TokensFrom.areTiles (h : TokensFrom a tokens) :
    AreTiles a.offset (a.offset + utf8Length a.rest) (tokens.map (·.span)) := by
  have hstop {a b : Cursor} {text : List Char} (hread : a.Reads text b) :
      a.offset + utf8Length a.rest = b.offset + utf8Length b.rest := by
    rw [hread.1, hread.2, utf8Length_append, Nat.add_assoc]
  induction h with
  | finished hend => rw [hend]; rfl
  | token hread ht _ ih =>
    rw [hstop hread]
    exact .cons hread ht.ne_nil ih
  | body hread ht _ hbody hne _ ih =>
    rw [hstop hread, hstop hbody]
    exact .cons hread ht.ne_nil (.cons hbody hne ih)

theorem TokensFrom.slices (h : TokensFrom a tokens) {before : List Char}
    (hbefore : (Cursor.ofString source).Reads before a) :
    ∀ placed ∈ tokens, ∃ slice, placed.span.Holds source slice ∧ placed.IsReadAs slice := by
  induction h generalizing before with
  | finished => simp
  | token hread ht _ ih =>
    rw [List.forall_mem_cons]
    exact ⟨⟨_, hbefore.holds hread, isReadAs_of_tokenText hread ht⟩, ih (hbefore.trans hread)⟩
  | body hread ht _ hbody _ _ ih =>
    have hstart := hbefore.trans hread
    rw [List.forall_mem_cons, List.forall_mem_cons]
    exact ⟨⟨_, hbefore.holds hread, isReadAs_of_tokenText hread ht⟩,
      ⟨_, hstart.holds hbody, String.toList_ofList⟩, ih (hstart.trans hbody)⟩

theorem TokensFrom.places (h : TokensFrom a tokens) : ∀ placed ∈ tokens,
    (∀ span ∈ placed.token.spans, span.IsInside placed.span) ∧
      placed.token.spans.Pairwise fun s t => s.stop < t.start := by
  have hplaces {a b : Cursor} {token : Token} {text : List Char} (hread : a.Reads text b)
      (ht : TokenText b.rest.head? a.offset token text) :
      (∀ span ∈ token.spans, span.IsInside (a.spanTo b)) ∧
        token.spans.Pairwise fun s t => s.stop < t.start := by
    rw [hread.spanTo_eq]
    exact ht.places
  induction h with
  | finished => simp
  | token hread ht _ ih =>
    rw [List.forall_mem_cons]
    exact ⟨hplaces hread ht, ih⟩
  | body hread ht _ _ _ _ ih =>
    rw [List.forall_mem_cons, List.forall_mem_cons]
    exact ⟨hplaces hread ht, by simp [Token.spans], ih⟩

/-- A raw body comes directly after a start tag of its element. -/
theorem TokensFrom.startTag_of_rawText (h : TokensFrom a tokens) {before after : List PlacedToken}
    {body : String} {span : Span} (ht : tokens = before ++ ⟨.rawText body, span⟩ :: after) :
    ∃ front name attributes place, before = front ++ [⟨.startTag name attributes false, place⟩] ∧
      isRawName name = true := by
  have further {before : List PlacedToken} (placed : PlacedToken) :
      (∃ front name attributes place, before = front ++ [⟨.startTag name attributes false, place⟩] ∧
        isRawName name = true) →
      ∃ front name attributes place,
        placed :: before = front ++ [⟨.startTag name attributes false, place⟩] ∧
          isRawName name = true := by
    rintro ⟨front, name, attributes, place, rfl, hraw⟩
    exact ⟨placed :: front, name, attributes, place, rfl, hraw⟩
  induction h generalizing before with
  | finished => simp at ht
  | token hread htoken _ ih =>
    cases before with
    | nil =>
      cases ht
      cases htoken with
      | delimited hparts => cases hparts
    | cons first before =>
      rw [List.cons_append, List.cons.injEq] at ht
      exact further first (ih ht.2)
  | @body _ _ _ name attributes _ _ _ _ _ hraw _ _ _ ih =>
    cases before with
    | nil => cases ht
    | cons first before =>
      rw [List.cons_append, List.cons.injEq] at ht
      cases before with
      | nil => exact ⟨[], name, attributes, _, by rw [← ht.1]; rfl, hraw⟩
      | cons second before =>
        rw [List.cons_append, List.cons.injEq] at ht
        exact further first (further second (ih ht.2.2))

end

/-! ## Sources -/

/-- Tokens that keep all of a source. -/
structure AreLossless (source : String) (tokens : List PlacedToken) : Prop where
  /-- The tokens lie side by side, from the start of the source to its end. -/
  tiles : AreTiles 0 source.utf8ByteSize (tokens.map (·.span))
  /-- All places begin and end between characters. -/
  isIn : ∀ placed ∈ tokens, placed.span.IsIn source ∧
    ∀ span ∈ placed.token.spans, span.IsIn source
  /-- The attributes of a tag lie inside it, each behind the one before. -/
  attributes : ∀ placed ∈ tokens, (∀ span ∈ placed.token.spans, span.IsInside placed.span) ∧
    placed.token.spans.Pairwise fun s t => s.stop < t.start
  /-- What a token holds is told by its slice of the source. -/
  slices : ∀ placed ∈ tokens, ∃ slice, placed.span.Holds source slice ∧ placed.IsReadAs slice
  /-- A raw body comes directly after a start tag that opens an element with such a body. -/
  bodies : ∀ before body span after, tokens = before ++ ⟨.rawText body, span⟩ :: after →
    ∃ front name attributes place, before = front ++ [⟨.startTag name attributes false, place⟩] ∧
      isRawName name = true

/-- **Reading a source into tokens loses nothing of it.** -/
theorem areLossless_of_tokenize {source : String} {tokens : List PlacedToken}
    (h : tokenize source = .ok tokens) : AreLossless source tokens := by
  have hfrom := tokensFrom_of_scan (scan_of_tokenize h)
  have htiles := hfrom.areTiles
  have hsize : (Cursor.ofString source).offset + utf8Length (Cursor.ofString source).rest =
      source.utf8ByteSize := by
    rw [Cursor.ofString, Nat.zero_add, utf8Length_toList]
  rw [hsize] at htiles
  exact {
    tiles := htiles
    isIn := isIn_of_tokenize h
    attributes := hfrom.places
    slices := hfrom.slices (.refl _)
    bodies := fun _ _ _ _ ht => hfrom.startTag_of_rawText ht }

/-- Values with `>`, with a reference and without quotes before a `>`, a `<` that opens nothing, a
raw body that holds `<`, and delimiters with nothing between them. -/
theorem areLossless_of_tokenize_page :
    let source :=
      "<p a=\"x>y\" b = '&lt;é' c=d/>&amp;<<script>a<b</SCRIPT ><!----><![CDATA[]]><!x><?a?b?>"
    let tokens : List PlacedToken :=
      [⟨.startTag "p" [⟨"a", "x>y", .between 3 10⟩, ⟨"b", "<é", .between 11 23⟩,
          ⟨"c", "d/", .between 24 28⟩] false, .between 0 29⟩,
        ⟨.text "&", .between 29 34⟩, ⟨.text "<", .between 34 35⟩,
        ⟨.startTag "script" [] false, .between 35 43⟩, ⟨.rawText "a<b", .between 43 46⟩,
        ⟨.endTag "SCRIPT", .between 46 56⟩, ⟨.comment "", .between 56 63⟩,
        ⟨.cdata "", .between 63 75⟩, ⟨.declaration "x", .between 75 79⟩,
        ⟨.instruction "a?b", .between 79 86⟩]
    tokenize source = .ok tokens ∧ AreLossless source tokens := by
  intro source tokens
  have htokens : tokenize source = .ok tokens := by decide +kernel
  exact ⟨htokens, areLossless_of_tokenize htokens⟩

end ComponentMarkup.Markup
