/-
  Source text that spells a tree.

  * `scan_induction`: induction along a scan, piece by piece.
  * `Spells`: from one position to another stand tokens that are content and stand for the given
    children.
  * `Spells.text`, `Spells.leaf`, `Spells.selfClosed`, `Spells.element`, `Spells.rawElement`: the
    ways in which texts and elements are spelled. `Spells.trans` puts what they spell next to each other.
  * `elementText`: an element as it is written, and `spells_elementText`: it spells the element.
  * `parse_of_spells`: a source that spells an element is parsed as that element.
-/
import ComponentMarkup.Proofs.Scanning
import ComponentMarkup.Proofs.TreeBuilding

namespace ComponentMarkup.Markup

/-! ## Scanning token by token -/

instance decidableEqResult {ε α : Type} [DecidableEq ε] [DecidableEq α] : DecidableEq (Except ε α)
  | .ok a, .ok b => decidable_of_iff (a = b) (Except.ok.injEq a b ▸ Iff.rfl)
  | .error e, .error f => decidable_of_iff (e = f) (Except.error.injEq e f ▸ Iff.rfl)
  | .ok _, .error _ => isFalse nofun
  | .error _, .ok _ => isFalse nofun

section
variable {a b c : Cursor} {token : Token}

theorem scan_fault {fault : Fault} (ha : a.rest ≠ []) (ht : scanToken a = .error fault) :
    scan a = .error fault :: scan fault.resume := by
  rw [scan, dif_neg ha]
  split
  next h => rw [ht] at h; cases h; rfl
  next h => rw [ht] at h; cases h

theorem scan_token (ha : a.rest ≠ []) (ht : scanToken a = .ok (token, b))
    (hb : scanBody? token b = none) : scan a = .ok ⟨token, a.spanTo b⟩ :: scan b := by
  rw [scan, dif_neg ha]
  split
  next h => rw [ht] at h; cases h
  next h =>
    rw [ht] at h
    cases h
    split
    next => rfl
    next h => rw [hb] at h; cases h

theorem scan_token_body {body : List Char} (ha : a.rest ≠ []) (ht : scanToken a = .ok (token, b))
    (hb : scanBody? token b = some (body, c)) : scan a =
      .ok ⟨token, a.spanTo b⟩ :: .ok ⟨.rawText (String.ofList body), b.spanTo c⟩ :: scan c := by
  rw [scan, dif_neg ha]
  split
  next h => rw [ht] at h; cases h
  next h =>
    rw [ht] at h
    cases h
    split
    next h => rw [hb] at h; cases h
    next h => rw [hb] at h; cases h; rfl

theorem scan_of_end (h : a.rest = []) : scan a = [] := by
  rw [scan, dif_pos h]

/-- Induction along a scan: at the end of the text, at a fault, at a token, and at a token with a raw
body after it. -/
theorem scan_induction {motive : Cursor → List (Except Fault PlacedToken) → Prop}
    (finished : ∀ a, a.rest = [] → motive a [])
    (fault : ∀ a fault, a.rest ≠ [] → scanToken a = .error fault →
      motive fault.resume (scan fault.resume) → motive a (.error fault :: scan fault.resume))
    (token : ∀ a token b, a.rest ≠ [] → scanToken a = .ok (token, b) → scanBody? token b = none →
      motive b (scan b) → motive a (.ok ⟨token, a.spanTo b⟩ :: scan b))
    (body : ∀ a token b body c, a.rest ≠ [] → scanToken a = .ok (token, b) →
      scanBody? token b = some (body, c) → motive c (scan c) →
      motive a (.ok ⟨token, a.spanTo b⟩ ::
        .ok ⟨.rawText (String.ofList body), b.spanTo c⟩ :: scan c))
    (a : Cursor) : motive a (scan a) := by
  induction hlen : a.rest.length using Nat.strongRecOn generalizing a with
  | ind n ih =>
    subst hlen
    by_cases ha : a.rest = []
    · rw [scan_of_end ha]
      exact finished a ha
    cases ht : scanToken a with
    | error f =>
      obtain ⟨s, hs, hread⟩ := reads_fault ht
      rw [scan_fault ha ht]
      exact fault a f ha ht (ih _ (hread.length_lt hs) _ rfl)
    | ok result =>
      obtain ⟨t, b⟩ := result
      obtain ⟨s, hs, hread⟩ := reads_scanToken ha ht
      have hlt := hread.length_lt hs
      cases hb : scanBody? t b with
      | none =>
        rw [scan_token ha ht hb]
        exact token a t b ha ht hb (ih _ hlt _ rfl)
      | some result =>
        obtain ⟨content, c⟩ := result
        have hle := (reads_scanBody? hb).length_le
        rw [scan_token_body ha ht hb]
        exact body a t b content c ha ht hb (ih _ (by omega) _ rfl)

theorem tokenize_of_scan {source : String} {tokens : List PlacedToken}
    (h : scan (.ofString source) = tokens.map .ok) : tokenize source = .ok tokens := by
  have hf : faultsOf (tokens.map .ok) = [] := by simp [faultsOf]
  have ht : tokensOf (tokens.map .ok) = tokens := by
    rw [tokensOf, List.filterMap_map]
    exact List.filterMap_some
  rw [tokenize, h, hf]
  simp only [ht]

theorem scan_of_tokenize {source : String} {tokens : List PlacedToken}
    (h : tokenize source = .ok tokens) : scan (.ofString source) = tokens.map .ok := by
  have map_tokensOf : ∀ {pieces}, faultsOf pieces = [] → pieces = (tokensOf pieces).map .ok := by
    intro pieces hf
    induction pieces with
    | nil => rfl
    | cons piece rest ih =>
      cases piece with
      | error => cases hf
      | ok token => exact congrArg (.ok token :: ·) (ih hf)
  unfold tokenize at h
  simp only at h
  split at h
  next hf => cases h; exact map_tokensOf hf
  next => cases h

end

/-! ## Spelling -/

/-- Reading from `a` to `b` gives tokens that stand for the children. -/
def Spells (voids : VoidTags) (children : List Child) (a b : Cursor) : Prop :=
  ∃ tokens : List PlacedToken, scan a = tokens.map .ok ++ scan b ∧
    Content voids (structuralTokens voids tokens) children

section
variable {voids : VoidTags} {a b c d : Cursor} {children more : List Child}

theorem Spells.refl (a : Cursor) : Spells voids [] a a :=
  ⟨[], rfl, .nil⟩

theorem Spells.trans (h : Spells voids children a b) (h' : Spells voids more b c) :
    Spells voids (children ++ more) a c := by
  obtain ⟨tokens, hs, hc⟩ := h
  obtain ⟨others, hs', hc'⟩ := h'
  refine ⟨tokens ++ others, ?_, ?_⟩
  · rw [hs, hs', List.map_append, List.append_assoc]
  · rw [structuralTokens, List.map_append, List.filter_append]
    exact hc.append hc'

/-- A text, written in characters that decode to it. -/
theorem Spells.text {w : List Char} {s : String} (hs : s ≠ "") (he : Encodes w s.toList)
    (hlt : '<' ∉ w) (h : a.Reads w b) (hb : ∀ c ∈ b.rest.head?, c = '<') :
    Spells voids [.text s] a b := by
  have hw : w ≠ [] := by
    rintro rfl
    have := he.decode
    rw [decodeReferences_nil] at this
    exact hs (String.toList_eq_nil_iff.1 this.symm)
  have ha : a.rest ≠ [] := by
    rw [h.1]
    exact fun hnil => hw (List.append_eq_nil_iff.1 hnil).1
  have ht := scanToken_of_tokenText h (.text hw hlt hb)
  rw [he.decode, String.ofList_toList] at ht
  exact ⟨[⟨.text s, a.spanTo b⟩], scan_token ha ht rfl, .single rfl⟩

/-- The end tag of a void element, which means nothing. -/
theorem Spells.voidEnd {name : String} (hn : isLegalName name = true)
    (hv : voids.has name = true) (h : a.Reads (endTagText name) b) : Spells voids [] a b := by
  have ha : a.rest ≠ [] := by rw [h.1]; simp [endTagText]
  refine ⟨[⟨.endTag name, a.spanTo b⟩], scan_token ha (scanToken_endTag hn h) rfl, ?_⟩
  have : structuralTokens voids [⟨.endTag name, a.spanTo b⟩] = [] := by
    simp [structuralTokens, Token.isStructural, hv]
  rw [this]
  exact .nil

end

/-! ## Elements -/

theorem firstOnly_eq_self {attributes : List TagAttribute}
    (h : (attributes.map TagAttribute.name).Nodup) : firstOnly attributes = attributes := by
  induction attributes with
  | nil => rfl
  | cons attr rest ih =>
    rw [List.map_cons, List.nodup_cons] at h
    rw [firstOnly, ih h.2, List.filter_eq_self.2]
    intro other ho
    exact decide_eq_true fun he => h.1 (he ▸ List.mem_map_of_mem ho)

theorem firstAttributes_eq {read : List TagAttribute} {attributes : Attributes}
    (h : read.map TagAttribute.entry = attributes.entries) : firstAttributes read = attributes := by
  have hnames : read.map TagAttribute.name = attributes.entries.map Prod.fst := by
    rw [← h, List.map_map]; rfl
  refine OrderedMap.eq_of_entries_eq ?_
  show (firstOnly read).map TagAttribute.entry = _
  rw [firstOnly_eq_self (hnames ▸ attributes.nodup), h]

section
variable {voids : VoidTags} {a b c d : Cursor} {children : List Child} {name : String}
  {attrs : List QuotedAttribute} {attributes : Attributes}

theorem content_element {tokens : List PlacedToken} {read : List TagAttribute} {s t : Span}
    (hv : voids.has name = false) (h : Content voids (structuralTokens voids tokens) children) :
    Content voids
      (structuralTokens voids (⟨.startTag name read false, s⟩ :: (tokens ++ [⟨.endTag name, t⟩])))
      [.element ⟨name, firstAttributes read, Child.joinTexts children⟩] := by
  have hend : (Token.endTag name).isStructural voids = true := by simp [Token.isStructural, hv]
  have htokens : structuralTokens voids
      (⟨.startTag name read false, s⟩ :: (tokens ++ [⟨.endTag name, t⟩])) =
        .startTag name read false :: (structuralTokens voids tokens ++ [.endTag name]) := by
    rw [structuralTokens, List.map_cons, List.map_append, List.filter_cons_of_pos rfl,
      List.filter_append, List.map_singleton, List.filter_cons_of_pos hend]
    rfl
  rw [htokens]
  exact .element hv (Text.sameName_refl name) h .nil

theorem startTagText_ne_nil (h : a.Reads (startTagText name attrs) b) : a.rest ≠ [] := by
  rw [h.1]; simp [startTagText]

/-- A void element, by its start tag. -/
theorem Spells.leaf (hn : isLegalName name = true) (hv : voids.has name = true)
    (hraw : isRawName name = false) (hl : ∀ attr ∈ attrs, attr.IsLegal)
    (he : attrs.map QuotedAttribute.entry = attributes.entries)
    (h : a.Reads (startTagText name attrs) b) :
    Spells voids [.element ⟨name, attributes, []⟩] a b := by
  obtain ⟨read, hread, hentries⟩ := scanToken_startTag hn hl h
  have hbody : scanBody? (.startTag name read false) b = none := by rw [scanBody?, hraw]; rfl
  refine ⟨[_], scan_token (startTagText_ne_nil h) hread hbody, ?_⟩
  rw [← firstAttributes_eq (hentries.trans he)]
  exact .leaf (by rw [hv]; rfl) .nil

/-- An element without children, by a tag that closes itself. -/
theorem Spells.selfClosed (hn : isLegalName name = true)
    (h : a.Reads ('<' :: (name.toList ++ ['/', '>'])) b) :
    Spells voids [.element (.leaf name)] a b := by
  have hnone : ∀ attr ∈ ([] : List QuotedAttribute), attr.IsLegal := by simp
  obtain ⟨read, hread, hentries⟩ := scanToken_tag true hn hnone h
  have ha : a.rest ≠ [] := by rw [h.1]; simp
  refine ⟨[_], scan_token ha hread rfl, ?_⟩
  rw [List.map_nil] at hentries
  obtain rfl := List.map_eq_nil_iff.1 hentries
  exact .leaf rfl .nil

/-- An element, by its start tag, what is between the tags, and its end tag. -/
theorem Spells.element (hn : isLegalName name = true) (hv : voids.has name = false)
    (hraw : isRawName name = false) (hl : ∀ attr ∈ attrs, attr.IsLegal)
    (he : attrs.map QuotedAttribute.entry = attributes.entries)
    (hopen : a.Reads (startTagText name attrs) b) (hinner : Spells voids children b c)
    (hclose : c.Reads (endTagText name) d) :
    Spells voids [.element ⟨name, attributes, Child.joinTexts children⟩] a d := by
  obtain ⟨read, hread, hentries⟩ := scanToken_startTag hn hl hopen
  obtain ⟨tokens, hscan, hcontent⟩ := hinner
  have hbody : scanBody? (.startTag name read false) b = none := by rw [scanBody?, hraw]; rfl
  have hc : c.rest ≠ [] := by rw [hclose.1]; simp [endTagText]
  have hend := scan_token hc (scanToken_endTag hn hclose) rfl
  refine ⟨⟨.startTag name read false, a.spanTo b⟩ :: (tokens ++ [⟨.endTag name, c.spanTo d⟩]),
    ?_, ?_⟩
  · rw [scan_token (startTagText_ne_nil hopen) hread hbody, hscan, hend]; simp
  · rw [← firstAttributes_eq (hentries.trans he)]
    exact content_element hv hcontent

/-- An element with a raw body, by its start tag, the body as it is, and its end tag. -/
theorem Spells.rawElement {body : String} (hn : isLegalName name = true)
    (hv : voids.has name = false) (hraw : isRawName name = true)
    (hbody : isRawBody name body = true) (hl : ∀ attr ∈ attrs, attr.IsLegal)
    (he : attrs.map QuotedAttribute.entry = attributes.entries)
    (hopen : a.Reads (startTagText name attrs) b) (hinner : b.Reads body.toList c)
    (hclose : c.Reads (endTagText name) d) :
    Spells voids [.element ⟨name, attributes, if body = "" then [] else [.text body]⟩] a d := by
  obtain ⟨read, hread, hentries⟩ := scanToken_startTag hn hl hopen
  have hc : c.rest ≠ [] := by rw [hclose.1]; simp [endTagText]
  have hend := scan_token hc (scanToken_endTag hn hclose) rfl
  have hscan : scanBody? (.startTag name read false) b =
      if body.toList = [] then none else some (body.toList, c) :=
    scanBody?_eq hn hraw (by rw [String.ofList_toList]; exact hbody) hinner ⟨d.rest, hclose.1.symm⟩
  have ha := startTagText_ne_nil hopen
  rw [← firstAttributes_eq (hentries.trans he)]
  by_cases hb : body = ""
  · rw [if_pos (String.toList_eq_nil_iff.2 hb)] at hscan
    obtain rfl : b = c := (Cursor.Reads.refl b).unique (by rwa [hb] at hinner)
    refine ⟨[⟨.startTag name read false, a.spanTo b⟩, ⟨.endTag name, b.spanTo d⟩], ?_, ?_⟩
    · rw [scan_token ha hread hscan, hend]; rfl
    · rw [if_pos hb]
      have hempty : Content voids (structuralTokens voids []) [] := .nil
      exact content_element hv hempty
  · rw [if_neg fun hnil => hb (String.toList_eq_nil_iff.1 hnil)] at hscan
    refine ⟨[⟨.startTag name read false, a.spanTo b⟩, ⟨.rawText body, b.spanTo c⟩,
      ⟨.endTag name, c.spanTo d⟩], ?_, ?_⟩
    · rw [scan_token_body ha hread hscan, hend, String.ofList_toList]; rfl
    · rw [if_neg hb]
      have htext : Content voids (structuralTokens voids [⟨.rawText body, b.spanTo c⟩])
          [.text body] := .single rfl
      exact content_element hv htext

end

/-! ## Written elements -/

/-- An element as it is written: its start tag and, unless it is void, what is in it and its end
tag. A void element can have an end tag too. -/
def elementText (voids : VoidTags) (stripsEnd : Bool) (name : String)
    (attrs : List QuotedAttribute) (inner : List Char) : List Char :=
  startTagText name attrs ++
    if voids.has name then if stripsEnd then [] else endTagText name
    else inner ++ endTagText name

section
variable {voids : VoidTags} {stripsEnd : Bool} {a b : Cursor} {node : Node}
  {attrs : List QuotedAttribute} {inner : List Char}

/-- The children of an element as they are written: a raw body as it is, other children in a way
that spells them. -/
structure WritesChildren (voids : VoidTags) (node : Node) (inner : List Char) : Prop where
  raw : isRawName node.name = true →
    node.children = if String.ofList inner = "" then [] else [.text (String.ofList inner)]
  plain : isRawName node.name = false → ∀ {a b : Cursor}, a.Reads inner b →
    (∀ c ∈ b.rest.head?, c = '<') → Spells voids node.children a b

/-- **A canonical element is spelled by its tags around what writes its children.** -/
theorem spells_elementText (hn : node.isCanonical voids = true)
    (hvoid : voids.has node.name = true → isRawName node.name = false)
    (hl : ∀ attr ∈ attrs, attr.IsLegal)
    (he : attrs.map QuotedAttribute.entry = node.attributes.entries)
    (hinner : WritesChildren voids node inner)
    (h : a.Reads (elementText voids stripsEnd node.name attrs inner) b) :
    Spells voids [.element node] a b := by
  rw [Node.isCanonical, Bool.and_eq_true, Node.isLegal_iff, Node.isNormal_eq, Bool.and_eq_true] at hn
  obtain ⟨⟨hname, -, hchildless, hcontent, -⟩, hjoined, -⟩ := hn
  obtain ⟨opened, hopen, hrest⟩ := h.split
  obtain ⟨hraw, hplain⟩ := hinner
  obtain ⟨name, attributes, children⟩ := node
  cases hv : voids.has name with
  | true =>
    obtain rfl : children = [] := hchildless hv
    have hleaf := Spells.leaf hname hv (hvoid hv) hl he hopen
    rw [hv, if_pos rfl] at hrest
    cases stripsEnd with
    | true =>
      obtain rfl := (Cursor.Reads.refl opened).unique hrest
      exact hleaf
    | false => exact hleaf.trans (.voidEnd hname hv hrest)
  | false =>
    rw [hv, if_neg Bool.false_ne_true] at hrest
    obtain ⟨closing, hbody, hclose⟩ := hrest.split
    cases hr : isRawName name with
    | true =>
      obtain rfl : children = _ := hraw hr
      have hfree : isRawBody name (String.ofList inner) = true := by
        by_cases hempty : String.ofList inner = ""
        · rw [hempty]
          rfl
        · simpa [isRawContent, hempty] using hcontent hr
      exact Spells.rawElement hname hv hr hfree hl he hopen (by rwa [String.toList_ofList]) hclose
    | false =>
      have hlt : ∀ c ∈ closing.rest.head?, c = '<' := by rw [hclose.1]; simp [endTagText]
      have := Spells.element hname hv hr hl he hopen (hplain hr hbody hlt) hclose
      rwa [Child.joinTexts_eq_self hjoined] at this

end

/-! ## Parsing -/

theorem value_parse_of_tokenize {voids : VoidTags} {source : String} {tokens : List PlacedToken}
    (h : tokenize source = .ok tokens) :
    (parse voids source).value = (buildTree voids tokens).map Prod.fst := by
  rw [parse, h]
  simp only [Logged.value_bind]
  cases buildTree voids tokens <;> rfl

/-- **A source that spells an element is parsed as that element.** -/
theorem parse_of_spells {voids : VoidTags} {source : String} {root : Node} {b : Cursor}
    (h : Spells voids [.element root] (.ofString source) b) (hb : b.rest = []) :
    (parse voids source).value = .ok root := by
  obtain ⟨tokens, hscan, hcontent⟩ := h
  rw [scan_of_end hb, List.append_nil] at hscan
  have hdoc : IsDocument voids (structuralTokens voids tokens) root :=
    ⟨[], _, [], by simp, by simp, hcontent, by simp⟩
  rw [value_parse_of_tokenize (tokenize_of_scan hscan), buildTree_of_isDocument hdoc]
  rfl

end ComponentMarkup.Markup
