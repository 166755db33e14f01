/-
  Views with attributes between single quotes.

  * `Writer.keepsSingles_joined`: a value that holds the single quotes around it is cut at one of
    them, and what comes before is a part of it.
  * `opening_of_scanToken`: a start tag begins with the attributes that are read first. So an
    element of which a value is cut has other attributes (`Writer.not_prefix_of_cut_attribute`).
  * `Writer.parse_render_quoted`: a filled view is read as the filled tree exactly if no value holds
    the single quotes around it. Some values do (`Writer.parse_render_ne_of_single_quote`).
-/
import ComponentMarkup.Proofs.FilledView
import ComponentMarkup.Proofs.OpenedElements

namespace ComponentMarkup.Markup

/-! ## Attributes before other text -/

section
variable {token : Token} {name : String} {a b : Cursor}

theorem scanSpacedAttribute_quoted {attr : QuotedAttribute} (hkey : isLegalKey attr.name = true)
    (hquote : attr.quote = '"' ∨ attr.quote = '\'') (hfree : attr.quote ∉ attr.written)
    (h : a.Reads attr.text b) : ∃ read : TagAttribute, read.entry = attr.entry ∧
      scanSpacedAttribute a = .ok (some (read, b)) := by
  have hspace : IsGap [' '] := by simp [IsGap]; decide
  have hnone : IsGap [] := by simp [IsGap]
  have htext : attr.text = [' '] ++ (attr.name.toList ++
      ([] ++ '=' :: ([] ++ attr.quote :: (attr.written ++ [attr.quote])))) := rfl
  rw [htext] at h
  obtain ⟨spaced, hskip, hread⟩ := h.split
  have hnext : ∀ c ∈ spaced.rest.head?, isSpace c = false := by
    obtain ⟨c, cs, hname, hall⟩ := isLegalKey_iff.1 hkey
    rw [hread.1, hname]
    simpa using isSpace_of_isKeyChar (hall c (by simp [hname]))
  rw [scanSpacedAttribute, Cursor.takeWhile_eq hskip hspace hnext]
  exact ⟨_, rfl, scanAttribute_of_assignmentText hkey hread (.mk hnone hnone (.quoted hquote hfree))⟩

/-- Quoted attributes are read before whatever comes after them. -/
theorem scanAttributes_quoted {attrs : List QuotedAttribute} (hl : ∀ attr ∈ attrs, attr.IsLegal)
    (h : a.Reads (attrs.flatMap QuotedAttribute.text) b) : ∃ read,
      read.map TagAttribute.entry = attrs.map QuotedAttribute.entry ∧
      scanAttributes a = (scanAttributes b).map fun result => (read ++ result.1, result.2) := by
  induction attrs generalizing a with
  | nil =>
    obtain rfl := (Cursor.Reads.refl a).unique h
    exact ⟨[], rfl, by cases scanAttributes a <;> rfl⟩
  | cons attr rest ih =>
    rw [List.forall_mem_cons] at hl
    obtain ⟨⟨hkey, hquote, hfree⟩, hrest⟩ := hl
    obtain ⟨next, hattr, hmore⟩ := h.split
    obtain ⟨read, hentries, hscan⟩ := ih hrest hmore
    obtain ⟨first, hentry, hfirst⟩ := scanSpacedAttribute_quoted hkey hquote hfree hattr
    refine ⟨first :: read, by rw [List.map_cons, List.map_cons, hentry, hentries], ?_⟩
    rw [scanAttributes]
    split
    next he => rw [hfirst] at he; cases he
    next he => rw [hfirst] at he; cases he
    next he =>
      rw [hfirst] at he
      cases he
      rw [hscan]
      cases scanAttributes b <;> rfl

theorem prefix_firstOnly {read more : List TagAttribute}
    (h : (read.map TagAttribute.name).Nodup) : read <+: firstOnly (read ++ more) := by
  induction read with
  | nil => exact List.nil_prefix
  | cons attr rest ih =>
    rw [List.map_cons, List.nodup_cons] at h
    have hkeep : rest.filter (fun other => other.name ≠ attr.name) = rest := by
      refine List.filter_eq_self.2 fun other ho => ?_
      exact decide_eq_true fun he => h.1 (he ▸ List.mem_map_of_mem ho)
    have hrest := (ih h.2).filter fun other => other.name ≠ attr.name
    rw [hkeep] at hrest
    rw [List.cons_append, firstOnly, List.cons_prefix_cons]
    exact ⟨rfl, hrest⟩

/-- A start tag begins with the attributes that are read first. -/
theorem opening_of_scanToken {attrs : List QuotedAttribute} {rest : List Char} {next : Cursor}
    (hn : isLegalName name = true) (hl : ∀ attr ∈ attrs, attr.IsLegal)
    (hnodup : (attrs.map QuotedAttribute.name).Nodup) (hne : attrs ≠ [])
    (hread : a.Reads ('<' :: (name.toList ++ (attrs.flatMap QuotedAttribute.text ++ rest))) b)
    (h : scanToken a = .ok (token, next)) : ∃ attributes : Attributes,
      token.opening? = some (name, attributes) ∧
      attrs.map QuotedAttribute.entry <+: attributes.entries := by
  obtain ⟨c, cs, hname, hstart, hall⟩ := isLegalName_iff.1 hn
  obtain ⟨opened, hopen, htag⟩ := hread.split_cons
  obtain ⟨named, hnamed, hinner⟩ := htag.split
  obtain ⟨stop, hattrs, -⟩ := hinner.split
  obtain ⟨read, hentries, hscan⟩ := scanAttributes_quoted hl hattrs
  have hopened : opened.rest = c :: (cs ++ named.rest) := by rw [hnamed.1, hname]; rfl
  have hr : a.rest = '<' :: c :: (cs ++ named.rest) := by
    rw [hopen.1, hopened]
    rfl
  have hnext : ∀ c ∈ named.rest.head?, isNameChar c = false := by
    obtain ⟨attr, more, rfl⟩ := List.exists_cons_of_ne_nil hne
    rw [hinner.1]
    simp [QuotedAttribute.text]
    decide
  rw [scanToken_of_nameStart hr hstart, ← hopened, hopen.past_eq, scanStartTag,
    Cursor.takeWhile_eq hnamed hall hnext] at h
  simp only at h
  rw [hscan] at h
  cases hmore : scanAttributes stop with
  | error fault => rw [hmore] at h; cases h
  | ok result =>
    have htoken : ∃ selfClosing, token = .startTag name (read ++ result.1) selfClosing := by
      simp only [hmore, Except.map, String.ofList_toList] at h
      split at h
      · exact ⟨_, (scanTagEnd_iff.1 h).2⟩
      · exact ⟨_, (scanTagEnd_iff.1 h).2⟩
    obtain ⟨selfClosing, rfl⟩ := htoken
    refine ⟨_, rfl, ?_⟩
    have hnames : read.map TagAttribute.name = attrs.map QuotedAttribute.name := by
      have hfst := congrArg (List.map Prod.fst) hentries
      rwa [List.map_map, List.map_map] at hfst
    rw [← hentries]
    exact (prefix_firstOnly (hnames ▸ hnodup)).map TagAttribute.entry

theorem exists_openings_of_scan {placed : List PlacedToken} {attrs : List QuotedAttribute}
    {rest : List Char} (hn : isLegalName name = true) (hl : ∀ attr ∈ attrs, attr.IsLegal)
    (hnodup : (attrs.map QuotedAttribute.name).Nodup) (hne : attrs ≠ [])
    (hread : a.Reads ('<' :: (name.toList ++ (attrs.flatMap QuotedAttribute.text ++ rest))) b)
    (h : scan a = placed.map .ok) : ∃ attributes others,
      openings (placed.map PlacedToken.token) = (name, attributes) :: others ∧
        attrs.map QuotedAttribute.entry <+: attributes.entries := by
  have ha : a.rest ≠ [] := by
    rw [hread.1]
    exact List.cons_ne_nil _ _
  obtain ⟨token, next, others, htoken, hplaced⟩ := scan_cases ha h
  obtain ⟨attributes, hopening, hprefix⟩ := opening_of_scanToken hn hl hnodup hne hread htoken
  rcases hplaced with ⟨-, -, rfl⟩ | ⟨body, after, -, -, rfl⟩
  · exact ⟨attributes, _, List.filterMap_cons_some hopening, hprefix⟩
  · exact ⟨attributes, _, List.filterMap_cons_some hopening, hprefix⟩

end

namespace Writer

/-! ## Cut values -/

/-- Where a single quote is written, what is written before it decodes to what comes before it. -/
def KeepsSingles (w s : List Char) : Prop :=
  ∀ front back, w = front ++ '\'' :: back → ∃ f g, s = f ++ '\'' :: g ∧ Encodes front f

theorem KeepsSingles.append {w s w' s' : List Char} (he : Encodes w s) (h : KeepsSingles w s)
    (h' : KeepsSingles w' s') : KeepsSingles (w ++ w') (s ++ s') := by
  intro front back hw
  rcases List.append_eq_append_iff.1 hw with ⟨rest, rfl, hrest⟩ | ⟨rest, rfl, hrest⟩
  · obtain ⟨f, g, rfl, hf⟩ := h' rest back hrest
    exact ⟨s ++ f, g, by rw [List.append_assoc], he.append hf⟩
  · cases rest with
    | nil =>
      obtain ⟨f, g, rfl, hf⟩ := h' [] back (by simpa using hrest.symm)
      rw [List.append_nil] at he
      exact ⟨s ++ f, g, by rw [List.append_assoc], by simpa using he.append hf⟩
    | cons c rest =>
      obtain ⟨rfl, rfl⟩ := List.cons.inj hrest
      obtain ⟨f, g, rfl, hf⟩ := h front rest rfl
      exact ⟨f, g ++ s', by simp, hf⟩

theorem keepsSingles_of_not_mem {w : List Char} (h : '\'' ∉ w) (s : List Char) :
    KeepsSingles w s := by
  rintro front back rfl
  exact absurd (by simp) h

theorem keepsSingles_attributeForm (c : Char) : KeepsSingles (attributeForm c) [c] := by
  by_cases hc : c = '\''
  · subst hc
    intro front back h
    cases front with
    | nil => exact ⟨[], [], rfl, encodes_nil⟩
    | cons d front => exact absurd (congrArg List.length h) (by simp [attributeForm, textForm])
  · exact keepsSingles_of_not_mem (fun h => hc ((single_mem_attributeForm_iff c).1 h)) _

theorem keepsSingles_escapeAttribute (s : String) :
    KeepsSingles (escapeAttribute s).toList s.toList := by
  rw [escapeAttribute, String.toList_ofList]
  generalize s.toList = cs
  induction cs with
  | nil => exact keepsSingles_of_not_mem List.not_mem_nil _
  | cons c cs ih =>
    rw [List.flatMap_cons]
    exact (keepsSingles_attributeForm c).append (s := [c]) (decodeReferences_attributeForm c) ih

section
variable {lookup : String → Option String} {pieces : List Piece}

theorem keepsSingles_joined (lookup : String → Option String)
    (h : ∀ piece ∈ pieces, isPlainPiece piece = true) : KeepsSingles
      (Piece.joined (Template.escapedValue lookup) pieces).toList
      (Piece.filled lookup pieces).toList := by
  unfold Piece.filled
  induction pieces with
  | nil => exact keepsSingles_of_not_mem List.not_mem_nil _
  | cons piece rest ih =>
    rw [List.forall_mem_cons] at h
    rw [Piece.joined_cons, Piece.joined_cons, String.toList_append, String.toList_append]
    cases piece with
    | literal s =>
      have hfree : ∀ c ∈ s.toList, c ≠ '\'' ∧ c ≠ '&' := fun c hc => by
        have := List.all_eq_true.1 h.1 c hc
        simp only [Bool.and_eq_true, bne_iff_ne] at this
        exact this.1
      have hencodes : Encodes s.toList s.toList :=
        encodes_of_not_mem fun hmem => (hfree _ hmem).2 rfl
      exact KeepsSingles.append hencodes
        (keepsSingles_of_not_mem (fun hmem => (hfree _ hmem).1 rfl) _) (ih h.2)
    | placeholder key =>
      exact KeepsSingles.append (encodes_escapeAttribute _) (keepsSingles_escapeAttribute _) (ih h.2)

/-- The text begins with attributes of the given names, but not all of them have the given
values. -/
def BeginsOtherwise (entries : List (String × String)) (text : List Char) : Prop :=
  ∃ (quoted : List QuotedAttribute) (rest : List Char), quoted ≠ [] ∧
    text = quoted.flatMap QuotedAttribute.text ++ rest ∧ (∀ attr ∈ quoted, attr.IsLegal) ∧
    quoted.map QuotedAttribute.name <+: entries.map Prod.fst ∧
    ¬ quoted.map QuotedAttribute.entry <+: entries

theorem BeginsOtherwise.cons {entries : List (String × String)} {text : List Char}
    {attr : QuotedAttribute} (hl : attr.IsLegal) (h : BeginsOtherwise entries text) :
    BeginsOtherwise (attr.entry :: entries) (attr.text ++ text) := by
  obtain ⟨quoted, rest, -, rfl, hlegal, hnames, hentries⟩ := h
  refine ⟨attr :: quoted, rest, List.cons_ne_nil _ _, ?_, List.forall_mem_cons.2 ⟨hl, hlegal⟩,
    List.cons_prefix_cons.2 ⟨rfl, hnames⟩, ?_⟩
  · rw [List.flatMap_cons, List.append_assoc]
  · rw [List.map_cons, List.cons_prefix_cons]
    exact fun h => hentries h.2

/-- **A value that holds the single quotes around it is cut** at the first of them. -/
theorem beginsOtherwise_singleQuoted {attr : String × List Piece} (hk : isPlainKey attr.1 = true)
    (hplain : ∀ piece ∈ attr.2, isPlainPiece piece = true)
    (hcut : '\'' ∈ (Piece.joined (Template.escapedValue lookup) attr.2).toList)
    (entries : List (String × String)) (more : List Char) :
    BeginsOtherwise ((attr.1, Piece.filled lookup attr.2) :: entries)
      ((singleQuoted (Template.escapedValue lookup) attr).text ++ more) := by
  obtain ⟨front, back, hwritten, hfree⟩ := List.eq_append_cons_of_mem hcut
  obtain ⟨f, g, hfilled, hencodes⟩ := keepsSingles_joined lookup hplain front back hwritten
  refine ⟨[⟨attr.1, '\'', front⟩], back ++ '\'' :: more, List.cons_ne_nil _ _, ?_,
    List.forall_mem_singleton.2 ⟨(Bool.and_eq_true_iff.1 hk).1, .inr rfl, hfree⟩,
    List.cons_prefix_cons.2 ⟨rfl, List.nil_prefix⟩, ?_⟩
  · rw [QuotedAttribute.text, singleQuoted, hwritten]
    simp [QuotedAttribute.text]
  · rw [List.map_singleton, List.cons_prefix_cons, QuotedAttribute.entry, hencodes.decode]
    rintro ⟨hsame, -⟩
    have hvalue := congrArg String.toList (Prod.mk.inj hsame).2
    rw [String.toList_ofList, hfilled] at hvalue
    exact absurd (congrArg List.length hvalue) (by simp)

theorem AttributesWritten.beginsOtherwise {entries : List (String × List Piece)}
    {attrs : List Piece} {singles : List String} (h : AttributesWritten entries attrs singles)
    (hkeys : ∀ attr ∈ entries, isPlainKey attr.1 = true)
    (hcut : ∃ key ∈ singles, '\'' ∈ ((lookup key).getD "").toList) :
    BeginsOtherwise (entries.map fun e => (e.1, Piece.filled lookup e.2))
      (Piece.joined (Template.escapedValue lookup) attrs).toList := by
  induction h with
  | nil => simp at hcut
  | @double attr _ _ _ _ ih =>
    rw [List.forall_mem_cons] at hkeys
    rw [Piece.joined_append, String.toList_append, toList_attributePieces, List.map_cons,
      ← entry_quotedPieces attr]
    exact (ih hkeys.2 hcut).cons (isLegal_quotedPieces hkeys.1)
  | @single attr _ more _ hplain _ ih =>
    rw [List.forall_mem_cons] at hkeys
    rw [Piece.joined_append, String.toList_append, toList_singlePieces, List.map_cons]
    by_cases hmem : '\'' ∈ (Piece.joined (Template.escapedValue lookup) attr.2).toList
    · exact beginsOtherwise_singleQuoted hkeys.1 hplain hmem _ _
    · have hfree : ∀ key ∈ keysOf attr.2, '\'' ∉ ((lookup key).getD "").toList :=
        fun key hkey hquote => hmem ((single_mem_joined_iff hplain).2 ⟨key, hkey, hquote⟩)
      obtain ⟨key, hkey, hquote⟩ := hcut
      have hmore := (List.mem_append.1 hkey).resolve_left fun h => hfree key h hquote
      rw [← entry_singleQuoted hplain]
      exact (ih hkeys.2 ⟨key, hmore, hquote⟩).cons (isLegal_singleQuoted hkeys.1 hplain hfree)

end

/-! ## Cut views -/

section
variable {lookup : String → Option String} {pieces attrs inner : List Piece} {voids : VoidTags}
  {node : ViewNode} {children : List ViewChild} {singles attrSingles innerSingles : List String}
  {stripsEnd : Bool} {a b : Cursor} {placed : List PlacedToken}

theorem ChildrenWritten.eq_nil_of_raw {kept : Bool} {name : String}
    (hwritten : ChildrenWritten voids kept children pieces singles)
    (h : ViewChild.isRawContent name children = true) : singles = [] := by
  unfold ViewChild.isRawContent at h
  split at h
  · cases hwritten
    rfl
  · cases hwritten with
    | text hrest =>
      cases hrest
      rfl
  · cases h

/-- An element of which an attribute is cut has other attributes. -/
theorem not_prefix_of_cut_attribute (hn : node.isCanonical voids = true)
    (hattrs : AttributesWritten node.attributes.entries attrs attrSingles)
    (hcut : ∃ key ∈ attrSingles, '\'' ∈ ((lookup key).getD "").toList)
    (h : a.Reads (Piece.joined (Template.escapedValue lookup)
      (tagPieces voids stripsEnd node.name attrs inner)).toList b)
    (hscan : scan a = placed.map .ok) (more : List (String × Attributes)) :
    ¬ (node.fill lookup).openings ++ more <+: openings (placed.map PlacedToken.token) := by
  obtain ⟨hname, hkeys, -⟩ := ViewNode.isCanonical_iff.1 hn
  obtain ⟨quoted, rest, hne, htext, hlegal, hnames, hentries⟩ := hattrs.beginsOtherwise
    (fun attr hattr => hkeys _ (List.mem_map_of_mem hattr)) hcut
  have hnodup : (quoted.map QuotedAttribute.name).Nodup := by
    rw [List.map_map] at hnames
    exact node.attributes.nodup.sublist hnames.sublist
  have htag : ∃ tail, (Piece.joined (Template.escapedValue lookup)
      (tagPieces voids stripsEnd node.name attrs inner)).toList =
        '<' :: (node.name.toList ++ (quoted.flatMap QuotedAttribute.text ++ tail)) := by
    rw [tagPieces, Piece.joined_cons, Piece.joined_append, String.toList_append,
      String.toList_append, htext, Piece.text, String.toList_append, List.append_assoc,
      List.append_assoc]
    exact ⟨_, rfl⟩
  obtain ⟨tail, htail⟩ := htag
  rw [htail] at h
  obtain ⟨attributes, others, hopens, hprefix⟩ :=
    exists_openings_of_scan hname hlegal hnodup hne h hscan
  rw [hopens, node.fill_eq, Node.openings, List.cons_append, List.cons_prefix_cons]
  rintro ⟨hsame, -⟩
  rw [← (Prod.mk.inj hsame).2] at hprefix
  exact hentries hprefix

/-- An element in which something is cut has other elements in it. -/
theorem not_prefix_of_cut_inner (hn : node.isCanonical voids = true)
    (hvoid : voids.has node.name = false) (hraw : isRawName node.name = false)
    (hattrs : AttributesWritten node.attributes.entries attrs attrSingles)
    (hfree : ∀ key ∈ attrSingles, '\'' ∉ ((lookup key).getD "").toList)
    (ih : ∀ {a b : Cursor} {placed : List PlacedToken},
      a.Reads (Piece.joined (Template.escapedValue lookup) inner).toList b →
      (∀ c ∈ b.rest.head?, c = '<') → scan a = placed.map .ok →
        ¬ Child.openings (ViewChild.fillAll lookup node.children) <+:
          openings (placed.map PlacedToken.token))
    (h : a.Reads (Piece.joined (Template.escapedValue lookup)
      (tagPieces voids stripsEnd node.name attrs inner)).toList b)
    (hscan : scan a = placed.map .ok) (more : List (String × Attributes)) :
    ¬ (node.fill lookup).openings ++ more <+: openings (placed.map PlacedToken.token) := by
  obtain ⟨hname, hkeys, -⟩ := ViewNode.isCanonical_iff.1 hn
  obtain ⟨quoted, htext, hlegal, -⟩ := hattrs.exists_quoted
    (fun attr hattr => hkeys _ (List.mem_map_of_mem hattr)) hfree
  rw [toList_tagPieces htext, elementText, hvoid, if_neg Bool.false_ne_true] at h
  obtain ⟨opened, hopen, hrest⟩ := h.split
  obtain ⟨closing, hinner, hclose⟩ := hrest.split
  have hlt : ∀ c ∈ closing.rest.head?, c = '<' := by rw [hclose.1]; simp [endTagText]
  obtain ⟨read, hstart, -⟩ := scanToken_startTag hname hlegal hopen
  have hbody : scanBody? (.startTag node.name read false) opened = none := by
    rw [scanBody?, hraw]
    rfl
  rw [scan_token (startTagText_ne_nil hopen) hstart hbody, eq_comm, List.map_eq_cons_iff] at hscan
  obtain ⟨first, others, rfl, hfirst, hothers⟩ := hscan
  cases hfirst
  have hnot := ih hinner hlt hothers.symm
  rw [node.fill_eq, Node.openings, List.cons_append, List.map_cons, openings_startTag_cons,
    List.cons_prefix_cons]
  rintro ⟨-, hprefix⟩
  exact hnot ((List.prefix_append _ _).trans hprefix)

/-- **A view of which a value is cut has other elements**, or elements with other attributes, than
the filled tree. -/
theorem ChildrenWritten.not_prefix {kept : Bool}
    (hvoid : ∀ name, voids.has name = true → isRawName name = false)
    (hwritten : ChildrenWritten voids kept children pieces singles) (hkept : kept = false)
    (hcut : ∃ key ∈ singles, '\'' ∈ ((lookup key).getD "").toList)
    (hc : ViewChild.areCanonical voids children = true) (hj : ViewChild.isJoined children = true)
    (h : a.Reads (Piece.joined (Template.escapedValue lookup) pieces).toList b)
    (hb : ∀ c ∈ b.rest.head?, c = '<') (hscan : scan a = placed.map .ok) :
    ¬ Child.openings (ViewChild.fillAll lookup children) <+:
      openings (placed.map PlacedToken.token) := by
  induction hwritten generalizing a b placed with
  | nil => simp at hcut
  | @text _ pieces rest more _ hmore ih =>
    subst hkept
    rw [ViewChild.areCanonical, Bool.and_eq_true] at hc
    simp only [ViewChild.isJoined, Bool.and_eq_true, Bool.not_eq_true'] at hj
    rw [Piece.joined_append, String.toList_append, if_neg Bool.false_ne_true] at h
    obtain ⟨next, htext, hrest⟩ := h.split
    have hspells := spells_text voids lookup htext (hmore.head?_eq hj.1 hrest hb)
    obtain ⟨others, hothers, hopenings⟩ := hspells.openings_eq hscan
    have hnone : Child.openings (if Piece.filled lookup pieces = "" then []
        else [.text (Piece.filled lookup pieces)]) = [] := by
      split <;> rfl
    rw [hopenings, hnone, List.nil_append, ViewChild.fillAll, Child.openings]
    exact ih rfl hcut hc.2 hj.2 hrest hb hothers
  | @element _ node _ rest attrs attrSingles inner innerSingles more singles hattrs hinner _ ih ih' =>
    rw [ViewChild.areCanonical, Bool.and_eq_true] at hc
    obtain ⟨-, -, -, hchildless, hraw, hjoined, hchildren⟩ := ViewNode.isCanonical_iff.1 hc.1
    rw [Piece.joined_append, String.toList_append] at h
    obtain ⟨next, helement, hrest⟩ := h.split
    rw [ViewChild.fillAll, Child.openings]
    by_cases hattrCut : ∃ key ∈ attrSingles, '\'' ∈ ((lookup key).getD "").toList
    · exact not_prefix_of_cut_attribute hc.1 hattrs hattrCut helement hscan _
    have hfree : ∀ key ∈ attrSingles, '\'' ∉ ((lookup key).getD "").toList :=
      fun key hkey hquote => hattrCut ⟨key, hkey, hquote⟩
    by_cases hinnerCut : ∃ key ∈ innerSingles, '\'' ∈ ((lookup key).getD "").toList
    · -- neither a raw nor a void element has values in it
      have hnotRaw : isRawName node.name = false := by
        rw [← Bool.not_eq_true]
        intro hr
        rw [hinner.eq_nil_of_raw (hraw hr)] at hinnerCut
        simp at hinnerCut
      have hnotVoid : voids.has node.name = false := by
        rw [← Bool.not_eq_true]
        intro hv
        rw [hchildless hv] at hinner
        cases hinner
        simp at hinnerCut
      exact not_prefix_of_cut_inner hc.1 hnotVoid hnotRaw hattrs hfree
        (ih hnotRaw hinnerCut hchildren hjoined) helement hscan _
    have hinnerFree : ∀ key ∈ innerSingles, '\'' ∉ ((lookup key).getD "").toList :=
      fun key hkey hquote => hinnerCut ⟨key, hkey, hquote⟩
    have hmoreCut : ∃ key ∈ singles, '\'' ∈ ((lookup key).getD "").toList := by
      obtain ⟨key, hkey, hquote⟩ := hcut
      have hlater := (List.mem_append.1 hkey).resolve_left fun h => hfree key h hquote
      exact ⟨key, (List.mem_append.1 hlater).resolve_left fun h => hinnerFree key h hquote, hquote⟩
    have hspells := spells_tagPieces hc.1 (hvoid _) hattrs hinner hfree
      (fun hr => hinner.spells hvoid hr hinnerFree hchildren hjoined) helement
    obtain ⟨others, hothers, hopenings⟩ := hspells.openings_eq hscan
    rw [hopenings, Child.openings, Child.openings, List.append_nil, Node.openings_normalize,
      List.prefix_append_right_inj]
    exact ih' hkept hmoreCut hc.2 hj hrest hb hothers

/-! ## Filled views -/

theorem ChildrenWritten.parse_ne
    (hvoid : ∀ name, voids.has name = true → isRawName name = false)
    (hn : node.isCanonical voids = true)
    (hwritten : ChildrenWritten voids false [.element node] pieces singles)
    (hcut : ∃ key ∈ singles, '\'' ∈ ((lookup key).getD "").toList) :
    (parse voids (Piece.joined (Template.escapedValue lookup) pieces)).value ≠
      .ok (node.fill lookup).normalize := by
  intro hvalue
  obtain ⟨placed, htokenize, hdocument⟩ := isDocument_of_parse hvalue
  have hopenings : Child.openings (ViewChild.fillAll lookup [.element node]) =
      openings (placed.map PlacedToken.token) := by
    rw [← openings_structuralTokens voids, hdocument.openings_eq, Node.openings_normalize,
      ViewChild.fillAll, ViewChild.fillAll, Child.openings, Child.openings, List.append_nil]
  exact hwritten.not_prefix hvoid rfl hcut (ViewChild.areCanonical_singleton.2 hn) rfl
    (Cursor.reads_finish _) (by rintro _ ⟨⟩) (scan_of_tokenize htokenize)
    (hopenings ▸ List.prefix_refl _)

end

/-- **Values between single quotes** are put in as they are but for the characters that are escaped
between double ones: a canonical tree that is written with quotes of either kind is a template, and
it is read as the filled tree exactly if no value holds the single quotes around it. -/
theorem parse_render_quoted {voids : VoidTags} {view : ViewNode} {pieces : List Piece}
    {singles : List String} (hvoid : ∀ name, voids.has name = true → isRawName name = false)
    (hv : view.isCanonical voids = true)
    (hwritten : ChildrenWritten voids false [.element view] pieces singles) : ∃ template,
      Template.parse (Piece.joined Piece.mark pieces) = .ok template ∧
        ∀ lookup, (parse voids (template.render lookup)).value = .ok (view.fill lookup).normalize ↔
          ∀ key ∈ singles, '\'' ∉ ((lookup key).getD "").toList := by
  have hsingle : ViewChild.areCanonical voids [.element view] = true :=
    ViewChild.areCanonical_singleton.2 hv
  obtain ⟨template, hparse, hrender⟩ := Template.parse_joined (hwritten.isWritable hsingle)
  refine ⟨template, hparse, fun lookup => ?_⟩
  rw [hrender]
  constructor
  · intro hvalue key hkey hquote
    exact hwritten.parse_ne hvoid hv ⟨key, hkey, hquote⟩ hvalue
  · intro hfree
    have hspells : Spells voids [.element (view.fill lookup).normalize] _ _ :=
      hwritten.spells hvoid rfl hfree hsingle rfl (Cursor.reads_finish (.ofString _))
        (by rintro _ ⟨⟩)
    exact parse_of_spells hspells rfl

/-- A view with a label between single quotes. -/
def labelled : ViewNode := ⟨"p", .ofList [("title", [.placeholder "label"])], []⟩

theorem childrenWritten_labelled : ChildrenWritten (MarkupConfig.voids {}) false
    [.element labelled] [.literal "<p", .literal " title='", .placeholder "label", .literal "'",
      .literal ">", .literal "</p>"] ["label"] := by
  have hattrs : AttributesWritten labelled.attributes.entries _ _ := .single (by decide) .nil
  exact @ChildrenWritten.element _ _ labelled true _ _ _ _ _ _ _ hattrs .nil .nil

theorem parse_render_quoted_label : ∃ template,
    Template.parse "<p title='\x7b\x7b label \x7d\x7d'></p>" = .ok template ∧
      ∀ lookup, (parse (MarkupConfig.voids {}) (template.render lookup)).value =
          .ok (labelled.fill lookup).normalize ↔
        ∀ key ∈ ["label"], '\'' ∉ ((lookup key).getD "").toList :=
  parse_render_quoted (fun _ => KeepsRaw.isRawName_of_void (w := ⟨{}, {}⟩) ⟨rfl, by decide⟩)
    (by decide) childrenWritten_labelled

/-- **A value that is ordinary text** makes a view with single quotes invalid. -/
theorem parse_render_ne_of_single_quote : ∃ template,
    Template.parse "<p title='\x7b\x7b label \x7d\x7d'></p>" = .ok template ∧
      (parse (MarkupConfig.voids {}) (template.render fun _ => some "it's")).value ≠
          .ok (labelled.fill fun _ => some "it's").normalize := by
  have hcanonical : labelled.isCanonical (MarkupConfig.voids {}) = true := by decide
  obtain ⟨template, hparse, hrender⟩ := Template.parse_joined
    (childrenWritten_labelled.isWritable (ViewChild.areCanonical_singleton.2 hcanonical))
  refine ⟨template, hparse, ?_⟩
  rw [hrender]
  exact childrenWritten_labelled.parse_ne
    (fun _ => KeepsRaw.isRawName_of_void (w := ⟨{}, {}⟩) ⟨rfl, by decide⟩) hcanonical
    ⟨"label", by decide, by decide⟩

end Writer

end ComponentMarkup.Markup
