/-
  Where reports on faulty text point.

  * `Span.IsIn`: a range whose ends are character boundaries of a source text.
  * `Span.IsReadFrom`: a range between two positions that reading leads to. Such a range of a source
    is in it (`Span.IsReadFrom.isIn`).
  * `Fault.IsAfter`: a fault whose construct is reached from a position and holds some text. The
    faults of a scan are such (`isAfter_of_scan`), and each ends before the next one begins
    (`pairwise_faultsOf_scan`).
  * `Construction.Points`: what holds of every place that a construction knows; one token keeps it
    (`Construction.Points.process`).
  * `isUsable_of_error`: a text that is refused is refused with an error, and all places that the
    reports name are in the text; those of scanning come in order and do not overlap.
-/
import ComponentMarkup.Proofs.ParsedTree
import ComponentMarkup.View.Template

namespace ComponentMarkup.Markup

/-! ## Positions -/

theorem utf8Length_toList (s : String) : utf8Length s.toList = s.utf8ByteSize := by
  have ofList : ∀ cs, utf8Length cs = (String.ofList cs).utf8ByteSize := by
    intro cs
    induction cs with
    | nil => rfl
    | cons c cs ih =>
      have hcons : String.ofList (c :: cs) = String.singleton c ++ String.ofList cs := by
        rw [String.singleton_eq_ofList, ← String.ofList_append]
        rfl
      rw [utf8Length, ih, hcons, String.utf8ByteSize_append, String.utf8ByteSize_singleton]
  rw [ofList, String.ofList_toList]

theorem utf8Length_pos {s : List Char} (hs : s ≠ []) : 0 < utf8Length s := by
  obtain ⟨c, cs, rfl⟩ := List.exists_cons_of_ne_nil hs
  have := c.utf8Size_pos
  rw [utf8Length]
  omega

namespace Cursor

variable {a b c : Cursor}

/-- Reading leads from one position to another. -/
def IsBefore (a b : Cursor) : Prop := ∃ s, a.Reads s b

theorem IsBefore.refl (a : Cursor) : a.IsBefore a := ⟨[], .refl a⟩

theorem IsBefore.trans (hab : a.IsBefore b) (hbc : b.IsBefore c) : a.IsBefore c := by
  obtain ⟨s, hs⟩ := hab
  obtain ⟨t, ht⟩ := hbc
  exact ⟨s ++ t, hs.trans ht⟩

theorem Reads.isBefore {s : List Char} (h : a.Reads s b) : a.IsBefore b := ⟨s, h⟩

theorem IsBefore.offset_le (h : a.IsBefore b) : a.offset ≤ b.offset := by
  obtain ⟨s, -, ho⟩ := h
  omega

theorem isBefore_takeWhile (p : Char → Bool) (a : Cursor) : a.IsBefore (a.takeWhile p).2 :=
  (reads_takeWhile p a).isBefore

theorem isBefore_skipWhile (p : Char → Bool) (a : Cursor) : a.IsBefore (a.skipWhile p) :=
  isBefore_takeWhile p a

theorem isBefore_finish (a : Cursor) : a.IsBefore a.finish := (reads_finish a).isBefore

/-- A position that is reached in a source is a character boundary of it. -/
theorem IsBefore.isValid_offset {source : String} (h : (ofString source).IsBefore a) :
    String.Pos.Raw.IsValid source ⟨a.offset⟩ := by
  obtain ⟨s, hs, ho⟩ := h
  refine String.Pos.Raw.isValid_iff_exists_append.2 ⟨String.ofList s, String.ofList a.rest, ?_, ?_⟩
  · rw [← String.ofList_append, ← hs]
    exact String.ofList_toList.symm
  · have hsize := utf8Length_toList (String.ofList s)
    rw [String.toList_ofList] at hsize
    rw [ofString, Nat.zero_add, hsize] at ho
    rw [ho]
    rfl

end Cursor

/-! ## Ranges -/

/-- A range of a source text: from one character boundary to another that is not before it. -/
def Span.IsIn (source : String) (span : Span) : Prop :=
  span.start ≤ span.stop ∧ span.stop ≤ source.utf8ByteSize ∧
    String.Pos.Raw.IsValid source ⟨span.start⟩ ∧ String.Pos.Raw.IsValid source ⟨span.stop⟩

/-- A range between two positions that reading leads to. -/
def Span.IsReadFrom (a : Cursor) (span : Span) : Prop :=
  ∃ b c : Cursor, a.IsBefore b ∧ b.IsBefore c ∧ span = b.spanTo c

section
variable {a b c : Cursor} {span : Span}

theorem Cursor.IsBefore.spanTo_eq (h : a.IsBefore b) :
    a.spanTo b = ⟨a.offset, b.offset, h.offset_le⟩ :=
  Span.between_of_le h.offset_le

theorem Span.IsReadFrom.of_isBefore (hab : a.IsBefore b) (h : span.IsReadFrom b) :
    span.IsReadFrom a := by
  obtain ⟨c, d, hbc, hcd, rfl⟩ := h
  exact ⟨c, d, hab.trans hbc, hcd, rfl⟩

theorem Cursor.IsBefore.isReadFrom (h : a.IsBefore b) : (a.spanTo b).IsReadFrom a :=
  ⟨a, b, .refl a, h, rfl⟩

/-- **A range that is read in a source is in it.** -/
theorem Span.IsReadFrom.isIn {source : String} (h : span.IsReadFrom (.ofString source)) :
    span.IsIn source := by
  obtain ⟨b, c, hb, hbc, rfl⟩ := h
  have hc := hb.trans hbc
  rw [hbc.spanTo_eq]
  exact ⟨hbc.offset_le, hc.isValid_offset.le_rawEndPos, hb.isValid_offset, hc.isValid_offset⟩

end

/-! ## Attributes -/

section
variable {cur next inner : Cursor} {attr : TagAttribute} {attributes : List TagAttribute}
  {token : Token} {fault : Fault}

theorem AttributeText.span_eq {next : Option Char} {start : Nat} {text : List Char}
    (h : AttributeText next start attr text) :
    attr.span = .between start (start + utf8Length text) := by
  cases h <;> rfl

theorem AttributesText.isReadFrom {after : Option Char} {start : Nat} {text : List Char}
    (h : AttributesText after start attributes text) (hread : cur.Reads text next)
    (hstart : cur.offset = start) : ∀ attr ∈ attributes, attr.span.IsReadFrom cur := by
  induction h generalizing cur with
  | nil => simp
  | cons _ _ hattr _ ih =>
    subst hstart
    obtain ⟨spaced, hgap, htexts⟩ := hread.split
    obtain ⟨rest, htext, hrest⟩ := htexts.split
    rw [List.forall_mem_cons]
    constructor
    · rw [hattr.span_eq, ← hgap.2, ← htext.spanTo_eq]
      exact htext.isBefore.isReadFrom.of_isBefore hgap.isBefore
    · exact fun other hother =>
        (ih hrest (by rw [htext.2, hgap.2]) other hother).of_isBefore (hgap.trans htext).isBefore

/-- The places in a token. -/
def Token.spans : Token → List Span
  | .startTag _ attributes _ => attributes.map (·.span)
  | _ => []

/-- The places in a token are read where the token is read. -/
theorem isReadFrom_of_scanToken (hne : cur.rest ≠ []) (h : scanToken cur = .ok (token, next)) :
    ∀ span ∈ token.spans, span.IsReadFrom cur := by
  obtain ⟨text, hread, ht⟩ := tokenText_of_scanToken hne h
  cases ht with
  | @startTag name _ _ _ _ _ hattributes =>
    rw [← List.cons_append] at hread
    obtain ⟨named, hname, htag⟩ := hread.split
    obtain ⟨stop, hwritten, -⟩ := htag.split
    intro span hspan
    obtain ⟨attr, hattr, rfl⟩ := List.mem_map.1 hspan
    exact (hattributes.isReadFrom hwritten hname.2 attr hattr).of_isBefore hname.isBefore
  | @delimited _ _ _ _ hparts =>
    cases token with
    | startTag => cases hparts
    | _ => simp [Token.spans]
  | _ => simp [Token.spans]

/-! ## Faults -/

/-- A fault after a position: reading leads from there to its construct, and then reads some text of
it. -/
def Fault.IsAfter (a : Cursor) (fault : Fault) : Prop :=
  ∃ b s, a.IsBefore b ∧ fault.start = b.offset ∧ s ≠ [] ∧ b.Reads s fault.stop

theorem Fault.IsAfter.of_isBefore (h : cur.IsBefore next) (hf : fault.IsAfter next) :
    fault.IsAfter cur := by
  obtain ⟨b, s, hb, hrest⟩ := hf
  exact ⟨b, s, h.trans hb, hrest⟩

/-- The range of a fault holds what was read of its construct. -/
theorem Fault.IsAfter.exists_span (h : fault.IsAfter cur) : ∃ b : Cursor, cur.IsBefore b ∧
    b.IsBefore fault.stop ∧ b.offset < fault.stop.offset ∧ fault.span = b.spanTo fault.stop := by
  obtain ⟨b, s, hb, hstart, hs, hread⟩ := h
  have hlen := utf8Length_pos hs
  have hstop := hread.2
  refine ⟨b, hb, hread.isBefore, by omega, ?_⟩
  rw [span, hstart, Nat.max_eq_left (by omega), Cursor.spanTo]

theorem isAfter_scanQuoted {quote : Char} {rest : List Char} (hr : cur.rest = quote :: rest)
    (h : scanQuoted quote cur = .error fault) : fault.IsAfter cur := by
  unfold scanQuoted at h
  split at h
  next => cases h
  next => cases h; exact ⟨cur, cur.rest, .refl cur, rfl, by simp [hr], cur.reads_finish⟩

theorem isAfter_scanValue (h : scanValue cur = .error fault) : fault.IsAfter cur := by
  unfold scanValue at h
  split at h
  next hr => exact isAfter_scanQuoted hr h
  next hr => exact isAfter_scanQuoted hr h
  next => split at h <;> cases h

theorem isAfter_scanAssignment (h : scanAssignment cur = .error fault) : fault.IsAfter cur := by
  unfold scanAssignment at h
  split at h
  next => cases h
  next after hafter =>
    exact (isAfter_scanValue h).of_isBefore ((Cursor.isBefore_skipWhile isSpace cur).trans
      ((Cursor.reads_skip? hafter).isBefore.trans (after.isBefore_skipWhile isSpace)))

theorem isAfter_scanAttribute (h : scanAttribute cur = .error fault) : fault.IsAfter cur := by
  have hnamed := Cursor.isBefore_takeWhile isKeyChar cur
  unfold scanAttribute at h
  split at h
  next => cases h
  next name named _ hname =>
    rw [hname] at hnamed
    split at h
    next hf => cases h; exact (isAfter_scanAssignment hf).of_isBefore hnamed
    next => cases h
    next => cases h

theorem isAfter_scanAttributes (h : scanAttributes cur = .error fault) : fault.IsAfter cur := by
  have spaced {cur : Cursor} {fault : Fault} (h : scanSpacedAttribute cur = .error fault) :
      fault.IsAfter cur := by
    have hafter := Cursor.isBefore_takeWhile isSpace cur
    unfold scanSpacedAttribute at h
    split at h
    next => cases h
    next hspaces =>
      rw [hspaces] at hafter
      exact (isAfter_scanAttribute h).of_isBefore hafter
  fun_induction scanAttributes cur generalizing fault with
  | case1 _ _ hf => cases h; exact spaced hf
  | case2 => cases h
  | case3 cur attr next hattr _ hf ih =>
    cases h
    obtain ⟨s, -, hs⟩ := reads_scanSpacedAttribute hattr
    exact (ih hf).of_isBefore hs.isBefore
  | case4 => cases h

/-- A fault in a construct whose opening characters have been read. -/
theorem isAfter_opening {construct : Construct} {opening : List Char} {stop : Cursor}
    (ho : opening ≠ []) (hinner : cur.Reads opening inner) (hstop : inner.IsBefore stop) :
    Fault.IsAfter cur ⟨construct, cur.offset, stop⟩ := by
  obtain ⟨s, hs⟩ := hstop
  exact ⟨cur, opening ++ s, .refl cur, rfl, by simp [ho], hinner.trans hs⟩

theorem isAfter_scanTagEnd {construct : Construct} {opening : List Char} (ho : opening ≠ [])
    (hinner : cur.Reads opening inner) (hnext : inner.IsBefore next) {made : Token}
    (h : scanTagEnd construct cur.offset made next = .error fault) : fault.IsAfter cur := by
  unfold scanTagEnd at h
  split at h
  next => cases h
  next => cases h; exact isAfter_opening ho hinner hnext

theorem isAfter_scanDelimited {construct : Construct} {opening closing : List Char}
    {make : String → Token} {stop : Cursor → Cursor} (ho : opening ≠ [])
    (hinner : cur.Reads opening inner) (hstop : inner.IsBefore (stop inner))
    (h : scanDelimited construct closing make stop cur inner = .error fault) :
    fault.IsAfter cur := by
  unfold scanDelimited at h
  split at h
  next => cases h
  next => cases h; exact isAfter_opening ho hinner hstop

theorem isAfter_scanStartTag (hinner : cur.Reads ['<'] inner)
    (h : scanStartTag cur inner = .error fault) : fault.IsAfter cur := by
  have hnamed := Cursor.isBefore_takeWhile isNameChar inner
  unfold scanStartTag at h
  split at h
  next name named hname =>
    rw [hname] at hnamed
    split at h
    next hf =>
      cases h
      exact (isAfter_scanAttributes hf).of_isBefore (hinner.isBefore.trans hnamed)
    next attributes stop hattributes =>
      obtain ⟨s, hs⟩ := reads_scanAttributes hattributes
      have hspaces := (hnamed.trans hs.isBefore).trans (stop.isBefore_skipWhile isSpace)
      split at h
      next hslash =>
        exact isAfter_scanTagEnd (by simp) hinner
          (hspaces.trans (Cursor.reads_skip? hslash).isBefore) h
      next => exact isAfter_scanTagEnd (by simp) hinner hspaces h

theorem isAfter_scanEndTag (hinner : cur.Reads ['<', '/'] inner)
    (h : scanEndTag cur inner = .error fault) : fault.IsAfter cur := by
  have hnamed := Cursor.isBefore_takeWhile isNameChar inner
  unfold scanEndTag at h
  split at h
  next name named hname =>
    rw [hname] at hnamed
    split at h
    next =>
      exact isAfter_scanTagEnd (by simp) hinner (hnamed.trans (named.isBefore_skipWhile isSpace)) h
    next => cases h; exact isAfter_opening (by simp) hinner (.refl inner)

/-- **A token that cannot be read is a fault after the position where it begins.** -/
theorem isAfter_scanToken (h : scanToken cur = .error fault) : fault.IsAfter cur := by
  unfold scanToken at h
  split at h
  next hr =>
    exact isAfter_scanDelimited (by simp) (Cursor.reads_past (s := ['<', '!', '-', '-']) hr)
      (.refl _) h
  next hr =>
    exact isAfter_scanDelimited (by simp)
      (Cursor.reads_past (s := ['<', '!', '[', 'C', 'D', 'A', 'T', 'A', '[']) hr) (.refl _) h
  next hr =>
    exact isAfter_scanDelimited (by simp) (Cursor.reads_past (s := ['<', '!']) hr)
      (Cursor.isBefore_finish _) h
  next hr =>
    exact isAfter_scanDelimited (by simp) (Cursor.reads_past (s := ['<', '?']) hr) (.refl _) h
  next hr => exact isAfter_scanEndTag (Cursor.reads_past (s := ['<', '/']) hr) h
  next hr =>
    split at h
    next => exact isAfter_scanStartTag (Cursor.reads_past (s := ['<']) hr) h
    next => cases h
  next => cases h

end

/-! ## Scanning -/

/-- A scanned piece of which all places are read from a position on. -/
def IsScannedFrom (a : Cursor) : Except Fault PlacedToken → Prop
  | .error fault => fault.IsAfter a
  | .ok placed => placed.span.IsReadFrom a ∧ ∀ span ∈ placed.token.spans, span.IsReadFrom a

theorem IsScannedFrom.of_isBefore {a b : Cursor} {piece : Except Fault PlacedToken}
    (hab : a.IsBefore b) (h : IsScannedFrom b piece) : IsScannedFrom a piece := by
  cases piece with
  | error fault => exact Fault.IsAfter.of_isBefore hab h
  | ok placed =>
    exact ⟨h.1.of_isBefore hab, fun span hspan => (h.2 span hspan).of_isBefore hab⟩

theorem isBefore_of_scanToken {cur next : Cursor} {token : Token} (hne : cur.rest ≠ [])
    (h : scanToken cur = .ok (token, next)) : cur.IsBefore next := by
  obtain ⟨s, -, hs⟩ := reads_scanToken hne h
  exact hs.isBefore

theorem isScannedFrom_token {cur next : Cursor} {token : Token} (hne : cur.rest ≠ [])
    (h : scanToken cur = .ok (token, next)) :
    IsScannedFrom cur (.ok ⟨token, cur.spanTo next⟩) :=
  ⟨(isBefore_of_scanToken hne h).isReadFrom, isReadFrom_of_scanToken hne h⟩

/-- Every piece of a scan is read from the position where the scan begins. -/
theorem isScannedFrom_of_mem_scan (cur : Cursor) : ∀ piece ∈ scan cur, IsScannedFrom cur piece := by
  apply scan_induction (motive := fun cur pieces => ∀ piece ∈ pieces, IsScannedFrom cur piece)
  case finished => simp
  case fault =>
    intro cur fault _ hfault ih
    obtain ⟨s, -, hresume⟩ := reads_fault hfault
    rw [List.forall_mem_cons]
    exact ⟨isAfter_scanToken hfault, fun piece hp => (ih piece hp).of_isBefore hresume.isBefore⟩
  case token =>
    intro cur token next hne htoken _ ih
    have hnext := isBefore_of_scanToken hne htoken
    rw [List.forall_mem_cons]
    exact ⟨isScannedFrom_token hne htoken, fun piece hp => (ih piece hp).of_isBefore hnext⟩
  case body =>
    intro cur token next body after hne htoken hbody ih
    have hnext := isBefore_of_scanToken hne htoken
    have hafter := (reads_scanBody? hbody).isBefore
    rw [List.forall_mem_cons, List.forall_mem_cons]
    exact ⟨isScannedFrom_token hne htoken,
      ⟨hafter.isReadFrom.of_isBefore hnext, by simp [Token.spans]⟩,
      fun piece hp => (ih piece hp).of_isBefore (hnext.trans hafter)⟩

theorem isAfter_of_mem_faultsOf {cur : Cursor} {fault : Fault} (h : fault ∈ faultsOf (scan cur)) :
    fault.IsAfter cur := by
  obtain ⟨piece, hp, hf⟩ := List.mem_filterMap.1 h
  cases piece with
  | error found => cases hf; exact isScannedFrom_of_mem_scan cur _ hp
  | ok => cases hf

/-- **Each fault of a scan ends before the next one begins**: after a fault reading goes on behind
it. -/
theorem pairwise_faultsOf_scan (cur : Cursor) :
    (faultsOf (scan cur)).Pairwise fun f g => f.span.stop ≤ g.span.start := by
  apply scan_induction
    (motive := fun _ pieces => (faultsOf pieces).Pairwise fun f g => f.span.stop ≤ g.span.start)
  case finished => exact fun _ _ => .nil
  case token => exact fun _ _ _ _ _ _ ih => ih
  case body => exact fun _ _ _ _ _ _ _ _ ih => ih
  case fault =>
    intro cur fault _ hfault ih
    refine List.pairwise_cons.2 ⟨fun next hnext => ?_, ih⟩
    obtain ⟨b, -, hstop, -, hspan⟩ := (isAfter_scanToken hfault).exists_span
    obtain ⟨c, hc, hstop', -, hspan'⟩ := (isAfter_of_mem_faultsOf hnext).exists_span
    obtain ⟨s, hresume⟩ := fault.reads_resume
    rw [hspan, hspan', hstop.spanTo_eq, hstop'.spanTo_eq]
    exact (hresume.isBefore.trans hc).offset_le

/-! ## Construction -/

/-- The places that a report on a problem names. -/
def Problem.spans (problem : Problem) : List Span := problem.diagnostic.labels.map (·.span)

namespace Construction

variable {P : Span → Prop} {c : Construction} {voids : VoidTags} {child : Child} {span : Span}

/-- Something that holds of every place that a construction knows: those of the open elements, of
the completed ones, and of the problems. -/
structure Points (P : Span → Prop) (c : Construction) : Prop where
  opened : ∀ e ∈ c.opened, P e.span
  roots : ∀ root ∈ c.roots, P root.2
  problems : ∀ problem ∈ c.problems, ∀ span ∈ problem.spans, P span

theorem Points.start : Points P .start :=
  ⟨List.forall_mem_nil _, List.forall_mem_nil _, List.forall_mem_nil _⟩

theorem Points.addProblems (h : c.Points P) {problems : List Problem}
    (hp : ∀ problem ∈ problems, ∀ span ∈ problem.spans, P span) :
    Points P { c with problems := c.problems ++ problems } :=
  ⟨h.opened, h.roots, List.forall_mem_append.2 ⟨h.problems, hp⟩⟩

theorem span_add (e : OpenElement) (child : Child) : (e.add child).span = e.span := by
  unfold OpenElement.add
  split <;> rfl

theorem Points.add (h : c.Points P) (hs : P span) : (c.add child span).Points P := by
  obtain ⟨opened, roots, problems⟩ := c
  unfold Construction.add
  split
  next e outer ho =>
    cases ho
    refine ⟨?_, h.roots, h.problems⟩
    have hopened := List.forall_mem_cons.1 h.opened
    exact List.forall_mem_cons.2 ⟨by rw [span_add]; exact hopened.1, hopened.2⟩
  next =>
    split
    next node =>
      exact ⟨h.opened, List.forall_mem_append.2 ⟨h.roots, by simpa using hs⟩, h.problems⟩
    next s =>
      split
      · exact h.addProblems (by simpa [Problem.spans, Problem.diagnostic] using hs)
      · exact h

theorem Points.closeInnermost (h : c.Points P) : c.closeInnermost.Points P := by
  obtain ⟨opened, roots, problems⟩ := c
  unfold Construction.closeInnermost
  split
  · exact h
  next e outer ho =>
    cases ho
    have hopened := List.forall_mem_cons.1 h.opened
    exact Points.add ⟨hopened.2, h.roots, h.problems⟩ hopened.1

theorem Points.close (n : Nat) (h : c.Points P) : (close n c).Points P := by
  induction n generalizing c with
  | zero => exact h
  | succ n ih => exact ih h.closeInnermost

theorem mem_of_mem_repeatedOnly {attr : TagAttribute} {seen : List String}
    {attributes : List TagAttribute} (h : attr ∈ repeatedOnly seen attributes) :
    attr ∈ attributes := by
  induction attributes generalizing seen with
  | nil => cases h
  | cons first rest ih =>
    rw [repeatedOnly] at h
    split at h
    · rcases List.mem_cons.1 h with rfl | h
      · exact List.mem_cons_self ..
      · exact List.mem_cons_of_mem _ (ih h)
    · exact List.mem_cons_of_mem _ (ih h)

theorem Points.startTag {name : String} {attributes : List TagAttribute} {selfClosing : Bool}
    (h : c.Points P) (hs : P span) (ha : ∀ attr ∈ attributes, P attr.span) :
    (c.startTag voids name attributes selfClosing span).Points P := by
  have hcollect : ∀ problem ∈ (collect attributes).2, ∀ span ∈ problem.spans, P span := by
    rw [collect_eq]
    intro problem hp
    obtain ⟨attr, hattr, rfl⟩ := List.mem_map.1 hp
    simpa [Problem.spans, Problem.diagnostic] using ha attr (mem_of_mem_repeatedOnly hattr)
  have hnoted := h.addProblems hcollect
  unfold Construction.startTag
  dsimp only
  split
  · exact hnoted.add hs
  · exact ⟨List.forall_mem_cons.2 ⟨hs, hnoted.opened⟩, hnoted.roots, hnoted.problems⟩

theorem Points.endTag {name : String} (h : c.Points P) (hs : P span) :
    (c.endTag voids name span).Points P := by
  unfold Construction.endTag
  dsimp only
  split
  · exact h
  split
  next =>
    refine Points.close _ (h.addProblems fun problem hp => ?_)
    obtain ⟨e, he, rfl⟩ := List.mem_map.1 hp
    have hopened := h.opened e ((List.takeWhile_sublist _).subset he)
    simpa [Problem.spans, Problem.diagnostic] using ⟨hs, hopened⟩
  next =>
    split
    next => exact h.addProblems (by simpa [Problem.spans, Problem.diagnostic] using hs)
    next e outer ho =>
      have hopened := h.opened e (by simp [ho])
      exact h.addProblems (by simpa [Problem.spans, Problem.diagnostic] using ⟨hs, hopened⟩)

/-- **One token keeps what holds of every place**, if it holds of the places of the token. -/
theorem Points.process {placed : PlacedToken} (h : c.Points P) (hs : P placed.span)
    (ht : ∀ span ∈ placed.token.spans, P span) : (c.process voids placed).Points P := by
  obtain ⟨token, span⟩ := placed
  cases token with
  | startTag name attributes selfClosing =>
    exact h.startTag hs fun attr hattr => ht _ (List.mem_map_of_mem hattr)
  | endTag name => exact h.endTag hs
  | text | rawText | cdata => exact h.add hs
  | comment | declaration | «instruction» => exact h

theorem Points.foldl {tokens : List PlacedToken} (h : c.Points P)
    (ht : ∀ placed ∈ tokens, P placed.span ∧ ∀ span ∈ placed.token.spans, P span) :
    (tokens.foldl (Construction.process voids) c).Points P := by
  induction tokens generalizing c with
  | nil => exact h
  | cons placed rest ih =>
    rw [List.forall_mem_cons] at ht
    exact ih (h.process ht.1.1 ht.1.2) ht.2

theorem Points.finish (h : c.Points P) : c.finish.Points P := by
  unfold Construction.finish
  refine Points.close _ (h.addProblems fun problem hp => ?_)
  obtain ⟨e, he, rfl⟩ := List.mem_map.1 hp
  simpa [Problem.spans, Problem.diagnostic] using h.opened e he

/-- The beginning of the text is the place of what is missing. -/
theorem Points.allProblems (h : c.Points P) (hempty : P (.between 0 0)) :
    ∀ problem ∈ c.allProblems, ∀ span ∈ problem.spans, P span := by
  unfold Construction.allProblems
  split
  next => exact (h.addProblems (by simpa [Problem.spans, Problem.diagnostic] using hempty)).problems
  next first further hroots =>
    refine (h.addProblems fun problem hp => ?_).problems
    obtain ⟨root, hroot, rfl⟩ := List.mem_map.1 hp
    have hplace := h.roots root (by simp [hroots, hroot])
    simpa [Problem.spans, Problem.diagnostic] using hplace

end Construction

/-! ## Errors -/

/-- The places that the reports of an error name, in their order. -/
def ParseError.spans (e : ParseError) : List Span :=
  e.diagnostics.flatMap fun d => d.labels.map (·.span)

/-- An error that a reader of the source can follow: something is refused, every report names a
place, and all places are in the source. -/
structure ParseError.IsUsable (source : String) (e : ParseError) : Prop where
  refuses : ∃ d ∈ e.diagnostics, d.severity = .error
  labelled : ∀ d ∈ e.diagnostics, d.labels ≠ []
  located : ∀ span ∈ e.spans, span.IsIn source

section
variable {voids : VoidTags} {source : String} {e : ParseError}

theorem Span.isIn_empty (source : String) : (Span.between 0 0).IsIn source :=
  (Cursor.IsBefore.refl (.ofString source)).isReadFrom.isIn

theorem diagnostics_of_tokenize (h : tokenize source = .error e) :
    faultsOf (scan (.ofString source)) ≠ [] ∧
      e.diagnostics = (faultsOf (scan (.ofString source))).map Fault.diagnostic := by
  unfold tokenize at h
  dsimp only at h
  split at h
  next => cases h
  next hne => cases h; exact ⟨hne, rfl⟩

theorem spans_of_tokenize (h : tokenize source = .error e) :
    e.spans = (faultsOf (scan (.ofString source))).map Fault.span := by
  rw [ParseError.spans, (diagnostics_of_tokenize h).2, List.flatMap_map]
  exact List.map_eq_flatMap.symm

theorem isUsable_of_tokenize (h : tokenize source = .error e) : e.IsUsable source := by
  obtain ⟨hne, hdiagnostics⟩ := diagnostics_of_tokenize h
  constructor
  · obtain ⟨fault, faults, hfaults⟩ := List.exists_cons_of_ne_nil hne
    exact ⟨fault.diagnostic, by simp [hdiagnostics, hfaults], rfl⟩
  · rw [hdiagnostics]
    intro d hd
    obtain ⟨fault, -, rfl⟩ := List.mem_map.1 hd
    exact List.cons_ne_nil _ _
  · rw [spans_of_tokenize h]
    intro span hspan
    obtain ⟨fault, hfault, rfl⟩ := List.mem_map.1 hspan
    obtain ⟨b, hb, hstop, -, hspan⟩ := (isAfter_of_mem_faultsOf hfault).exists_span
    exact Span.IsReadFrom.isIn ⟨b, fault.stop, hb, hstop, hspan⟩

/-- All places in the tokens of a source are in it. -/
theorem isIn_of_tokenize {tokens : List PlacedToken} (h : tokenize source = .ok tokens) :
    ∀ placed ∈ tokens, placed.span.IsIn source ∧ ∀ span ∈ placed.token.spans, span.IsIn source := by
  intro placed hp
  have hscanned := isScannedFrom_of_mem_scan (.ofString source) (.ok placed)
    (by rw [scan_of_tokenize h]; exact List.mem_map_of_mem hp)
  exact ⟨hscanned.1.isIn, fun span hspan => (hscanned.2 span hspan).isIn⟩

theorem isUsable_of_buildTree {tokens : List PlacedToken} (ht : tokenize source = .ok tokens)
    (h : buildTree voids tokens = .error e) : e.IsUsable source := by
  have hpoints : (tokens.foldl (Construction.process voids) .start).Points (Span.IsIn source) :=
    Construction.Points.start.foldl fun placed hp => isIn_of_tokenize ht placed hp
  have hall := hpoints.finish.allProblems (Span.isIn_empty source)
  unfold buildTree at h
  generalize (tokens.foldl (Construction.process voids) .start).finish = c at h hall
  have hspans : ∀ span ∈ ParseError.spans ⟨c.allProblems.map Problem.diagnostic⟩,
      span.IsIn source := by
    intro span hspan
    rw [ParseError.spans, List.flatMap_map] at hspan
    obtain ⟨problem, hproblem, hmem⟩ := List.mem_flatMap.1 hspan
    exact hall problem hproblem span hmem
  have hlabels : ∀ d ∈ c.allProblems.map Problem.diagnostic, d.labels ≠ [] := by
    intro d hd
    obtain ⟨problem, -, rfl⟩ := List.mem_map.1 hd
    cases problem <;> exact List.cons_ne_nil _ _
  dsimp only at h
  split at h
  next root span further hroots =>
    split at h
    next herr =>
      cases h
      obtain ⟨d, hd, hsevere⟩ := List.any_eq_true.1 herr
      exact ⟨⟨d, hd, eq_of_beq hsevere⟩, hlabels, hspans⟩
    next => cases h
  next hroots =>
    cases h
    refine ⟨⟨Problem.noRoot.diagnostic, List.mem_map_of_mem ?_, rfl⟩, hlabels, hspans⟩
    rw [Construction.allProblems, hroots]
    exact List.mem_append_right _ (List.mem_singleton_self _)

theorem isUsable_of_parse (h : (parse voids source).value = .error e) : e.IsUsable source := by
  cases ht : tokenize source with
  | error found =>
    rw [parse, ht] at h
    cases h
    exact isUsable_of_tokenize ht
  | ok tokens =>
    rw [value_parse_of_tokenize ht] at h
    cases hb : buildTree voids tokens with
    | error found => rw [hb] at h; cases h; exact isUsable_of_buildTree ht hb
    | ok result => rw [hb] at h; cases h

end

end ComponentMarkup.Markup

/-! ## Templates -/

namespace ComponentMarkup.Template

open Markup (Cursor ParseError Span isSpace utf8Length_pos)

/-- The place of a malformed placeholder. -/
def Fault.span : Fault → Span
  | .invalidName start stop | .unterminated start stop => .between start (max stop (start + 1))

theorem Fault.spans_labels (fault : Fault) :
    fault.diagnostic.labels.map (·.span) = [fault.span] := by
  cases fault <;> rfl

variable {cur inner next : Cursor} {segment : Segment} {fault : Fault}

theorem isReadFrom_of_scanPlaceholder {closing opening : List Char} {make : String → Segment}
    (ho : opening ≠ []) (hinner : cur.Reads opening inner)
    (h : scanPlaceholder closing make cur.offset inner = .error fault) :
    fault.span.IsReadFrom cur := by
  have place {stop : Cursor} (hstop : inner.IsBefore stop) :
      (Span.between cur.offset (max stop.offset (cur.offset + 1))).IsReadFrom cur := by
    have hlen := utf8Length_pos ho
    have hoffset := hinner.2
    have hle := hstop.offset_le
    rw [Nat.max_eq_left (by omega)]
    exact (hinner.isBefore.trans hstop).isReadFrom
  have hspaces := inner.isBefore_skipWhile isSpace
  unfold scanPlaceholder at h
  split at h
  next => cases h; exact place hspaces
  next key after _ hkey =>
    have hafter := (inner.skipWhile isSpace).isBefore_takeWhile isKeyChar
    rw [hkey] at hafter
    split at h
    next => cases h
    next =>
      cases h
      exact place (hspaces.trans (hafter.trans (after.isBefore_skipWhile isSpace)))

theorem isReadFrom_of_scanSegment (h : scanSegment cur = .error fault) :
    fault.span.IsReadFrom cur := by
  unfold scanSegment at h
  split at h
  next hr =>
    exact isReadFrom_of_scanPlaceholder (by simp) (Cursor.reads_past (s := ['{', '{', '{']) hr) h
  next hr =>
    exact isReadFrom_of_scanPlaceholder (by simp) (Cursor.reads_past (s := ['{', '{']) hr) h
  next => split at h <;> cases h

/-- The first malformed placeholder lies behind all segments before it. -/
theorem isReadFrom_of_scanSegments (h : scanSegments cur = .error fault) :
    fault.span.IsReadFrom cur := by
  fun_induction scanSegments cur generalizing fault with
  | case1 => cases h
  | case2 cur _ _ hf => cases h; exact isReadFrom_of_scanSegment hf
  | case3 cur hne segment next hs _ hf ih =>
    cases h
    obtain ⟨s, -, hread⟩ := reads_scanSegment hne hs
    exact (ih hf).of_isBefore hread.isBefore
  | case4 => cases h

theorem isUsable_of_parse {source : String} {e : ParseError} (h : parse source = .error e) :
    e.IsUsable source := by
  unfold parse at h
  split at h
  next => cases h
  next fault hf =>
    cases h
    constructor
    · exact ⟨fault.diagnostic, List.mem_singleton_self _, by cases fault <;> rfl⟩
    · intro d hd
      rw [List.mem_singleton.1 hd]
      cases fault <;> exact List.cons_ne_nil _ _
    · rw [ParseError.spans, List.flatMap_singleton, Fault.spans_labels]
      intro span hspan
      rw [List.mem_singleton.1 hspan]
      exact (isReadFrom_of_scanSegments hf).isIn

end ComponentMarkup.Template

namespace ComponentMarkup.Markup

/-! ## Every place that is reported -/

/-- The codes of constructs that cannot be read. -/
def constructCodes : List String := ["E001", "E002", "E003", "E004", "E005"]

/-- **What a reader is told about a faulty text can be followed.** When a document or a template is
refused, there is an error among the reports, and all places that they name are in the text, with
both ends on character boundaries. When already the tokens of a document cannot be read, there are
errors only, each of an unreadable construct, and their places are not empty, come in the order of
the text and do not overlap. -/
theorem isUsable_of_error (voids : VoidTags) (source : String) :
    (∀ e, (parse voids source).value = .error e → e.IsUsable source) ∧
    (∀ e, Template.parse source = .error e → e.IsUsable source) ∧
    ∀ e, tokenize source = .error e → (parse voids source).value = .error e ∧
      (∀ d ∈ e.diagnostics, d.severity = .error ∧
        ∃ code, d.code = some code ∧ code.text ∈ constructCodes) ∧
      (∀ span ∈ e.spans, span.start < span.stop) ∧
      e.spans.Pairwise fun a b => a.stop ≤ b.start := by
  refine ⟨fun e => isUsable_of_parse, fun e => Template.isUsable_of_parse, fun e h => ?_⟩
  refine ⟨by rw [parse, h]; rfl, fun d hd => ?_, ?_, ?_⟩
  · rw [(diagnostics_of_tokenize h).2] at hd
    obtain ⟨fault, -, rfl⟩ := List.mem_map.1 hd
    exact ⟨rfl, fault.construct.code, rfl, by cases fault.construct <;> decide⟩
  · rw [spans_of_tokenize h]
    intro span hspan
    obtain ⟨fault, hfault, rfl⟩ := List.mem_map.1 hspan
    obtain ⟨b, -, hstop, hlt, hspan⟩ := (isAfter_of_mem_faultsOf hfault).exists_span
    rw [hspan, hstop.spanTo_eq]
    exact hlt
  · rw [spans_of_tokenize h, List.pairwise_map]
    exact pairwise_faultsOf_scan _

/-- The end tag closes nothing, the key of the placeholder is missing, and both the end tag and the
value cannot be read. -/
theorem isUsable_of_error_letters : ∃ e f g : ParseError,
    (parse (.ofList []) "<é ü='1' ü='2'></q>").value = .error e ∧ e.IsUsable "<é ü='1' ü='2'></q>" ∧
    Template.parse "é\x7b\x7b\u2003" = .error f ∧ f.IsUsable "é\x7b\x7b\u2003" ∧
    tokenize "é</ ><p a='ü" = .error g ∧ (parse (.ofList []) "é</ ><p a='ü").value = .error g ∧
      (∀ d ∈ g.diagnostics, d.severity = .error ∧
        ∃ code, d.code = some code ∧ code.text ∈ constructCodes) ∧
      (∀ span ∈ g.spans, span.start < span.stop) ∧
      g.spans.Pairwise fun a b => a.stop ≤ b.start := by
  have refused {α : Type} (result : Except ParseError α) (h : result.isOk = false) :
      ∃ e, result = .error e := by
    cases result with
    | error e => exact ⟨e, rfl⟩
    | ok a => cases h
  obtain ⟨e, he⟩ := refused (parse (.ofList []) "<é ü='1' ü='2'></q>").value (by decide +kernel)
  obtain ⟨f, hf⟩ := refused (Template.parse "é\x7b\x7b\u2003") (by decide +kernel)
  obtain ⟨g, hg⟩ := refused (tokenize "é</ ><p a='ü") (by decide +kernel)
  exact ⟨e, f, g, he, (isUsable_of_error _ _).1 e he, hf, (isUsable_of_error (.ofList []) _).2.1 f hf,
    hg, (isUsable_of_error _ _).2.2 g hg⟩

end ComponentMarkup.Markup
