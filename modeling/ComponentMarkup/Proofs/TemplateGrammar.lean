/-
  How templates are written.

  * `SegmentText`, `SegmentsText`: a segment as it is written, and segments one after another.
  * `AreNormal`: segments of which each is as long as it can be.
  * `scanSegment_of_segmentText`, `segmentText_of_scanSegment`: a segment is scanned where its text
    is written and ends (`Segment.EndsAt`), and nowhere else.
  * `scanSegments_iff`: what is scanned are the normal segments whose text is the source.
  * `parse_eq_ok_iff_isWritten`: every source is the text of exactly one list of normal segments,
    which is its template, or of none; then there is a report on a placeholder.
-/
import Mathlib.Data.List.Chain
import ComponentMarkup.Proofs.WrittenAttributes
import ComponentMarkup.View.Template

namespace ComponentMarkup

open Markup (Cursor IsGap isSpace)

namespace Template

/-! ## Written segments -/

/-- A key that can stand in a placeholder. -/
def isLegalKey (key : String) : Bool :=
  !key.toList.isEmpty && key.toList.all isKeyChar

/-- A segment as it is written: literal text as it is, a key between two or three braces on each
side, with any spaces around it. -/
inductive SegmentText : Segment → List Char → Prop
  | literal {content : String} : SegmentText (.literal content) content.toList
  | escaped {before after} {key : String} : IsGap before → IsGap after →
      SegmentText (.escaped key)
        (['{', '{'] ++ (before ++ (key.toList ++ (after ++ ['}', '}']))))
  | raw {before after} {key : String} : IsGap before → IsGap after →
      SegmentText (.raw key)
        (['{', '{', '{'] ++ (before ++ (key.toList ++ (after ++ ['}', '}', '}']))))

/-- Segments as they are written, one after another. -/
inductive SegmentsText : List Segment → List Char → Prop
  | nil : SegmentsText [] []
  | cons {segment segments text rest} : SegmentText segment text → SegmentsText segments rest →
      SegmentsText (segment :: segments) (text ++ rest)

end Template

/-- Literal text is not empty and has no two braces in a row, and a key is legal. -/
def Segment.IsNormal : Segment → Prop
  | .literal content => content ≠ "" ∧ ¬ ['{', '{'] <:+: content.toList
  | .escaped key | .raw key => Template.isLegalKey key = true

/-- After literal text comes a placeholder, and the text does not end with a brace then. -/
def Segment.Precedes : Segment → Segment → Prop
  | .literal content, next => next.key?.isSome ∧ content.toList.getLast? ≠ some '{'
  | .escaped _, _ | .raw _, _ => True

/-- A segment ends before the text `rest`. Literal text goes on up to two braces, of which it has
none, or up to the end. -/
def Segment.EndsAt : Segment → List Char → Prop
  | .literal content, rest =>
    rest = [] ∨ (['{', '{'] <+: rest ∧ content.toList.getLast? ≠ some '{')
  | .escaped _, _ | .raw _, _ => True

namespace Template

/-- Segments that are as long as they can be, with legal keys. -/
structure AreNormal (segments : List Segment) : Prop where
  each : ∀ segment ∈ segments, segment.IsNormal
  isChain : segments.IsChain Segment.Precedes

variable {a b : Cursor} {s text rest before after more : List Char} {key : String}
  {segment : Segment} {segments : List Segment}

theorem isLegalKey_iff : isLegalKey key = true ↔
    key.toList ≠ [] ∧ ∀ c ∈ key.toList, isKeyChar c = true := by
  simp [isLegalKey]

theorem isSpace_of_isKeyChar {c : Char} (h : isKeyChar c = true) : isSpace c = false := by
  rw [← Bool.not_eq_true]
  intro hs
  rcases Markup.isSpace_iff.1 hs with rfl | rfl | rfl | rfl <;> revert h <;> decide

/-! ## One placeholder -/

/-- Neither a space nor the end of a placeholder goes on with the key. -/
theorem not_isKeyChar_head? (hafter : IsGap after) :
    ∀ c ∈ (after ++ '}' :: more).head?, isKeyChar c = false := by
  intro c hc
  cases after with
  | nil =>
    obtain rfl : '}' = c := Option.some_inj.1 hc
    decide
  | cons d after =>
    obtain rfl : d = c := Option.some_inj.1 hc
    rw [← Bool.not_eq_true]
    intro hkey
    have hspace := hafter d (List.mem_cons_self ..)
    rw [isSpace_of_isKeyChar hkey] at hspace
    cases hspace

/-- **What comes after the opening braces of a placeholder**: a legal key, with any spaces around
it, and the closing braces. -/
theorem scanPlaceholder_iff {make : String → Segment} {start : Nat} {inner : Cursor} :
    scanPlaceholder ('}' :: more) make start inner = .ok (segment, b) ↔
      ∃ before key after, IsGap before ∧ isLegalKey key = true ∧ IsGap after ∧
        segment = make key ∧
        inner.Reads (before ++ (key.toList ++ (after ++ '}' :: more))) b := by
  constructor
  · intro h
    obtain ⟨before, hbefore, hgap, -⟩ := Cursor.reads_skipWhile isSpace inner
    unfold scanPlaceholder at h
    split at h
    next => cases h
    next key next hkey htake =>
      obtain ⟨hread, hall, -⟩ := Cursor.takeWhile_iff.1 htake
      obtain ⟨after, hafter, hgap', -⟩ := Cursor.reads_skipWhile isSpace next
      split at h
      next hclose =>
        cases h
        refine ⟨before, String.ofList key, after, hgap, ?_, hgap', rfl, ?_⟩
        · rw [isLegalKey_iff, String.toList_ofList]
          exact ⟨hkey, hall⟩
        · rw [String.toList_ofList]
          exact hbefore.trans (hread.trans (hafter.trans (Cursor.reads_skip? hclose)))
      next => cases h
  · rintro ⟨before, key, after, hbefore, hlegal, hafter, rfl, h⟩
    obtain ⟨hne, hkey⟩ := isLegalKey_iff.1 hlegal
    obtain ⟨c, cs, hcs⟩ := List.exists_cons_of_ne_nil hne
    obtain ⟨named, hspace, h⟩ := h.split
    obtain ⟨ended, hread, h⟩ := h.split
    have hskip : inner.skipWhile isSpace = named := by
      refine Cursor.skipWhile_eq hspace hbefore ?_
      rw [hcs] at hread
      rw [hread.head?_of_cons]
      simpa using isSpace_of_isKeyChar (hkey c (by simp [hcs]))
    have htake : named.takeWhile isKeyChar = (key.toList, ended) := by
      refine Cursor.takeWhile_eq hread hkey ?_
      rw [h.1, List.append_assoc]
      exact not_isKeyChar_head? hafter
    obtain ⟨closed, hspace', hclose⟩ := h.split
    have hskip' : ended.skipWhile isSpace = closed := by
      refine Cursor.skipWhile_eq hspace' hafter ?_
      rw [hclose.head?_of_cons]
      simp
      decide
    rw [scanPlaceholder, hskip, htake, hcs]
    simp only
    rw [hskip', Cursor.skip?_eq hclose, ← hcs, String.ofList_toList]

/-! ## One segment -/

/-- Two braces in a row can have a brace at the end as the first of them. -/
theorem not_isInfix_concat_brace : ¬ ['{', '{'] <:+: s ++ ['{'] ↔
    ¬ ['{', '{'] <:+: s ∧ s.getLast? ≠ some '{' := by
  rw [List.infix_concat_iff, not_or, and_comm]
  refine and_congr_right fun _ => not_congr ?_
  constructor
  · rintro ⟨before, h⟩
    have hs : before ++ ['{'] = s := List.append_cancel_right ((List.append_assoc ..).trans h)
    rw [← hs, List.getLast?_concat]
  · intro hlast
    obtain ⟨before, rfl⟩ := List.getLast?_eq_some_iff.1 hlast
    exact ⟨before, by rw [List.append_assoc]; rfl⟩

/-- No placeholder begins where literal text does. -/
theorem not_prefix_literal (hs : s ≠ []) (hfree : ¬ ['{', '{'] <:+: s)
    (hend : rest = [] ∨ (['{', '{'] <+: rest ∧ s.getLast? ≠ some '{')) :
    ¬ ['{', '{'] <+: s ++ rest := by
  rintro ⟨after, h⟩
  obtain ⟨c, cs, rfl⟩ := List.exists_cons_of_ne_nil hs
  obtain ⟨rfl, h⟩ := List.cons_eq_cons.1 h
  cases cs with
  | nil =>
    rcases hend with rfl | ⟨-, hlast⟩
    · cases h
    · exact hlast rfl
  | cons d ds =>
    cases h
    exact hfree ⟨[], ds, rfl⟩

/-- Literal text is read up to the next placeholder or the end. -/
theorem scanSegment_literal (h : a.Reads s b) (hs : s ≠ []) (hfree : ¬ ['{', '{'] <:+: s)
    (hend : b.rest = [] ∨ (['{', '{'] <+: b.rest ∧ s.getLast? ≠ some '{')) :
    scanSegment a = .ok (.literal (String.ofList s), b) := by
  have hno : ¬ ['{', '{'] <+: a.rest := h.1 ▸ not_prefix_literal hs hfree hend
  unfold scanSegment
  split
  next hr => exact absurd (hr ▸ ⟨_, rfl⟩) hno
  next hr => exact absurd (hr ▸ ⟨_, rfl⟩) hno
  next =>
    rcases hend with hend | ⟨⟨after, hafter⟩, hlast⟩
    · have hrest : a.rest = s := by rw [h.1, hend, List.append_nil]
      have hcut : Text.cut? ['{', '{'] s = none := by
        rwa [← Option.not_isSome_iff_eq_none, ← Text.occursIn, Text.occursIn_iff]
      have hread := Cursor.reads_finish a
      rw [hrest] at hread
      rw [hrest, hcut]
      simp only
      rw [hread.unique h]
    · have hcut : Text.cut? ['{', '{'] a.rest = some (s, after) := by
        rw [Text.cut?_eq_some_iff (List.cons_ne_nil _ _), h.1, ← hafter, List.append_assoc]
        exact ⟨rfl, not_isInfix_concat_brace.2 ⟨hfree, hlast⟩⟩
      rw [hcut]
      simp only
      rw [hafter, h.past_eq]

theorem scanSegment_raw {inner : Cursor} (hopen : a.Reads ['{', '{', '{'] inner) :
    scanSegment a = scanPlaceholder ['}', '}', '}'] .raw a.offset inner := by
  have ha : a.rest = '{' :: '{' :: '{' :: inner.rest := hopen.1
  rw [scanSegment, ha]
  simp only
  rw [hopen.past_eq]

theorem scanSegment_escaped {inner : Cursor} (hopen : a.Reads ['{', '{'] inner)
    (hhead : inner.rest.head? ≠ some '{') :
    scanSegment a = scanPlaceholder ['}', '}'] .escaped a.offset inner := by
  have ha : a.rest = '{' :: '{' :: inner.rest := hopen.1
  unfold scanSegment
  split
  next hr =>
    rw [ha] at hr
    injection hr with _ hr
    injection hr with _ hr
    exact absurd (congrArg List.head? hr) hhead
  next hr =>
    rw [ha] at hr
    cases hr
    rw [hopen.past_eq]
  next hno => exact absurd ha (hno _)

/-- There is no brace between the opening ones and the key. -/
theorem head?_placeholder (hbefore : IsGap before) (hk : isLegalKey key = true) :
    (before ++ (key.toList ++ rest)).head? ≠ some '{' := by
  cases before with
  | nil =>
    obtain ⟨hne, hkey⟩ := isLegalKey_iff.1 hk
    obtain ⟨c, cs, hcs⟩ := List.exists_cons_of_ne_nil hne
    have hc := hkey c (by simp [hcs])
    rw [hcs]
    intro h
    rw [Option.some_inj.1 h] at hc
    revert hc
    decide
  | cons c before =>
    have hc := hbefore c (List.mem_cons_self ..)
    intro h
    rw [Option.some_inj.1 h] at hc
    revert hc
    decide

/-- **A segment is scanned where it is written and ends.** -/
theorem scanSegment_of_segmentText (hn : segment.IsNormal) (ht : SegmentText segment text)
    (h : a.Reads text b) (hend : segment.EndsAt b.rest) : scanSegment a = .ok (segment, b) := by
  cases ht with
  | literal =>
    obtain ⟨hne, hfree⟩ := hn
    rw [scanSegment_literal h (by rwa [Ne, String.toList_eq_nil_iff]) hfree hend,
      String.ofList_toList]
  | escaped hbefore hafter =>
    obtain ⟨inner, hopen, hinner⟩ := h.split
    have hhead : inner.rest.head? ≠ some '{' := by
      rw [hinner.1, List.append_assoc, List.append_assoc]
      exact head?_placeholder hbefore hn
    rw [scanSegment_escaped hopen hhead]
    exact scanPlaceholder_iff.2 ⟨_, _, _, hbefore, hn, hafter, rfl, hinner⟩
  | raw hbefore hafter =>
    obtain ⟨inner, hopen, hinner⟩ := h.split
    rw [scanSegment_raw hopen]
    exact scanPlaceholder_iff.2 ⟨_, _, _, hbefore, hn, hafter, rfl, hinner⟩

/-- What is scanned is written there, and ends. -/
theorem segmentText_of_scanSegment (hne : a.rest ≠ []) (h : scanSegment a = .ok (segment, b)) :
    segment.IsNormal ∧ segment.EndsAt b.rest ∧
      ∃ text, SegmentText segment text ∧ a.Reads text b := by
  have hliteral (s : List Char) : SegmentText (.literal (String.ofList s)) s := by
    have h := @SegmentText.literal (String.ofList s)
    rwa [String.toList_ofList] at h
  unfold scanSegment at h
  split at h
  next hr =>
    obtain ⟨before, key, after, hbefore, hkey, hafter, rfl, hread⟩ := scanPlaceholder_iff.1 h
    exact ⟨hkey, trivial, _, .raw hbefore hafter, (Cursor.reads_past hr).trans hread⟩
  next hr =>
    obtain ⟨before, key, after, hbefore, hkey, hafter, rfl, hread⟩ := scanPlaceholder_iff.1 h
    exact ⟨hkey, trivial, _, .escaped hbefore hafter, (Cursor.reads_past hr).trans hread⟩
  next _ hescaped =>
    split at h
    next s after hcut =>
      cases h
      obtain ⟨hrest, hfree⟩ := (Text.cut?_eq_some_iff (List.cons_ne_nil _ _)).1 hcut
      obtain ⟨hfree, hlast⟩ := not_isInfix_concat_brace.1 hfree
      have hs : s ≠ [] := by
        rintro rfl
        exact hescaped after hrest
      rw [List.append_assoc] at hrest
      refine ⟨⟨by simpa using hs, by simpa using hfree⟩, .inr ⟨List.prefix_append .., ?_⟩, s,
        hliteral s, Cursor.reads_past hrest⟩
      simpa using hlast
    next hcut =>
      cases h
      have hfree : ¬ ['{', '{'] <:+: a.rest := by
        rw [← Text.occursIn_iff, Text.occursIn, hcut]
        exact Bool.false_ne_true
      exact ⟨⟨by simpa using hne, by simpa using hfree⟩, .inl rfl, a.rest, hliteral a.rest,
        Cursor.reads_finish a⟩

/-! ## All segments -/

theorem scanSegments_of_end (h : a.rest = []) : scanSegments a = .ok [] := by
  rw [scanSegments, dif_pos h]

theorem scanSegments_cons_iff : scanSegments a = .ok (segment :: segments) ↔
    a.rest ≠ [] ∧ ∃ b, scanSegment a = .ok (segment, b) ∧ scanSegments b = .ok segments := by
  rw [scanSegments]
  split
  next h => simp [h]
  next hne =>
    rw [and_iff_right hne]
    split
    next h => simp [h]
    next h =>
      split
      next h' => simp [h, h']
      next h' => simp [h, h']

theorem scanSegments_eq_nil_iff : scanSegments a = .ok [] ↔ a.rest = [] := by
  refine ⟨fun h => ?_, scanSegments_of_end⟩
  by_contra hne
  rw [scanSegments, dif_neg hne] at h
  split at h
  next => cases h
  next => split at h <;> cases h

theorem SegmentText.ne_nil (h : SegmentText segment text) (hn : segment.IsNormal) : text ≠ [] := by
  cases h with
  | literal => exact mt String.toList_eq_nil_iff.1 hn.1
  | escaped | raw => exact List.cons_ne_nil _ _

theorem areNormal_cons_iff : AreNormal (segment :: segments) ↔
    segment.IsNormal ∧ (∀ next ∈ segments.head?, segment.Precedes next) ∧ AreNormal segments := by
  constructor
  · rintro ⟨heach, hchain⟩
    rw [List.forall_mem_cons] at heach
    rw [List.isChain_cons] at hchain
    exact ⟨heach.1, hchain.1, heach.2, hchain.2⟩
  · rintro ⟨hsegment, hnext, heach, hchain⟩
    exact ⟨List.forall_mem_cons.2 ⟨hsegment, heach⟩, List.isChain_cons.2 ⟨hnext, hchain⟩⟩

/-- **A segment ends before the text of the next ones**, exactly if the first of them can come
after it. -/
theorem SegmentsText.endsAt_iff (ht : SegmentsText segments rest) (hn : AreNormal segments) :
    segment.EndsAt rest ↔ ∀ next ∈ segments.head?, segment.Precedes next := by
  induction ht generalizing segment with
  | nil => cases segment <;> simp [Segment.EndsAt]
  | @cons next segments text rest hnext hrest ih =>
    obtain ⟨hnormal, hprecedes, htail⟩ := areNormal_cons_iff.1 hn
    cases segment with
    | escaped | raw => simp [Segment.EndsAt, Segment.Precedes]
    | literal content =>
      have htext := hnext.ne_nil hnormal
      have hne : text ++ rest ≠ [] := fun h => htext (List.append_eq_nil_iff.1 h).1
      have hopens : ['{', '{'] <+: text ++ rest ↔ next.key?.isSome := by
        cases hnext with
        | literal =>
          have hno := not_prefix_literal htext hnormal.2 ((ih htail).2 hprecedes)
          exact iff_of_false hno Bool.false_ne_true
        | escaped => exact iff_of_true ⟨_, rfl⟩ rfl
        | raw => exact iff_of_true ⟨_, rfl⟩ rfl
      simp only [Segment.EndsAt, hne, false_or, hopens, List.head?_cons, Option.mem_some_iff,
        forall_eq', Segment.Precedes]

/-- **What is scanned** are normal segments, and what is read is their text. -/
theorem scanSegments_iff :
    scanSegments a = .ok segments ↔ AreNormal segments ∧ SegmentsText segments a.rest := by
  induction segments generalizing a with
  | nil =>
    rw [scanSegments_eq_nil_iff]
    constructor
    · intro h
      exact ⟨⟨by simp, .nil⟩, h ▸ .nil⟩
    · rintro ⟨-, h⟩
      generalize a.rest = rest at h
      cases h
      rfl
  | cons segment segments ih =>
    rw [scanSegments_cons_iff]
    constructor
    · rintro ⟨hne, b, hsegment, hsegments⟩
      obtain ⟨hnormal, hend, text, htext, hread⟩ := segmentText_of_scanSegment hne hsegment
      obtain ⟨hn, hrest⟩ := ih.1 hsegments
      refine ⟨areNormal_cons_iff.2 ⟨hnormal, (hrest.endsAt_iff hn).1 hend, hn⟩, ?_⟩
      rw [hread.1]
      exact .cons htext hrest
    · rintro ⟨hn, h⟩
      obtain ⟨hnormal, hprecedes, htail⟩ := areNormal_cons_iff.1 hn
      generalize ha : a.rest = whole at h
      cases h with
      | @cons _ _ text rest htext hrest =>
        have hne : text ++ rest ≠ [] := fun h =>
          htext.ne_nil hnormal (List.append_eq_nil_iff.1 h).1
        exact ⟨hne, a.past text rest, scanSegment_of_segmentText hnormal htext
          (Cursor.reads_past ha) ((hrest.endsAt_iff htail).2 hprecedes), ih.2 ⟨htail, hrest⟩⟩

/-! ## Templates -/

theorem parse_eq_ok_iff {source : String} {template : Template} : parse source = .ok template ↔
    AreNormal template.segments ∧ SegmentsText template.segments source.toList := by
  have hstart : (Cursor.ofString source).rest = source.toList := rfl
  rw [← hstart, ← scanSegments_iff, parse]
  cases scanSegments (.ofString source) with
  | ok segments =>
    rw [Except.ok.injEq, Except.ok.injEq]
    exact ⟨fun h => h ▸ rfl, fun h => h ▸ rfl⟩
  | error fault => exact iff_of_false nofun nofun

/-- The report on a placeholder has one of two codes. -/
theorem Fault.exists_code (fault : Fault) : ∃ code, fault.diagnostic.code = some code ∧
    (code.text = "E200" ∨ code.text = "E201") := by
  cases fault with
  | invalidName => exact ⟨_, rfl, .inr rfl⟩
  | unterminated => exact ⟨_, rfl, .inl rfl⟩

/-- **A source is read as a template** exactly if it is the text of normal segments, which are those
of the template. Every source is the text of one list of normal segments only, or there is one
report, on a placeholder that has no legal key or does not end. -/
theorem parse_eq_ok_iff_isWritten (source : String) :
    (∀ template, parse source = .ok template ↔
      AreNormal template.segments ∧ SegmentsText template.segments source.toList) ∧
    ((∃! segments, AreNormal segments ∧ SegmentsText segments source.toList) ∨
      ∃ d code, parse source = .error ⟨[d]⟩ ∧ d.code = some code ∧
        (code.text = "E200" ∨ code.text = "E201")) := by
  refine ⟨fun _ => parse_eq_ok_iff, ?_⟩
  cases h : parse source with
  | ok template =>
    refine .inl ⟨template.segments, parse_eq_ok_iff.1 h, fun segments hsegments => ?_⟩
    have hother : parse source = .ok ⟨segments⟩ := parse_eq_ok_iff.2 hsegments
    rw [h] at hother
    cases hother
    rfl
  | error e =>
    rw [parse] at h
    split at h
    next => cases h
    next fault _ =>
      cases h
      obtain ⟨code, hcode⟩ := fault.exists_code
      exact .inr ⟨_, code, rfl, hcode⟩

end Template

end ComponentMarkup
