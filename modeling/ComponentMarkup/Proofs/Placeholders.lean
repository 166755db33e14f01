/-
  Texts with placeholders as template sources.

  * `Piece`: a literal text, or a placeholder for a key; `Piece.joined`: the text of a list of
    pieces, with a text for each key. `Piece.mark` is a placeholder as it is written.
  * `bracesApart`: every opening brace is followed by another character. Escaping keeps this
    (`bracesApart_escapeText`, `bracesApart_escapeAttribute`).
  * `parse_joined`: written pieces are a template, and rendering it puts the escaped values in the
    place of the placeholders. `parse_rawMark`: a copied value.
-/
import ComponentMarkup.Proofs.Scanning
import ComponentMarkup.Proofs.TemplateGrammar

namespace ComponentMarkup

open Markup (Cursor escapeText escapeAttribute isSpace)

/-! ## Pieces -/

/-- A piece of a text with placeholders. -/
inductive Piece where
  | literal (content : String)
  | placeholder (key : String)
deriving DecidableEq, Repr

namespace Piece

/-- A placeholder as it is written. -/
def mark (key : String) : String := "\x7b\x7b " ++ key ++ " \x7d\x7d"

/-- A placeholder as it is written, for a value that is copied. -/
def rawMark (key : String) : String := "\x7b\x7b\x7b " ++ key ++ " \x7d\x7d\x7d"

/-- The text of a piece, with a text for each key. -/
def text (value : String → String) : Piece → String
  | .literal s => s
  | .placeholder key => value key

/-- The text of a list of pieces. -/
def joined (value : String → String) (pieces : List Piece) : String :=
  String.join (pieces.map (text value))

variable {value : String → String} {pieces more : List Piece}

@[simp] theorem joined_nil : joined value [] = "" := rfl

@[simp] theorem joined_cons {piece : Piece} :
    joined value (piece :: pieces) = piece.text value ++ joined value pieces := by
  simp [joined]

@[simp] theorem joined_append :
    joined value (pieces ++ more) = joined value pieces ++ joined value more := by
  simp [joined]

end Piece

/-! ## Opening braces -/

/-- Every opening brace is followed by another character. -/
def bracesApart : List Char → Bool
  | [] => true
  | c :: cs => (c != '{' || cs.head?.any (· != '{')) && bracesApart cs

section
variable {s t : List Char}

theorem bracesApart_cons {c : Char} : bracesApart (c :: s) = true ↔
    (c = '{' → ∃ d ∈ s.head?, d ≠ '{') ∧ bracesApart s = true := by
  simp [bracesApart, Option.any_eq_true, Decidable.imp_iff_not_or]

theorem bracesApart_of_not_mem (h : '{' ∉ s) : bracesApart s = true := by
  induction s with
  | nil => rfl
  | cons c cs ih =>
    rw [List.mem_cons, not_or] at h
    exact bracesApart_cons.2 ⟨fun hc => absurd hc.symm h.1, ih h.2⟩

theorem bracesApart_append (hs : bracesApart s = true) (ht : bracesApart t = true) :
    bracesApart (s ++ t) = true := by
  induction s with
  | nil => exact ht
  | cons c cs ih =>
    obtain ⟨hc, hcs⟩ := bracesApart_cons.1 hs
    refine bracesApart_cons.2 ⟨fun he => ?_, ih hcs⟩
    obtain ⟨d, hd, hne⟩ := hc he
    exact ⟨d, by simp [List.head?_append, Option.mem_def.1 hd], hne⟩

/-- No placeholder begins in the text, and none at its end that goes on after it. -/
theorem not_isInfix_of_bracesApart (h : bracesApart s = true) : ¬ ['{', '{'] <:+: s ++ ['{'] := by
  induction s with
  | nil => decide
  | cons c cs ih =>
    obtain ⟨hc, hcs⟩ := bracesApart_cons.1 h
    rw [List.cons_append, List.infix_cons_iff, not_or]
    refine ⟨?_, ih hcs⟩
    rintro ⟨rest, hr⟩
    injection hr with hbrace hrest
    obtain ⟨d, hd, hne⟩ := hc hbrace.symm
    obtain ⟨ds, rfl⟩ : ∃ ds, cs = d :: ds := List.head?_eq_some_iff.1 hd
    injection hrest with hd' _
    exact hne hd'.symm

end

/-- Text in which no placeholder begins, whatever comes after it. -/
def isBraceSafe (s : String) : Bool :=
  !Text.occursIn ['{', '{'] s.toList && s.toList.getLast? != some '{'

theorem bracesApart_of_isBraceSafe {s : String} (h : isBraceSafe s = true) :
    bracesApart s.toList = true := by
  simp only [isBraceSafe, Bool.and_eq_true, Bool.not_eq_true', bne_iff_ne] at h
  obtain ⟨hnone, hlast⟩ := h
  rw [← Bool.not_eq_true, Text.occursIn_iff] at hnone
  generalize s.toList = cs at hnone hlast
  induction cs with
  | nil => rfl
  | cons c cs ih =>
    cases cs with
    | nil =>
      refine bracesApart_cons.2 ⟨fun he => ?_, rfl⟩
      exact absurd (by rw [he]; rfl) hlast
    | cons d ds =>
      refine bracesApart_cons.2 ⟨fun he => ⟨d, rfl, fun hd => hnone ?_⟩, ih ?_ ?_⟩
      · exact ⟨[], ds, by rw [he, hd]; rfl⟩
      · exact fun h => hnone (h.trans (List.suffix_cons _ _).isInfix)
      · rwa [List.getLast?_cons_cons] at hlast

/-! ## Escaping and braces -/

theorem bracesApart_flatMap {form : Char → List Char} {s : List Char} (hbrace : form '{' = ['{'])
    (hform : ∀ c, c ≠ '{' → form c ≠ [] ∧ '{' ∉ form c) (h : bracesApart s = true) :
    bracesApart (s.flatMap form) = true := by
  induction s with
  | nil => rfl
  | cons c cs ih =>
    obtain ⟨hc, hcs⟩ := bracesApart_cons.1 h
    rw [List.flatMap_cons]
    by_cases hb : c = '{'
    · obtain ⟨d, hd, hne⟩ := hc hb
      obtain ⟨ds, rfl⟩ : ∃ ds, cs = d :: ds := List.head?_eq_some_iff.1 hd
      obtain ⟨e, es, he⟩ := List.exists_cons_of_ne_nil (hform d hne).1
      rw [hb, hbrace]
      refine bracesApart_cons.2 ⟨fun _ => ⟨e, by rw [List.flatMap_cons, he]; rfl, fun hee => ?_⟩,
        ih hcs⟩
      exact (hform d hne).2 (by rw [he, hee]; exact List.mem_cons_self ..)
    · exact bracesApart_append (bracesApart_of_not_mem (hform c hb).2) (ih hcs)

theorem brace_not_mem_textForm {c : Char} (h : c ≠ '{') :
    Markup.textForm c ≠ [] ∧ '{' ∉ Markup.textForm c := by
  unfold Markup.textForm
  split
  · decide
  · decide
  · decide
  · exact ⟨by simp, by simpa using h.symm⟩

theorem brace_not_mem_attributeForm {c : Char} (h : c ≠ '{') :
    Markup.attributeForm c ≠ [] ∧ '{' ∉ Markup.attributeForm c := by
  unfold Markup.attributeForm
  split
  · decide
  · exact brace_not_mem_textForm h

theorem bracesApart_escapeText {s : String} (h : bracesApart s.toList = true) :
    bracesApart (escapeText s).toList = true := by
  rw [escapeText, String.toList_ofList]
  exact bracesApart_flatMap rfl (fun _ => brace_not_mem_textForm) h

theorem bracesApart_escapeAttribute {s : String} (h : bracesApart s.toList = true) :
    bracesApart (escapeAttribute s).toList = true := by
  rw [escapeAttribute, String.toList_ofList]
  exact bracesApart_flatMap rfl (fun _ => brace_not_mem_attributeForm) h

/-! ## Reading templates -/

namespace Template

section
variable {a b : Cursor} {s : List Char} {key : String} {segment : Segment}
  {segments : List Segment}

theorem isGap_space : Markup.IsGap [' '] := by
  simp [Markup.IsGap]
  decide

theorem scanSegments_cons (ha : a.rest ≠ []) (hs : scanSegment a = .ok (segment, b))
    (hb : scanSegments b = .ok segments) : scanSegments a = .ok (segment :: segments) :=
  scanSegments_cons_iff.2 ⟨ha, b, hs, hb⟩

/-- Literal text is read up to the next placeholder or the end. -/
theorem scanSegment_apart (h : a.Reads s b) (hs : s ≠ []) (hapart : bracesApart s = true)
    (hb : b.rest = [] ∨ ['{', '{'] <+: b.rest) :
    scanSegment a = .ok (.literal (String.ofList s), b) := by
  obtain ⟨hfree, hlast⟩ := not_isInfix_concat_brace.1 (not_isInfix_of_bracesApart hapart)
  exact scanSegment_literal h hs hfree (hb.imp_right fun hopens => ⟨hopens, hlast⟩)

theorem scanSegment_mark (hk : isLegalKey key = true) (h : a.Reads (Piece.mark key).toList b) :
    scanSegment a = .ok (.escaped key, b) := by
  have hmark : (Piece.mark key).toList =
      ['{', '{'] ++ ([' '] ++ (key.toList ++ ([' '] ++ ['}', '}']))) := by
    simp [Piece.mark]
  rw [hmark] at h
  exact scanSegment_of_segmentText hk (.escaped isGap_space isGap_space) h trivial

theorem scanSegment_rawMark (hk : isLegalKey key = true)
    (h : a.Reads (Piece.rawMark key).toList b) : scanSegment a = .ok (.raw key, b) := by
  have hmark : (Piece.rawMark key).toList =
      ['{', '{', '{'] ++ ([' '] ++ (key.toList ++ ([' '] ++ ['}', '}', '}']))) := by
    simp [Piece.rawMark]
  rw [hmark] at h
  exact scanSegment_of_segmentText hk (.raw isGap_space isGap_space) h trivial

end

/-! ## Pieces as templates -/

/-- A literal in which no placeholder begins, or a placeholder with a legal key. -/
def IsWritable : Piece → Prop
  | .literal s => bracesApart s.toList = true
  | .placeholder key => isLegalKey key = true

/-- The value of a key as it is put into a text. -/
def escapedValue (lookup : String → Option String) (key : String) : String :=
  escapeAttribute ((lookup key).getD "")

theorem renderSegment_escaped (lookup : String → Option String) (key : String) :
    renderSegment lookup (.escaped key) = escapedValue lookup key := by
  rw [renderSegment, escapedValue]
  cases lookup key <;> rfl

theorem render_cons {lookup : String → Option String} {segment : Segment}
    {segments : List Segment} : render ⟨segment :: segments⟩ lookup =
      renderSegment lookup segment ++ render ⟨segments⟩ lookup := by
  simp [render]

/-- Text before a placeholder, which may be empty, is a segment of its own or none. -/
theorem exists_scanSegments_append {a opening : Cursor} {pending : List Char}
    {segments : List Segment} (hs : bracesApart pending = true) (h : a.Reads pending opening)
    (hstart : ['{', '{'] <+: opening.rest) (hscan : scanSegments opening = .ok segments) :
    ∃ more, scanSegments a = .ok more ∧ ∀ lookup, render ⟨more⟩ lookup =
      String.ofList pending ++ render ⟨segments⟩ lookup := by
  by_cases hne : pending = []
  · subst hne
    obtain rfl := (Cursor.Reads.refl a).unique h
    exact ⟨_, hscan, fun lookup => String.empty_append.symm⟩
  · have ha : a.rest ≠ [] := by
      rw [h.1]
      exact fun hnil => hne (List.append_eq_nil_iff.1 hnil).1
    exact ⟨_, scanSegments_cons ha (scanSegment_apart h hne hs (.inr hstart)) hscan,
      fun lookup => render_cons⟩

/-- The text that has been read but not yet put into a segment is `pending`. -/
theorem scanSegments_joined {pieces : List Piece} (hp : ∀ piece ∈ pieces, IsWritable piece)
    {a : Cursor} {pending : List Char} (hs : bracesApart pending = true)
    (ha : a.rest = pending ++ (Piece.joined Piece.mark pieces).toList) :
    ∃ segments, scanSegments a = .ok segments ∧ ∀ lookup, render ⟨segments⟩ lookup =
      String.ofList pending ++ Piece.joined (escapedValue lookup) pieces := by
  induction pieces generalizing a pending with
  | nil =>
    rw [Piece.joined_nil, String.toList_empty, List.append_nil] at ha
    by_cases hne : pending = []
    · exact ⟨[], scanSegments_of_end (ha.trans hne), fun lookup => by rw [hne]; rfl⟩
    · have hread := Cursor.reads_finish a
      rw [ha] at hread
      refine ⟨[_], scanSegments_cons (by rwa [ha]) (scanSegment_apart hread hne hs (.inl rfl))
        (scanSegments_of_end rfl), fun lookup => ?_⟩
      simp [render, renderSegment]
  | cons piece rest ih =>
    rw [List.forall_mem_cons] at hp
    rw [Piece.joined_cons, String.toList_append] at ha
    cases piece with
    | literal s =>
      obtain ⟨segments, hscan, hrender⟩ := ih hp.2 (bracesApart_append hs hp.1)
        (ha.trans (List.append_assoc ..).symm)
      refine ⟨segments, hscan, fun lookup => ?_⟩
      rw [hrender, Piece.joined_cons, String.ofList_append, String.ofList_toList,
        String.append_assoc]
      rfl
    | placeholder key =>
      have hall := Cursor.reads_finish a
      rw [ha] at hall
      obtain ⟨opening, hpending, hall⟩ := hall.split
      obtain ⟨next, hmark, hrest⟩ := hall.split
      have hstart : ['{', '{'] <+: opening.rest := ⟨_, by
        rw [hmark.1, Piece.text, Piece.mark, String.toList_append, String.toList_append,
          List.append_assoc, List.append_assoc]
        rfl⟩
      have hopening : opening.rest ≠ [] := fun hnil => by simp [hnil] at hstart
      obtain ⟨segments, hscan, hrender⟩ := ih hp.2 (rfl : bracesApart [] = true)
        (hrest.1.trans (List.append_nil _))
      have hescaped := scanSegments_cons hopening (scanSegment_mark hp.1 hmark) hscan
      obtain ⟨more, hmore, hvalue⟩ := exists_scanSegments_append hs hpending hstart hescaped
      refine ⟨more, hmore, fun lookup => ?_⟩
      rw [hvalue, render_cons, renderSegment_escaped, hrender, Piece.joined_cons]
      rfl

/-- **Pieces that are written out are a template of them.** -/
theorem parse_joined {pieces : List Piece} (hp : ∀ piece ∈ pieces, IsWritable piece) :
    ∃ template, parse (Piece.joined Piece.mark pieces) = .ok template ∧
      ∀ lookup, template.render lookup = Piece.joined (escapedValue lookup) pieces := by
  have hstart : (Cursor.ofString (Piece.joined Piece.mark pieces)).rest =
      [] ++ (Piece.joined Piece.mark pieces).toList := rfl
  obtain ⟨segments, hscan, hrender⟩ := scanSegments_joined hp rfl hstart
  refine ⟨⟨segments⟩, ?_, fun lookup => (hrender lookup).trans String.empty_append⟩
  rw [parse, hscan]

/-- A text in which no placeholder begins is a template of itself. -/
theorem parse_literal {source : String} (h : bracesApart source.toList = true) :
    ∃ template, parse source = .ok template ∧ ∀ lookup, template.render lookup = source := by
  have hp : ∀ piece ∈ [Piece.literal source], IsWritable piece := by simpa [IsWritable] using h
  have hjoined : ∀ value, Piece.joined value [.literal source] = source := fun value => by
    rw [Piece.joined_cons, Piece.joined_nil, String.append_empty, Piece.text]
  obtain ⟨template, ht, hrender⟩ := parse_joined hp
  rw [hjoined] at ht
  exact ⟨template, ht, fun lookup => (hrender lookup).trans (hjoined _)⟩

/-- **A value is copied between two texts** in which no placeholder begins. -/
theorem parse_rawMark {key before after : String} (hk : isLegalKey key = true)
    (hb : bracesApart before.toList = true) (ha : bracesApart after.toList = true) :
    ∃ template, parse (before ++ (Piece.rawMark key ++ after)) = .ok template ∧
      ∀ lookup, template.render lookup = before ++ ((lookup key).getD "" ++ after) := by
  have hread := Cursor.reads_finish (.ofString (before ++ (Piece.rawMark key ++ after)))
  have hsource : (Cursor.ofString (before ++ (Piece.rawMark key ++ after))).rest =
      before.toList ++ ((Piece.rawMark key).toList ++ after.toList) := by
    simp [Cursor.ofString]
  rw [hsource] at hread
  obtain ⟨opening, hbefore, h⟩ := hread.split
  obtain ⟨next, hmark, hafter⟩ := h.split
  have hrest : next.rest = after.toList ++ (Piece.joined Piece.mark []).toList := hafter.1
  have hstart : ['{', '{'] <+: opening.rest :=
    ⟨'{' :: ([' '] ++ (key.toList ++ ([' '] ++ ['}', '}', '}'])) ++ next.rest), by
      rw [hmark.1]; simp [Piece.rawMark]⟩
  have hopening : opening.rest ≠ [] := fun hnil => by simp [hnil] at hstart
  have hnone : ∀ piece ∈ ([] : List Piece), IsWritable piece := by simp
  obtain ⟨segments, hscan, hrender⟩ := scanSegments_joined hnone ha hrest
  obtain ⟨more, hmore, hvalue⟩ := exists_scanSegments_append hb hbefore hstart
    (scanSegments_cons hopening (scanSegment_rawMark hk hmark) hscan)
  refine ⟨⟨more⟩, by rw [parse, hmore], fun lookup => ?_⟩
  rw [hvalue, render_cons, hrender, String.ofList_toList, String.ofList_toList, Piece.joined_nil,
    String.append_empty]
  rfl

end Template

end ComponentMarkup
