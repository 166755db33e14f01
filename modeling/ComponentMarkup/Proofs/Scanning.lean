/-
  Tokens of written markup.

  * `QuotedAttribute`: an attribute with its value between quotes; such attributes are a case of how
    attributes are written (`exists_attributesText`).
  * `scanToken_startTag`, `scanToken_endTag`: the tag that comes next; `scanBody?_eq`: the raw body
    that comes next.
-/
import ComponentMarkup.Proofs.Escaping
import ComponentMarkup.Proofs.WrittenTokens

namespace ComponentMarkup.Markup

/-! ## Attributes -/

/-- An attribute with its value between quotes. -/
structure QuotedAttribute where
  name : String
  quote : Char
  /-- The value as written. -/
  written : List Char

namespace QuotedAttribute

/-- The attribute as it is written, with a space before it. -/
def text (attr : QuotedAttribute) : List Char :=
  ' ' :: (attr.name.toList ++ ('=' :: attr.quote :: (attr.written ++ [attr.quote])))

/-- The name, and the value decoded. -/
def entry (attr : QuotedAttribute) : String × String :=
  (attr.name, String.ofList (decodeReferences attr.written))

/-- A legal name, and a value that does not hold the quotes around it. -/
def IsLegal (attr : QuotedAttribute) : Prop :=
  isLegalKey attr.name = true ∧ (attr.quote = '"' ∨ attr.quote = '\'') ∧ attr.quote ∉ attr.written

end QuotedAttribute

/-- The name of a read attribute and its value. -/
def TagAttribute.entry (attr : TagAttribute) : String × String := (attr.name, attr.value)

/-- Attributes with quoted values are attributes as they are written. -/
theorem exists_attributesText {attrs : List QuotedAttribute} (hl : ∀ attr ∈ attrs, attr.IsLegal)
    (next : Option Char) (start : Nat) :
    ∃ read, AttributesText next start read (attrs.flatMap QuotedAttribute.text) ∧
      read.map TagAttribute.entry = attrs.map QuotedAttribute.entry := by
  induction attrs generalizing start with
  | nil => exact ⟨[], .nil, rfl⟩
  | cons attr rest ih =>
    rw [List.forall_mem_cons] at hl
    obtain ⟨⟨hkey, hquote, hfree⟩, hrest⟩ := hl
    have htext : (attr :: rest).flatMap QuotedAttribute.text =
        [' '] ++ ((attr.name.toList ++
          ([] ++ '=' :: ([] ++ attr.quote :: (attr.written ++ [attr.quote])))) ++
            rest.flatMap QuotedAttribute.text) := by
      simp [QuotedAttribute.text]
    have hspace : IsGap [' '] := by simp [IsGap]; decide
    have hnone : IsGap [] := by simp [IsGap]
    obtain ⟨read, hread, he⟩ := ih hrest _
    rw [htext]
    refine ⟨_, .cons (by simp) hspace
      (.assigned hkey (.mk hnone hnone (.quoted hquote hfree))) hread, ?_⟩
    rw [List.map_cons, List.map_cons, he]
    rfl

/-! ## Tokens -/

/-- A start tag as it is written. -/
def startTagText (name : String) (attrs : List QuotedAttribute) : List Char :=
  '<' :: (name.toList ++ (attrs.flatMap QuotedAttribute.text ++ ['>']))

/-- An end tag as it is written. -/
def endTagText (name : String) : List Char := ['<', '/'] ++ (name.toList ++ ['>'])

section
variable {a b : Cursor} {name : String} {attrs : List QuotedAttribute}

/-- A start tag with legal attributes, whether or not it closes itself. -/
theorem scanToken_tag (selfClosing : Bool) (hn : isLegalName name = true)
    (hl : ∀ attr ∈ attrs, attr.IsLegal)
    (h : a.Reads ('<' :: (name.toList ++
      (attrs.flatMap QuotedAttribute.text ++ startTagEnd selfClosing))) b) :
    ∃ read, scanToken a = .ok (.startTag name read selfClosing, b) ∧
      read.map TagAttribute.entry = attrs.map QuotedAttribute.entry := by
  have hnone : IsGap [] := by simp [IsGap]
  obtain ⟨read, hread, he⟩ := exists_attributesText hl _ _
  exact ⟨read, scanToken_of_tokenText h (.startTag hn hread hnone), he⟩

theorem scanToken_startTag (hn : isLegalName name = true) (hl : ∀ attr ∈ attrs, attr.IsLegal)
    (h : a.Reads (startTagText name attrs) b) :
    ∃ read, scanToken a = .ok (.startTag name read false, b) ∧
      read.map TagAttribute.entry = attrs.map QuotedAttribute.entry :=
  scanToken_tag false hn hl h

theorem scanToken_endTag (hn : isLegalName name = true) (h : a.Reads (endTagText name) b) :
    scanToken a = .ok (.endTag name, b) := by
  have hnone : IsGap [] := by simp [IsGap]
  exact scanToken_of_tokenText h (.endTag hn hnone)

end

/-! ## Raw bodies -/

/-- Only capitals become small letters. -/
theorem eq_of_toLower_eq {c d : Char} (h : c.toLower = d)
    (hd : ¬ ('a'.val ≤ d.val ∧ d.val ≤ 'z'.val)) : c = d := by
  subst h
  rcases Text.toLower_eq_self_or c with h | ⟨n, hn, rfl⟩
  · exact h.symm
  · revert n
    decide

theorem splitBefore_eq {opening tail close body rest : List Char} (ho : opening = '<' :: tail)
    (hlt : '<' ∉ tail) (hclose : close.map Char.toLower = opening)
    (hfree : ¬ opening <:+: body.map Char.toLower) :
    splitBefore opening (body ++ (close ++ rest)) = (body, close ++ rest) := by
  have hlen : opening.length = close.length := by rw [← hclose, List.length_map]
  induction body with
  | nil =>
    cases close with
    | nil => simp [ho] at hclose
    | cons c cs =>
      rw [List.nil_append, List.cons_append, splitBefore, ← List.cons_append, hlen,
        List.take_left, hclose, if_pos BEq.rfl]
  | cons d ds ih =>
    have hne : ¬ (((d :: (ds ++ (close ++ rest))).take opening.length).map Char.toLower ==
        opening) = true := by
      rw [beq_iff_eq]
      intro he
      have : opening ++ ((d :: (ds ++ (close ++ rest))).drop opening.length).map Char.toLower =
          (d :: ds).map Char.toLower ++ (opening ++ rest.map Char.toLower) := by
        conv => lhs; lhs; rw [← he]
        rw [← List.map_append, List.take_append_drop]
        simp [hclose]
      rcases List.append_eq_append_iff.1 this with ⟨r, hb, -⟩ | ⟨r, hb, hr⟩
      · exact hfree ⟨[], r, by rw [List.nil_append, hb]⟩
      · cases r with
        | nil => exact hfree ⟨[], [], by simpa using hb⟩
        | cons c cs =>
          rw [ho, List.cons_append] at hr
          rw [ho, List.map_cons, List.cons_append] at hb
          injection hr with hc _
          injection hb with _ htail
          exact hlt (by rw [htail, ← hc]; simp)
    rw [List.cons_append, splitBefore, if_neg hne, ih fun h => hfree (h.trans ?_)]
    exact (List.suffix_cons _ _).isInfix

theorem lt_not_mem_lowered {name : String} (hn : isLegalName name = true) :
    '<' ∉ '/' :: (Text.asciiLower name).toList := by
  obtain ⟨_, _, -, -, hall⟩ := isLegalName_iff.1 hn
  rw [Text.asciiLower, String.toList_ofList, List.mem_cons, List.mem_map]
  rintro (h | ⟨c, hc, hlow⟩)
  · cases h
  · rw [eq_of_toLower_eq hlow (by decide)] at hc
    exact absurd (hall _ hc) (by decide)

section
variable {a b : Cursor} {name : String} {body : List Char} {attributes : List TagAttribute}

theorem splitBefore_endTag {rest : List Char} (hn : isLegalName name = true)
    (hbody : isRawBody name (String.ofList body) = true) :
    splitBefore (['<', '/'] ++ (Text.asciiLower name).toList)
        (body ++ (endTagText name ++ rest)) = (body, endTagText name ++ rest) := by
  rw [isRawBody, Bool.not_eq_true', ← Bool.not_eq_true, Text.occursIn_iff, Text.asciiLower,
    Text.asciiLower, String.toList_ofList, String.toList_ofList, String.toList_ofList] at hbody
  have htext : endTagText name ++ rest = (['<', '/'] ++ name.toList) ++ ('>' :: rest) := by
    simp [endTagText]
  rw [htext]
  refine splitBefore_eq rfl (lt_not_mem_lowered hn) ?_ ?_
  · rw [List.map_append, Text.asciiLower, String.toList_ofList]; rfl
  · rwa [Text.asciiLower, String.toList_ofList]

/-- A raw body is not empty and comes after a start tag of its element. -/
theorem startTag_of_scanBody? {token : Token} (h : scanBody? token a = some (body, b)) :
    ∃ name attributes, token = .startTag name attributes false ∧ isRawName name = true ∧
      body ≠ [] := by
  unfold scanBody? at h
  split at h
  next name attributes =>
    split at h
    next hraw =>
      split at h
      · cases h
      next hne _ => cases h; exact ⟨name, attributes, rfl, hraw, fun he => hne he⟩
    next => cases h
  next => cases h

/-- The body that comes next, before the end tag of its element. -/
theorem scanBody?_eq (hn : isLegalName name = true) (hraw : isRawName name = true)
    (hbody : isRawBody name (String.ofList body) = true) (h : a.Reads body b)
    (hb : endTagText name <+: b.rest) :
    scanBody? (.startTag name attributes false) a = if body = [] then none else some (body, b) := by
  obtain ⟨rest, hrest⟩ := hb
  rw [scanBody?, if_pos hraw, h.1, ← hrest, splitBefore_endTag hn hbody]
  cases body with
  | nil => rfl
  | cons c cs => rw [hrest, if_neg (by simp)]; simp only; rw [h.past_eq]

end

end ComponentMarkup.Markup
