/-
  The ways to spell a start tag.

  An attribute can be written with its value between double quotes, between single quotes or without
  quotes, and without any value if that is empty. Spaces are free before each attribute, around `=`
  and before the end of the tag.

  * `valueForm`: a character of a value, with some characters written as references.
  * `Spelling`: how one attribute is written; `Spelling.Fits` tells which values can be written so.
  * `exists_attributesText_spelled`: spelled attributes are attributes as they are written.
  * `scanToken_spelledTag`: however a start tag is spelled, it is read up to its end, as the tag with
    its attributes in order.
-/
import ComponentMarkup.Proofs.SourceTiling

namespace ComponentMarkup.Markup

/-! ## Values -/

/-- A character as it is written in a value: those that are `escaped` as references, the others as
they are. -/
def valueForm (escaped : List Char) (c : Char) : List Char :=
  if c ∈ escaped then
    if c = '\'' then ['&', 'a', 'p', 'o', 's', ';'] else attributeForm c
  else [c]

section
variable {escaped : List Char} {quote c : Char}

theorem encodes_valueForm (h : '&' ∈ escaped) (c : Char) : Encodes (valueForm escaped c) [c] := by
  intro rest
  unfold valueForm
  split
  · split
    next hc => rw [hc]; exact decodeReferences_reference rfl
    next => exact decodeReferences_attributeForm c rest
  next hc =>
    have hne : c ≠ '&' := fun he => hc (he ▸ h)
    exact decodeReferences_cons_of_ne hne

/-- An escaped quote does not end the value. -/
theorem quote_not_mem_valueForm (hquote : quote = '"' ∨ quote = '\'') (h : quote ∈ escaped)
    (c : Char) : quote ∉ valueForm escaped c := by
  unfold valueForm
  split
  · split
    next => rcases hquote with rfl | rfl <;> decide
    next hc =>
      rcases hquote with rfl | rfl
      · exact quote_not_mem_attributeForm c
      · rwa [single_mem_attributeForm_iff]
  next hc =>
    rw [List.mem_singleton]
    rintro rfl
    exact hc h

/-- A character that can stand without quotes can be written as a reference without quotes, too. -/
theorem isBareChar_valueForm (hc : isBareChar c = true) :
    ∀ d ∈ valueForm escaped c, isBareChar d = true := by
  have single : ∀ d ∈ [c], isBareChar d = true := by simpa using hc
  unfold valueForm
  split
  · split
    next => exact List.all_eq_true.mp (by decide)
    next =>
      unfold attributeForm textForm
      split
      · exact List.all_eq_true.mp (by decide)
      · split
        · exact List.all_eq_true.mp (by decide)
        · exact List.all_eq_true.mp (by decide)
        · exact List.all_eq_true.mp (by decide)
        · exact single
  · exact single

end

/-! ## Attributes -/

/-- How an attribute is written after its name. -/
inductive Spelling where
  /-- Without a value. -/
  | plain
  /-- With `=`, which has spaces before and after it, and with a value between quotes or without
  quotes, in which the characters in `escaped` are written as references. -/
  | assigned (before after : List Char) (quote : Option Char) (escaped : List Char)
deriving DecidableEq, Repr

namespace Spelling

/-- What is written for a value. -/
def text (value : String) : Spelling → List Char
  | .plain => []
  | .assigned before after quote escaped =>
    before ++ '=' :: (after ++
      (quote.toList ++ (value.toList.flatMap (valueForm escaped) ++ quote.toList)))

/-- Whether the value stands without quotes. -/
def isBare : Spelling → Bool
  | .assigned _ _ none _ => true
  | _ => false

/-- A value that can be written so. `&` is always escaped, and so are the quotes around the
value. -/
inductive Fits (value : String) : Spelling → Prop
  | plain : value = "" → Fits value .plain
  | quoted {before after quote escaped} : IsGap before → IsGap after →
      quote = '"' ∨ quote = '\'' → '&' ∈ escaped → quote ∈ escaped →
      Fits value (.assigned before after (some quote) escaped)
  | bare {before after escaped} : IsGap before → IsGap after → value ≠ "" →
      (∀ c ∈ value.toList, isBareChar c = true) → '&' ∈ escaped →
      Fits value (.assigned before after none escaped)

end Spelling

/-- An attribute with the spaces before it and the way in which it is written. -/
structure SpelledAttribute where
  gap : List Char
  key : String
  value : String
  spelling : Spelling
deriving DecidableEq, Repr

namespace SpelledAttribute

/-- The attribute as it is written. -/
def text (attr : SpelledAttribute) : List Char :=
  attr.gap ++ (attr.key.toList ++ attr.spelling.text attr.value)

/-- The name and the value. -/
def entry (attr : SpelledAttribute) : String × String := (attr.key, attr.value)

/-- Spaces before a legal name, and a value that can be written as the spelling says. -/
structure IsLegal (attr : SpelledAttribute) : Prop where
  gap_ne_nil : attr.gap ≠ []
  isGap : IsGap attr.gap
  isLegalKey : isLegalKey attr.key = true
  fits : attr.spelling.Fits attr.value

end SpelledAttribute

section
variable {attr : SpelledAttribute} {attrs : List SpelledAttribute} {next : Option Char}
  {value : String} {spelling : Spelling}

/-- A value is written in characters that decode to it. -/
theorem encodes_value {escaped : List Char} (h : '&' ∈ escaped) (value : String) :
    Encodes (value.toList.flatMap (valueForm escaped)) value.toList :=
  encodes_flatMap (encodes_valueForm h) value.toList

/-- A value that fits its spelling is written as values are. A value without quotes needs a
character after it that does not go on with it. -/
theorem Spelling.Fits.assignmentText {before after escaped : List Char} {quote : Option Char}
    (h : Fits value (.assigned before after quote escaped)) (next : Option Char)
    (hnext : quote = none → ∀ c ∈ next, isBareChar c = false) :
    AssignmentText next (value.toList.flatMap (valueForm escaped))
        (text value (.assigned before after quote escaped)) ∧ '&' ∈ escaped := by
  cases h with
  | quoted hbefore hafter hquote hamp hmem =>
    refine ⟨.mk hbefore hafter (.quoted hquote ?_), hamp⟩
    rw [List.mem_flatMap]
    rintro ⟨c, -, hc⟩
    exact quote_not_mem_valueForm hquote hmem c hc
  | bare hbefore hafter hne hall hamp =>
    have hwritten : text value (.assigned before after none escaped) =
        before ++ '=' :: (after ++ value.toList.flatMap (valueForm escaped)) := by
      simp [text]
    rw [hwritten]
    refine ⟨.mk hbefore hafter (.bare ?_ ?_ (hnext rfl)), hamp⟩
    · intro hnil
      have hdecode := (encodes_value hamp value).decode
      rw [hnil, decodeReferences_nil] at hdecode
      exact hne (String.toList_eq_nil_iff.1 hdecode.symm)
    · intro d hd
      obtain ⟨c, hc, hd⟩ := List.mem_flatMap.1 hd
      exact isBareChar_valueForm (hall c hc) d hd

/-- **A spelled attribute is an attribute as it is written.** -/
theorem SpelledAttribute.IsLegal.exists_attributeText (h : attr.IsLegal)
    (hnext : attr.spelling.isBare = true → ∀ c ∈ next, isBareChar c = false) (start : Nat) :
    ∃ read : TagAttribute, read.entry = attr.entry ∧
      AttributeText next start read (attr.key.toList ++ attr.spelling.text attr.value) := by
  obtain ⟨gap, key, value, spelling⟩ := attr
  have hkey : ComponentMarkup.isLegalKey key = true := h.isLegalKey
  have hfits : spelling.Fits value := h.fits
  cases spelling with
  | plain =>
    cases hfits with
    | plain hvalue =>
      subst hvalue
      refine ⟨⟨key, "", .between start (start + utf8Length key.toList)⟩, rfl, ?_⟩
      rw [Spelling.text, List.append_nil]
      exact .plain hkey
  | assigned before after quote escaped =>
    obtain ⟨htext, hamp⟩ := hfits.assignmentText next fun he => hnext (by rw [he]; rfl)
    refine ⟨_, ?_, .assigned hkey htext⟩
    rw [TagAttribute.entry, (encodes_value hamp value).decode, String.ofList_toList]
    rfl

/-- What comes next after an attribute is a space before the next one, or what comes next after all
of them. -/
theorem head?_flatMap_text (hattrs : ∀ attr ∈ attrs, attr.IsLegal) (next : Option Char) :
    (attrs = [] ∧ (attrs.flatMap SpelledAttribute.text).head?.or next = next) ∨
      ∃ c, (attrs.flatMap SpelledAttribute.text).head?.or next = some c ∧ isSpace c = true := by
  cases attrs with
  | nil => exact .inl ⟨rfl, rfl⟩
  | cons attr rest =>
    have hattr := hattrs attr (List.mem_cons_self ..)
    obtain ⟨c, cs, hgap⟩ := List.exists_cons_of_ne_nil hattr.gap_ne_nil
    refine .inr ⟨c, ?_, hattr.isGap c (by rw [hgap]; exact List.mem_cons_self ..)⟩
    rw [List.flatMap_cons, SpelledAttribute.text, hgap]
    rfl

/-- **Spelled attributes are attributes as they are written**, if what comes next does not go on with
a value without quotes at their end. -/
theorem exists_attributesText_spelled (hattrs : ∀ attr ∈ attrs, attr.IsLegal)
    (hlast : ∀ attr ∈ attrs.getLast?, attr.spelling.isBare = true →
      ∀ c ∈ next, isBareChar c = false) (start : Nat) :
    ∃ read, read.map TagAttribute.entry = attrs.map SpelledAttribute.entry ∧
      AttributesText next start read (attrs.flatMap SpelledAttribute.text) := by
  induction attrs generalizing start with
  | nil => exact ⟨[], rfl, .nil⟩
  | cons attr rest ih =>
    rw [List.forall_mem_cons] at hattrs
    obtain ⟨hattr, hrest⟩ := hattrs
    have hlast' : ∀ other ∈ rest.getLast?, other.spelling.isBare = true →
        ∀ c ∈ next, isBareChar c = false := by
      intro other hother
      refine hlast other ?_
      rw [List.getLast?_cons, hother]
      rfl
    have hnext : attr.spelling.isBare = true →
        ∀ c ∈ (rest.flatMap SpelledAttribute.text).head?.or next, isBareChar c = false := by
      intro hbare
      rcases head?_flatMap_text hrest next with ⟨rfl, he⟩ | ⟨c, he, hspace⟩
      · rw [he]
        exact hlast attr rfl hbare
      · rw [he]
        rintro _ ⟨⟩
        exact isBareChar_of_isSpace hspace
    obtain ⟨read, hentry, htext⟩ := hattr.exists_attributeText hnext (start + utf8Length attr.gap)
    obtain ⟨more, hentries, htexts⟩ := ih hrest hlast' (start + utf8Length attr.gap +
      utf8Length (attr.key.toList ++ attr.spelling.text attr.value))
    refine ⟨read :: more, by rw [List.map_cons, List.map_cons, hentry, hentries], ?_⟩
    rw [List.flatMap_cons, SpelledAttribute.text, List.append_assoc]
    exact .cons hattr.gap_ne_nil hattr.isGap htext htexts

end

/-! ## Tags -/

/-- A start tag as it is spelled. -/
def spelledTag (name : String) (attrs : List SpelledAttribute) (gap : List Char)
    (selfClosing : Bool) : List Char :=
  '<' :: (name.toList ++
    (attrs.flatMap SpelledAttribute.text ++ (gap ++ startTagEnd selfClosing)))

/-- **All spellings of a start tag are read as that tag.** The tag is read up to its end, whatever
comes after it and wherever it stands, and its attributes are those that are spelled, in order. A
value without quotes goes on with a `/` that follows it, so there are spaces between the two. -/
theorem scanToken_spelledTag {name : String} {attrs : List SpelledAttribute} {gap : List Char}
    {selfClosing : Bool} (hname : isLegalName name = true) (hattrs : ∀ attr ∈ attrs, attr.IsLegal)
    (hgap : IsGap gap) (hend : selfClosing = true → gap = [] →
      ∀ attr ∈ attrs.getLast?, attr.spelling.isBare = false) :
    (∀ offset rest, ∃ read, read.map TagAttribute.entry = attrs.map SpelledAttribute.entry ∧
      scanToken ⟨offset, spelledTag name attrs gap selfClosing ++ rest⟩ =
        .ok (.startTag name read selfClosing,
          ⟨offset + utf8Length (spelledTag name attrs gap selfClosing), rest⟩)) ∧
    ∃ read, read.map TagAttribute.entry = attrs.map SpelledAttribute.entry ∧
      tokenize (String.ofList (spelledTag name attrs gap selfClosing)) =
        .ok [⟨.startTag name read selfClosing,
          .between 0 (utf8Length (spelledTag name attrs gap selfClosing))⟩] := by
  have hlast : ∀ attr ∈ attrs.getLast?, attr.spelling.isBare = true →
      ∀ c ∈ (gap ++ startTagEnd selfClosing).head?, isBareChar c = false := by
    intro attr hattr hbare c hc
    cases gap with
    | cons d ds =>
      obtain rfl : d = c := Option.some_inj.1 hc
      exact isBareChar_of_isSpace (hgap d (List.mem_cons_self ..))
    | nil =>
      cases selfClosing with
      | false => cases hc; decide
      | true => rw [hend rfl rfl attr hattr] at hbare; cases hbare
  have htag (next : Option Char) (offset : Nat) :
      ∃ read, read.map TagAttribute.entry = attrs.map SpelledAttribute.entry ∧
        TokenText next offset (.startTag name read selfClosing)
          (spelledTag name attrs gap selfClosing) := by
    obtain ⟨read, hentries, htexts⟩ := exists_attributesText_spelled hattrs hlast
      (offset + utf8Length ('<' :: name.toList))
    exact ⟨read, hentries, .startTag hname htexts hgap⟩
  constructor
  · intro offset rest
    obtain ⟨read, hentries, htext⟩ := htag rest.head? offset
    exact ⟨read, hentries, scanToken_of_tokenText ⟨rfl, rfl⟩ htext⟩
  · obtain ⟨read, hentries, htext⟩ := htag none 0
    exact ⟨read, hentries, tokenize_of_tokenText htext⟩

/-- A repeated name, a `/` and a reference at the end of a value without quotes, spaces around `=`
and before the end of a tag that closes itself, and a tag without such spaces. -/
theorem scanToken_spelledTag_card :
    let attrs : List SpelledAttribute :=
      [⟨[' '], "a", "x&\"<", .assigned [' '] ['\t'] (some '"') ['&', '"']⟩,
        ⟨['\r', '\n'], "b", "it's", .assigned [] [] (some '\'') ['&', '\'']⟩,
        ⟨[' '], "c", "", .plain⟩, ⟨[' '], "a", "d/&", .assigned [] [' '] none ['&']⟩]
    let source := "<Card a =\t\"x&amp;&quot;<\"\r\nb='it&apos;s' c a= d/&amp; />"
    spelledTag "Card" attrs [' '] true = source.toList ∧ (∀ attr ∈ attrs, attr.IsLegal) ∧
      (∃ read, read.map TagAttribute.entry =
          [("a", "x&\"<"), ("b", "it's"), ("c", ""), ("a", "d/&")] ∧
        tokenize source = .ok [⟨.startTag "Card" read true, .between 0 56⟩]) ∧
      ∃ read, read.map TagAttribute.entry =
          [("a", "x&\"<"), ("b", "it's"), ("c", ""), ("a", "d/&")] ∧
        scanToken ⟨5, spelledTag "Card" attrs [] false ++ ['>', '/']⟩ =
          .ok (.startTag "Card" read false, ⟨59, ['>', '/']⟩) := by
  intro attrs source
  have hattrs : ∀ attr ∈ attrs, attr.IsLegal := by
    simp only [attrs, List.forall_mem_cons]
    refine ⟨⟨by decide, by decide, by decide, ?_⟩, ⟨by decide, by decide, by decide, ?_⟩,
      ⟨by decide, by decide, by decide, .plain rfl⟩, ⟨by decide, by decide, by decide, ?_⟩, by simp⟩
    · exact .quoted (by decide) (by decide) (.inl rfl) (by decide) (by decide)
    · exact .quoted (by decide) (by decide) (.inr rfl) (by decide) (by decide)
    · exact .bare (by decide) (by decide) (by decide) (List.all_eq_true.mp (by decide)) (by decide)
  have htext : spelledTag "Card" attrs [' '] true = source.toList := by decide
  have hlength : utf8Length source.toList = 56 := by decide
  obtain ⟨-, hclosed⟩ := @scanToken_spelledTag "Card" attrs [' '] true (by decide) hattrs
    (by decide) (by simp)
  obtain ⟨hopen, -⟩ := @scanToken_spelledTag "Card" attrs [] false (by decide) hattrs (by decide)
    (by simp)
  rw [htext, String.ofList_toList, hlength] at hclosed
  exact ⟨htext, hattrs, hclosed, hopen 5 ['>', '/']⟩

end ComponentMarkup.Markup
