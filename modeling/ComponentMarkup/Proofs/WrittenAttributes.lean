/-
  How attributes are written.

  A text is as long as it can be, so the relations below know which character comes `next` after it,
  if there is one.

  * `ValueText`, `AssignmentText`, `AttributeText`, `AttributesText`: a value, a value with its `=`,
    an attribute, and attributes with spaces before each. An attribute knows its place.
  * `scanValue_iff`, `scanAssignment_iff`: a value is scanned where its text is written, and nowhere
    else.
  * `attributesText_of_scanAttributes`, `scanAttributes_of_attributesText`: the same for attributes.
    They are followed by the end of a tag (`Cursor.EndsTag`), which does not go on with any of them.
-/
import ComponentMarkup.Proofs.ReadingOn

namespace ComponentMarkup.Markup

/-! ## Texts -/

/-- Characters that separate the parts of a tag. -/
def IsGap (text : List Char) : Prop := ∀ c ∈ text, isSpace c = true

instance (text : List Char) : Decidable (IsGap text) :=
  decidable_of_iff (text.all isSpace = true) List.all_eq_true

/-- A value as it is written: between quotes that it does not hold, or without quotes. -/
inductive ValueText (next : Option Char) : List Char → List Char → Prop
  | quoted {quote value} : quote = '"' ∨ quote = '\'' → quote ∉ value →
      ValueText next value (quote :: (value ++ [quote]))
  | bare {value} : value ≠ [] → (∀ c ∈ value, isBareChar c = true) →
      (∀ c ∈ next, isBareChar c = false) → ValueText next value value

/-- `=` and a value, with spaces around the sign. -/
inductive AssignmentText (next : Option Char) (value : List Char) : List Char → Prop
  | mk {before after written} : IsGap before → IsGap after → ValueText next value written →
      AssignmentText next value (before ++ '=' :: (after ++ written))

/-- An attribute as it is written from the offset `start` on. -/
inductive AttributeText (next : Option Char) (start : Nat) : TagAttribute → List Char → Prop
  | plain {name : String} : isLegalKey name = true →
      AttributeText next start ⟨name, "", .between start (start + utf8Length name.toList)⟩
        name.toList
  | assigned {name : String} {value text} : isLegalKey name = true →
      AssignmentText next value text →
      AttributeText next start
        ⟨name, String.ofList (decodeReferences value),
          .between start (start + utf8Length (name.toList ++ text))⟩
        (name.toList ++ text)

/-- The attributes of a tag as they are written from the offset `start` on. -/
inductive AttributesText (next : Option Char) : Nat → List TagAttribute → List Char → Prop
  | nil {start} : AttributesText next start [] []
  | cons {start gap attr text attributes rest} : gap ≠ [] → IsGap gap →
      AttributeText (rest.head?.or next) (start + utf8Length gap) attr text →
      AttributesText next (start + utf8Length gap + utf8Length text) attributes rest →
      AttributesText next start (attr :: attributes) (gap ++ (text ++ rest))

/-! ## Values -/

section
variable {a b : Cursor} {value text : List Char} {next : Option Char}

theorem scanQuoted_iff {quote : Char} : scanQuoted quote a = .ok (some (value, b)) ↔
    a.Reads (quote :: (value ++ [quote])) b ∧ quote ∉ value := by
  have hbind : scanQuoted quote a = .ok (some (value, b)) ↔
      (a.skip? [quote]).bind (·.takeUntil? [quote]) = some (value, b) := by
    unfold scanQuoted
    split
    next hv => rw [hv]; simp
    next hv => rw [hv]; simp
  simp only [hbind, Option.bind_eq_some_iff, Cursor.skip?_iff, Cursor.takeUntil?_singleton_iff]
  constructor
  · rintro ⟨inner, hopen, hclose, hq⟩
    exact ⟨hopen.trans hclose, hq⟩
  · rintro ⟨h, hq⟩
    obtain ⟨inner, hopen, hclose⟩ := h.split_cons
    exact ⟨inner, hopen, hclose, hq⟩

/-- A value begins with a quote or with a bare character, and so not with a space. -/
theorem ValueText.exists_cons (h : ValueText next value text) :
    ∃ c cs, text = c :: cs ∧ isSpace c = false := by
  cases h with
  | quoted hquote =>
    refine ⟨_, _, rfl, ?_⟩
    rcases hquote with rfl | rfl <;> decide
  | bare hne hall =>
    obtain ⟨c, cs, rfl⟩ := List.exists_cons_of_ne_nil hne
    exact ⟨c, cs, rfl, isSpace_of_isBareChar (hall c (by simp))⟩

theorem scanValue_iff : scanValue a = .ok (some (value, b)) ↔
    ∃ text, a.Reads text b ∧ ValueText b.rest.head? value text := by
  constructor
  · intro h
    unfold scanValue at h
    split at h
    · obtain ⟨hread, hq⟩ := scanQuoted_iff.1 h
      exact ⟨_, hread, .quoted (.inl rfl) hq⟩
    · obtain ⟨hread, hq⟩ := scanQuoted_iff.1 h
      exact ⟨_, hread, .quoted (.inr rfl) hq⟩
    · split at h
      next => cases h
      next hne hv =>
        cases h
        obtain ⟨hread, hall, hnext⟩ := Cursor.takeWhile_iff.1 hv
        exact ⟨value, hread, .bare (fun he => hne he) hall hnext⟩
  · rintro ⟨text, hread, h⟩
    cases h with
    | quoted hquote hq =>
      have hscan := scanQuoted_iff.2 ⟨hread, hq⟩
      have hr := hread.1
      rw [List.cons_append] at hr
      unfold scanValue
      rcases hquote with rfl | rfl <;> rw [hr] <;> exact hscan
    | bare hne hall hnext =>
      obtain ⟨c, cs, rfl⟩ := List.exists_cons_of_ne_nil hne
      have hc := hall c (by simp)
      have hr := hread.1
      unfold scanValue
      split
      next he => rw [hr] at he; cases he; exact absurd hc (by decide)
      next he => rw [hr] at he; cases he; exact absurd hc (by decide)
      next => rw [Cursor.takeWhile_eq hread hall hnext]

theorem scanAssignment_iff : scanAssignment a = .ok (some (value, b)) ↔
    ∃ text, a.Reads text b ∧ AssignmentText b.rest.head? value text := by
  constructor
  · intro h
    unfold scanAssignment at h
    split at h
    next => cases h
    next valued hsign =>
      obtain ⟨before, hbefore, hgap, -⟩ := a.reads_skipWhile isSpace
      obtain ⟨after, hafter, hgap', -⟩ := valued.reads_skipWhile isSpace
      obtain ⟨written, hread, hvalue⟩ := scanValue_iff.1 h
      exact ⟨before ++ '=' :: (after ++ written),
        hbefore.trans ((Cursor.reads_skip? hsign).trans (hafter.trans hread)),
        .mk hgap hgap' hvalue⟩
  · rintro ⟨_, hread, @⟨before, after, written, hgap, hgap', hvalue⟩⟩
    obtain ⟨signed, hbefore, hsign⟩ := hread.split
    obtain ⟨valued, hskip, hrest⟩ := hsign.split_cons
    obtain ⟨inner, hafter, hwritten⟩ := hrest.split
    obtain ⟨c, cs, rfl, hc⟩ := hvalue.exists_cons
    have hequals : ∀ c ∈ signed.rest.head?, isSpace c = false := by
      rw [hsign.head?_of_cons]
      simp
      decide
    rw [scanAssignment, Cursor.skipWhile_eq hbefore hgap hequals, Cursor.skip?_eq hskip]
    simp only
    rw [Cursor.skipWhile_eq hafter hgap' (by rw [hwritten.head?_of_cons]; simpa using hc)]
    exact scanValue_iff.2 ⟨_, hwritten, hvalue⟩

end

/-! ## Attributes -/

/-- A position in a tag where a name can end: there is no assignment after spaces, and without
spaces the end of the tag comes next. -/
def Cursor.EndsName (a : Cursor) : Prop :=
  ∃ gap c rest, a.rest = gap ++ c :: rest ∧ IsGap gap ∧ isSpace c = false ∧ c ≠ '=' ∧
    (gap = [] → c = '/' ∨ c = '>')

/-- A position before the end of a tag. -/
def Cursor.EndsTag (a : Cursor) : Prop :=
  ∃ gap c rest, a.rest = gap ++ c :: rest ∧ IsGap gap ∧ (c = '/' ∨ c = '>')

section
variable {a b : Cursor} {attr : TagAttribute} {attributes : List TagAttribute} {text : List Char}
  {start : Nat} {next : Option Char}

theorem Cursor.EndsTag.endsName (h : a.EndsTag) : a.EndsName := by
  obtain ⟨gap, c, rest, hr, hgap, hc⟩ := h
  refine ⟨gap, c, rest, hr, hgap, ?_, ?_, fun _ => hc⟩ <;> rcases hc with rfl | rfl <;> decide

/-- Where a name can end, a space or the end of the tag comes next. -/
theorem Cursor.EndsName.head? {p : Char → Bool} (h : a.EndsName)
    (hspace : ∀ c, isSpace c = true → p c = false) (hslash : p '/' = false) (hgt : p '>' = false) :
    ∀ c ∈ a.rest.head?, p c = false := by
  obtain ⟨gap, c, rest, hr, hgap, -, -, hempty⟩ := h
  cases gap with
  | nil => rcases hempty rfl with rfl | rfl <;> simpa [hr]
  | cons d ds => simpa [hr] using hspace d (hgap d (by simp))

theorem Cursor.EndsName.not_isKeyChar (h : a.EndsName) :
    ∀ c ∈ a.rest.head?, isKeyChar c = false :=
  h.head? (fun _ => isKeyChar_of_isSpace) (by decide) (by decide)

theorem Cursor.EndsName.not_isNameChar (h : a.EndsName) :
    ∀ c ∈ a.rest.head?, isNameChar c = false :=
  h.head? (fun _ => isNameChar_of_isSpace) (by decide) (by decide)

theorem Cursor.EndsName.scanAssignment (h : a.EndsName) : scanAssignment a = .ok none := by
  obtain ⟨gap, c, rest, hr, hgap, hspace, hc, -⟩ := h
  have hskip : a.skipWhile isSpace = a.past gap (c :: rest) :=
    Cursor.skipWhile_eq (Cursor.reads_past hr) hgap (by simpa [Cursor.past] using hspace)
  rw [Markup.scanAssignment, hskip, Cursor.skip?_eq_none (by simpa [Cursor.past] using hc)]

theorem Cursor.Reads.spanTo_eq (h : a.Reads text b) :
    a.spanTo b = .between a.offset (a.offset + utf8Length text) := by
  rw [spanTo, h.2]

theorem attributeText_of_scanAttribute (h : scanAttribute a = .ok (some (attr, b))) :
    ∃ text, a.Reads text b ∧ AttributeText b.rest.head? a.offset attr text := by
  unfold scanAttribute at h
  split at h
  next => cases h
  next name named hne hname =>
    obtain ⟨name, rfl⟩ : ∃ s : String, name = s.toList := ⟨_, String.toList_ofList.symm⟩
    obtain ⟨hread, hall, -⟩ := Cursor.takeWhile_iff.1 hname
    obtain ⟨c, cs, hcons⟩ := List.exists_cons_of_ne_nil fun he => hne he
    have hkey : isLegalKey name = true := isLegalKey_iff.2 ⟨c, cs, hcons, hall⟩
    rw [String.ofList_toList] at h
    split at h
    next => cases h
    next =>
      cases h
      rw [hread.spanTo_eq]
      exact ⟨_, hread, .plain hkey⟩
    next value after hvalue =>
      cases h
      obtain ⟨text, htext, hassigned⟩ := scanAssignment_iff.1 hvalue
      rw [(hread.trans htext).spanTo_eq]
      exact ⟨_, hread.trans htext, .assigned hkey hassigned⟩

theorem AttributeText.exists_cons (h : AttributeText next start attr text) :
    ∃ c cs, text = c :: cs ∧ isKeyChar c = true := by
  have first {name : String} (hkey : isLegalKey name = true) (rest : List Char) :
      ∃ c cs, name.toList ++ rest = c :: cs ∧ isKeyChar c = true := by
    obtain ⟨c, cs, hname, hall⟩ := isLegalKey_iff.1 hkey
    exact ⟨c, cs ++ rest, by rw [hname]; rfl, hall c (by simp [hname])⟩
  cases h with
  | plain hkey => simpa using first hkey []
  | assigned hkey => exact first hkey _

theorem AssignmentText.not_isKeyChar {value : List Char} (h : AssignmentText next value text) :
    ∃ c cs, text = c :: cs ∧ isKeyChar c = false := by
  obtain @⟨before, after, written, hgap, -, -⟩ := h
  cases before with
  | nil => exact ⟨'=', _, rfl, by decide⟩
  | cons d ds => exact ⟨d, _, rfl, isKeyChar_of_isSpace (hgap d (by simp))⟩

/-- An attribute with a value is scanned whatever comes after it. -/
theorem scanAttribute_of_assignmentText {name : String} {value : List Char}
    (hkey : isLegalKey name = true) (h : a.Reads (name.toList ++ text) b)
    (ht : AssignmentText b.rest.head? value text) : scanAttribute a =
      .ok (some (⟨name, String.ofList (decodeReferences value), a.spanTo b⟩, b)) := by
  obtain ⟨c, cs, hname, hall⟩ := isLegalKey_iff.1 hkey
  obtain ⟨named, hread, htext⟩ := h.split
  have hnamed : ∀ c ∈ named.rest.head?, isKeyChar c = false := by
    obtain ⟨d, ds, rfl, hd⟩ := ht.not_isKeyChar
    rw [htext.head?_of_cons]
    simpa using hd
  rw [scanAttribute, Cursor.takeWhile_eq hread hall hnamed]
  rw [hname]
  simp only
  rw [scanAssignment_iff.2 ⟨text, htext, ht⟩, ← hname, String.ofList_toList]

theorem scanAttribute_of_attributeText (h : a.Reads text b)
    (ht : AttributeText b.rest.head? a.offset attr text) (hb : b.EndsName) :
    scanAttribute a = .ok (some (attr, b)) := by
  cases ht with
  | @plain name hkey =>
    obtain ⟨c, cs, hname, hall⟩ := isLegalKey_iff.1 hkey
    rw [scanAttribute, Cursor.takeWhile_eq h hall hb.not_isKeyChar, ← h.spanTo_eq]
    rw [hname]
    simp only
    rw [hb.scanAssignment, ← hname, String.ofList_toList]
  | assigned hkey hassigned =>
    rw [← h.spanTo_eq]
    exact scanAttribute_of_assignmentText hkey h hassigned

theorem attributesText_of_scanAttributes (h : scanAttributes a = .ok (attributes, b)) :
    ∃ text, a.Reads text b ∧ AttributesText b.rest.head? a.offset attributes text := by
  fun_induction scanAttributes a generalizing attributes b with
  | case1 => cases h
  | case2 => cases h; exact ⟨[], .refl _, .nil⟩
  | case3 => cases h
  | case4 a attr after hattr attributes stop _ ih =>
    cases h
    obtain ⟨rest, hrest, hattributes⟩ := ih ‹_›
    unfold scanSpacedAttribute at hattr
    split at hattr
    next => cases hattr
    next gap spaced hne hgap =>
      obtain ⟨hspaced, hspaces, -⟩ := Cursor.takeWhile_iff.1 hgap
      obtain ⟨text, htext, hattribute⟩ := attributeText_of_scanAttribute hattr
      rw [hrest.head?, hspaced.2] at hattribute
      rw [htext.2, hspaced.2] at hattributes
      exact ⟨_, hspaced.trans (htext.trans hrest),
        .cons (fun he => hne he) hspaces hattribute hattributes⟩

theorem AttributesText.endsName (h : a.Reads text b)
    (ht : AttributesText next start attributes text) (hb : b.EndsTag) : a.EndsName := by
  cases ht with
  | nil => obtain rfl := h.eq_of_nil; exact hb.endsName
  | @cons _ gap attr text attributes rest hne hgap hattr =>
    obtain ⟨c, cs, rfl, hc⟩ := hattr.exists_cons
    refine ⟨gap, c, cs ++ (rest ++ b.rest), by rw [h.1]; simp, hgap, isSpace_of_isKeyChar hc, ?_,
      fun he => absurd he hne⟩
    rintro rfl
    exact absurd hc (by decide)

theorem Cursor.EndsTag.scanSpacedAttribute (h : a.EndsTag) : scanSpacedAttribute a = .ok none := by
  obtain ⟨gap, c, rest, hr, hgap, hc⟩ := h
  have hread := Cursor.reads_past hr
  have hspace : isSpace c = false := by rcases hc with rfl | rfl <;> decide
  have hkey : isKeyChar c = false := by rcases hc with rfl | rfl <;> decide
  rw [Markup.scanSpacedAttribute,
    Cursor.takeWhile_eq hread hgap (by simpa [Cursor.past] using hspace)]
  cases gap with
  | nil => rfl
  | cons d ds =>
    simp only
    rw [scanAttribute, Cursor.takeWhile_eq (.refl _) (by simp) (by simpa [Cursor.past] using hkey)]

theorem scanAttributes_of_attributesText (h : a.Reads text b)
    (ht : AttributesText b.rest.head? a.offset attributes text) (hb : b.EndsTag) :
    scanAttributes a = .ok (attributes, b) := by
  generalize hstart : a.offset = start at ht
  induction ht generalizing a with
  | nil =>
    obtain rfl := h.eq_of_nil
    rw [scanAttributes]
    split
    next he => rw [hb.scanSpacedAttribute] at he; cases he
    next => rfl
    next he => rw [hb.scanSpacedAttribute] at he; cases he
  | @cons _ gap attr text attributes rest hne hgap hattr hattributes ih =>
    subst hstart
    obtain ⟨spaced, hspaced, htexts⟩ := h.split
    obtain ⟨after, htext, hrest⟩ := htexts.split
    have hspace : ∀ c ∈ spaced.rest.head?, isSpace c = false := by
      obtain ⟨c, cs, rfl, hc⟩ := hattr.exists_cons
      rw [htext.head?_of_cons]
      simpa using isSpace_of_isKeyChar hc
    rw [← hrest.head?, ← hspaced.2] at hattr
    have hscan : scanSpacedAttribute a = .ok (some (attr, after)) := by
      rw [scanSpacedAttribute, Cursor.takeWhile_eq hspaced hgap hspace]
      obtain ⟨d, ds, rfl⟩ := List.exists_cons_of_ne_nil hne
      exact scanAttribute_of_attributeText htext hattr (hattributes.endsName hrest hb)
    have hscans := ih hrest (by rw [htext.2, hspaced.2])
    rw [scanAttributes]
    split
    next he => rw [hscan] at he; cases he
    next he => rw [hscan] at he; cases he
    next he => rw [hscan] at he; cases he; rw [hscans]

end

end ComponentMarkup.Markup
