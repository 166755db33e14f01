/-
  How tokens are written.

  * `TokenText`: a token and its text. `Token.parts?` are the delimiters and the content of a token
    that has nothing else; the closing characters come for the first time at its end.
  * `scanToken_iff`: a token is scanned where its text is written, and nowhere else.
-/
import ComponentMarkup.Proofs.WrittenAttributes

namespace ComponentMarkup.Markup

/-! ## Texts -/

/-- The end of a start tag. -/
def startTagEnd (selfClosing : Bool) : List Char := if selfClosing then ['/', '>'] else ['>']

/-- The opening characters, the content and the closing characters of a token that is nothing but
content between delimiters. -/
def Token.parts? : Token → Option (List Char × List Char × List Char)
  | .comment s => some (['<', '!', '-', '-'], s.toList, ['-', '-', '>'])
  | .cdata s => some (['<', '!', '[', 'C', 'D', 'A', 'T', 'A', '['], s.toList, [']', ']', '>'])
  | .declaration s => some (['<', '!'], s.toList, ['>'])
  | .instruction s => some (['<', '?'], s.toList, ['?', '>'])
  | _ => none

/-- What follows the `<!` of a declaration: not the rest of what opens a comment or a CDATA
section. -/
def IsDeclarationContent (content : List Char) : Prop :=
  ¬ ['-', '-'] <+: content ∧ ¬ ['[', 'C', 'D', 'A', 'T', 'A', '['] <+: content

/-- A token as it is written from the offset `start` on. Raw bodies are no tokens of their own: they
go as far as the end tag of the element around them. -/
inductive TokenText (next : Option Char) (start : Nat) : Token → List Char → Prop
  | startTag {name : String} {attributes selfClosing written gap} : isLegalName name = true →
      AttributesText (gap ++ startTagEnd selfClosing).head?
        (start + utf8Length ('<' :: name.toList)) attributes written →
      IsGap gap →
      TokenText next start (.startTag name attributes selfClosing)
        ('<' :: (name.toList ++ (written ++ (gap ++ startTagEnd selfClosing))))
  | endTag {name : String} {gap} : isLegalName name = true → IsGap gap →
      TokenText next start (.endTag name) (['<', '/'] ++ (name.toList ++ (gap ++ ['>'])))
  | delimited {token opening content closing} : token.parts? = some (opening, content, closing) →
      ¬ closing <:+: content ++ closing.dropLast →
      (∀ s, token = .declaration s → IsDeclarationContent content) →
      TokenText next start token (opening ++ (content ++ closing))
  | angle : (∀ c ∈ next, isNameStart c = false ∧ c ∉ ['!', '?', '/']) →
      TokenText next start (.text "<") ['<']
  | text {raw} : raw ≠ [] → '<' ∉ raw → (∀ c ∈ next, c = '<') →
      TokenText next start (.text (String.ofList (decodeReferences raw))) raw

/-! ## Tags -/

section
variable {a b inner : Cursor} {token made : Token} {name : String}

theorem scanTagEnd_iff {construct : Construct} {start : Nat} :
    scanTagEnd construct start made a = .ok (token, b) ↔ a.Reads ['>'] b ∧ token = made := by
  rw [← Cursor.skip?_iff, scanTagEnd]
  cases a.skip? ['>'] with
  | none => simp
  | some next => simp [and_comm, eq_comm]

theorem isLegalName_of_all (hstart : name.toList.head?.any isNameStart = true)
    (hall : ∀ c ∈ name.toList, isNameChar c = true) : isLegalName name = true := by
  rw [isLegalName, hstart, List.all_eq_true.2 hall]
  rfl

/-- A run of name characters that begins with the start of a name is a legal name. -/
theorem isLegalName_of_takeWhile {named : Cursor} (hstart : a.rest.head?.any isNameStart = true)
    (h : a.takeWhile isNameChar = (name.toList, named)) : isLegalName name = true := by
  obtain ⟨hread, hall, hnext⟩ := Cursor.takeWhile_iff.1 h
  refine isLegalName_of_all ?_ hall
  cases hn : name.toList with
  | cons c cs =>
    rw [hn] at hread
    rwa [hread.head?_of_cons] at hstart
  | nil =>
    rw [hn] at hread
    obtain rfl := hread.eq_of_nil
    obtain ⟨c, hc, hname⟩ := (Option.any_eq_true _ _).1 hstart
    exact absurd (isNameChar_of_isNameStart hname) (by simp [hnext c hc])

/-- The end of a start tag is no part of its name and of its attributes. -/
theorem Cursor.Reads.endsTag {gap : List Char} {selfClosing : Bool} (hgap : IsGap gap)
    (h : a.Reads (gap ++ startTagEnd selfClosing) b) : a.EndsTag := by
  cases selfClosing with
  | true => exact ⟨gap, '/', '>' :: b.rest, by rw [h.1]; simp [startTagEnd], hgap, .inl rfl⟩
  | false => exact ⟨gap, '>', b.rest, by rw [h.1]; simp [startTagEnd], hgap, .inr rfl⟩

theorem Cursor.Reads.head?_startTagEnd {gap : List Char} {selfClosing : Bool}
    (h : a.Reads (gap ++ startTagEnd selfClosing) b) :
    a.rest.head? = (gap ++ startTagEnd selfClosing).head? := by
  rw [h.head?, Option.or_of_isSome]
  cases gap <;> cases selfClosing <;> rfl

theorem tokenText_of_scanStartTag (hopen : a.Reads ['<'] inner)
    (hstart : inner.rest.head?.any isNameStart = true) (h : scanStartTag a inner = .ok (token, b)) :
    ∃ text, a.Reads text b ∧ TokenText b.rest.head? a.offset token text := by
  unfold scanStartTag at h
  split at h
  next name named hname =>
    obtain ⟨name, rfl⟩ : ∃ s : String, name = s.toList := ⟨_, String.toList_ofList.symm⟩
    rw [String.ofList_toList] at h
    have hlegal := isLegalName_of_takeWhile hstart hname
    obtain ⟨hnamed, -, -⟩ := Cursor.takeWhile_iff.1 hname
    split at h
    next => cases h
    next attributes stop hattributes =>
      obtain ⟨written, hwritten, htext⟩ := attributesText_of_scanAttributes hattributes
      obtain ⟨gap, hgap, hspaces, -⟩ := stop.reads_skipWhile isSpace
      have hoffset : named.offset = a.offset + utf8Length ('<' :: name.toList) :=
        (hopen.trans hnamed).2
      have tag {selfClosing : Bool}
          (hclose : (stop.skipWhile isSpace).Reads (startTagEnd selfClosing) b) :
          ∃ text, a.Reads text b ∧ TokenText b.rest.head? a.offset
            (.startTag name attributes selfClosing) text := by
        have hend := hgap.trans hclose
        rw [hend.head?_startTagEnd, hoffset] at htext
        exact ⟨_, hopen.trans (hnamed.trans (hwritten.trans hend)), .startTag hlegal htext hspaces⟩
      split at h
      next hslash =>
        obtain ⟨hclose, rfl⟩ := scanTagEnd_iff.1 h
        exact tag ((Cursor.reads_skip? hslash).trans hclose)
      next =>
        obtain ⟨hclose, rfl⟩ := scanTagEnd_iff.1 h
        exact tag hclose

theorem tokenText_of_scanEndTag (hopen : a.Reads ['<', '/'] inner)
    (h : scanEndTag a inner = .ok (token, b)) :
    ∃ text, a.Reads text b ∧ TokenText b.rest.head? a.offset token text := by
  unfold scanEndTag at h
  split at h
  next name named hname =>
    obtain ⟨name, rfl⟩ : ∃ s : String, name = s.toList := ⟨_, String.toList_ofList.symm⟩
    rw [String.ofList_toList] at h
    obtain ⟨hnamed, hall, -⟩ := Cursor.takeWhile_iff.1 hname
    obtain ⟨gap, hgap, hspaces, -⟩ := named.reads_skipWhile isSpace
    split at h
    next hstart =>
      obtain ⟨hclose, rfl⟩ := scanTagEnd_iff.1 h
      exact ⟨_, hopen.trans (hnamed.trans (hgap.trans hclose)),
        .endTag (isLegalName_of_all hstart hall) hspaces⟩
    next => cases h

theorem scanStartTag_of_tokenText (cur : Cursor) {attributes : List TagAttribute}
    {selfClosing : Bool} {written gap : List Char} (hname : isLegalName name = true)
    (hwritten : AttributesText (gap ++ startTagEnd selfClosing).head?
      (a.offset + utf8Length name.toList) attributes written) (hgap : IsGap gap)
    (h : a.Reads (name.toList ++ (written ++ (gap ++ startTagEnd selfClosing))) b) :
    scanStartTag cur a = .ok (.startTag name attributes selfClosing, b) := by
  obtain ⟨-, -, -, -, hall⟩ := isLegalName_iff.1 hname
  obtain ⟨named, hnamed, htag⟩ := h.split
  obtain ⟨stop, hattributes, hend⟩ := htag.split
  obtain ⟨closing, hspaces, hclose⟩ := hend.split
  have hclosing : ∀ c ∈ closing.rest.head?, isSpace c = false := by
    cases selfClosing <;> rw [hclose.head?_of_cons] <;> simp <;> decide
  rw [← hend.head?_startTagEnd, ← hnamed.2] at hwritten
  have hstop := hend.endsTag hgap
  rw [scanStartTag,
    Cursor.takeWhile_eq hnamed hall (hwritten.endsName hattributes hstop).not_isNameChar]
  simp only
  rw [scanAttributes_of_attributesText hattributes hwritten hstop]
  simp only
  rw [Cursor.skipWhile_eq hspaces hgap hclosing]
  cases selfClosing with
  | true =>
    obtain ⟨slashed, hslash, hgt⟩ := Cursor.Reads.split_cons hclose
    rw [Cursor.skip?_eq hslash]
    simp only
    rw [scanTagEnd_iff.2 ⟨hgt, rfl⟩, String.ofList_toList]
  | false =>
    rw [Cursor.skip?_eq_none (by rw [hclose.head?_of_cons]; simp)]
    simp only
    rw [scanTagEnd_iff.2 ⟨hclose, rfl⟩, String.ofList_toList]

theorem scanEndTag_of_tokenText (cur : Cursor) {gap : List Char}
    (hname : isLegalName name = true) (hgap : IsGap gap)
    (h : a.Reads (name.toList ++ (gap ++ ['>'])) b) :
    scanEndTag cur a = .ok (.endTag name, b) := by
  obtain ⟨c, cs, hcons, hstart, hall⟩ := isLegalName_iff.1 hname
  obtain ⟨named, hnamed, hend⟩ := h.split
  obtain ⟨closing, hspaces, hclose⟩ := hend.split
  have htag : named.EndsTag := ⟨gap, '>', b.rest, by rw [hend.1]; simp, hgap, .inr rfl⟩
  rw [scanEndTag, Cursor.takeWhile_eq hnamed hall htag.endsName.not_isNameChar]
  simp only
  rw [if_pos (by simpa [hcons] using hstart),
    Cursor.skipWhile_eq hspaces hgap (by rw [hclose.head?_of_cons]; simp; decide),
    scanTagEnd_iff.2 ⟨hclose, rfl⟩, String.ofList_toList]

end

/-! ## Tokens -/

section
variable {a b inner : Cursor} {cs opening content closing rest : List Char} {c : Char}
  {token : Token}

theorem scanToken_of_nameStart (h : a.rest = '<' :: c :: cs) (hc : isNameStart c = true) :
    scanToken a = scanStartTag a (a.past ['<'] (c :: cs)) := by
  have hne : c ≠ '!' ∧ c ≠ '?' ∧ c ≠ '/' := by
    refine ⟨?_, ?_, ?_⟩ <;> (rintro rfl; revert hc; decide)
  unfold scanToken
  split
  next hr => rw [h] at hr; cases hr; exact absurd rfl hne.1
  next hr => rw [h] at hr; cases hr; exact absurd rfl hne.1
  next hr => rw [h] at hr; cases hr; exact absurd rfl hne.1
  next hr => rw [h] at hr; cases hr; exact absurd rfl hne.2.1
  next hr => rw [h] at hr; cases hr; exact absurd rfl hne.2.2
  next hr => rw [h] at hr; cases hr; rw [if_pos (by simpa using hc)]
  next hr => exact absurd h (hr _)

theorem scanToken_of_slash (h : a.rest = '<' :: '/' :: cs) :
    scanToken a = scanEndTag a (a.past ['<', '/'] cs) := by
  rw [scanToken, h]
  rfl

theorem scanToken_of_ne (h : a.rest = c :: cs) (hc : c ≠ '<') :
    scanToken a = .ok (.text (String.ofList (decodeReferences (a.takeWhile (· ≠ '<')).1)),
      (a.takeWhile (· ≠ '<')).2) := by
  unfold scanToken
  split
  next hr => rw [h] at hr; cases hr; exact absurd rfl hc
  next hr => rw [h] at hr; cases hr; exact absurd rfl hc
  next hr => rw [h] at hr; cases hr; exact absurd rfl hc
  next hr => rw [h] at hr; cases hr; exact absurd rfl hc
  next hr => rw [h] at hr; cases hr; exact absurd rfl hc
  next hr => rw [h] at hr; cases hr; exact absurd rfl hc
  next => rfl

/-- A `<` that opens nothing. -/
theorem scanToken_of_angle (h : a.rest = '<' :: cs)
    (hc : ∀ c ∈ cs.head?, isNameStart c = false ∧ c ∉ ['!', '?', '/']) :
    scanToken a = .ok (.text "<", a.past ['<'] cs) := by
  unfold scanToken
  split
  next hr => rw [h] at hr; cases hr; exact absurd (hc '!' rfl).2 (by decide)
  next hr => rw [h] at hr; cases hr; exact absurd (hc '!' rfl).2 (by decide)
  next hr => rw [h] at hr; cases hr; exact absurd (hc '!' rfl).2 (by decide)
  next hr => rw [h] at hr; cases hr; exact absurd (hc '?' rfl).2 (by decide)
  next hr => rw [h] at hr; cases hr; exact absurd (hc '/' rfl).2 (by decide)
  next hr =>
    rw [h] at hr
    cases hr
    refine if_neg ?_
    rw [Bool.not_eq_true, Option.any_eq_false]
    exact fun c he => by simp [(hc c he).1]
  next hr => exact absurd h (hr _)

theorem scanToken_of_declaration (h : a.rest = ['<', '!'] ++ cs) (hcs : IsDeclarationContent cs) :
    scanToken a =
      scanDelimited .declaration ['>'] .declaration .finish a (a.past ['<', '!'] cs) := by
  unfold scanToken
  split
  next hr => rw [h] at hr; cases hr; exact absurd ⟨_, rfl⟩ hcs.1
  next hr => rw [h] at hr; cases hr; exact absurd ⟨_, rfl⟩ hcs.2
  next hr => rw [h] at hr; cases hr; rfl
  next hr => rw [h] at hr; cases hr
  next hr => rw [h] at hr; cases hr
  next hne _ _ hr => rw [h] at hr; cases hr; exact absurd rfl (hne cs)
  next hr => exact absurd h (hr _)

/-- What opens a token decides how it is read. -/
theorem scanToken_of_parts (hp : token.parts? = some (opening, content, closing))
    (hd : ∀ s, token = .declaration s → IsDeclarationContent rest) (h : a.rest = opening ++ rest) :
    ∃ construct make stop,
      scanToken a = scanDelimited construct closing make stop a (a.past opening rest) ∧
        make (String.ofList content) = token := by
  cases token with
  | comment s => cases hp; exact ⟨.comment, .comment, id, by rw [scanToken, h]; rfl, by simp⟩
  | cdata s => cases hp; exact ⟨.cdata, .cdata, id, by rw [scanToken, h]; rfl, by simp⟩
  | declaration s =>
    cases hp
    exact ⟨_, _, _, scanToken_of_declaration h (hd s rfl), by simp⟩
  | instruction s =>
    cases hp
    exact ⟨.instruction, .instruction, id, by rw [scanToken, h]; rfl, by simp⟩
  | _ => cases hp

theorem scanDelimited_iff {construct : Construct} {make : String → Token} {stop : Cursor → Cursor}
    (hclosing : closing ≠ []) : scanDelimited construct closing make stop a inner = .ok (token, b) ↔
      ∃ content, inner.Reads (content ++ closing) b ∧ ¬ closing <:+: content ++ closing.dropLast ∧
        token = make (String.ofList content) := by
  have hresult : scanDelimited construct closing make stop a inner = .ok (token, b) ↔
      ∃ content, inner.takeUntil? closing = some (content, b) ∧
        token = make (String.ofList content) := by
    rw [scanDelimited]
    cases inner.takeUntil? closing with
    | none => simp
    | some result => obtain ⟨content, next⟩ := result; simp [and_assoc, and_comm, eq_comm]
  simp only [hresult, Cursor.takeUntil?_iff hclosing, and_assoc]

theorem IsDeclarationContent.of_append {more : List Char}
    (h : IsDeclarationContent (content ++ more)) : IsDeclarationContent content :=
  ⟨fun hp => h.1 (hp.trans (List.prefix_append content more)),
    fun hp => h.2 (hp.trans (List.prefix_append content more))⟩

/-- What follows the content of a declaration begins with `>`, which opens nothing. -/
theorem IsDeclarationContent.append {more : List Char} (h : IsDeclarationContent content) :
    IsDeclarationContent (content ++ '>' :: more) := by
  have apart {opening : List Char} (hno : '>' ∉ opening) (hc : ¬ opening <+: content) :
      ¬ opening <+: content ++ '>' :: more := by
    intro hp
    rcases List.prefix_or_prefix_of_prefix hp (List.prefix_append content _) with hp' | ⟨tail, rfl⟩
    · exact hc hp'
    rw [List.prefix_append_right_inj] at hp
    cases tail with
    | nil => exact hc (by simp)
    | cons d ds =>
      obtain ⟨_, he⟩ := hp
      cases he
      exact hno (by simp)
  exact ⟨apart (by decide) h.1, apart (by decide) h.2⟩

theorem tokenText_of_scanDelimited {construct : Construct} {make : String → Token}
    {stop : Cursor → Cursor}
    (h : scanDelimited construct closing make stop a (a.past opening rest) = .ok (token, b))
    (hr : a.rest = opening ++ rest) (hclosing : closing ≠ [])
    (hparts : ∀ content, (make (String.ofList content)).parts? = some (opening, content, closing))
    (hd : ∀ s t, make s = .declaration t → IsDeclarationContent rest) :
    ∃ text, a.Reads text b ∧ TokenText b.rest.head? a.offset token text := by
  obtain ⟨content, hread, hfirst, rfl⟩ := (scanDelimited_iff hclosing).1 h
  refine ⟨_, (Cursor.reads_past hr).trans hread, .delimited (hparts content) hfirst fun t ht => ?_⟩
  have hrest : rest = content ++ closing ++ b.rest := hread.1
  rw [List.append_assoc] at hrest
  exact (hrest ▸ hd _ t ht).of_append

theorem tokenText_of_scanToken (hne : a.rest ≠ []) (h : scanToken a = .ok (token, b)) :
    ∃ text, a.Reads text b ∧ TokenText b.rest.head? a.offset token text := by
  have toList (content : List Char) : (String.ofList content).toList = content :=
    String.toList_ofList
  unfold scanToken at h
  split at h
  next hr =>
    exact tokenText_of_scanDelimited h hr (by simp)
      (fun content => by rw [Token.parts?, toList]) (fun _ _ ht => by cases ht)
  next hr =>
    exact tokenText_of_scanDelimited h hr (by simp)
      (fun content => by rw [Token.parts?, toList]) (fun _ _ ht => by cases ht)
  next rest hcomment hcdata hr =>
    have hrest : IsDeclarationContent rest := by
      constructor
      · rintro ⟨tail, rfl⟩
        exact hcomment tail rfl
      · rintro ⟨tail, rfl⟩
        exact hcdata tail rfl
    exact tokenText_of_scanDelimited h hr (by simp)
      (fun content => by rw [Token.parts?, toList]) (fun _ _ _ => hrest)
  next hr =>
    exact tokenText_of_scanDelimited h hr (by simp)
      (fun content => by rw [Token.parts?, toList]) (fun _ _ ht => by cases ht)
  next hr => exact tokenText_of_scanEndTag (Cursor.reads_past (s := ['<', '/']) hr) h
  next rest _ _ hdeclaration hinstruction hend hr =>
    have hopen := Cursor.reads_past (s := ['<']) hr
    split at h
    next hstart => exact tokenText_of_scanStartTag hopen hstart h
    next hstart =>
      cases h
      refine ⟨['<'], hopen, .angle fun c hc => ⟨?_, ?_⟩⟩
      · rw [Bool.not_eq_true, Option.any_eq_false] at hstart
        simpa using hstart c hc
      · obtain ⟨cs, rfl⟩ : ∃ cs, rest = c :: cs := List.head?_eq_some_iff.1 hc
        simp only [List.mem_cons, List.not_mem_nil, or_false]
        rintro (rfl | rfl | rfl)
        · exact hdeclaration cs rfl
        · exact hinstruction cs rfl
        · exact hend cs rfl
  next hangle =>
    split at h
    next raw after htake =>
      cases h
      obtain ⟨hread, hall, hnext⟩ := Cursor.takeWhile_iff.1 htake
      refine ⟨raw, hread, .text ?_ (fun hmem => by simpa using hall '<' hmem)
        fun c hc => by simpa using hnext c hc⟩
      rintro rfl
      obtain ⟨c, cs, hc⟩ := List.exists_cons_of_ne_nil hne
      obtain rfl := hread.eq_of_nil
      have : c = '<' := by simpa using hnext c (by simp [hc])
      exact hangle cs (this ▸ hc)

theorem scanToken_of_tokenText {text : List Char} (h : a.Reads text b)
    (ht : TokenText b.rest.head? a.offset token text) : scanToken a = .ok (token, b) := by
  cases ht with
  | @startTag name attributes selfClosing written gap hname hwritten hgap =>
    obtain ⟨opened, hopen, hrest⟩ := h.split_cons
    obtain ⟨c, cs, hopened, hstart⟩ :
        ∃ c cs, opened.rest = c :: cs ∧ isNameStart c = true := by
      obtain ⟨c, cs, hcons, hstart, -⟩ := isLegalName_iff.1 hname
      exact ⟨c, _, by rw [hrest.1, hcons]; rfl, hstart⟩
    have hoffset : a.offset + utf8Length ('<' :: name.toList) =
        opened.offset + utf8Length name.toList := by
      rw [hopen.2, Nat.add_assoc, ← utf8Length_append]
      rfl
    rw [hoffset] at hwritten
    have hr : a.rest = '<' :: c :: cs := by
      rw [hopen.1, hopened]
      rfl
    rw [scanToken_of_nameStart hr hstart, ← hopened, hopen.past_eq]
    exact scanStartTag_of_tokenText a hname hwritten hgap hrest
  | @endTag name gap hname hgap =>
    obtain ⟨opened, hopen, hrest⟩ := h.split
    have hr : a.rest = '<' :: '/' :: opened.rest := hopen.1
    rw [scanToken_of_slash hr, hopen.past_eq]
    exact scanEndTag_of_tokenText a hname hgap hrest
  | @delimited token opening content closing hparts hfirst hdeclaration =>
    obtain ⟨inner, hopen, hrest⟩ := h.split
    have hclosing : closing ≠ [] := by
      cases token <;> cases hparts <;> simp
    have hd : ∀ s, token = .declaration s → IsDeclarationContent inner.rest := by
      rintro s rfl
      cases hparts
      rw [hrest.1, List.append_assoc]
      exact (hdeclaration s rfl).append
    obtain ⟨construct, make, stop, hscan, hmake⟩ := scanToken_of_parts hparts hd hopen.1
    rw [hscan, hopen.past_eq]
    exact (scanDelimited_iff hclosing).2 ⟨content, hrest, hfirst, hmake.symm⟩
  | angle hnext =>
    have hr : a.rest = '<' :: b.rest := h.1
    rw [scanToken_of_angle hr hnext, h.past_eq]
  | @text raw hraw hlt hnext =>
    obtain ⟨c, cs, rfl⟩ := List.exists_cons_of_ne_nil hraw
    have hc : c ≠ '<' := fun he => hlt (he ▸ List.mem_cons_self ..)
    rw [scanToken_of_ne h.1 hc, Cursor.takeWhile_eq h]
    · exact fun d hd => decide_eq_true fun he => hlt (he ▸ hd)
    · exact fun d hd => decide_eq_false (by simpa using hnext d hd)

/-- **A token is scanned where its text is written, and nowhere else.** -/
theorem scanToken_iff (hne : a.rest ≠ []) : scanToken a = .ok (token, b) ↔
    ∃ text, a.Reads text b ∧ TokenText b.rest.head? a.offset token text :=
  ⟨tokenText_of_scanToken hne, fun ⟨_, h, ht⟩ => scanToken_of_tokenText h ht⟩

theorem TokenText.ne_nil {next : Option Char} {start : Nat} {text : List Char}
    (h : TokenText next start token text) : text ≠ [] := by
  cases h with
  | startTag | endTag | angle => simp
  | text hraw => exact hraw
  | @delimited _ opening content closing hparts =>
    have hopening : opening ≠ [] := by
      cases token <;> cases hparts <;> simp
    simp [hopening]

end

end ComponentMarkup.Markup
