/-
  The grammar of tokens, written with parser combinators.

  * `Combinators.token`: a token is the first of eight alternatives that does not backtrack. A
    construct commits to its opening characters, and from there on a failure carries a context.
  * `Fault.Tells`: the context and the position that a fault is told by.
  * `Combinators.Lawful.agrees_token`: wherever text is left, the grammar replies what `scanToken`
    gives. So one of the alternatives has a value or commits, whatever character comes next.
-/
import ComponentMarkup.Proofs.Combinators
import ComponentMarkup.Proofs.WrittenTokens

namespace ComponentMarkup.Markup

/-! ## The grammar -/

/-- What a failure in a construct knows of it. -/
def Construct.context (construct : Construct) (start : Nat) : Context where
  code := construct.code
  message := construct.message
  help := some construct.help
  start := start

namespace Combinators

variable (c : Combinators)

/-- The name of a tag. -/
def tagName : Parser (List Char) :=
  c.verify (fun name => name.head?.any isNameStart) (c.takeWhile 1 isNameChar)

/-- The name of an attribute. -/
def attributeName : Parser (List Char) := c.takeWhile 1 isKeyChar

/-- A value between two of the given quotes. -/
def valueBetween (quote : Char) : Parser (List Char) :=
  c.preceded (c.literal [quote])
    (c.commit (c.terminated (c.takeTill 0 (· == quote)) (c.literal [quote])))

/-- A value between quotes. -/
def quotedValue : Parser (List Char) := fun cur =>
  c.within (Construct.value.context cur.offset)
    (c.alt [c.valueBetween '"', c.valueBetween '\'']) cur

/-- A value without quotes. -/
def bareValue : Parser (List Char) := c.takeWhile 1 isBareChar

/-- `=` and a value. -/
def assignment : Parser (List Char) :=
  c.preceded (c.pair c.spaces (c.pair (c.literal ['=']) c.spaces))
    (c.alt [c.quotedValue, c.bareValue])

/-- An attribute, with or without a value. -/
def tagAttribute : Parser TagAttribute :=
  c.map
    (fun ((name, value), span) =>
      ⟨String.ofList name,
        (value.map fun v => String.ofList (decodeReferences v)).getD "", span⟩)
    (c.withSpan (c.pair c.attributeName (c.optional c.assignment)))

/-- The attributes of a tag. -/
def attributes : Parser (List TagAttribute) := c.many (c.preceded c.someSpaces c.tagAttribute)

/-- A start tag. -/
def startTag : Parser Token := fun cur =>
  c.map
    (fun (name, attributes, _, slash, _) =>
      .startTag (String.ofList name) attributes slash.isSome)
    (c.preceded (c.literal ['<'])
      (c.pair c.tagName
        (c.within (Construct.startTag.context cur.offset)
          (c.commit
            (c.pair c.attributes
              (c.pair c.spaces (c.pair (c.optional (c.literal ['/'])) (c.literal ['>']))))))))
    cur

/-- An end tag. -/
def endTag : Parser Token := fun cur =>
  c.map (fun name => .endTag (String.ofList name))
    (c.preceded (c.literal ['<', '/'])
      (c.within (Construct.endTag.context cur.offset)
        (c.commit (c.terminated c.tagName (c.pair c.spaces (c.literal ['>']))))))
    cur

/-- A construct between two texts. -/
def delimited (construct : Construct) (opening closing : List Char) (content : Parser (List Char))
    (make : String → Token) : Parser Token := fun cur =>
  c.map (fun s => make (String.ofList s))
    (c.preceded (c.literal opening)
      (c.within (construct.context cur.offset)
        (c.commit (c.terminated content (c.literal closing)))))
    cur

/-- A comment. -/
def comment : Parser Token :=
  c.delimited .comment ['<', '!', '-', '-'] ['-', '-', '>'] (c.takeUntil 0 ['-', '-', '>']) .comment

/-- A CDATA section. -/
def cdata : Parser Token :=
  c.delimited .cdata ['<', '!', '[', 'C', 'D', 'A', 'T', 'A', '['] [']', ']', '>']
    (c.takeUntil 0 [']', ']', '>']) .cdata

/-- A declaration. -/
def declaration : Parser Token :=
  c.delimited .declaration ['<', '!'] ['>'] (c.takeTill 0 (· == '>')) .declaration

/-- A processing instruction. -/
def processingInstruction : Parser Token :=
  c.delimited .instruction ['<', '?'] ['?', '>'] (c.takeUntil 0 ['?', '>']) .instruction

/-- A `<` that opens nothing. -/
def strayAngle : Parser Token :=
  c.map (fun _ => .text "<")
    (c.terminated (c.literal ['<'])
      (c.peek (c.lacking (c.oneOf fun ch => isNameStart ch || ['/', '!', '?'].contains ch))))

/-- Text up to the next `<`. -/
def text : Parser Token :=
  c.map (fun raw => .text (String.ofList (decodeReferences raw))) (c.takeTill 1 (· == '<'))

/-- A token. Comments and CDATA sections are told from declarations, and end tags from start tags,
by coming first. -/
def token : Parser Token :=
  c.alt [c.comment, c.cdata, c.declaration, c.processingInstruction, c.endTag, c.startTag,
    c.strayAngle, c.text]

/-- A token with its place. -/
def placedToken : Parser PlacedToken :=
  c.map (fun (token, span) => ⟨token, span⟩) (c.withSpan c.token)

end Combinators

/-! ## Faults -/

namespace Fault

/-- What is told about a fault. -/
def context (fault : Fault) : Context := fault.construct.context fault.start

/-- The context is that of the fault, and the position is where reading stopped. -/
def Tells (fault : Fault) (context : Context) (stop : Cursor) : Prop :=
  context = fault.context ∧ stop = fault.stop

theorem tells (fault : Fault) : fault.Tells fault.context fault.stop := ⟨rfl, rfl⟩

/-- Of what tells of a fault, the fault is what is reported. -/
theorem Tells.diagnostic {fault : Fault} {context : Context} {stop : Cursor}
    (h : fault.Tells context stop) (more : List Context) :
    (Failure.cut (context :: more)).diagnostic stop.offset = fault.diagnostic := by
  obtain ⟨rfl, rfl⟩ := h
  rfl

end Fault

/-! ## Attributes -/

section
variable {cur inner : Cursor} {quote : Char}

namespace Combinators.Lawful

variable {c : Combinators} (laws : c.Lawful)
include laws

theorem valueBetween_none (h : cur.rest.head? ≠ some quote) :
    c.valueBetween quote cur = .failed (.backtrack []) cur := by
  refine laws.preceded_none (Cursor.skip?_eq_none fun ch hch => ?_)
  rintro rfl
  exact h hch

theorem valueBetween_some (h : cur.skip? [quote] = some inner) :
    c.valueBetween quote cur =
      (Reply.ofOption cur.finish (inner.takeUntil? [quote])).mapFailure Failure.commit := by
  rw [valueBetween, laws.preceded_some h, laws.commit, laws.terminated_takeTill,
    (Cursor.reads_skip? h).finish_eq]

theorem backtracks_quotedValue (hdouble : cur.rest.head? ≠ some '"')
    (hsingle : cur.rest.head? ≠ some '\'') : (c.quotedValue cur).Backtracks := by
  have hnone : ∀ p ∈ [c.valueBetween '"', c.valueBetween '\''], (p cur).Backtracks := by
    rw [List.forall_mem_cons, List.forall_mem_singleton, laws.valueBetween_none hdouble,
      laws.valueBetween_none hsingle]
    exact ⟨Reply.backtracks_failed .., Reply.backtracks_failed ..⟩
  obtain ⟨contexts, stop, h⟩ := laws.alt_none _ _ hnone
  rw [quotedValue, laws.within, h]
  exact Reply.backtracks_failed ..

/-- The alternatives of a value between quotes agree where their quote opens one. -/
theorem agrees_quotedValue (before : List (Parser (List Char))) {after : List (Parser (List Char))}
    (hvalues : [c.valueBetween '"', c.valueBetween '\''] =
      before ++ c.valueBetween quote :: after)
    (hbefore : ∀ p ∈ before, (p cur).Backtracks) (h : cur.rest.head? = some quote) :
    (c.quotedValue cur).Agrees Fault.Tells (scanQuoted quote cur) := by
  obtain ⟨rest, hrest⟩ : ∃ rest, cur.rest = [quote] ++ rest := by
    obtain ⟨rest, hrest⟩ := List.head?_eq_some_iff.1 h
    exact ⟨rest, hrest⟩
  have hskip := Cursor.skip?_past hrest
  have hvalue := laws.valueBetween_some hskip
  have hfinal : ¬ (c.valueBetween quote cur).Backtracks := by
    rw [hvalue]
    exact Reply.not_backtracks_commit
  rw [quotedValue, laws.within, hvalues, laws.alt_first _ _ _ _ hbefore hfinal, hvalue, scanQuoted,
    hskip, Option.bind_some]
  cases (cur.past [quote] rest).takeUntil? [quote] with
  | none => exact .fault (Fault.tells _)
  | some result => exact .done

theorem agrees_value (cur : Cursor) :
    (c.alt [c.quotedValue, c.bareValue] cur).Agrees Fault.Tells (scanValue cur) := by
  have quoted {quote : Char} (h : (c.quotedValue cur).Agrees Fault.Tells (scanQuoted quote cur)) :
      (c.alt [c.quotedValue, c.bareValue] cur).Agrees Fault.Tells (scanQuoted quote cur) := by
    refine laws.agrees_alt [] (List.forall_mem_nil _) h ?_
    rw [scanQuoted]
    split <;> simp
  unfold scanValue
  split
  next rest hr =>
    exact quoted (laws.agrees_quotedValue [] rfl (List.forall_mem_nil _) (by rw [hr]; rfl))
  next rest hr =>
    have hdouble : cur.rest.head? ≠ some '"' := by rw [hr, List.head?_cons]; decide
    refine quoted (laws.agrees_quotedValue [_] rfl ?_ (by rw [hr]; rfl))
    rw [List.forall_mem_singleton, laws.valueBetween_none hdouble]
    exact Reply.backtracks_failed ..
  next hdouble hsingle =>
    have hquoted : ∀ q ∈ [c.quotedValue], (q cur).Backtracks := by
      rw [List.forall_mem_singleton]
      refine laws.backtracks_quotedValue (fun h => ?_) fun h => ?_
      · obtain ⟨tail, htail⟩ := List.head?_eq_some_iff.1 h
        exact hdouble tail htail
      · obtain ⟨tail, htail⟩ := List.head?_eq_some_iff.1 h
        exact hsingle tail htail
    refine laws.agrees_alt_last [_] hquoted ?_
    rw [bareValue, laws.takeWhile, Reply.run_one]
    rcases cur.takeWhile isBareChar with ⟨_ | ⟨ch, value⟩, next⟩
    · exact .nothing
    · exact .done

theorem agrees_assignment (cur : Cursor) :
    (c.assignment cur).Agrees Fault.Tells (scanAssignment cur) := by
  rw [assignment, laws.preceded, laws.pair, laws.spaces_eq, Reply.bind_done, laws.pair,
    scanAssignment]
  cases hskip : (cur.skipWhile isSpace).skip? ['='] with
  | none =>
    rw [laws.literal_none hskip]
    exact .nothing
  | some next =>
    rw [laws.literal_some hskip, Reply.bind_done, laws.spaces_eq]
    exact laws.agrees_value _

theorem agrees_tagAttribute (cur : Cursor) :
    (c.tagAttribute cur).Agrees Fault.Tells (scanAttribute cur) := by
  rw [tagAttribute, laws.map, laws.withSpan, laws.pair, attributeName, laws.takeWhile,
    Reply.run_one, scanAttribute]
  rcases cur.takeWhile isKeyChar with ⟨_ | ⟨ch, name⟩, named⟩
  · exact .nothing
  have hvalue := laws.agrees_assignment named
  simp only [Reply.bind_done]
  generalize scanAssignment named = scanned at hvalue ⊢
  rcases scanned with fault | _ | ⟨value, next⟩
  · obtain ⟨context, more, stop, h, htells⟩ := Reply.agrees_error_iff.1 hvalue
    rw [laws.optional_cut h]
    exact .fault htells
  · rw [laws.optional_backtrack _ _ (Reply.agrees_none_iff.1 hvalue)]
    exact .done
  · rw [laws.optional_done (Reply.agrees_some_iff.1 hvalue)]
    exact .done

theorem agrees_spacedAttribute (cur : Cursor) :
    (c.preceded c.someSpaces c.tagAttribute cur).Agrees Fault.Tells
      (scanSpacedAttribute cur) := by
  rw [laws.preceded, laws.someSpaces, Reply.run_one, scanSpacedAttribute]
  rcases cur.takeWhile isSpace with ⟨_ | ⟨ch, spaces⟩, next⟩
  · exact .nothing
  · exact laws.agrees_tagAttribute next

theorem agrees_attributes (cur : Cursor) :
    (c.attributes cur).Agrees Fault.Tells ((scanAttributes cur).map some) := by
  have further {cur next : Cursor} {attr : TagAttribute}
      (hn : scanSpacedAttribute cur = .ok (some (attr, next))) :
      c.attributes cur = (c.attributes next).map (attr :: ·) := by
    have h := laws.agrees_spacedAttribute cur
    rw [hn] at h
    obtain ⟨s, hs, hread⟩ := reads_scanSpacedAttribute hn
    exact laws.many_done _ _ _ _ (Reply.agrees_some_iff.1 h) (hread.length_lt hs)
  fun_induction scanAttributes cur with
  | case1 cur fault hf =>
    have h := laws.agrees_spacedAttribute cur
    rw [hf] at h
    obtain ⟨context, more, stop, h, htells⟩ := Reply.agrees_error_iff.1 h
    rw [attributes, laws.many_cut _ _ _ _ h]
    exact .fault htells
  | case2 cur hn =>
    have h := laws.agrees_spacedAttribute cur
    rw [hn] at h
    rw [attributes, laws.many_backtrack _ _ (Reply.agrees_none_iff.1 h)]
    exact .done
  | case3 cur attr next hn fault hf ih =>
    rw [hf] at ih
    obtain ⟨context, more, stop, hrest, htells⟩ := Reply.agrees_error_iff.1 ih
    rw [further hn, hrest]
    exact .fault htells
  | case4 cur attr next hn attrs stop hs ih =>
    rw [hs] at ih
    rw [further hn, Reply.agrees_some_iff.1 ih]
    exact .done

end Combinators.Lawful

end

/-! ## Tags -/

section
variable {cur inner : Cursor} {construct : Construct} {token : Token}

/-- A tag name is read to its end, so whether there is one is told by the next character. -/
theorem head?_takeWhile_isNameChar (cs : List Char) :
    (cs.takeWhile isNameChar).head?.any isNameStart = cs.head?.any isNameStart := by
  cases cs with
  | nil => rfl
  | cons ch cs =>
    cases hc : isNameStart ch with
    | true => simp [isNameChar_of_isNameStart hc, hc]
    | false => by_cases hn : isNameChar ch = true <;> simp [hn, hc]

namespace Combinators.Lawful

variable {c : Combinators} (laws : c.Lawful)
include laws

theorem tagName_some (h : cur.rest.head?.any isNameStart = true) :
    c.tagName cur = .done (cur.takeWhile isNameChar).1 (cur.takeWhile isNameChar).2 := by
  have hname : (cur.takeWhile isNameChar).1.head?.any isNameStart = true :=
    (head?_takeWhile_isNameChar cur.rest).trans h
  rw [tagName, laws.verify, laws.takeWhile, Reply.run_one]
  generalize cur.takeWhile isNameChar = taken at hname ⊢
  rcases taken with ⟨_ | ⟨ch, name⟩, named⟩
  · cases hname
  · exact if_pos hname

theorem tagName_none (h : cur.rest.head?.any isNameStart = false) :
    c.tagName cur = .failed (.backtrack []) cur := by
  have hname : (cur.takeWhile isNameChar).1.head?.any isNameStart = false :=
    (head?_takeWhile_isNameChar cur.rest).trans h
  rw [tagName, laws.verify, laws.takeWhile, Reply.run_one]
  generalize cur.takeWhile isNameChar = taken at hname ⊢
  rcases taken with ⟨_ | ⟨ch, name⟩, named⟩
  · rfl
  · exact if_neg (by rw [hname]; exact Bool.false_ne_true)

/-- The `>` that a tag is committed to. -/
theorem agrees_tagEnd (construct : Construct) (start : Nat) (token : Token) (closing : Cursor) :
    ((((c.literal ['>'] closing).mapFailure Failure.commit).mapFailure
      (Failure.within (construct.context start))).map fun _ => token).Agrees Fault.Tells
        ((scanTagEnd construct start token closing).map some) := by
  rw [scanTagEnd]
  cases hclose : closing.skip? ['>'] with
  | none =>
    rw [laws.literal_none hclose]
    exact .fault (Fault.tells ⟨construct, start, closing⟩)
  | some next =>
    rw [laws.literal_some hclose]
    exact .done

theorem agrees_startTag (hopen : cur.skip? ['<'] = some inner)
    (hname : inner.rest.head?.any isNameStart = true) :
    (c.startTag cur).Agrees Fault.Tells ((scanStartTag cur inner).map some) := by
  have hattributes := laws.agrees_attributes (inner.takeWhile isNameChar).2
  simp only [startTag, laws.map, laws.preceded_some hopen, laws.pair, laws.tagName_some hname,
    Reply.bind_done, laws.within, laws.commit, scanStartTag]
  generalize scanAttributes (inner.takeWhile isNameChar).2 = scanned at hattributes ⊢
  rcases scanned with fault | ⟨attributes, stop⟩
  · obtain ⟨context, more, stop, h, htells⟩ := Reply.agrees_error_iff.1 hattributes
    rw [h]
    exact .fault htells
  · rw [Reply.agrees_some_iff.1 hattributes]
    simp only [Reply.bind_done, laws.spaces_eq]
    cases hslash : (stop.skipWhile isSpace).skip? ['/'] with
    | some slashed =>
      rw [laws.optional_done (laws.literal_some hslash)]
      simp only [Reply.bind_done, Reply.map_map, Reply.mapFailure_map]
      exact laws.agrees_tagEnd ..
    | none =>
      have hnone : (c.literal ['/'] (stop.skipWhile isSpace)).Backtracks := by
        rw [laws.literal_none hslash]
        exact Reply.backtracks_failed ..
      rw [laws.optional_backtrack _ _ hnone]
      simp only [Reply.bind_done, Reply.map_map, Reply.mapFailure_map]
      exact laws.agrees_tagEnd ..

theorem agrees_endTag (hopen : cur.skip? ['<', '/'] = some inner) :
    (c.endTag cur).Agrees Fault.Tells ((scanEndTag cur inner).map some) := by
  have hhead := head?_takeWhile_isNameChar inner.rest
  simp only [endTag, laws.map, laws.preceded_some hopen, laws.within, laws.commit,
    laws.terminated, scanEndTag]
  cases hname : inner.rest.head?.any isNameStart with
  | true =>
    have htaken : (inner.takeWhile isNameChar).1.head?.any isNameStart = true :=
      hhead.trans hname
    rw [laws.tagName_some hname, if_pos htaken]
    simp only [Reply.bind_done, laws.pair, laws.spaces_eq, Reply.map_map, Reply.mapFailure_map]
    exact laws.agrees_tagEnd ..
  | false =>
    have htaken : ¬ (inner.takeWhile isNameChar).1.head?.any isNameStart = true := by
      rw [Bool.not_eq_true]
      exact hhead.trans hname
    rw [laws.tagName_none hname, if_neg htaken]
    exact .fault (Fault.tells ⟨.endTag, cur.offset, inner⟩)

/-! ## Constructs between two texts -/

section
variable {opening closing : List Char} {content : Parser (List Char)} {make : String → Token}

theorem delimited_none (h : cur.skip? opening = none) :
    (c.delimited construct opening closing content make cur).Backtracks := by
  rw [delimited, laws.map, laws.preceded_none h]
  exact Reply.backtracks_failed ..

theorem agrees_delimited (construct : Construct) (make : String → Token) {stop : Cursor → Cursor}
    (hopen : cur.skip? opening = some inner)
    (hcontent : c.terminated content (c.literal closing) inner =
      .ofOption (stop inner) (inner.takeUntil? closing)) :
    (c.delimited construct opening closing content make cur).Agrees Fault.Tells
      ((scanDelimited construct closing make stop cur inner).map some) := by
  rw [delimited, laws.map, laws.preceded_some hopen, laws.within, laws.commit, hcontent,
    scanDelimited]
  rcases inner.takeUntil? closing with _ | ⟨s, next⟩
  · exact .fault (Fault.tells ⟨construct, cur.offset, stop inner⟩)
  · exact .done

end

/-! ## A token -/

theorem startTag_none (hopen : cur.skip? ['<'] = some inner)
    (hname : inner.rest.head?.any isNameStart = false) : (c.startTag cur).Backtracks := by
  rw [startTag, laws.map, laws.preceded_some hopen, laws.pair, laws.tagName_none hname]
  exact Reply.backtracks_failed ..

theorem strayAngle_some (hopen : cur.skip? ['<'] = some inner)
    (hbang : ∀ rest, inner.rest ≠ '!' :: rest) (hquestion : ∀ rest, inner.rest ≠ '?' :: rest)
    (hslash : ∀ rest, inner.rest ≠ '/' :: rest)
    (hname : inner.rest.head?.any isNameStart = false) :
    c.strayAngle cur = .done (.text "<") inner := by
  have hone :
      (c.oneOf (fun ch => isNameStart ch || ['/', '!', '?'].contains ch) inner).Backtracks := by
    rw [laws.oneOf]
    cases hr : inner.rest with
    | nil => exact Reply.backtracks_failed ..
    | cons ch rest =>
      have hno : ¬ (isNameStart ch || ['/', '!', '?'].contains ch) = true := by
        rw [hr] at hname
        have hbang : ch ≠ '!' := fun h => hbang rest (by rw [hr, h])
        have hquestion : ch ≠ '?' := fun h => hquestion rest (by rw [hr, h])
        have hslash : ch ≠ '/' := fun h => hslash rest (by rw [hr, h])
        have hstart : isNameStart ch = false := hname
        simp [hstart, hslash, hbang, hquestion]
      simp only [if_neg hno]
      exact Reply.backtracks_failed ..
  simp only [strayAngle, laws.map, laws.terminated, laws.literal_some hopen, Reply.bind_done,
    laws.peek, laws.lacking_backtrack _ _ hone, Reply.map_done]

theorem strayAngle_none (h : cur.skip? ['<'] = none) : (c.strayAngle cur).Backtracks := by
  rw [strayAngle, laws.map, laws.terminated, laws.literal_none h]
  exact Reply.backtracks_failed ..

theorem text_eq (hne : cur.rest ≠ []) (hlt : cur.skip? ['<'] = none) :
    c.text cur = .done (.text (String.ofList (decodeReferences (cur.takeWhile (· ≠ '<')).1)))
      (cur.takeWhile (· ≠ '<')).2 := by
  have hclass : (fun ch => !(ch == '<')) = fun ch => decide (ch ≠ '<') := by
    funext ch
    by_cases h : ch = '<' <;> simp [h]
  have htaken : (cur.takeWhile (· ≠ '<')).1 ≠ [] := by
    obtain ⟨ch, rest, hr⟩ := List.exists_cons_of_ne_nil hne
    have hch : ch ≠ '<' := by
      rintro rfl
      have hopen : cur.skip? ['<'] = some (cur.past ['<'] rest) := Cursor.skip?_past hr
      rw [hopen] at hlt
      cases hlt
    simp [Cursor.takeWhile, hr, hch]
  rw [text, laws.map, laws.takeTill, hclass, Reply.run_one]
  generalize cur.takeWhile (fun ch => decide (ch ≠ '<')) = taken at htaken ⊢
  rcases taken with ⟨_ | ⟨ch, raw⟩, next⟩
  · exact absurd rfl htaken
  · rfl

/-- No construct between two texts comes next. -/
theorem constructs_none (hbang : ∀ rest, cur.rest ≠ '<' :: '!' :: rest)
    (hquestion : ∀ rest, cur.rest ≠ '<' :: '?' :: rest) :
    ∀ q ∈ [c.comment, c.cdata, c.declaration, c.processingInstruction], (q cur).Backtracks := by
  simp only [List.forall_mem_cons]
  exact ⟨laws.delimited_none (Cursor.skip?_eq_none_of fun _ => hbang _),
    laws.delimited_none (Cursor.skip?_eq_none_of fun _ => hbang _),
    laws.delimited_none (Cursor.skip?_eq_none_of fun _ => hbang _),
    laws.delimited_none (Cursor.skip?_eq_none_of fun _ => hquestion _), List.forall_mem_nil _⟩

theorem endTag_none (h : ∀ rest, cur.rest ≠ '<' :: '/' :: rest) : (c.endTag cur).Backtracks := by
  rw [endTag, laws.map, laws.preceded_none (Cursor.skip?_eq_none_of h)]
  exact Reply.backtracks_failed ..

/-- **Wherever text is left, the grammar replies what scanning a token gives.** In particular it
does not backtrack: it has a token, or it has committed to a construct. -/
theorem agrees_token (hne : cur.rest ≠ []) :
    (c.token cur).Agrees Fault.Tells ((scanToken cur).map some) := by
  have found {result : Except Fault (Token × Cursor)} := Reply.map_some_ne result
  have delimited {construct : Construct} {opening closing : List Char}
      {content : Parser (List Char)} {make : String → Token}
      (h : ∀ rest, cur.rest ≠ opening ++ rest) :
      (c.delimited construct opening closing content make cur).Backtracks :=
    laws.delimited_none (Cursor.skip?_eq_none_of h)
  -- the alternatives before the one that scanning chooses do not begin as the text does
  unfold scanToken
  split
  next rest hr =>
    exact laws.agrees_alt [] (List.forall_mem_nil _)
      (laws.agrees_delimited .comment .comment (Cursor.skip?_past hr)
        (laws.terminated_takeUntil _ _)) found
  next rest hr =>
    refine laws.agrees_alt [c.comment] ?_
      (laws.agrees_delimited .cdata .cdata (Cursor.skip?_past hr)
        (laws.terminated_takeUntil _ _)) found
    rw [List.forall_mem_singleton]
    exact delimited fun _ h => by cases hr.symm.trans h
  next rest hcomment hcdata hr =>
    refine laws.agrees_alt [c.comment, c.cdata] ?_
      (laws.agrees_delimited .declaration .declaration (Cursor.skip?_past hr)
        (laws.terminated_takeTill _ _)) found
    simp only [List.forall_mem_cons]
    refine ⟨delimited fun t h => ?_, delimited fun t h => ?_, List.forall_mem_nil _⟩
    · cases hr.symm.trans h
      exact hcomment _ rfl
    · cases hr.symm.trans h
      exact hcdata _ rfl
  next rest hr =>
    refine laws.agrees_alt [c.comment, c.cdata, c.declaration] ?_
      (laws.agrees_delimited .instruction .instruction (Cursor.skip?_past hr)
        (laws.terminated_takeUntil _ _)) found
    simp only [List.forall_mem_cons]
    exact ⟨delimited fun _ h => (by cases hr.symm.trans h),
      delimited fun _ h => (by cases hr.symm.trans h),
      delimited fun _ h => (by cases hr.symm.trans h), List.forall_mem_nil _⟩
  next rest hr =>
    exact laws.agrees_alt [_, _, _, _]
      (laws.constructs_none (fun _ h => by cases hr.symm.trans h) fun _ h => by
        cases hr.symm.trans h)
      (laws.agrees_endTag (Cursor.skip?_past hr)) found
  next rest _ _ hbang hquestion hslash hr =>
    have hopen : cur.skip? ['<'] = some (cur.past ['<'] rest) := Cursor.skip?_past hr
    have hconstructs := laws.constructs_none
      (fun _ h => (by cases hr.symm.trans h; exact hbang _ rfl))
      fun _ h => (by cases hr.symm.trans h; exact hquestion _ rfl)
    have hend := laws.endTag_none fun _ h => (by cases hr.symm.trans h; exact hslash _ rfl)
    have hbefore := List.forall_mem_append.2 ⟨hconstructs, List.forall_mem_singleton.2 hend⟩
    split
    next hname => exact laws.agrees_alt _ hbefore (laws.agrees_startTag hopen hname) found
    next hname =>
      rw [Bool.not_eq_true] at hname
      have hstart := laws.startTag_none hopen hname
      refine laws.agrees_alt _
        (List.forall_mem_append.2 ⟨hbefore, List.forall_mem_singleton.2 hstart⟩) ?_ found
      rw [laws.strayAngle_some hopen hbang hquestion hslash hname]
      exact .done
  next _ _ hbang hquestion hslash hlt =>
    have hopen : cur.skip? ['<'] = none := Cursor.skip?_eq_none_of hlt
    have hstart : (c.startTag cur).Backtracks := by
      rw [startTag, laws.map, laws.preceded_none hopen]
      exact Reply.backtracks_failed ..
    refine laws.agrees_alt_last
      [c.comment, c.cdata, c.declaration, c.processingInstruction, c.endTag, c.startTag,
        c.strayAngle] ?_ ?_
    · refine List.forall_mem_append.2 ⟨laws.constructs_none hbang hquestion, ?_⟩
      simp only [List.forall_mem_cons]
      exact ⟨laws.endTag_none hslash, hstart, laws.strayAngle_none hopen, List.forall_mem_nil _⟩
    · rw [laws.text_eq hne hopen]
      exact .done

theorem placedToken_ok {next : Cursor} (hne : cur.rest ≠ [])
    (h : scanToken cur = .ok (token, next)) :
    c.placedToken cur = .done ⟨token, cur.spanTo next⟩ next := by
  have hreply := laws.agrees_token hne
  rw [h] at hreply
  rw [placedToken, laws.map, laws.withSpan, Reply.agrees_some_iff.1 hreply]
  rfl

theorem placedToken_error {fault : Fault} (hne : cur.rest ≠ [])
    (h : scanToken cur = .error fault) : ∃ context more stop,
      c.placedToken cur = .failed (.cut (context :: more)) stop ∧ fault.Tells context stop := by
  have hreply := laws.agrees_token hne
  rw [h] at hreply
  obtain ⟨context, more, stop, hreply, htells⟩ := Reply.agrees_error_iff.1 hreply
  refine ⟨context, more, stop, ?_, htells⟩
  rw [placedToken, laws.map, laws.withSpan, hreply]
  rfl

end Combinators.Lawful

end

end ComponentMarkup.Markup
