/-
  Reading tokens from source text.

  * `scanToken`: one token, chosen by the first characters: comment, CDATA section, declaration,
    processing instruction, end tag, start tag, a `<` that opens nothing, text.
  * `scanBody?`: the body of a `script` or `style` element, up to its end tag.
  * `scan`: all tokens and faults in source order; after a fault reading goes on at
    `Fault.resume`, so that all faults are found in one pass.
  * `tokenize`: the tokens, or the report on all faults.

  Each step reads at least one character (`reads_scanToken`, `reads_fault`), so `scan` ends.
-/
import ComponentMarkup.Markup.Token.Attribute
import ComponentMarkup.Text.Case

namespace ComponentMarkup.Markup

/-! ## Constructs -/

/-- Reads a construct from `inner`, after its opening characters at `cur`, to the next `closing`.
Without one, reading stops at `stop inner`. -/
def scanDelimited (construct : Construct) (closing : List Char) (token : String → Token)
    (stop : Cursor → Cursor) (cur inner : Cursor) : Except Fault (Token × Cursor) :=
  match inner.takeUntil? closing with
  | some (content, next) => .ok (token (String.ofList content), next)
  | none => .error ⟨construct, cur.offset, stop inner⟩

/-- Reads the `>` that ends a tag. -/
def scanTagEnd (construct : Construct) (start : Nat) (token : Token) (closing : Cursor) :
    Except Fault (Token × Cursor) :=
  match closing.skip? ['>'] with
  | some next => .ok (token, next)
  | none => .error ⟨construct, start, closing⟩

/-- Reads a start tag from its name at `inner`, after the `<` at `cur`. -/
def scanStartTag (cur inner : Cursor) : Except Fault (Token × Cursor) :=
  match inner.takeWhile isNameChar with
  | (name, named) =>
    match scanAttributes named with
    | .error fault => .error fault
    | .ok (attributes, stop) =>
      match (stop.skipWhile isSpace).skip? ['/'] with
      | some slashed =>
        scanTagEnd .startTag cur.offset (.startTag (String.ofList name) attributes true) slashed
      | none =>
        scanTagEnd .startTag cur.offset (.startTag (String.ofList name) attributes false)
          (stop.skipWhile isSpace)

/-- Reads an end tag from its name at `inner`, after the `</` at `cur`. -/
def scanEndTag (cur inner : Cursor) : Except Fault (Token × Cursor) :=
  match inner.takeWhile isNameChar with
  | (name, named) =>
    if name.head?.any isNameStart then
      scanTagEnd .endTag cur.offset (.endTag (String.ofList name)) (named.skipWhile isSpace)
    else .error ⟨.endTag, cur.offset, inner⟩

/-- Reads one token. The text must not be at its end. -/
def scanToken (cur : Cursor) : Except Fault (Token × Cursor) :=
  match cur.rest with
  | '<' :: '!' :: '-' :: '-' :: rest =>
    scanDelimited .comment ['-', '-', '>'] .comment id cur
      (cur.past ['<', '!', '-', '-'] rest)
  | '<' :: '!' :: '[' :: 'C' :: 'D' :: 'A' :: 'T' :: 'A' :: '[' :: rest =>
    scanDelimited .cdata [']', ']', '>'] .cdata id cur
      (cur.past ['<', '!', '[', 'C', 'D', 'A', 'T', 'A', '['] rest)
  | '<' :: '!' :: rest =>
    scanDelimited .declaration ['>'] .declaration .finish cur (cur.past ['<', '!'] rest)
  | '<' :: '?' :: rest =>
    scanDelimited .instruction ['?', '>'] .instruction id cur (cur.past ['<', '?'] rest)
  | '<' :: '/' :: rest => scanEndTag cur (cur.past ['<', '/'] rest)
  | '<' :: rest =>
    if rest.head?.any isNameStart then scanStartTag cur (cur.past ['<'] rest)
    else .ok (.text "<", cur.past ['<'] rest)
  | _ =>
    match cur.takeWhile (· ≠ '<') with
    | (raw, next) => .ok (.text (String.ofList (decodeReferences raw)), next)

section
variable {cur inner next stop : Cursor} {token : Token} {fault : Fault}

theorem reads_scanDelimited {construct : Construct} {closing : List Char} {make : String → Token}
    {stop : Cursor → Cursor}
    (h : scanDelimited construct closing make stop cur inner = .ok (token, next)) :
    ∃ s, inner.Reads s next := by
  unfold scanDelimited at h
  split at h
  next hn => cases h; exact ⟨_, Cursor.reads_takeUntil? hn⟩
  next => cases h

theorem fault_scanDelimited {construct : Construct} {closing : List Char} {make : String → Token}
    {stop : Cursor → Cursor}
    (h : scanDelimited construct closing make stop cur inner = .error fault) :
    fault.stop = stop inner := by
  unfold scanDelimited at h
  split at h <;> cases h
  rfl

theorem reads_scanTagEnd {construct : Construct} {start : Nat} {made : Token}
    (h : scanTagEnd construct start made cur = .ok (token, next)) : cur.Reads ['>'] next := by
  unfold scanTagEnd at h
  split at h
  next hc => cases h; exact Cursor.reads_skip? hc
  next => cases h

theorem fault_scanTagEnd {construct : Construct} {start : Nat} {made : Token}
    (h : scanTagEnd construct start made cur = .error fault) : fault.stop = cur := by
  unfold scanTagEnd at h
  split at h <;> cases h
  rfl

theorem reads_scanStartTag (h : scanStartTag cur inner = .ok (token, next)) :
    ∃ s, inner.Reads s next := by
  have hr := Cursor.reads_takeWhile isNameChar inner
  unfold scanStartTag at h
  split at h
  next name named hn =>
    rw [hn] at hr
    split at h
    next => cases h
    next attributes stop ha =>
      obtain ⟨s, hs⟩ := reads_scanAttributes ha
      have hsp := (hr.trans hs).trans (Cursor.reads_takeWhile isSpace stop)
      split at h
      next hsl => exact ⟨_, (hsp.trans (Cursor.reads_skip? hsl)).trans (reads_scanTagEnd h)⟩
      next => exact ⟨_, hsp.trans (reads_scanTagEnd h)⟩

theorem fault_scanStartTag (h : scanStartTag cur inner = .error fault) :
    ∃ s, inner.Reads s fault.stop := by
  have hr := Cursor.reads_takeWhile isNameChar inner
  unfold scanStartTag at h
  split at h
  next name named hn =>
    rw [hn] at hr
    split at h
    next hf =>
      cases h
      obtain ⟨s, hs⟩ := fault_scanAttributes hf
      exact ⟨_, hr.trans hs⟩
    next attributes stop ha =>
      obtain ⟨s, hs⟩ := reads_scanAttributes ha
      have hsp := (hr.trans hs).trans (Cursor.reads_takeWhile isSpace stop)
      split at h
      next hsl => rw [fault_scanTagEnd h]; exact ⟨_, hsp.trans (Cursor.reads_skip? hsl)⟩
      next => rw [fault_scanTagEnd h]; exact ⟨_, hsp⟩

theorem reads_scanEndTag (h : scanEndTag cur inner = .ok (token, next)) :
    ∃ s, inner.Reads s next := by
  have hr := Cursor.reads_takeWhile isNameChar inner
  unfold scanEndTag at h
  split at h
  next name named hn =>
    rw [hn] at hr
    split at h
    next =>
      exact ⟨_, (hr.trans (Cursor.reads_takeWhile isSpace named)).trans (reads_scanTagEnd h)⟩
    next => cases h

theorem fault_scanEndTag (h : scanEndTag cur inner = .error fault) :
    ∃ s, inner.Reads s fault.stop := by
  have hr := Cursor.reads_takeWhile isNameChar inner
  unfold scanEndTag at h
  split at h
  next name named hn =>
    rw [hn] at hr
    split at h
    next =>
      rw [fault_scanTagEnd h]
      exact ⟨_, hr.trans (Cursor.reads_takeWhile isSpace named)⟩
    next => cases h; exact ⟨_, Cursor.Reads.refl _⟩

/-- A token takes at least one character. -/
theorem reads_scanToken (hne : cur.rest ≠ []) (h : scanToken cur = .ok (token, next)) :
    ∃ s, s ≠ [] ∧ cur.Reads s next := by
  have after : ∀ (opening : List Char) {rest : List Char}, cur.rest = opening ++ rest →
      opening ≠ [] → (∃ s, (cur.past opening rest).Reads s next) →
        ∃ s, s ≠ [] ∧ cur.Reads s next := by
    intro opening rest hr ho ⟨s, hs⟩
    exact ⟨opening ++ s, by simp [ho], (Cursor.reads_past hr).trans hs⟩
  unfold scanToken at h
  split at h
  next hr => exact after ['<', '!', '-', '-'] hr (by simp) (reads_scanDelimited h)
  next hr =>
    exact after ['<', '!', '[', 'C', 'D', 'A', 'T', 'A', '['] hr (by simp) (reads_scanDelimited h)
  next hr => exact after ['<', '!'] hr (by simp) (reads_scanDelimited h)
  next hr => exact after ['<', '?'] hr (by simp) (reads_scanDelimited h)
  next hr => exact after ['<', '/'] hr (by simp) (reads_scanEndTag h)
  next hr =>
    split at h
    next => exact after ['<'] hr (by simp) (reads_scanStartTag h)
    next => cases h; exact ⟨['<'], by simp, Cursor.reads_past hr⟩
  next hr =>
    split at h
    next raw n hn =>
      cases h
      have hr' := Cursor.reads_takeWhile (fun c => decide (c ≠ '<')) cur
      rw [hn] at hr'
      refine ⟨raw, ?_, hr'⟩
      obtain ⟨c, cs, hc⟩ := List.exists_cons_of_ne_nil hne
      have hc' : c ≠ '<' := fun he => by
        subst he
        rcases cs with _ | ⟨d, ds⟩ <;> exact hr _ hc
      have : raw = (cur.takeWhile fun c => decide (c ≠ '<')).1 := by rw [hn]
      rw [this, Cursor.takeWhile, hc]
      simp [hc']

/-- A fault takes at least one character before reading goes on. -/
theorem reads_fault (h : scanToken cur = .error fault) :
    ∃ s, s ≠ [] ∧ cur.Reads s fault.resume := by
  have after : ∀ (opening : List Char) {rest : List Char}, cur.rest = opening ++ rest →
      opening ≠ [] → (∃ s, (cur.past opening rest).Reads s fault.stop) →
        ∃ s, s ≠ [] ∧ cur.Reads s fault.resume := by
    intro opening rest hr ho ⟨s, hs⟩
    obtain ⟨t, ht⟩ := fault.reads_resume
    exact ⟨opening ++ (s ++ t), by simp [ho], (Cursor.reads_past hr).trans (hs.trans ht)⟩
  unfold scanToken at h
  split at h
  next hr =>
    exact after ['<', '!', '-', '-'] hr (by simp)
      ⟨_, by rw [fault_scanDelimited h]; exact Cursor.Reads.refl _⟩
  next hr =>
    exact after ['<', '!', '[', 'C', 'D', 'A', 'T', 'A', '['] hr (by simp)
      ⟨_, by rw [fault_scanDelimited h]; exact Cursor.Reads.refl _⟩
  next hr =>
    exact after ['<', '!'] hr (by simp)
      ⟨_, by rw [fault_scanDelimited h]; exact Cursor.reads_finish _⟩
  next hr =>
    exact after ['<', '?'] hr (by simp)
      ⟨_, by rw [fault_scanDelimited h]; exact Cursor.Reads.refl _⟩
  next hr => exact after ['<', '/'] hr (by simp) (fault_scanEndTag h)
  next hr =>
    split at h
    next => exact after ['<'] hr (by simp) (fault_scanStartTag h)
    next => cases h
  next hr => split at h; cases h

end

/-! ## Raw bodies -/

/-- The elements whose body is kept as written up to their end tag. -/
def isRawName (name : String) : Bool :=
  Text.sameName name "script" || Text.sameName name "style"

/-- The text before and from the first place where `opening`, in small letters, comes next in any
case. -/
def splitBefore (opening : List Char) : List Char → List Char × List Char
  | [] => ([], [])
  | c :: cs =>
    if ((c :: cs).take opening.length).map Char.toLower == opening then ([], c :: cs)
    else (c :: (splitBefore opening cs).1, (splitBefore opening cs).2)

theorem splitBefore_append (opening cs : List Char) :
    (splitBefore opening cs).1 ++ (splitBefore opening cs).2 = cs := by
  induction cs with
  | nil => simp [splitBefore]
  | cons c cs ih => by_cases h : ((c :: cs).take opening.length).map Char.toLower == opening <;>
      simp_all [splitBefore]

/-- The body that follows a start tag, if it is kept as written and not empty. -/
def scanBody? (token : Token) (cur : Cursor) : Option (List Char × Cursor) :=
  match token with
  | .startTag name _ false =>
    if isRawName name then
      match splitBefore (['<', '/'] ++ (Text.asciiLower name).toList) cur.rest with
      | ([], _) => none
      | (body, rest) => some (body, cur.past body rest)
    else none
  | _ => none

theorem reads_scanBody? {token : Token} {cur next : Cursor} {body : List Char}
    (h : scanBody? token cur = some (body, next)) : cur.Reads body next := by
  unfold scanBody? at h
  split at h
  next name attributes =>
    split at h
    next =>
      split at h
      next => cases h
      next b rest _ hb =>
        cases h
        have := splitBefore_append (['<', '/'] ++ (Text.asciiLower name).toList) cur.rest
        rw [hb] at this
        exact Cursor.reads_past this.symm
    next => cases h
  next => cases h

/-! ## The whole source -/

/-- All tokens and faults from a position on, in source order. -/
def scan (cur : Cursor) : List (Except Fault PlacedToken) :=
  if _hne : cur.rest = [] then []
  else
    match _h : scanToken cur with
    | .error fault => .error fault :: scan fault.resume
    | .ok (token, next) =>
      .ok ⟨token, cur.spanTo next⟩ ::
        match _hb : scanBody? token next with
        | none => scan next
        | some (body, after) =>
          .ok ⟨.rawText (String.ofList body), next.spanTo after⟩ :: scan after
termination_by cur.rest.length
decreasing_by
  · obtain ⟨s, hs, hr⟩ := reads_fault _h
    exact hr.length_lt hs
  · obtain ⟨s, hs, hr⟩ := reads_scanToken _hne _h
    exact hr.length_lt hs
  · obtain ⟨s, hs, hr⟩ := reads_scanToken _hne _h
    exact Nat.lt_of_le_of_lt (reads_scanBody? _hb).length_le (hr.length_lt hs)

/-- The faults among the scanned pieces. -/
def faultsOf (pieces : List (Except Fault PlacedToken)) : List Fault :=
  pieces.filterMap fun
    | .error fault => some fault
    | .ok _ => none

/-- The tokens among the scanned pieces. -/
def tokensOf (pieces : List (Except Fault PlacedToken)) : List PlacedToken :=
  pieces.filterMap fun
    | .error _ => none
    | .ok token => some token

/-- The tokens of a source text, or all its faults. -/
def tokenize (source : String) : Except ParseError (List PlacedToken) :=
  let pieces := scan (.ofString source)
  match faultsOf pieces with
  | [] => .ok (tokensOf pieces)
  | faults => .error ⟨faults.map Fault.diagnostic⟩

end ComponentMarkup.Markup
