/-
  Reading the attributes of a tag.

  * `isNameChar`, `isKeyChar`, `isBareChar`: the characters of tag names, of attribute names and of
    values without quotes.
  * `scanValue`: a value between double quotes, between single quotes or without quotes. A quote
    that is not closed is a fault; all else that is no value reads nothing.
  * `scanAttributes`: all attributes, each after spaces. It stops where the next one cannot be read.

  A step that succeeds reads characters (`reads_scanSpacedAttribute`), and the position of a fault
  is reached by reading (`fault_scanAttributes`).
-/
import ComponentMarkup.Markup.Reference
import ComponentMarkup.Markup.Token
import ComponentMarkup.Text.Alphabetic
import ComponentMarkup.Text.Blank

namespace ComponentMarkup.Markup

open Text (isAlphabetic isAlphanumeric isBlank)

/-! ## Character classes -/

/-- The characters that separate the parts of a tag. -/
def isSpace (c : Char) : Bool :=
  c == ' ' || c == '\t' || c == '\r' || c == '\n'

/-- A character that a tag name can start with. -/
def isNameStart (c : Char) : Bool :=
  isAlphabetic c || c == '_' || c == ':'

/-- A character of a tag name. -/
def isNameChar (c : Char) : Bool :=
  isAlphanumeric c || c == '-' || c == '_' || c == ':' || c == '.'

/-- A character of an attribute name. -/
def isKeyChar (c : Char) : Bool :=
  !isBlank c && !(['"', '\'', '<', '>', '/', '='].contains c)

/-- A character of an attribute value without quotes. -/
def isBareChar (c : Char) : Bool :=
  !isBlank c && !(['"', '\'', '<', '>', '=', '\x60'].contains c)

/-! ## Attributes -/

/-- What a step of reading gives: a fault, nothing, or a value and the position after it. -/
abbrev Scanned (α : Type) := Except Fault (Option (α × Cursor))

/-- Reads a quoted value from its opening quote. -/
def scanQuoted (quote : Char) (open_ : Cursor) : Scanned (List Char) :=
  match (open_.skip? [quote]).bind (·.takeUntil? [quote]) with
  | some (value, next) => .ok (some (value, next))
  | none => .error ⟨.value, open_.offset, open_.finish⟩

/-- Reads a value: between double quotes, between single quotes, or without quotes. -/
def scanValue (cur : Cursor) : Scanned (List Char) :=
  match cur.rest with
  | '"' :: _ => scanQuoted '"' cur
  | '\'' :: _ => scanQuoted '\'' cur
  | _ =>
    match cur.takeWhile isBareChar with
    | ([], _) => .ok none
    | (value, next) => .ok (some (value, next))

/-- Reads `=` and a value, with spaces around the sign. -/
def scanAssignment (cur : Cursor) : Scanned (List Char) :=
  match (cur.skipWhile isSpace).skip? ['='] with
  | none => .ok none
  | some next => scanValue (next.skipWhile isSpace)

/-- Reads an attribute: a name, and a value if one is assigned. -/
def scanAttribute (cur : Cursor) : Scanned TagAttribute :=
  match cur.takeWhile isKeyChar with
  | ([], _) => .ok none
  | (name, named) =>
    match scanAssignment named with
    | .error fault => .error fault
    | .ok none => .ok (some (⟨String.ofList name, "", cur.spanTo named⟩, named))
    | .ok (some (value, next)) =>
      .ok (some
        (⟨String.ofList name, String.ofList (decodeReferences value), cur.spanTo next⟩, next))

/-- Reads spaces and an attribute after them. -/
def scanSpacedAttribute (cur : Cursor) : Scanned TagAttribute :=
  match cur.takeWhile isSpace with
  | ([], _) => .ok none
  | (_, next) => scanAttribute next

section
variable {cur next stop : Cursor} {value s : List Char} {quote : Char} {fault : Fault}
  {attr : TagAttribute}

theorem reads_scanQuoted (h : scanQuoted quote cur = .ok (some (value, next))) :
    cur.Reads (quote :: (value ++ [quote])) next := by
  unfold scanQuoted at h
  split at h
  next v n hv =>
    cases h
    obtain ⟨inner, hi, hn⟩ := Option.bind_eq_some_iff.1 hv
    exact (Cursor.reads_skip? hi).trans (Cursor.reads_takeUntil? hn)
  next => cases h

theorem reads_scanValue (h : scanValue cur = .ok (some (value, next))) :
    ∃ s, s ≠ [] ∧ cur.Reads s next := by
  unfold scanValue at h
  split at h
  · exact ⟨_, by simp, reads_scanQuoted h⟩
  · exact ⟨_, by simp, reads_scanQuoted h⟩
  · split at h
    next => cases h
    next v n hne hv =>
      cases h
      refine ⟨value, fun he => hne he, ?_⟩
      have := Cursor.reads_takeWhile isBareChar cur
      rwa [hv] at this

theorem reads_scanAssignment (h : scanAssignment cur = .ok (some (value, next))) :
    ∃ s, s ≠ [] ∧ cur.Reads s next := by
  unfold scanAssignment at h
  split at h
  next => cases h
  next after ha =>
    obtain ⟨s, hs, hr⟩ := reads_scanValue h
    refine ⟨_, ?_, (Cursor.reads_takeWhile isSpace cur).trans
      ((Cursor.reads_skip? ha).trans ((Cursor.reads_takeWhile isSpace after).trans hr))⟩
    simp

theorem reads_scanAttribute (h : scanAttribute cur = .ok (some (attr, next))) :
    ∃ s, s ≠ [] ∧ cur.Reads s next := by
  unfold scanAttribute at h
  split at h
  next => cases h
  next name named hne hn =>
    have hname : name ≠ [] := fun he => hne he
    have hr := Cursor.reads_takeWhile isKeyChar cur
    rw [hn] at hr
    split at h
    next => cases h
    next => cases h; exact ⟨name, hname, hr⟩
    next v after hv =>
      cases h
      obtain ⟨s, -, hs⟩ := reads_scanAssignment hv
      exact ⟨name ++ s, by simp [hname], hr.trans hs⟩

theorem reads_scanSpacedAttribute
    (h : scanSpacedAttribute cur = .ok (some (attr, next))) :
    ∃ s, s ≠ [] ∧ cur.Reads s next := by
  unfold scanSpacedAttribute at h
  split at h
  next => cases h
  next spaces after hne hn =>
    have hr := Cursor.reads_takeWhile isSpace cur
    rw [hn] at hr
    obtain ⟨s, hs, hs'⟩ := reads_scanAttribute h
    exact ⟨spaces ++ s, by simp [hs], hr.trans hs'⟩

/-- A value that cannot be read stops at the end of the text. -/
theorem fault_scanValue (h : scanValue cur = .error fault) : fault.stop = cur.finish := by
  have quoted : ∀ quote, scanQuoted quote cur = .error fault → fault.stop = cur.finish := by
    intro quote hq
    unfold scanQuoted at hq
    split at hq
    · cases hq
    · cases hq; rfl
  unfold scanValue at h
  split at h
  · exact quoted _ h
  · exact quoted _ h
  · split at h <;> cases h

theorem fault_scanAssignment (h : scanAssignment cur = .error fault) :
    ∃ s, cur.Reads s fault.stop := by
  unfold scanAssignment at h
  split at h
  next => cases h
  next after ha =>
    rw [fault_scanValue h]
    exact ⟨_, (Cursor.reads_takeWhile isSpace cur).trans ((Cursor.reads_skip? ha).trans
      ((Cursor.reads_takeWhile isSpace after).trans (Cursor.reads_finish _)))⟩

theorem fault_scanSpacedAttribute (h : scanSpacedAttribute cur = .error fault) :
    ∃ s, cur.Reads s fault.stop := by
  unfold scanSpacedAttribute at h
  split at h
  next => cases h
  next spaces after _ hn =>
    have hr := Cursor.reads_takeWhile isSpace cur
    rw [hn] at hr
    unfold scanAttribute at h
    split at h
    next => cases h
    next name named _ hm =>
      have hr' := Cursor.reads_takeWhile isKeyChar after
      rw [hm] at hr'
      split at h
      next hv =>
        cases h
        obtain ⟨s, hs⟩ := fault_scanAssignment hv
        exact ⟨_, hr.trans (hr'.trans hs)⟩
      all_goals cases h

end

/-- Reads all attributes of a tag. -/
def scanAttributes (cur : Cursor) : Except Fault (List TagAttribute × Cursor) :=
  match _h : scanSpacedAttribute cur with
  | .error fault => .error fault
  | .ok none => .ok ([], cur)
  | .ok (some (attr, next)) =>
    match scanAttributes next with
    | .error fault => .error fault
    | .ok (attributes, stop) => .ok (attr :: attributes, stop)
termination_by cur.rest.length
decreasing_by
  obtain ⟨s, hs, hr⟩ := reads_scanSpacedAttribute _h
  exact hr.length_lt hs

section
variable {cur stop : Cursor} {attributes : List TagAttribute} {fault : Fault}

theorem reads_scanAttributes (h : scanAttributes cur = .ok (attributes, stop)) :
    ∃ s, cur.Reads s stop := by
  fun_induction scanAttributes cur generalizing attributes stop with
  | case1 => cases h
  | case2 => cases h; exact ⟨_, Cursor.Reads.refl _⟩
  | case3 => cases h
  | case4 cur attr next hn attrs stop' hs ih =>
    cases h
    obtain ⟨s, -, hr⟩ := reads_scanSpacedAttribute hn
    obtain ⟨t, ht⟩ := ih hs
    exact ⟨_, hr.trans ht⟩

theorem fault_scanAttributes (h : scanAttributes cur = .error fault) :
    ∃ s, cur.Reads s fault.stop := by
  fun_induction scanAttributes cur generalizing fault with
  | case1 _ _ hf => cases h; exact fault_scanSpacedAttribute hf
  | case2 => cases h
  | case3 cur attr next hn _ hf ih =>
    cases h
    obtain ⟨s, -, hr⟩ := reads_scanSpacedAttribute hn
    obtain ⟨t, ht⟩ := ih hf
    exact ⟨_, hr.trans ht⟩
  | case4 => cases h

end

end ComponentMarkup.Markup
