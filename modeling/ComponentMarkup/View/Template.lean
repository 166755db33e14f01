/-
  Templates with placeholders.

  * `Segment`: literal text, a placeholder `\x7b\x7b key \x7d\x7d` whose value is escaped, or one
    with three braces whose value is copied. Keys are made of letters, digits, `_`, `-` and `.`.
  * `Template.parse`: the segments of a source, or the report on the first malformed placeholder.
  * `Template.render`: the text with a value for each key; a key without a value gives nothing
    (`render_append` on segments).
-/
import ComponentMarkup.Markup.Escape
import ComponentMarkup.Markup.Token.Attribute

namespace ComponentMarkup

open Markup (Cursor Diagnostic ErrorCode ParseError Span isSpace)

/-- A piece of a template. -/
inductive Segment where
  | literal (content : String)
  | escaped (key : String)
  | raw (key : String)
deriving DecidableEq, Repr

/-- The key of a placeholder. -/
def Segment.key? : Segment → Option String
  | .literal _ => none
  | .escaped key | .raw key => some key

/-- A template. -/
structure Template where
  segments : List Segment
deriving DecidableEq, Repr

namespace Template

/-! ## Reading -/

/-- A placeholder that cannot be read, from its braces to where reading stopped. -/
inductive Fault where
  | invalidName (start stop : Nat)
  | unterminated (start stop : Nat)
deriving DecidableEq, Repr

/-- The report on a placeholder. -/
def Fault.diagnostic : Fault → Diagnostic
  | .invalidName start stop =>
    ⟨.error, some .invalidPlaceholderName, "invalid placeholder name",
      [⟨.between start (max stop (start + 1)), ErrorCode.invalidPlaceholderName.description, true⟩],
      some "names use letters, digits, `_`, `-` and `.`"⟩
  | .unterminated start stop =>
    ⟨.error, some .unterminatedPlaceholder, "unterminated placeholder",
      [⟨.between start (max stop (start + 1)), ErrorCode.unterminatedPlaceholder.description,
        true⟩],
      some "close the placeholder with the same number of braces"⟩

/-- A character of a key. -/
def isKeyChar (c : Char) : Bool :=
  Text.isAlphanumeric c || c == '_' || c == '-' || c == '.'

/-- Reads a key with spaces around it, and the closing braces. The placeholder starts at `start`,
its braces end at `inner`. -/
def scanPlaceholder (closing : List Char) (make : String → Segment) (start : Nat)
    (inner : Cursor) : Except Fault (Segment × Cursor) :=
  match (inner.skipWhile isSpace).takeWhile isKeyChar with
  | ([], _) => .error (.invalidName start (inner.skipWhile isSpace).offset)
  | (key, next) =>
    match (next.skipWhile isSpace).skip? closing with
    | some after => .ok (make (String.ofList key), after)
    | none => .error (.unterminated start (next.skipWhile isSpace).offset)

/-- Reads one segment. Literal text goes up to the next two braces. -/
def scanSegment (cur : Cursor) : Except Fault (Segment × Cursor) :=
  match cur.rest with
  | '{' :: '{' :: '{' :: rest =>
    scanPlaceholder ['}', '}', '}'] .raw cur.offset (cur.past ['{', '{', '{'] rest)
  | '{' :: '{' :: rest =>
    scanPlaceholder ['}', '}'] .escaped cur.offset (cur.past ['{', '{'] rest)
  | _ =>
    match Text.cut? ['{', '{'] cur.rest with
    | some (before, after) =>
      .ok (.literal (String.ofList before), cur.past before (['{', '{'] ++ after))
    | none => .ok (.literal (String.ofList cur.rest), cur.finish)

theorem reads_scanPlaceholder {closing : List Char} {make : String → Segment} {start : Nat}
    {inner next : Cursor} {segment : Segment}
    (h : scanPlaceholder closing make start inner = .ok (segment, next)) :
    ∃ s, inner.Reads s next := by
  unfold scanPlaceholder at h
  split at h
  next => cases h
  next key after _ hk =>
    have hr := Cursor.reads_takeWhile isKeyChar (inner.skipWhile isSpace)
    rw [hk] at hr
    split at h
    next hc =>
      cases h
      exact ⟨_, ((Cursor.reads_takeWhile isSpace inner).trans hr).trans
        ((Cursor.reads_takeWhile isSpace after).trans (Cursor.reads_skip? hc))⟩
    next => cases h

/-- A segment takes at least one character. -/
theorem reads_scanSegment {cur next : Cursor} {segment : Segment} (hne : cur.rest ≠ [])
    (h : scanSegment cur = .ok (segment, next)) : ∃ s, s ≠ [] ∧ cur.Reads s next := by
  unfold scanSegment at h
  split at h
  next hr =>
    obtain ⟨s, hs⟩ := reads_scanPlaceholder h
    exact ⟨['{', '{', '{'] ++ s, by simp, (Cursor.reads_past hr).trans hs⟩
  next hr =>
    obtain ⟨s, hs⟩ := reads_scanPlaceholder h
    exact ⟨['{', '{'] ++ s, by simp, (Cursor.reads_past hr).trans hs⟩
  next hraw hesc =>
    split at h
    next before after hc =>
      cases h
      have hcut := Text.cut?_eq_some hc
      refine ⟨before, ?_, Cursor.reads_past (by simpa using hcut)⟩
      rintro rfl
      exact hesc after (by simpa using hcut)
    next => cases h; exact ⟨_, hne, Cursor.reads_finish _⟩

/-- All segments from a position on. -/
def scanSegments (cur : Cursor) : Except Fault (List Segment) :=
  if _hne : cur.rest = [] then .ok []
  else
    match _h : scanSegment cur with
    | .error fault => .error fault
    | .ok (segment, next) =>
      match scanSegments next with
      | .error fault => .error fault
      | .ok segments => .ok (segment :: segments)
termination_by cur.rest.length
decreasing_by
  obtain ⟨s, hs, hr⟩ := reads_scanSegment _hne _h
  exact hr.length_lt hs

/-- The template of a source. -/
def parse (source : String) : Except ParseError Template :=
  match scanSegments (.ofString source) with
  | .ok segments => .ok ⟨segments⟩
  | .error fault => .error ⟨[fault.diagnostic]⟩

/-! ## Rendering -/

/-- The keys in order of appearance, with repetitions. -/
def keys (t : Template) : List String := t.segments.filterMap Segment.key?

/-- A template without placeholders. -/
def isStatic (t : Template) : Bool := t.keys.isEmpty

/-- The text of a segment. -/
def renderSegment (lookup : String → Option String) : Segment → String
  | .literal s => s
  | .escaped key => ((lookup key).map Markup.escapeAttribute).getD ""
  | .raw key => (lookup key).getD ""

/-- The text of a template with the values that `lookup` gives. -/
def render (t : Template) (lookup : String → Option String) : String :=
  String.join (t.segments.map (renderSegment lookup))

theorem render_append (a b : List Segment) (lookup : String → Option String) :
    render ⟨a ++ b⟩ lookup = render ⟨a⟩ lookup ++ render ⟨b⟩ lookup := by
  simp [render]

end Template

end ComponentMarkup
