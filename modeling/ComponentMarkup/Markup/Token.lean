/-
  Tokens of markup, and what can be wrong with them.

  * `Token`: tags, text, the bodies of `script` and `style`, CDATA sections, comments,
    declarations and processing instructions. Text and attribute values are decoded, all else is
    kept as written.
  * `Construct`: the constructs that can fail to be read; each has a code, a message and help.
  * `Fault`: a construct that started at an offset and could not be read beyond a position;
    `Fault.resume` says where reading goes on, `Fault.diagnostic` how it is reported.
-/
import ComponentMarkup.Markup.Cursor
import ComponentMarkup.Markup.Diagnostic

namespace ComponentMarkup.Markup

/-- An attribute in a start tag. Without a value it has the empty one. -/
structure TagAttribute where
  name : String
  value : String
  span : Span
deriving DecidableEq, Repr

/-- A piece of markup. -/
inductive Token where
  | startTag (name : String) (attributes : List TagAttribute) (selfClosing : Bool)
  | endTag (name : String)
  | text (content : String)
  | rawText (content : String)
  | cdata (content : String)
  | comment (content : String)
  | declaration (content : String)
  | instruction (content : String)
deriving DecidableEq, Repr

/-- A token with its place in the source. -/
structure PlacedToken where
  token : Token
  span : Span
deriving DecidableEq, Repr

/-- The constructs that can fail to be read. -/
inductive Construct where
  | comment
  | startTag
  | endTag
  | value
  | cdata
  | declaration
  | instruction
deriving DecidableEq, Repr

namespace Construct

/-- The cause that is reported for a construct. -/
def code : Construct → ErrorCode
  | .comment => .unterminatedComment
  | .startTag => .malformedTag
  | .endTag => .malformedTag
  | .value => .unterminatedValue
  | .cdata => .unterminatedCData
  | .declaration => .unterminatedDeclaration
  | .instruction => .unterminatedDeclaration

/-- What is wrong with a construct. -/
def message : Construct → String
  | .comment => "unterminated comment"
  | .startTag => "malformed tag"
  | .endTag => "malformed closing tag"
  | .value => "unterminated attribute value"
  | .cdata => "unterminated CDATA section"
  | .declaration => "unterminated declaration"
  | .instruction => "unterminated processing instruction"

/-- How to mend a construct. -/
def help : Construct → String
  | .comment => "close the comment with `-->`"
  | .startTag => "close the tag with `>` or `/>`"
  | .endTag => "write closing tags as `</name>`"
  | .value => "add the closing quote"
  | .cdata => "close the section with `]]>`"
  | .declaration => "close the declaration with `>`"
  | .instruction => "close the instruction with `?>`"

/-- Whether a construct without its end takes the rest of the source with it. -/
def swallowsRest : Construct → Bool
  | .comment | .cdata | .declaration | .instruction => true
  | .startTag | .endTag | .value => false

end Construct

/-- A construct that could not be read. -/
structure Fault where
  construct : Construct
  /-- The offset where the construct starts. -/
  start : Nat
  /-- The position where reading stopped. -/
  stop : Cursor
deriving DecidableEq, Repr

namespace Fault

/-- The source from the start of the construct to where reading stopped, one byte at least. -/
def span (fault : Fault) : Span :=
  .between fault.start (max fault.stop.offset (fault.start + 1))

/-- The report on a fault. -/
def diagnostic (fault : Fault) : Diagnostic where
  severity := .error
  code := some fault.construct.code
  message := fault.construct.message
  labels := [⟨fault.span, fault.construct.code.description, true⟩]
  help := some fault.construct.help

/-- Where reading goes on: at the end if the rest is swallowed, else after the next `>`. -/
def resume (fault : Fault) : Cursor :=
  if fault.construct.swallowsRest then fault.stop.finish
  else match fault.stop.takeUntil? ['>'] with
    | some (_, next) => next
    | none => fault.stop.finish

theorem reads_resume (fault : Fault) : ∃ s, fault.stop.Reads s fault.resume := by
  unfold resume
  split
  · exact ⟨_, Cursor.reads_finish _⟩
  · split
    next h => exact ⟨_, Cursor.reads_takeUntil? h⟩
    · exact ⟨_, Cursor.reads_finish _⟩

end Fault

end ComponentMarkup.Markup
