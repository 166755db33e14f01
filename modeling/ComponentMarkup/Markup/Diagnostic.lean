/-
  Reports on faulty markup.

  * `ErrorCode`: the causes, each with a code (`E0xx` for tags and other constructs, `E1xx` for the
    structure of the document, `E2xx` for placeholders) and a description.
  * `Diagnostic`: a severity, a cause, a message, labelled places and help.
  * `ParseError`: the diagnostics of a text that could not be read; `ParseError.message` shows the
    first and counts the others.
-/
import ComponentMarkup.Markup.Span

namespace ComponentMarkup.Markup

/-- How serious a diagnostic is: an error refuses the text, a warning does not. -/
inductive Severity where
  | error
  | warning
deriving DecidableEq, Repr

/-- The word for a severity. -/
def Severity.text : Severity → String
  | .error => "error"
  | .warning => "warning"

/-- What is wrong. -/
inductive ErrorCode where
  | unterminatedComment
  | malformedTag
  | unterminatedValue
  | unterminatedCData
  | unterminatedDeclaration
  | unclosedElement
  | mismatchedEndTag
  | missingRoot
  | multipleRoots
  | duplicateAttribute
  | strayEndTag
  | textOutsideRoot
  | unterminatedPlaceholder
  | invalidPlaceholderName
deriving DecidableEq, Repr

namespace ErrorCode

/-- All causes, in the order of their codes. -/
def all : List ErrorCode :=
  [.unterminatedComment, .malformedTag, .unterminatedValue, .unterminatedCData,
    .unterminatedDeclaration, .unclosedElement, .mismatchedEndTag, .missingRoot, .multipleRoots,
    .duplicateAttribute, .strayEndTag, .textOutsideRoot, .unterminatedPlaceholder,
    .invalidPlaceholderName]

/-- The code of a cause. -/
def text : ErrorCode → String
  | .unterminatedComment => "E001"
  | .malformedTag => "E002"
  | .unterminatedValue => "E003"
  | .unterminatedCData => "E004"
  | .unterminatedDeclaration => "E005"
  | .unclosedElement => "E101"
  | .mismatchedEndTag => "E102"
  | .missingRoot => "E103"
  | .multipleRoots => "E104"
  | .duplicateAttribute => "E105"
  | .strayEndTag => "E106"
  | .textOutsideRoot => "E107"
  | .unterminatedPlaceholder => "E200"
  | .invalidPlaceholderName => "E201"

/-- A cause in a few words. -/
def description : ErrorCode → String
  | .unterminatedComment => "unterminated comment"
  | .malformedTag => "malformed tag"
  | .unterminatedValue => "unterminated attribute value"
  | .unterminatedCData => "unterminated CDATA section"
  | .unterminatedDeclaration => "unterminated declaration"
  | .unclosedElement => "unclosed element"
  | .mismatchedEndTag => "mismatched closing tag"
  | .missingRoot => "missing root element"
  | .multipleRoots => "multiple root elements"
  | .duplicateAttribute => "duplicate attribute"
  | .strayEndTag => "stray closing tag"
  | .textOutsideRoot => "text outside root element"
  | .unterminatedPlaceholder => "unterminated placeholder"
  | .invalidPlaceholderName => "invalid placeholder name"

/-- The cause that has the given code. -/
def ofText? (code : String) : Option ErrorCode :=
  all.find? fun cause => cause.text == code

theorem ofText?_text (cause : ErrorCode) : ofText? cause.text = some cause := by
  cases cause <;> decide

end ErrorCode

/-- A place with a remark. A primary label marks the fault itself, a secondary one its context. -/
structure Label where
  span : Span
  message : String
  isPrimary : Bool
deriving DecidableEq, Repr

/-- A report on one fault. -/
structure Diagnostic where
  severity : Severity
  code : Option ErrorCode
  message : String
  labels : List Label
  help : Option String
deriving DecidableEq, Repr

namespace Diagnostic

/-- Severity, code and message on one line. -/
def text (d : Diagnostic) : String :=
  match d.code with
  | some code => s!"{d.severity.text}[{code.text}]: {d.message}"
  | none => s!"{d.severity.text}: {d.message}"

/-- Whether the diagnostic refuses the text. -/
def isError (d : Diagnostic) : Bool :=
  d.severity == .error

end Diagnostic

/-- Why a text could not be read. -/
structure ParseError where
  diagnostics : List Diagnostic
deriving DecidableEq, Repr

/-- The first diagnostic, and how many more there are. -/
def ParseError.message (e : ParseError) : String :=
  match e.diagnostics with
  | [] => ""
  | [d] => d.text
  | d :: rest => s!"{d.text} (+{rest.length} more)"

end ComponentMarkup.Markup
