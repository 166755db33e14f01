/-
  What is shown of an error.

  * `Report`: a message with a code, help, and labelled places in the source, if there are any.
  * `RunError.reports`: one report per diagnostic of a document, and one for every other error.
-/
import ComponentMarkup.Command.Error

namespace ComponentMarkup

open Markup (Diagnostic Label Severity)

/-- What is shown of an error. -/
structure Report where
  code : Option String
  /-- Diagnostics have a severity, other errors have none. -/
  severity : Option Severity
  message : String
  help : Option String
  /-- Whether the report points into the source of a document. -/
  hasSource : Bool
  cause : Option String
  labels : List Label
deriving DecidableEq, Repr

/-- The report on a fault of a document. -/
def Report.ofDiagnostic (d : Diagnostic) : Report where
  code := d.code.map (·.text)
  severity := some d.severity
  message := d.message
  help := d.help
  hasSource := true
  cause := none
  labels := d.labels

namespace RunError

/-- The code of an error that is no fault of a document. -/
def code : RunError → Option String
  | .file _ => some "trellis::io"
  | .document _ => none
  | .config _ => some "trellis::config"
  | .catalog _ _ => some "trellis::catalog"

/-- What can be done about an error that is no fault of a document. -/
def help : RunError → Option String
  | .catalog _ _ => some "set `templates.dir` in the configuration or pass `--templates`"
  | .file _ | .document _ | .config _ => none

/-- The reports on an error. -/
def reports (e : RunError) : List Report :=
  match e with
  | .document error => error.diagnostics.map .ofDiagnostic
  | .file _ | .config _ | .catalog _ _ =>
    [{  code := e.code
        severity := none
        message := e.message
        help := e.help
        hasSource := false
        cause := e.cause
        labels := [] }]

end RunError

end ComponentMarkup
