/-
  Why a run fails.

  * `ConfigError`, `RunError`: the causes; problems with a single component are not among them.
  * `RunError.message`: an error in words.
  * `RunError.cause`: the message of the file error behind an error, if that is another one.
-/
import ComponentMarkup.Files.Basic
import ComponentMarkup.Markup.Diagnostic

namespace ComponentMarkup

/-- Why there is no configuration. -/
inductive ConfigError where
  | missing (path : String)
  | malformed
deriving DecidableEq, Repr

/-- An error in words. -/
def ConfigError.message : ConfigError → String
  | .missing path => s!"Missing configuration file: {path}"
  | .malformed => "Failed to parse TOML configuration"

/-- Why a run fails. -/
inductive RunError where
  | file (error : FileError)
  | document (error : Markup.ParseError)
  | config (error : ConfigError)
  /-- The template directory cannot be read. -/
  | catalog (dir : String) (error : FileError)
deriving DecidableEq, Repr

namespace RunError

/-- An error in words. -/
def message : RunError → String
  | .file error => s!"I/O error: {error.text}"
  | .document error => error.message
  | .config error => s!"Configuration error: {error.message}"
  | .catalog dir error => s!"Unable to read template directory `{dir}`: {error.text}"

/-- The message of the file error behind an error. -/
def cause : RunError → Option String
  | .file error | .catalog _ error => some error.text
  | .document _ | .config _ => none

end RunError

end ComponentMarkup
