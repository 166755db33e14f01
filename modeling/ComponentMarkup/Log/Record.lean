/-
  Log records.

  * `Level`: how important a record is; a log that shows a level shows all more important ones.
  * `Record`: a level, a text and named fields in order.
-/

namespace ComponentMarkup

/-- How important a record is, most important first. -/
inductive Level where
  | warn
  | info
  | debug
  | trace
deriving DecidableEq, Repr

namespace Level

/-- The position of a level, the most important first. -/
def rank : Level → Nat
  | .warn => 0
  | .info => 1
  | .debug => 2
  | .trace => 3

/-- A log that shows levels up to `limit` shows this one. -/
def shownAt (limit level : Level) : Bool := level.rank ≤ limit.rank

/-- The level that a log shows for a word: nothing for some, and no answer for unknown words. -/
def ofWord? (word : String) : Option (Option Level) :=
  match word.toLower with
  | "off" | "error" => some none
  | "warn" => some (some .warn)
  | "info" => some (some .info)
  | "debug" => some (some .debug)
  | "trace" => some (some .trace)
  | _ => none

/-- The name of a level. -/
def text : Level → String
  | .warn => "WARN"
  | .info => "INFO"
  | .debug => "DEBUG"
  | .trace => "TRACE"

end Level

/-- One line of the log. -/
structure Record where
  level : Level
  text : String
  fields : List (String × String)
deriving DecidableEq, Repr

end ComponentMarkup
