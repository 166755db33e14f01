/-
  The words of a command line.

  * `Arguments`: the input file, and the options with their defaults.
  * `readWords?`: the words as operands and options. An option takes the rest of its word or the
    next word as its value; after `--` all words are operands.
  * `Arguments.ofWords?`: exactly one operand, and each option at most once.
-/
import ComponentMarkup.Text.Pieces

namespace ComponentMarkup

/-- What a run is asked to do. -/
structure Arguments where
  /-- The path of the document. -/
  input : String
  /-- The path of the HTML file. -/
  output : String := "out.html"
  /-- The path of the configuration file. -/
  config : Option String := none
  /-- The template directory, in place of the configured one. -/
  templates : Option String := none
  /-- The least important records that the log shows. -/
  logLevel : String := "info"
deriving DecidableEq, Repr

/-- The options. -/
inductive CommandOption where
  | output
  | config
  | templates
  | logLevel
deriving DecidableEq, Repr

namespace CommandOption

/-- The option with a long name. -/
def ofName? : List Char → Option CommandOption
  | name =>
    if name = "output".toList then some .output
    else if name = "config".toList then some .config
    else if name = "templates".toList then some .templates
    else if name = "log-level".toList then some .logLevel
    else none

/-- The option with a letter. -/
def ofLetter? : Char → Option CommandOption
  | 'o' => some .output
  | 'c' => some .config
  | 't' => some .templates
  | _ => none

end CommandOption

/-- A part of a command line. -/
inductive CommandPart where
  | operand (word : String)
  | option (name : CommandOption) (value : String)
deriving DecidableEq, Repr

namespace CommandPart

/-- What one word says: an operand, or an option with the value that the word holds, if any. -/
inductive Word where
  | operand
  | option (name : CommandOption) (value : Option String)
deriving DecidableEq, Repr

/-- Reads a word before `--`. The value of a long option follows `=`; that of a letter follows at
once, or `=`. -/
def readWord? (word : List Char) : Option Word :=
  match word with
  | '-' :: '-' :: body =>
    let name := body.takeWhile (· != '=')
    let value :=
      match body.drop name.length with
      | _ :: value => some (String.ofList value)
      | [] => none
    (CommandOption.ofName? name).map (.option · value)
  | '-' :: letter :: body =>
    let value :=
      match body with
      | [] => none
      | '=' :: value => some (String.ofList value)
      | value => some (String.ofList value)
    (CommandOption.ofLetter? letter).map (.option · value)
  | _ => some .operand

/-- Whether a word can be the value of the option before it: a lone dash can, but no other word that
starts with a dash. -/
def isValue (word : String) : Bool :=
  match word.toList with
  | '-' :: _ :: _ => false
  | _ => true

/-- The parts of a command line. -/
def readWords? : List String → Option (List CommandPart)
  | [] => some []
  | word :: words =>
    if word = "--" then some (words.map .operand)
    else
      match readWord? word.toList with
      | none => none
      | some .operand => (readWords? words).map (.operand word :: ·)
      | some (.option name (some value)) => (readWords? words).map (.option name value :: ·)
      | some (.option name none) =>
        match words with
        | [] => none
        | value :: words =>
          if isValue value then (readWords? words).map (.option name value :: ·) else none

/-- The operands, in order. -/
def operands (parts : List CommandPart) : List String :=
  parts.filterMap fun
    | .operand word => some word
    | .option _ _ => none

/-- The values of an option, in order. -/
def values (name : CommandOption) (parts : List CommandPart) : List String :=
  parts.filterMap fun
    | .operand _ => none
    | .option other value => if other = name then some value else none

end CommandPart

namespace Arguments

open CommandPart (operands values)

/-- The only item of a list, or nothing for the empty list. -/
def atMostOne? {α : Type} : List α → Option (Option α)
  | [] => some none
  | [a] => some (some a)
  | _ => none

/-- What the words of a command line ask for. -/
def ofWords? (words : List String) : Option Arguments := do
  let parts ← CommandPart.readWords? words
  let input ← (← atMostOne? (operands parts))
  let output ← atMostOne? (values .output parts)
  let config ← atMostOne? (values .config parts)
  let templates ← atMostOne? (values .templates parts)
  let logLevel ← atMostOne? (values .logLevel parts)
  return {
    input, config, templates
    output := output.getD "out.html"
    logLevel := logLevel.getD "info" }

end Arguments

end ComponentMarkup
