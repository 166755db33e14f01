/-
  Configurations as generic values.

  * `Setting`: what a configuration file is made of.
  * `Config.ofSetting?`: the configuration that a value describes. What is missing has its default
    and unknown names are ignored, but a value of the wrong kind is refused, and so is a number out
    of range. A section is a table, or a list of its settings in their order.
-/
import ComponentMarkup.Config.Basic

namespace ComponentMarkup

/-- A value of a configuration file. -/
inductive Setting where
  | null
  | bool (value : Bool)
  | integer (value : Int)
  /-- A number that is no integer; no setting takes one. -/
  | fraction
  /-- A date or a time. -/
  | moment
  | text (content : String)
  | list (items : List Setting)
  | table (entries : List (String × Setting))
deriving Inhabited

namespace Setting

/-- The settings of a section by name: `names` lists them in their order. A list with more items
than names is refused if `strict`, else the further items are ignored. A date counts as a table that
has none of the names. -/
def section? (strict : Bool) (names : List String) : Setting → Option (String → Option Setting)
  | .table entries => some fun name => entries.lookup name
  | .list items =>
    if strict && names.length < items.length then none
    else some fun name => (names.zip items).lookup name
  | .moment => some fun _ => none
  | _ => none

def text? : Setting → Option String
  | .text s => some s
  | _ => none

def bool? : Setting → Option Bool
  | .bool b => some b
  | _ => none

/-- A signed number of 64 bits. -/
def signed? : Setting → Option Int
  | .integer n => if Int64.minValue.toInt ≤ n ∧ n ≤ Int64.maxValue.toInt then some n else none
  | _ => none

/-- An unsigned number of 64 bits. -/
def unsigned? : Setting → Option Nat
  | .integer n => if 0 ≤ n ∧ n < UInt64.size then some n.toNat else none
  | _ => none

def texts? : Setting → Option (List String)
  | .list items => items.mapM text?
  | _ => none

/-- What `read` makes of a setting, or the default if it is missing. -/
def readOr {α : Type} (default : α) (read : Setting → Option α) : Option Setting → Option α
  | none => some default
  | some setting => read setting

end Setting

open Setting (readOr)

variable (strict : Bool)

/-- The template section that a value describes. -/
def TemplateConfig.ofSetting? (setting : Setting) : Option TemplateConfig := do
  let field ← setting.section? strict ["dir", "extension", "separator"]
  let default : TemplateConfig := {}
  return {
    dir := ← readOr default.dir Setting.text? (field "dir")
    configuredExtension := ← readOr default.configuredExtension Setting.text? (field "extension")
    separator := ← readOr default.separator Setting.text? (field "separator") }

/-- The class section that a value describes. -/
def ClassConfig.ofSetting? (setting : Setting) : Option ClassConfig := do
  let field ← setting.section? strict
    ["joiner", "tag_joiner", "length", "skip_tags", "scope_attr", "max_depth"]
  let default : ClassConfig := {}
  return {
    configuredJoiner := ← readOr default.configuredJoiner Setting.text? (field "joiner")
    tagJoiner := ← readOr default.tagJoiner (·.text?.map TagJoiner.ofText) (field "tag_joiner")
    configuredLength := ← readOr default.configuredLength Setting.signed? (field "length")
    skipTags := ← readOr default.skipTags Setting.texts? (field "skip_tags")
    scopeAttribute := ← readOr default.scopeAttribute Setting.text? (field "scope_attr")
    maxDepth := ← readOr default.maxDepth Setting.unsigned? (field "max_depth") }

/-- The markup section that a value describes. -/
def MarkupConfig.ofSetting? (setting : Setting) : Option MarkupConfig := do
  let field ← setting.section? strict ["void_tags", "empty_tags", "pass_attrs"]
  let default : MarkupConfig := {}
  return {
    voidTags := ← readOr default.voidTags Setting.texts? (field "void_tags")
    emptyTags := ← readOr default.emptyTags Setting.texts? (field "empty_tags")
    passAttributes := ← readOr default.passAttributes Setting.texts? (field "pass_attrs") }

/-- The output section that a value describes. -/
def OutputConfig.ofSetting? (setting : Setting) : Option OutputConfig := do
  let field ← setting.section? strict ["format", "strip_void_closing", "preserve_script_body"]
  let default : OutputConfig := {}
  return {
    format := ← readOr default.format Setting.bool? (field "format")
    stripVoidClosing := ←
      readOr default.stripVoidClosing Setting.bool? (field "strip_void_closing")
    preserveScriptBody := ←
      readOr default.preserveScriptBody Setting.bool? (field "preserve_script_body") }

/-- The configuration that a value describes. -/
def Config.ofSetting? (setting : Setting) : Option Config := do
  let field ← setting.section? strict ["templates", "classes", "markup", "output"]
  return {
    templates := ← readOr {} (TemplateConfig.ofSetting? strict) (field "templates")
    classes := ← readOr {} (ClassConfig.ofSetting? strict) (field "classes")
    markup := ← readOr {} (MarkupConfig.ofSetting? strict) (field "markup")
    output := ← readOr {} (OutputConfig.ofSetting? strict) (field "output") }

end ComponentMarkup
