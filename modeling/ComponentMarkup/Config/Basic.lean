/-
  Configuration.

  * `Config`: all settings, in four sections. Every setting has a default.
  * `TemplateConfig`: where templates are and how their names are split.
  * `ClassConfig`: how class names are made; `joiner` and `classLength` give the settings as they
    are used, and `corrections` tells what they replace.
  * `MarkupConfig`: void elements, elements that are kept when empty, and attributes that are passed
    on to templates.
  * `OutputConfig`: how HTML is written.
-/
import ComponentMarkup.Log.Event
import ComponentMarkup.Markup.VoidTags
import ComponentMarkup.Naming

namespace ComponentMarkup

/-- Where templates are and how their names are split. -/
structure TemplateConfig where
  /-- The directory of the templates. -/
  dir : String := "views"
  /-- The extension of template files, as configured. -/
  configuredExtension : String := "view"
  /-- The text between the segments of a composite name. -/
  separator : String := "-"
deriving DecidableEq, Repr

/-- The extension of template files without leading dots. -/
def TemplateConfig.extension (config : TemplateConfig) : String :=
  String.ofList (config.configuredExtension.toList.dropWhile (· == '.'))

/-- How class names are made. -/
structure ClassConfig where
  /-- The text between class tokens, as configured. -/
  configuredJoiner : String := "__"
  /-- How the words of one token are joined. -/
  tagJoiner : TagJoiner := .literal "-"
  /-- The number of tokens of the default class, as configured. -/
  configuredLength : Int := 2
  /-- The tags that add no token; `*` stands for all. -/
  skipTags : List String := []
  /-- The attribute that marks the root of a scope. -/
  scopeAttribute : String := "scope"
  /-- The depth from which on elements are kept as they are. -/
  maxDepth : Nat := 64
deriving DecidableEq, Repr

namespace ClassConfig

/-- The joiner in place of an empty one. -/
def defaultJoiner : String := "__"

/-- The text between class tokens, which is never empty. -/
def joiner (config : ClassConfig) : String :=
  if config.configuredJoiner = "" then defaultJoiner else config.configuredJoiner

/-- The number of tokens of the default class, at least one. -/
def classLength (config : ClassConfig) : Nat :=
  max config.configuredLength.toNat 1

/-- The settings that are replaced when they are used. -/
def corrections (config : ClassConfig) : List Event :=
  (if config.configuredLength < 1 then [.lengthCorrected config.configuredLength] else []) ++
    (if config.configuredJoiner = "" then [.joinerCorrected defaultJoiner] else [])

theorem joiner_ne_empty (config : ClassConfig) : config.joiner ≠ "" := by
  unfold joiner
  split
  · decide
  · assumption

end ClassConfig

/-- How elements are treated. -/
structure MarkupConfig where
  /-- Elements without content and end tag. -/
  voidTags : List String := Markup.VoidTags.html
  /-- Elements that are kept when they are empty, besides the void ones. -/
  emptyTags : List String := ["script", "textarea", "iframe", "canvas", "td", "th", "i"]
  /-- Attributes that a component passes on to the root of its template. -/
  passAttributes : List String := ["class"]
deriving DecidableEq, Repr

namespace MarkupConfig

/-- Whether an element is void. -/
def isVoid (config : MarkupConfig) (name : String) : Bool :=
  config.voidTags.any (Text.sameName · name)

/-- Whether an element is kept when it is empty. -/
def keepsEmpty (config : MarkupConfig) (name : String) : Bool :=
  config.isVoid name || config.emptyTags.any (Text.sameName · name)

/-- The void elements, for reading markup. -/
def voids (config : MarkupConfig) : Markup.VoidTags := .ofList config.voidTags

/-- The reader and the settings agree on which elements are void. -/
theorem has_voids (config : MarkupConfig) (name : String) :
    config.voids.has name = config.isVoid name := by
  rw [Bool.eq_iff_iff, voids, Markup.VoidTags.has_ofList]
  simp [isVoid]

end MarkupConfig

/-- How HTML is written. -/
structure OutputConfig where
  /-- Whether elements are put on lines of their own. -/
  format : Bool := false
  /-- Whether void elements are written without an end tag. -/
  stripVoidClosing : Bool := true
  /-- Whether the bodies of `script` and `style` are written without escaping. -/
  preserveScriptBody : Bool := true
deriving DecidableEq, Repr

/-- All settings. -/
structure Config where
  templates : TemplateConfig := {}
  classes : ClassConfig := {}
  markup : MarkupConfig := {}
  output : OutputConfig := {}
deriving DecidableEq, Repr

/-- The settings with another template directory. -/
def Config.withTemplateDir (config : Config) (dir : String) : Config :=
  { config with templates := { config.templates with dir := dir } }

end ComponentMarkup
