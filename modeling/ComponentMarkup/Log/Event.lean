/-
  What happens while documents are processed.

  * `Event`: the events, with what they concern.
  * `Event.record?`: how an event is logged. Running a view is an event of its own, which the log
    does not show: it tells which views ran, in which surroundings and with which bindings.
-/
import ComponentMarkup.Expansion.Surroundings
import ComponentMarkup.Log.Record
import ComponentMarkup.Markup.Diagnostic
import ComponentMarkup.Text.Quoted
import ComponentMarkup.View.Value

namespace ComponentMarkup

/-- Where a configuration file was found. -/
inductive ConfigPlace where
  | explicit
  | local
  | system
deriving DecidableEq, Repr

/-- The word for a place. -/
def ConfigPlace.text : ConfigPlace → String
  | .explicit => "explicit"
  | .local => "local"
  | .system => "system"

/-- Something that happens while documents are processed. -/
inductive Event where
  /-- Markup was split into tokens. -/
  | tokenized (count : Nat)
  /-- A tree was built in spite of a warning. -/
  | warned (diagnostic : Markup.Diagnostic)
  | parsing
  | parsed (root : String)
  | expanding (templates : Nat)
  | written (bytes : Nat)
  | failed (error : String)
  /-- An element below the depth limit was kept as it is. -/
  | tooDeep (tag : String) (maxDepth : Nat)
  /-- A view is run. -/
  | running (template : String) (surroundings : Surroundings) (bindings : Bindings)
  | templateMissing (template : String)
  | applying (tag template : String)
  /-- No template was found for a component. -/
  | untemplated (tag : String)
  /-- A template could not be used for a component. -/
  | unusable (tag : String) (error : String)
  | pruned (tag : String)
  | resolved (template : String) (specificity : Nat) (contiguous : Bool)
  | classified (token className : String)
  | rendered (template markup : String)
  | lengthCorrected (length : Int)
  | joinerCorrected (joiner : String)
  | discovered (dir : String) (templates composites : Nat)
  | processing (input output : String)
  | loadingConfig (place : ConfigPlace) (path : String)
  | systemConfigMissing (path : String)
  | defaultConfig
  | exported (path : String)
deriving DecidableEq, Repr

/-- The record of an event, for those that are logged. -/
def Event.record? : Event → Option Record
  | .tokenized count => some ⟨.debug, "Tokenized markup", [("tokens", toString count)]⟩
  | .warned d =>
    let code := match d.code with
      | some code => s!"Some({code.text})"
      | none => "None"
    some ⟨.warn, d.message, [("code", code)]⟩
  | .parsing => some ⟨.info, "Parsing document", []⟩
  | .parsed root => some ⟨.debug, "Document parsed successfully", [("root", root)]⟩
  | .expanding templates =>
    some ⟨.info, "Expanding components", [("templates", toString templates)]⟩
  | .written bytes => some ⟨.info, "Document rendered successfully", [("bytes", toString bytes)]⟩
  | .failed error => some ⟨.warn, "Document failed to compile", [("err", error)]⟩
  | .tooDeep tag maxDepth =>
    some ⟨.warn, "Nesting too deep, emitting element without expansion",
      [("tag", tag), ("max_depth", toString maxDepth)]⟩
  | .running _ _ _ => none
  | .templateMissing template =>
    some ⟨.debug, "Template not found, trying next candidate", [("template", template)]⟩
  | .applying tag template =>
    some ⟨.debug, "Applying template", [("tag", tag), ("template", template)]⟩
  | .untemplated tag =>
    some ⟨.debug, "Passing component through",
      [("tag", tag), ("err", s!"No template found for `{tag}`")]⟩
  | .unusable tag error =>
    some ⟨.warn, "Passing component through", [("tag", tag), ("err", error)]⟩
  | .pruned tag => some ⟨.trace, "Pruned empty element", [("tag", tag)]⟩
  | .resolved template specificity contiguous =>
    some ⟨.trace, "Resolved composite template",
      [("template", template), ("specificity", toString specificity),
        ("contiguous", toString contiguous)]⟩
  | .classified token className =>
    some ⟨.trace, "Computed classes", [("token", token), ("class", className)]⟩
  | .rendered template markup =>
    some ⟨.trace, "Rendered template", [("template", template), ("markup", markup)]⟩
  | .lengthCorrected length =>
    some ⟨.warn, "Class length must be positive, using 1", [("length", toString length)]⟩
  | .joinerCorrected joiner =>
    some ⟨.warn, "Class joiner must not be empty, using default", [("joiner", joiner)]⟩
  | .discovered dir templates composites =>
    some ⟨.debug, "Discovered templates",
      [("dir", Text.quoted dir), ("templates", toString templates),
        ("composites", toString composites)]⟩
  | .processing input output =>
    some ⟨.info, "Processing document", [("input_path", input), ("output_path", output)]⟩
  | .loadingConfig place path =>
    some ⟨.info, s!"Loading configuration from {place.text} path", [("path", path)]⟩
  | .systemConfigMissing path =>
    some ⟨.debug, "System configuration file not found", [("path", path)]⟩
  | .defaultConfig => some ⟨.debug, "No configuration file found, using default configuration", []⟩
  | .exported path => some ⟨.info, "HTML exported successfully", [("output_file", path)]⟩

end ComponentMarkup
