/-
  From a source text to HTML.

  * `Expander.ofConfig`: what is needed for a configuration; the settings that it corrects are
    logged.
  * `Expander.compile`: reads a document, expands it and writes it. Only faults of the document
    itself are errors; a document that is dropped as a whole gives no text.
  * `Expander.compileOrMessage`: the same, with the message of an error as the text.
-/
import ComponentMarkup.Expansion.Basic

namespace ComponentMarkup.Expander

open Markup (ParseError)

/-- What is needed to expand documents with a configuration. -/
def ofConfig (config : Config) (catalog : Catalog) (views : Views) : Logged Expander := do
  logAll config.classes.corrections
  return ⟨config, catalog, views⟩

variable (x : Expander)

/-- Reads a document. -/
def read (source : String) : Logged (Except ParseError Node) := do
  log .parsing
  match ← Markup.parse x.config.markup.voids source with
  | .error e => return .error e
  | .ok root =>
    log (.parsed root.name)
    return .ok root

/-- Expands a document that has been read. -/
def expandDocument (root : Node) : Logged (Option Node) := do
  log (.expanding x.catalog.size)
  x.expand root

/-- Writes a document. -/
def write (root : Node) : String :=
  Markup.Writer.render ⟨x.config.output, x.config.markup⟩ root

/-- The HTML of a source text. -/
def compile (source : String) : Logged (Except ParseError String) := do
  match ← x.read source with
  | .error e => return .error e
  | .ok root =>
    let html := ((← x.expandDocument root).map x.write).getD ""
    log (.written html.utf8ByteSize)
    return .ok html

/-- The HTML of a source text, or the message of an error. -/
def compileOrMessage (source : String) : Logged String := do
  match ← x.compile source with
  | .ok html => return html
  | .error e =>
    log (.failed e.message)
    return e.message

end ComponentMarkup.Expander
