/-
  Views: templates that are run by name.

  * `Views`: what runs them: a name and bindings give a tree with one root, or an error.
  * `runSource`: fills in a template and reads the result as markup. A result that is a whole HTML
    document stands for its body.
  * `StoredViews`: views kept by name, in order.
-/
import ComponentMarkup.Markup.Document
import ComponentMarkup.View.Template
import ComponentMarkup.View.Value

namespace ComponentMarkup

/-- Why a view gives no tree. -/
inductive ViewError where
  | notFound (name : String)
  | invalid (name reason : String)
deriving DecidableEq, Repr

/-- An error in words. -/
def ViewError.message : ViewError → String
  | .notFound name => s!"Template `{name}` not found"
  | .invalid name reason => s!"Template `{name}` is invalid: {reason}"

/-- Runs a view by its name. -/
abbrev Views := String → Bindings → Logged (Except ViewError Node)

/-- The first `body` of an `html` element; every other element stands for itself. -/
def bodyOf (root : Node) : Node :=
  if Text.sameName root.name "html" then
    (root.elements.find? fun node => Text.sameName node.name "body").getD root
  else root

/-- Runs a template with the given source. -/
def runSource (voids : Markup.VoidTags) (name source : String) (bindings : Bindings) :
    Logged (Except ViewError Node) :=
  match Template.parse source with
  | .error e => pure (.error (.invalid name e.message))
  | .ok template => do
    let markup := template.render fun key => (bindings.get? key).bind Value.render?
    log (.rendered name markup)
    match ← Markup.parse voids markup with
    | .error e => return .error (.invalid name e.message)
    | .ok root => return .ok (bodyOf root)

/-- Views kept by name. -/
structure StoredViews where
  voids : Markup.VoidTags
  sources : OrderedMap String String

namespace StoredViews

/-- Adds a view; one with the same name is replaced. -/
def insert (views : StoredViews) (name source : String) : StoredViews :=
  { views with sources := views.sources.insert name source }

/-- Views from names and sources, added one after another. -/
def ofList (voids : Markup.VoidTags) (sources : List (String × String)) : StoredViews :=
  ⟨voids, .ofList sources⟩

/-- Runs a stored view. -/
def run (views : StoredViews) : Views := fun name bindings =>
  match views.sources.get? name with
  | none => pure (.error (.notFound name))
  | some source => runSource views.voids name source bindings

end StoredViews

end ComponentMarkup
