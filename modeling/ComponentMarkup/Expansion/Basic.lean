/-
  Expansion of components.

  An element whose tag has a template is a component. It is replaced by the tree of its template:
  the children go into the slot of that tree, attributes and classes are merged onto its root, and
  the children of the result are expanded in turn. Elements that end up without content are dropped.
  A component whose template is missing or unusable is kept as it is written.

  * `Expander`: the configuration, the known templates and what runs them.
  * `Expander.applyTemplate`: one component replaced, or why it cannot be.
  * `Expander.expandNode`: an element with all below it, by recursion on the depth that is left;
    elements below the limit are kept as they are.
  * `Expander.expand`: a document; `Expander.expandAll`: several ones.
-/
import ComponentMarkup.Catalog.Resolve
import ComponentMarkup.ClassName
import ComponentMarkup.Expansion.Merge
import ComponentMarkup.Markup.Writer
import ComponentMarkup.View.Basic

namespace ComponentMarkup

/-- Why a component is kept as it is written. -/
inductive ComponentError where
  | noTemplate (tag : String)
  | invalid (template reason : String)
deriving DecidableEq, Repr

namespace ComponentError

/-- What happened to the component with the given tag. -/
def event (tag : String) : ComponentError → Event
  | .noTemplate _ => .untemplated tag
  | .invalid template reason => .unusable tag (ViewError.invalid template reason).message

/-- A tree with the wrong number of slots. -/
def tooManySlots (template : String) (count : Nat) : ComponentError :=
  .invalid template s!"expected at most one nested <{Bindings.slotName}>, found {count}"

end ComponentError

/-- What is needed to expand documents. -/
structure Expander where
  config : Config
  catalog : Catalog
  views : Views

/-- A step of the expansion, in surroundings that it may change. -/
abbrev Expanding := StateT Surroundings Logged

/-- An element in the place of another one. -/
structure Replacement where
  node : Node
  /-- The scope of its children. -/
  scope : Option String
  /-- Whether a class token of it is on the stack. -/
  hasToken : Bool

namespace Expander

variable (x : Expander)

/-! ## Choosing a template -/

/-- The templates to try for a tag, the composite one first. -/
def candidates (path : List String) (tag : String) : Logged (List String) := do
  let composite := (← x.catalog.resolve path).toList.map (·.name)
  let plain := (x.catalog.canonical? tag).toList
  return composite ++ plain.filter fun name => !composite.contains name

/-- Runs the first of the templates that exists. -/
def runFirst (tag : String) (surroundings : Surroundings) (bindings : Bindings) :
    List String → Logged (Except ComponentError (String × Node))
  | [] => pure (.error (.noTemplate tag))
  | name :: names => do
    log (.running name surroundings bindings)
    match ← x.views name bindings with
    | .ok root => return .ok (name, root)
    | .error (.notFound _) =>
      log (.templateMissing name)
      runFirst tag surroundings bindings names
    | .error (.invalid template reason) => return .error (.invalid template reason)

/-! ## Applying a template -/

/-- Whether an element starts a scope for the elements below it. -/
def isScopeRoot (node : Node) : Bool :=
  x.config.classes.scopeAttribute != "" &&
    (node.attribute? x.config.classes.scopeAttribute).isSome

/-- The root without the mark of a scope. -/
def unmarkScope (root : Node) : Node :=
  if x.config.classes.scopeAttribute = "" then root
  else root.removeAttribute x.config.classes.scopeAttribute

/-- The element in the place of a component, with the scope of its children. -/
def applyTemplate (surroundings : Surroundings) (node : Node) (names : List String)
    (scope : Option String) : Logged (Except ComponentError (Node × Option String)) := do
  let classes ← x.config.classes.compute node surroundings.tokens scope
  let writer : Markup.Writer := ⟨x.config.output, x.config.markup⟩
  let bindings := Bindings.ofNode node surroundings.parents classes (writer.renderInner node)
  match ← x.runFirst node.name surroundings bindings names with
  | .error e => return .error e
  | .ok (name, root) =>
    log (.applying node.name name)
    match fillSlot? node.children root with
    | none => return .error (.tooManySlots name (slotCount root))
    | some filled =>
      let merged := mergeAttributes x.config.markup classes.default node filled
      let inner :=
        if x.isScopeRoot node || x.isScopeRoot merged then classes.level? 1 else scope
      return .ok (x.unmarkScope merged, inner)

/-! ## Walking the document -/

/-- Replaces an element, if it is a component whose template can be used. The element has been
entered; a component that participates has its token on the stack from here on. -/
def replace (scope : Option String) (node : Node) : Expanding Replacement := do
  let names ← x.candidates (← get).path node.name
  if names.isEmpty then
    return ⟨node, scope, false⟩
  else
    let hasToken := x.config.classes.participates node.name
    if hasToken then
      modify (·.enterComponent (x.config.classes.token node))
    match ← x.applyTemplate (← get) node names scope with
    | .ok (root, inner) => return ⟨root, inner, hasToken⟩
    | .error e =>
      log (e.event node.name)
      if hasToken then
        modify (·.leaveComponent)
      return ⟨node, scope, false⟩

/-- Drops an element without content, unless such elements are kept. -/
def prune (node : Node) : Logged (Option Node) :=
  if node.isEmpty && !x.config.markup.keepsEmpty node.name then do
    log (.pruned node.name)
    return none
  else return some node

/-- Applies a step to the element children, and drops those that it drops. -/
def mapElements {m : Type → Type} [Monad m] (step : Node → m (Option Node)) :
    List Child → m (List Child)
  | [] => return []
  | .text s :: rest => return .text s :: (← mapElements step rest)
  | .element node :: rest => do
    match ← step node with
    | some kept => return .element kept :: (← mapElements step rest)
    | none => mapElements step rest

/-- Expands an element and all below it, down to the given depth. The scope is the one that the
element stands in. -/
def expandNode : Nat → Option String → Node → Expanding (Option Node)
  | 0, _, node => do
    log (.tooDeep node.name x.config.classes.maxDepth)
    return some node
  | depth + 1, scope, node => do
    modify (·.enter node.name)
    let replacement ← x.replace scope node
    let children ← mapElements (expandNode depth replacement.scope) replacement.node.children
    if replacement.hasToken then
      modify (·.leaveComponent)
    modify (·.leave)
    x.prune { replacement.node with children }

/-- Expands a document in the given surroundings. -/
def expandIn (surroundings : Surroundings) (root : Node) : Logged (Option Node × Surroundings) :=
  (x.expandNode x.config.classes.maxDepth none root).run surroundings

/-- Expands a document; nothing is left of one that is dropped as a whole. -/
def expand (root : Node) : Logged (Option Node) :=
  Prod.fst <$> x.expandIn .none root

/-- Expands documents one after another, each in the surroundings that the one before it left. Every
result stands with the surroundings after it. -/
def expandAll (surroundings : Surroundings) :
    List Node → Logged (List (Option Node × Surroundings))
  | [] => return []
  | root :: roots => do
    let result ← x.expandIn surroundings root
    return result :: (← expandAll result.2 roots)

end Expander

end ComponentMarkup
