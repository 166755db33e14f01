/-
  Documents: trees built from tokens.

  * `Problem`: what can be wrong with the structure of a document; `Problem.diagnostic` says how it
    is reported. Only a repeated attribute is a warning.
  * `Construction`: the open elements, the completed top-level elements and the problems so far;
    `Construction.process` takes one token.
  * `buildTree`: the tree of a token list with the warnings about it, or all problems. A document
    has one top-level element and no visible text beside it.
  * `parse`: the tree of a source text.

  Elements that are left open are closed where an element around them ends, and every problem is
  found in one pass.
-/
import ComponentMarkup.Log.Logged
import ComponentMarkup.Markup.Token.Scan
import ComponentMarkup.Markup.VoidTags
import ComponentMarkup.Tree.Basic

namespace ComponentMarkup.Markup

/-! ## Problems -/

/-- What can be wrong with the structure of a document. -/
inductive Problem where
  /-- The text ends inside the element. -/
  | unclosed (name : String) (opened : Span)
  /-- An end tag closes an element around `name`, which is still open. -/
  | closedAround (tag name : String) (span opened : Span)
  /-- An end tag closes nothing; `name` is the innermost open element. -/
  | unmatched (tag name : String) (span opened : Span)
  /-- An end tag comes where no element is open. -/
  | stray (tag : String) (span : Span)
  | noRoot
  | furtherRoot (span : Span)
  /-- An attribute has a value already. -/
  | repeatedAttribute (key : String) (span : Span)
  | textOutside (span : Span)
deriving DecidableEq, Repr

namespace Problem

/-- The report on a problem. -/
def diagnostic : Problem → Diagnostic
  | .unclosed name opened =>
    ⟨.error, some .unclosedElement, s!"element `<{name}>` is never closed",
      [⟨opened, "opened here", true⟩], some s!"add `</{name}>`"⟩
  | .closedAround tag name span opened =>
    ⟨.error, some .mismatchedEndTag, s!"closing tag `</{tag}>` does not match `<{name}>`",
      [⟨span, "mismatched closing tag", true⟩, ⟨opened, "element opened here", false⟩],
      some s!"add `</{name}>` before `</{tag}>`"⟩
  | .unmatched tag name span opened =>
    ⟨.error, some .mismatchedEndTag, s!"closing tag `</{tag}>` does not match `<{name}>`",
      [⟨span, "mismatched closing tag", true⟩, ⟨opened, "element opened here", false⟩], none⟩
  | .stray tag span =>
    ⟨.error, some .strayEndTag, s!"closing tag `</{tag}>` has no open element",
      [⟨span, "nothing to close", true⟩], none⟩
  | .noRoot =>
    ⟨.error, some .missingRoot, "missing root element",
      [⟨.between 0 0, ErrorCode.missingRoot.description, true⟩], none⟩
  | .furtherRoot span =>
    ⟨.error, some .multipleRoots, "multiple root elements",
      [⟨span, "additional root element", true⟩], some "wrap the elements in a single parent"⟩
  | .repeatedAttribute key span =>
    ⟨.warning, some .duplicateAttribute, s!"duplicate attribute `{key}`",
      [⟨span, "ignored, the first value is kept", true⟩], none⟩
  | .textOutside span =>
    ⟨.error, some .textOutsideRoot, "text outside the root element",
      [⟨span, ErrorCode.textOutsideRoot.description, true⟩],
      some "wrap the text in an element"⟩

end Problem

/-! ## Construction -/

/-- An element whose end tag has not come. Its children so far stand with the latest first. -/
structure OpenElement where
  name : String
  attributes : Attributes
  children : List Child
  span : Span

namespace OpenElement

/-- The element with the children that it has so far. -/
def node (e : OpenElement) : Node := ⟨e.name, e.attributes, e.children.reverse⟩

/-- Adds a child. Text after text continues it. -/
def add (e : OpenElement) (child : Child) : OpenElement :=
  match child, e.children with
  | .text s, .text t :: rest => { e with children := .text (t ++ s) :: rest }
  | child, children => { e with children := child :: children }

end OpenElement

/-- A document under construction. -/
structure Construction where
  /-- The open elements, innermost first. -/
  opened : List OpenElement
  /-- The completed top-level elements with the places of their tags. -/
  roots : List (Node × Span)
  problems : List Problem

namespace Construction

/-- Before the first token. -/
def start : Construction := ⟨[], [], []⟩

/-- Notes a problem. -/
def report (c : Construction) (problem : Problem) : Construction :=
  { c with problems := c.problems ++ [problem] }

/-- Adds a child to the innermost open element. Where none is open, an element is a top-level one,
blank text is dropped and visible text is a problem. -/
def add (c : Construction) (child : Child) (span : Span) : Construction :=
  match c.opened with
  | e :: outer => { c with opened := e.add child :: outer }
  | [] =>
    match child with
    | .element node => { c with roots := c.roots ++ [(node, span)] }
    | .text s => if Text.isVisible s then c.report (.textOutside span) else c

/-- Closes the innermost open element. -/
def closeInnermost (c : Construction) : Construction :=
  match c.opened with
  | [] => c
  | e :: outer => { c with opened := outer }.add (.element e.node) e.span

/-- Closes the `n` innermost open elements. -/
def close : Nat → Construction → Construction
  | 0, c => c
  | n + 1, c => close n c.closeInnermost

/-- The attributes of a tag, the first value of each name, with the repetitions as problems. -/
def collect (attributes : List TagAttribute) : Attributes × List Problem :=
  attributes.foldl
    (fun (kept, problems) attr =>
      if kept.contains attr.name then
        (kept, problems ++ [.repeatedAttribute attr.name attr.span])
      else (kept.insert attr.name attr.value, problems))
    (∅, [])

/-- Takes a start tag: the element is complete if it is void or closes itself, else it is open. -/
def startTag (voids : VoidTags) (c : Construction) (name : String)
    (attributes : List TagAttribute) (selfClosing : Bool) (span : Span) : Construction :=
  let (kept, problems) := collect attributes
  let c := { c with problems := c.problems ++ problems }
  if selfClosing || voids.has name then c.add (.element ⟨name, kept, []⟩) span
  else { c with opened := ⟨name, kept, [], span⟩ :: c.opened }

/-- Takes an end tag: closes the innermost open element of its name and all elements inside it. The
end tag of a void element means nothing. -/
def endTag (voids : VoidTags) (c : Construction) (name : String) (span : Span) : Construction :=
  if voids.has name then c
  else
    let other := fun e : OpenElement => !Text.sameName e.name name
    let inside := c.opened.takeWhile other
    match c.opened.dropWhile other with
    | _ :: _ =>
      let problems := inside.map fun e => .closedAround name e.name span e.span
      { c with problems := c.problems ++ problems }.close (inside.length + 1)
    | [] =>
      match c.opened with
      | [] => c.report (.stray name span)
      | e :: _ => c.report (.unmatched name e.name span e.span)

/-- Takes one token. -/
def process (voids : VoidTags) (c : Construction) (placed : PlacedToken) : Construction :=
  match placed.token with
  | .startTag name attributes selfClosing =>
    c.startTag voids name attributes selfClosing placed.span
  | .endTag name => c.endTag voids name placed.span
  | .text s | .rawText s | .cdata s => c.add (.text s) placed.span
  | .comment _ | .declaration _ | .instruction _ => c

/-- Closes the elements that are still open, each of them a problem. -/
def finish (c : Construction) : Construction :=
  let problems := c.opened.map fun e => Problem.unclosed e.name e.span
  { c with problems := c.problems ++ problems }.close c.opened.length

/-- The problems of a finished document: those found on the way, and those with its top level. -/
def allProblems (c : Construction) : List Problem :=
  match c.roots with
  | [] => c.problems ++ [.noRoot]
  | _ :: further => c.problems ++ further.map fun root => .furtherRoot root.2

end Construction

/-! ## Documents -/

/-- The tree of a token list with the warnings about it, or the reports on all problems. -/
def buildTree (voids : VoidTags) (tokens : List PlacedToken) :
    Except ParseError (Node × List Diagnostic) :=
  let c := (tokens.foldl (Construction.process voids) .start).finish
  let diagnostics := c.allProblems.map Problem.diagnostic
  match c.roots with
  | (root, _) :: _ =>
    if diagnostics.any Diagnostic.isError then .error ⟨diagnostics⟩ else .ok (root, diagnostics)
  | [] => .error ⟨diagnostics⟩

/-- The tree of a source text. -/
def parse (voids : VoidTags) (source : String) : Logged (Except ParseError Node) :=
  match tokenize source with
  | .error e => pure (.error e)
  | .ok tokens => do
    log (.tokenized tokens.length)
    match buildTree voids tokens with
    | .error e => return .error e
    | .ok (root, warnings) =>
      logAll (warnings.map .warned)
      return .ok root

end ComponentMarkup.Markup
