/-
  Markup trees.

  * `Node`: an element with its name, its attributes in order and its children; `Child`: an
    element or a run of text. Text is kept decoded.
  * `Child.inductionOn`: induction on lists of children, the element case with both the children
    of the element and its later siblings.
  * `Node.isEmpty`: neither an element child nor visible text; `Node.textContent`: all text below.
  * `Node.updateAt?`: work on the node that a path of child indices leads to.
-/
import ComponentMarkup.OrderedMap
import ComponentMarkup.Text.Blank
import ComponentMarkup.Text.Case

namespace ComponentMarkup

/-- Attributes in order of appearance, each name once. -/
abbrev Attributes := OrderedMap String String

mutual

/-- A child of an element. -/
inductive Child where
  | element (node : Node)
  | text (content : String)

/-- An element. -/
structure Node where
  name : String
  attributes : Attributes
  children : List Child

end

instance : Inhabited Node := ⟨⟨"", ∅, []⟩⟩
instance : Inhabited Child := ⟨.text ""⟩

/-! ## Induction -/

mutual

private theorem Node.inductionChildren {motive : List Child → Prop} (nil : motive [])
    (text : ∀ s rest, motive rest → motive (.text s :: rest))
    (element : ∀ node rest, motive node.children → motive rest → motive (.element node :: rest)) :
    ∀ node : Node, motive node.children
  | ⟨_, _, children⟩ => Child.inductionOn children nil text element

/-- Induction on a list of children. -/
theorem Child.inductionOn {motive : List Child → Prop} (children : List Child) (nil : motive [])
    (text : ∀ s rest, motive rest → motive (.text s :: rest))
    (element : ∀ node rest, motive node.children → motive rest → motive (.element node :: rest)) :
    motive children :=
  match children with
  | [] => nil
  | .text s :: rest => text s rest (Child.inductionOn rest nil text element)
  | .element node :: rest =>
    element node rest (Node.inductionChildren nil text element node)
      (Child.inductionOn rest nil text element)

end

/-! ## Children -/

/-- The element, if the child is one. -/
def Child.element? : Child → Option Node
  | .element node => some node
  | .text _ => none

/-- The text, if the child is one. -/
def Child.text? : Child → Option String
  | .element _ => none
  | .text s => some s

/-- An element with the given name, up to the case of ASCII letters. -/
def Child.isNamed (name : String) : Child → Bool
  | .element node => Text.sameName node.name name
  | .text _ => false

namespace Node

/-- An element without attributes and children. -/
def leaf (name : String) : Node := ⟨name, ∅, []⟩

/-! ## Attributes -/

/-- The value of an attribute. -/
def attribute? (node : Node) (key : String) : Option String :=
  node.attributes.get? key

/-- Sets an attribute; a known one keeps its place. -/
def setAttribute (node : Node) (key value : String) : Node :=
  { node with attributes := node.attributes.insert key value }

/-- Removes an attribute; the others keep their order. -/
def removeAttribute (node : Node) (key : String) : Node :=
  { node with attributes := node.attributes.erase key }

/-- Puts the attributes in the order of their names. -/
def sortAttributes (node : Node) : Node :=
  { node with attributes := node.attributes.sortKeys fun a b => a ≤ b }

/-! ## Content -/

/-- Appends a child. -/
def push (node : Node) (child : Child) : Node :=
  { node with children := node.children ++ [child] }

/-- The direct children that are elements. -/
def elements (node : Node) : List Node :=
  node.children.filterMap Child.element?

/-- Whether some direct child is an element. -/
def hasElements (node : Node) : Bool :=
  node.children.any fun child => child.element?.isSome

/-- Whether some direct text child is visible. -/
def hasVisibleText (node : Node) : Bool :=
  node.children.any fun child => child.text?.any Text.isVisible

/-- An element with neither element children nor visible text. -/
def isEmpty (node : Node) : Bool :=
  !node.hasElements && !node.hasVisibleText

end Node

mutual

/-- All text below an element, in document order. -/
def Node.textContent : Node → String
  | ⟨_, _, children⟩ => Child.textContent children

/-- All text in and below a list of children. -/
def Child.textContent : List Child → String
  | [] => ""
  | .text s :: rest => s ++ Child.textContent rest
  | .element node :: rest => node.textContent ++ Child.textContent rest

end

/-! ## Working inside a tree -/

/-- Runs `step` on the node that `path` leads to, a list of indices among all children. The result
is what the step gives, with the whole tree around its new node; there is none when the path leads
to text or nowhere. -/
def Node.updateAt? {α : Type} (path : List Nat) (step : Node → α × Node) (node : Node) :
    Option (α × Node) :=
  match path with
  | [] => some (step node)
  | i :: path =>
    match node.children[i]? with
    | some (.element child) =>
      (updateAt? path step child).map fun result =>
        (result.1, { node with children := node.children.set i (.element result.2) })
    | _ => none

end ComponentMarkup
