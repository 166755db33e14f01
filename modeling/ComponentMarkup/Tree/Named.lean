/-
  Elements found by name, up to the case of ASCII letters.

  * `Node.countNamed`: how many elements below a node have a name; the node itself does not count.
  * `Node.spliceNamed?`: a list of children in the place of one such element. A direct child goes
    first; if none has the name, the search goes into the element children in their order.
  * `Node.splice`: the same as an edit, which leaves a node without such an element as it is.
-/
import ComponentMarkup.Tree.Basic

namespace ComponentMarkup

mutual

/-- The number of elements below a node that have the name. -/
def Node.countNamed (name : String) : Node → Nat
  | ⟨_, _, children⟩ => Child.countNamed name children

/-- The number of elements in and below a list of children that have the name. -/
def Child.countNamed (name : String) : List Child → Nat
  | [] => 0
  | .text _ :: rest => Child.countNamed name rest
  | .element node :: rest =>
    (if Text.sameName node.name name then 1 else 0) + node.countNamed name
      + Child.countNamed name rest

end

/-- Puts `new` in the place of the first direct child that is an element with the name. -/
def Child.replaceNamed? (name : String) (new : List Child) : List Child → Option (List Child)
  | [] => none
  | child :: rest =>
    if child.isNamed name then some (new ++ rest)
    else (replaceNamed? name new rest).map (child :: ·)

mutual

/-- Puts `new` in the place of one element below the node that has the name. -/
def Node.spliceNamed? (name : String) (new : List Child) : Node → Option Node
  | ⟨tag, attributes, children⟩ =>
    (match Child.replaceNamed? name new children with
      | some children => some children
      | none => Child.spliceWithin? name new children).map fun children =>
        ⟨tag, attributes, children⟩

/-- Puts `new` in the place of one element below the first child that has such an element. -/
def Child.spliceWithin? (name : String) (new : List Child) : List Child → Option (List Child)
  | [] => none
  | .text s :: rest => (Child.spliceWithin? name new rest).map (.text s :: ·)
  | .element node :: rest =>
    match node.spliceNamed? name new with
    | some spliced => some (.element spliced :: rest)
    | none => (Child.spliceWithin? name new rest).map (.element node :: ·)

end

/-- Whether an element with the name was replaced, and the node afterwards. -/
def Node.splice (name : String) (new : List Child) (node : Node) : Bool × Node :=
  match node.spliceNamed? name new with
  | some spliced => (true, spliced)
  | none => (false, node)

end ComponentMarkup
