/-
  A component and the tree of its template made one.

  * `fillSlot?`: the children of the component in the place of the slot. A tree has at most one
    slot, and it is not the root.
  * `passOn`: attributes that the root of the tree takes over from the component.
  * `mergeClasses`: the words of the computed class, of the root's class and of the component's
    class, each once.
-/
import ComponentMarkup.Config.Basic
import ComponentMarkup.Tree.Named
import ComponentMarkup.View.Binding

namespace ComponentMarkup

open Bindings (slotName)

/-- The number of slots in a tree, its root included. -/
def slotCount (root : Node) : Nat :=
  (if Text.sameName root.name slotName then 1 else 0) + root.countNamed slotName

/-- The tree with the children in the place of its slot, if it has one; none if it has several or
is one itself. -/
def fillSlot? (children : List Child) (root : Node) : Option Node :=
  if slotCount root = 0 then some root
  else if slotCount root = 1 && !Text.sameName root.name slotName then
    some ((root.spliceNamed? slotName children).getD root)
  else none

/-- The root with the listed attributes of the component that it lacks. Classes are not passed on
but merged. -/
def passOn (passAttributes : List String) (component root : Node) : Node :=
  passAttributes.foldl
    (fun root key =>
      if Text.sameName key "class" || (root.attribute? key).isSome then root
      else
        match component.attribute? key with
        | some value => root.setAttribute key value
        | none => root)
    root

/-- The words of several classes, each at its first place. -/
def classWords (classes : List (Option String)) : List String :=
  (classes.flatMap fun value => (value.map Text.blankWords).getD []).eraseDups

/-- The root with the computed class before its own and the component's. Without any word it has no
class. -/
def mergeClasses (computed : String) (component root : Node) : Node :=
  match classWords [some computed, root.attribute? "class", component.attribute? "class"] with
  | [] => root.removeAttribute "class"
  | words => root.setAttribute "class" (" ".intercalate words)

/-- The root with all attributes of the component that concern it. -/
def mergeAttributes (markup : MarkupConfig) (computed : String) (component root : Node) : Node :=
  mergeClasses computed component (passOn markup.passAttributes component root)

end ComponentMarkup
