/-
  What a view can refer to for one component.

  * `Bindings.ofNode`: the attributes of the component, each under its own name and under that name
    in camel case; and the reserved keys, which replace attributes of the same name: the tag, the
    tags around it, the markup of the children, the classes, and all attributes together.
-/
import ComponentMarkup.ClassName
import ComponentMarkup.View.Value

namespace ComponentMarkup.Bindings

/-- The key of the markup of the children, and the name of the element that they replace. -/
def slotName : String := "yield"

/-- Binds an attribute under its own name and under its name in camel case. -/
def bindAttribute (bindings : Bindings) (attr : String × String) : Bindings :=
  let bound := bindings.insert attr.1 (.text attr.2)
  let camel := Naming.camelCase attr.1
  if camel = "" ∨ camel = attr.1 then bound else bound.insert camel (.text attr.2)

/-- The reserved keys with their values. -/
def reserved (node : Node) (parents : List String) (classes : ClassSet) (inner : String) :
    List (String × Value) :=
  [("nodeName", .text node.name), ("nodeParents", .list parents), (slotName, .text inner),
    ("class", .text classes.default)] ++
    (classes.levels.zipIdx 1).map (fun (value, n) => (s!"class{n}", .text value)) ++
    [("__proto__", .map node.attributes)]

/-- The bindings of a component below the elements `parents`, whose children are written as
`inner`. -/
def ofNode (node : Node) (parents : List String) (classes : ClassSet) (inner : String) :
    Bindings :=
  let attributes := node.attributes.entries.foldl bindAttribute ∅
  (reserved node parents classes inner).foldl (fun bindings e => bindings.insert e.1 e.2) attributes

end ComponentMarkup.Bindings
