/-
  Values that a view can refer to.

  * `Value`: a text, a list of texts or a map from texts to texts.
  * `Value.render?`: the text of a value in a view; a list is written with spaces between its items
    and a map has no text.
  * `Bindings`: values by key, in order.
-/
import ComponentMarkup.OrderedMap

namespace ComponentMarkup

/-- A bound value. -/
inductive Value where
  | text (content : String)
  | list (items : List String)
  | map (entries : OrderedMap String String)
deriving DecidableEq, Repr

/-- The text that a placeholder for the value becomes. -/
def Value.render? : Value → Option String
  | .text s => some s
  | .list items => some (" ".intercalate items)
  | .map _ => none

/-- The content of a text value. -/
def Value.text? : Value → Option String
  | .text s => some s
  | .list _ | .map _ => none

/-- Values by key, in order. -/
abbrev Bindings := OrderedMap String Value

end ComponentMarkup
