/-
  Void elements: those that never have content or an end tag.

  * `VoidTags`: a set of names in small letters, in order, each once.
  * `VoidTags.has`: membership of a name in any case; `has_ofList` says which names a list gives.
-/
import ComponentMarkup.Text.Case

namespace ComponentMarkup.Markup

/-- The names of the void elements, in small letters. -/
structure VoidTags where
  names : List String
deriving DecidableEq, Repr

namespace VoidTags

/-- The names of a list, lowered, each at its first place. -/
def ofList (tags : List String) : VoidTags :=
  ⟨(tags.map Text.asciiLower).eraseDups⟩

/-- Whether a name, in any case, is that of a void element. -/
def has (tags : VoidTags) (name : String) : Bool :=
  tags.names.contains (Text.asciiLower name)

/-- The void elements of HTML. -/
def html : List String :=
  ["area", "base", "br", "col", "embed", "hr", "img", "input", "keygen", "link", "meta", "param",
    "source", "track", "wbr"]

theorem has_ofList {tags : List String} {name : String} :
    (ofList tags).has name = true ↔ ∃ tag ∈ tags, Text.sameName tag name = true := by
  simp [has, ofList, Text.sameName_iff]

end VoidTags

end ComponentMarkup.Markup
