/-
  The names of the known templates.

  * `Catalog`: all names, found in any case, and among them the composite ones.
  * `Composite`: a name that contains the separator, with its segments in small letters.
    `Composite.specificity` counts its separators.
  * `Catalog.ofNames`: names are added one by one; of two that differ in case only, the later
    spelling is kept at the place of the earlier one.
-/
import ComponentMarkup.OrderedMap
import ComponentMarkup.Text.Case
import ComponentMarkup.Text.Pieces

namespace ComponentMarkup

/-- A template name with several segments. -/
structure Composite where
  /-- The name as written. -/
  name : String
  /-- The segments of the name in small letters. -/
  segments : List String
deriving DecidableEq, Repr

namespace Composite

/-- The composite name that a separator splits. -/
def ofName (separator name : String) : Composite :=
  ⟨name, Text.splitAt separator (Text.lowercase name)⟩

/-- The number of separators in the name. -/
def specificity (entry : Composite) : Nat := entry.segments.length - 1

/-- The order of composite names: the most specific first, then by name. -/
def precedes (a b : Composite) : Bool :=
  b.specificity < a.specificity || (a.specificity == b.specificity && a.name ≤ b.name)

end Composite

/-- The names of the known templates. -/
structure Catalog where
  separator : String
  /-- The names in small letters, each with its spelling. -/
  names : OrderedMap String String
  /-- The composite names, most specific first. -/
  composites : List Composite
deriving DecidableEq, Repr

namespace Catalog

/-- Whether a separator splits a name. -/
def splits (separator name : String) : Bool :=
  separator != "" && Text.occursIn separator.toList name.toList

/-- Adds a name. A known one takes the new spelling; the empty one is no name. -/
def add (catalog : Catalog) (name : String) : Catalog :=
  if name = "" then catalog
  else
    let key := Text.lowercase name
    { catalog with
      names := catalog.names.insert key name
      composites :=
        if !catalog.names.contains key && splits catalog.separator name then
          catalog.composites ++ [.ofName catalog.separator name]
        else catalog.composites }

/-- The catalog of the given names. -/
def ofNames (separator : String) (names : List String) : Catalog :=
  let catalog := names.foldl add ⟨separator, ∅, []⟩
  { catalog with composites := catalog.composites.mergeSort Composite.precedes }

/-- The spelling of a name given in any case. -/
def canonical? (catalog : Catalog) (name : String) : Option String :=
  catalog.names.get? (Text.lowercase name)

/-- Whether there is a template with the name, in any case. -/
def contains (catalog : Catalog) (name : String) : Bool :=
  (catalog.canonical? name).isSome

/-- The number of names. -/
def size (catalog : Catalog) : Nat := catalog.names.size

end Catalog

end ComponentMarkup
