/-
  Which composite template applies to a tag.

  A composite name applies to a tag when a suffix of its segments, joined by the separator, is the
  tag, and the segments before it split into groups that name ancestors of the tag, in order.

  * `matchGroups`: the positions of such ancestors; the search takes the nearest ancestors first.
  * `Match`: a composite name that applies; it is contiguous if the ancestors stand directly above
    the tag and above each other.
  * `Match.beats`: the ranking: higher specificity, then contiguous, then a later start, then the
    smaller name.
  * `Catalog.resolve`: the best match for a path of tags.
-/
import ComponentMarkup.Catalog.Basic
import ComponentMarkup.Log.Logged

namespace ComponentMarkup

/-- All ways to cut a nonempty end off a list, the shortest end first. -/
def endSplits {α : Type} (xs : List α) : List (List α × List α) :=
  (List.range xs.length).map fun i => xs.splitAt (xs.length - (i + 1))

/-- The positions of ancestors that the segments name in order, one group of segments for each. The
nearest ancestor stands first in `ancestors`, but positions count from the outermost, and the
outermost comes first in the result. If `adjacent`, each ancestor must be the next one above. -/
def matchGroups (separator : String) (adjacent : Bool) (segments : List String) :
    List String → Option (List Nat)
  | [] => if segments.isEmpty then some [] else none
  | ancestor :: outer =>
    if segments.isEmpty then some []
    else
      let here := (endSplits segments).findSome? fun (front, group) =>
        if separator.intercalate group = ancestor then
          (matchGroups separator adjacent front outer).map (· ++ [outer.length])
        else none
      match here with
      | some positions => some positions
      | none => if adjacent then none else matchGroups separator adjacent segments outer

/-- A composite name that applies to a path. -/
structure Match where
  entry : Composite
  /-- The named ancestors stand directly above the tag and above each other. -/
  contiguous : Bool
  /-- The position of the outermost named ancestor. -/
  start : Nat
deriving DecidableEq, Repr

namespace Match

/-- The first match ranks above the second. -/
def beats (a b : Match) : Bool :=
  b.entry.specificity < a.entry.specificity ||
    (a.entry.specificity == b.entry.specificity &&
      ((a.contiguous && !b.contiguous) ||
        (a.contiguous == b.contiguous &&
          (b.start < a.start || (a.start == b.start && a.entry.name < b.entry.name)))))

/-- The match of a composite name for a tag below the given ancestors, the nearest first. Of the
suffixes that are the tag, the shortest with matching ancestors counts, and for it a contiguous
match comes before others. -/
def find? (separator : String) (entry : Composite) (tag : String) (ancestors : List String) :
    Option Match :=
  (endSplits entry.segments).findSome? fun (front, suffix) =>
    if !front.isEmpty && separator.intercalate suffix = tag then
      let found (contiguous : Bool) : Option Match :=
        (matchGroups separator contiguous front ancestors).map fun positions =>
          ⟨entry, contiguous, positions.head?.getD ancestors.length⟩
      (found true).or (found false)
    else none

/-- The best of several matches, the last one of equals. -/
def best? : List Match → Option Match
  | [] => none
  | m :: ms => some (ms.foldl (fun best m => if best.beats m then best else m) m)

end Match

namespace Catalog

/-- The matches of all composite names for a path of tags, from the root to the tag itself. -/
def matchesFor (catalog : Catalog) (path : List String) : List Match :=
  match (path.map Text.lowercase).reverse with
  | [] => []
  | tag :: ancestors =>
    catalog.composites.filterMap fun entry => Match.find? catalog.separator entry tag ancestors

/-- The composite template that applies to the last tag of a path. -/
def resolve (catalog : Catalog) (path : List String) : Logged (Option Composite) :=
  match Match.best? (catalog.matchesFor path) with
  | none => pure none
  | some m => do
    log (.resolved m.entry.name m.entry.specificity m.contiguous)
    return some m.entry

end Catalog

end ComponentMarkup
