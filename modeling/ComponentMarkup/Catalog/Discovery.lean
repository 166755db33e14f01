/-
  Finding templates in a directory.

  * `splitExtension?`: the part of a file name before the last dot, and the extension after it. A
    name that starts with its only dot has no extension.
  * `templateNames`: the names of the regular files with the extension, sorted.
  * `Catalog.discover`: the catalog of the templates in a directory.
-/
import ComponentMarkup.Catalog.Basic
import ComponentMarkup.Files.Basic
import ComponentMarkup.Log.Logged

namespace ComponentMarkup

/-- The stem and the extension of a file name: the text before and after the last dot, if there is
text before it. -/
def splitExtension? (name : String) : Option (String × String) :=
  let backwards := name.toList.reverse
  match backwards.dropWhile (· != '.') with
  | '.' :: c :: stem =>
    some (String.ofList (c :: stem).reverse,
      String.ofList (backwards.takeWhile (· != '.')).reverse)
  | _ => none

/-- The name of the template in a file, if the file has the extension of templates. -/
def templateName? (extension name : String) : Option String :=
  match splitExtension? name with
  | some (stem, found) => if found = extension then some stem else none
  | none => none

/-- The names of the templates among the entries of a directory, in order. -/
def templateNames (extension : String) (entries : List (String × Entry)) : List String :=
  let files := entries.filter fun e => e.2.isFile
  (files.filterMap fun e => templateName? extension e.1).mergeSort (· ≤ ·)

/-- The catalog of the templates in a directory. -/
def Catalog.discover (files : Files) (dir extension separator : String) :
    Logged (Except FileError Catalog) := do
  match files.list dir with
  | .error e => return .error e
  | .ok entries =>
    let catalog := ofNames separator (templateNames extension entries)
    log (.discovered dir catalog.size catalog.composites.length)
    return .ok catalog

end ComponentMarkup
