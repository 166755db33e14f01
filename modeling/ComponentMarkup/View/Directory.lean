/-
  Views in the files of a directory.

  * `DirectoryViews.path`: the file of a view.
  * `DirectoryViews.run`: runs a view from its file. A file that is missing and one that cannot be
    read are different errors.
-/
import ComponentMarkup.Files.Basic
import ComponentMarkup.View.Basic

namespace ComponentMarkup

/-- Views in the files of a directory. -/
structure DirectoryViews where
  files : Files
  dir : String
  extension : String
  voids : Markup.VoidTags

namespace DirectoryViews

variable (views : DirectoryViews)

/-- The path of the file of a view. -/
def path (name : String) : String :=
  Files.join views.dir (name ++ "." ++ views.extension)

/-- The source of a view. -/
def source (name : String) : Except ViewError String :=
  match views.files.read (views.path name) with
  | .ok source => .ok source
  | .error .notFound => .error (.notFound name)
  | .error e => .error (.invalid name e.text)

/-- Runs a view from its file. -/
def run : Views := fun name bindings =>
  match views.source name with
  | .ok source => runSource views.voids name source bindings
  | .error e => pure (.error e)

end DirectoryViews

end ComponentMarkup
