/-
  Files and directories.

  * `Entry`: a regular file with its bytes, or a directory.
  * `Files`: the entries by location, and the working directory.
  * `Files.find`: what a path names. A path is followed name by name; every name but the last must
    be that of a directory, also when `..` or nothing comes after it.
  * `Files.read`, `Files.write`, `Files.list`: text files and the entries of a directory.
    `entryAt_put` says what a change leaves, `mem_entriesIn` what is listed.
-/
import ComponentMarkup.OrderedMap
import ComponentMarkup.Text.Pieces

namespace ComponentMarkup

/-- Why a file cannot be used. -/
inductive FileError where
  | notFound
  | notDirectory
  | isDirectory
  | invalidText
deriving DecidableEq, Repr

/-- An error in words. -/
def FileError.text : FileError → String
  | .notFound => "No such file or directory (os error 2)"
  | .notDirectory => "Not a directory (os error 20)"
  | .isDirectory => "Is a directory (os error 21)"
  | .invalidText => "stream did not contain valid UTF-8"

/-- What is found at a location. -/
inductive Entry where
  | directory
  | file (content : ByteArray)

/-- Whether an entry is a regular file. -/
def Entry.isFile : Entry → Bool
  | .file _ => true
  | .directory => false

/-- The names from the root to an entry. -/
abbrev Location := List String

/-- Files and directories. The root is always a directory. -/
structure Files where
  entries : OrderedMap Location Entry
  /-- Where relative paths start. -/
  workingDirectory : Location

namespace Files

variable (files : Files)

/-- The entry at a location. -/
def entryAt (location : Location) : Option Entry :=
  if location = [] then some .directory else files.entries.get? location

/-- Whether there is a directory at a location. -/
def isDirectory (location : Location) : Bool :=
  match files.entryAt location with
  | some .directory => true
  | _ => false

/-- Puts an entry at a location. -/
def put (location : Location) (entry : Entry) : Files :=
  { files with entries := files.entries.insert location entry }

theorem entryAt_put {location other : Location} {entry : Entry} (h : location ≠ []) :
    (files.put location entry).entryAt other =
      if location = other then some entry else files.entryAt other := by
  by_cases ho : other = []
  · subst ho; simp [entryAt, h]
  · simp [entryAt, put, ho, OrderedMap.get?_insert]

/-! ## Paths -/

/-- Where a path starts, and the names to follow from there. -/
def route (path : String) : Location × List String :=
  match Text.splitAt "/" path with
  | "" :: names => ([], names)
  | names => (files.workingDirectory, names)

/-- The location of a name, whatever is there: nothing and a dot stay, two dots go up. -/
def move (location : Location) (name : String) : Location :=
  if name = "" ∨ name = "." then location
  else if name = ".." then location.dropLast
  else location ++ [name]

/-- Goes from a directory to a name in it. -/
def step (location : Location) (name : String) : Except FileError Location :=
  match files.entryAt location with
  | none => .error .notFound
  | some (.file _) => .error .notDirectory
  | some .directory => .ok (move location name)

/-- The location and the entry that a path names. -/
def find (path : String) : Except FileError (Location × Entry) :=
  if path = "" then .error .notFound
  else do
    let (start, names) := files.route path
    let location ← names.foldlM files.step start
    match files.entryAt location with
    | some entry => return (location, entry)
    | none => throw .notFound

/-- Whether a path names an entry. -/
def has (path : String) : Bool := (files.find path).isOk

/-- A path below a directory; one that starts at the root stays as it is. -/
def join (dir path : String) : String :=
  if path.startsWith "/" ∨ dir = "" then path
  else if dir.endsWith "/" then dir ++ path
  else dir ++ "/" ++ path

/-! ## Use -/

/-- The text of a file. -/
def read (path : String) : Except FileError String := do
  match ← files.find path with
  | (_, .directory) => throw .isDirectory
  | (_, .file content) =>
    match String.fromUTF8? content with
    | some text => return text
    | none => throw .invalidText

/-- The entries directly below a location, with their names. -/
def entriesIn (location : Location) : List (String × Entry) :=
  files.entries.entries.filterMap fun e =>
    match e.1.getLast? with
    | some name => if e.1.dropLast = location then some (name, e.2) else none
    | none => none

theorem mem_entriesIn {location : Location} {name : String} {entry : Entry} :
    (name, entry) ∈ files.entriesIn location ↔
      files.entryAt (location ++ [name]) = some entry := by
  rw [entryAt, if_neg (by simp), OrderedMap.get?_eq_some_iff, entriesIn, List.mem_filterMap]
  constructor
  · rintro ⟨⟨other, e⟩, hm, he⟩
    simp only at he
    split at he
    next last hl =>
      split at he
      next hd =>
        cases he
        obtain ⟨front, rfl⟩ := List.getLast?_eq_some_iff.1 hl
        simpa [← hd] using hm
      next => cases he
    next => cases he
  · intro h
    exact ⟨_, h, by simp⟩

/-- The entries in a directory with their names. -/
def list (path : String) : Except FileError (List (String × Entry)) := do
  match ← files.find path with
  | (_, .file _) => throw .notDirectory
  | (location, .directory) => return files.entriesIn location

/-- Writes a text file, in place of one that is there. A path that ends in a slash or in dots names
no file. -/
def write (path content : String) : Except FileError Files :=
  if path = "" then .error .notFound
  else
    let (start, names) := files.route path
    match names.reverse.dropWhile (· = "") with
    | [] => .error .isDirectory
    | name :: above => do
      let parent ← above.reverse.foldlM files.step start
      let location ← files.step parent name
      if path.endsWith "/" ∨ name ∈ [".", ".."] ∨ files.isDirectory location then
        throw .isDirectory
      else return files.put location (.file content.toUTF8)

/-! ## Building -/

/-- Makes a directory and those above it. -/
def makeDirectory (location : Location) : Files :=
  (List.range location.length).foldl
    (fun files n =>
      let above := location.take (n + 1)
      if files.isDirectory above then files else files.put above .directory)
    files

/-- Adds an entry at a path, and directories for all names before it. -/
def add (path : String) (entry : Entry) : Files :=
  let (start, names) := files.route path
  let (files, location) := names.dropLast.foldl
    (fun (files, location) name =>
      (files.makeDirectory (move location name), move location name))
    (files, start)
  files.put (move location (names.getLast?.getD "")) entry

/-- The entries at the given paths in a working directory. -/
def ofList (workingDirectory : Location) (entries : List (String × Entry)) : Files :=
  entries.foldl (fun files e => files.add e.1 e.2)
    ((Files.mk ∅ workingDirectory).makeDirectory workingDirectory)

end Files

end ComponentMarkup
