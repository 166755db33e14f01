/-
  Documents in TOML.

  * `readValue`: values. Lists and tables in brackets may be nested up to `maxNesting`; inside them
    lines may end and comments may stand, and a comma may follow the last item.
  * `Statement`: the header of a table, or a key with its value. Each ends with its line.
  * `Toml.read?`: the table that a text describes.
-/
import ComponentMarkup.Toml.Scalar
import ComponentMarkup.Toml.Table

namespace ComponentMarkup.Toml

/-! ## Between words -/

/-- The characters after a comment, which goes to the end of its line. -/
def skipComment : List Char → List Char
  | '#' :: cs => cs.dropWhile isPlain
  | cs => cs

theorem length_skipComment (cs : List Char) : (skipComment cs).length ≤ cs.length := by
  unfold skipComment
  split
  · exact Nat.le_succ_of_le (List.dropWhile_sublist _).length_le
  · exact Nat.le_refl _

/-- The characters after spaces, comments and line ends. -/
def skipGaps (cs : List Char) : List Char :=
  match _h : newline? (skipComment (skipSpaces cs)) with
  | some rest => skipGaps rest
  | none => skipComment (skipSpaces cs)
termination_by cs.length
decreasing_by
  have := length_newline? _h
  have := length_skipComment (skipSpaces cs)
  have := length_skipSpaces cs
  omega

/-- The characters after the rest of a line that holds at most a comment. -/
def endLine? (cs : List Char) : Option (List Char) :=
  match skipComment (skipSpaces cs) with
  | [] => some []
  | rest => newline? rest

/-! ## Values -/

/-- Reads items with commas between them up to the closing bracket. -/
def readItems {α : Type} (close : Char) (item : Reader α) (cs : List Char) :
    Option (List α × List Char) :=
  match skipGaps cs with
  | [] => none
  | c :: inner =>
    if c = close then some ([], inner)
    else do
      let (first, rest) ← item (c :: inner)
      match skipGaps rest with
      | ',' :: next =>
        if next.length < cs.length then
          let (others, rest) ← readItems close item next
          return (first :: others, rest)
        else none
      | c :: next => if c = close then return ([first], next) else none
      | [] => none
termination_by cs.length

/-- Reads a key and a value with a sign between them, and what `skip` skips around the sign. -/
def readPair (skip : List Char → List Char) (value : Reader Setting) :
    Reader (List String × Setting) := fun cs => do
  let (path, cs) ← readKey cs
  let (setting, cs) ← value (skip (← expect? '=' (skip cs)))
  return ((path, setting), cs)

/-- The table of some keys and values in one pair of brackets. -/
def tableOf? (pairs : List (List String × Setting)) : Option Setting := do
  let entries ← pairs.foldlM (fun entries (path, value) => assign value path entries) []
  return .table (close entries)

/-- Reads a value without brackets. -/
def readPlain : Reader Setting := fun cs =>
  match readString cs with
  | some (s, rest) => some (.text s, rest)
  | none => readScalar cs

/-- Reads a value in which brackets are nested up to the given depth. -/
def readValue : Nat → Reader Setting
  | depth + 1, '[' :: cs =>
    (readItems ']' (readValue depth) cs).map fun (items, rest) => (.list items, rest)
  | depth + 1, '\x7b' :: cs => do
    let (pairs, rest) ← readItems '\x7d' (readPair skipGaps (readValue depth)) cs
    return (← tableOf? pairs, rest)
  | _, cs => readPlain cs

/-! ## Documents -/

/-- A line of a document, or several if its value has some. -/
inductive Statement where
  | header (path : List String)
  /-- The header of one more table of a list. -/
  | listHeader (path : List String)
  | pair (path : List String) (value : Setting)

/-- Reads a statement. -/
def readStatement : Reader Statement
  | '[' :: '[' :: cs => do
    let (path, cs) ← readKey (skipSpaces cs)
    return (.listHeader path, ← expect? ']' (← expect? ']' cs))
  | '[' :: cs => do
    let (path, cs) ← readKey (skipSpaces cs)
    return (.header path, ← expect? ']' cs)
  | cs => do
    let ((path, value), cs) ← readPair skipSpaces (readValue maxNesting) cs
    return (.pair path value, cs)

/-- All statements of a text. -/
def statements? (cs : List Char) : Option (List Statement) :=
  match skipGaps cs with
  | [] => some []
  | start => do
    let (statement, rest) ← readStatement start
    let next ← endLine? rest
    if next.length < cs.length then
      return statement :: (← statements? next)
    else none
termination_by cs.length

/-- A table that is being filled, and the path of the header that was opened last. -/
structure Filling where
  entries : Entries
  header : List String

/-- Adds what a statement says. -/
def Filling.add? (filling : Filling) : Statement → Option Filling
  | .header path => do
    let entries ← within (define (path.getLast?.getD "")) path.dropLast filling.entries
    return ⟨entries, path⟩
  | .listHeader path => do
    let entries ← within (append (path.getLast?.getD "")) path.dropLast filling.entries
    return ⟨entries, path⟩
  | .pair path value => do
    let entries ← within (assign value path) filling.header filling.entries
    return { filling with entries }

/-- The table that a text describes. A byte order mark at its start is ignored. -/
def read? (text : String) : Option Setting := do
  let cs :=
    match text.toList with
    | '\uFEFF' :: cs => cs
    | cs => cs
  let filling ← (← statements? cs).foldlM Filling.add? ⟨[], []⟩
  return .table (close filling.entries)

end ComponentMarkup.Toml
