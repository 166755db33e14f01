/-
  Tables of TOML that are being filled.

  * `Item`: a finished value, a table that may still grow, or a list of such tables. A table knows
    how it came about, which decides what may be added to it.
  * `assign`: sets a dotted key.
  * `define`, `append`: open a table or one more table of a list; `within` leads there.
  * `close`: the finished table.
-/
import ComponentMarkup.Config.Setting
import ComponentMarkup.OrderedMap

namespace ComponentMarkup.Toml

/-- How a table came about. -/
inductive Origin where
  /-- It has a header of its own. -/
  | header
  /-- It lies on the path of a header. -/
  | implied
  /-- It lies on the path of a dotted key. -/
  | dotted
deriving DecidableEq, Repr

/-- What a key of an open table stands for. -/
inductive Item where
  | value (setting : Setting)
  | table (origin : Origin) (entries : List (String × Item))
  /-- Tables under one header, each with its entries. -/
  | tables (elements : List (List (String × Item)))

/-- The entries of an open table. -/
abbrev Entries := List (String × Item)

/-! ## Filling -/

open OrderedMap (find put)

/-- Sets a dotted key. The key must be new. None of the tables that it goes through, nor the one
that takes it, may have a header; but it may go through the last table of a list. -/
def assign (value : Setting) : List String → Entries → Option Entries
  | [], _ => none
  | [key], entries =>
    match find key entries with
    | none => some (put key (.value value) entries)
    | some _ => none
  | key :: path, entries =>
    match find key entries with
    | none => (assign value path []).map fun inner => put key (.table .dotted inner) entries
    | some (.table origin inner) =>
      if origin = .header then none
      else (assign value path inner).map fun inner => put key (.table origin inner) entries
    | some (.tables elements) => do
      if path.length = 1 then none
      let inner ← assign value path (← elements.getLast?)
      return put key (.tables (elements.dropLast ++ [inner])) entries
    | some (.value _) => none

/-- Changes the table that a header path leads to. What is missing on the path is made; of a list of
tables the last one counts. -/
def within (change : Entries → Option Entries) : List String → Entries → Option Entries
  | [], entries => change entries
  | key :: path, entries =>
    match find key entries with
    | none => (within change path []).map fun inner => put key (.table .implied inner) entries
    | some (.table origin inner) =>
      (within change path inner).map fun inner => put key (.table origin inner) entries
    | some (.tables elements) => do
      let inner ← within change path (← elements.getLast?)
      return put key (.tables (elements.dropLast ++ [inner])) entries
    | some (.value _) => none

/-- Opens the table with the given header. It must be new, or so far only on the path of others. -/
def define (key : String) (entries : Entries) : Option Entries :=
  match find key entries with
  | none => some (put key (.table .header []) entries)
  | some (.table .implied inner) => some (put key (.table .header inner) entries)
  | some _ => none

/-- Opens a further table of a list. -/
def append (key : String) (entries : Entries) : Option Entries :=
  match find key entries with
  | none => some (put key (.tables [[]]) entries)
  | some (.tables elements) => some (put key (.tables (elements ++ [[]])) entries)
  | some _ => none

/-! ## Closing -/

mutual

/-- The value of an item. -/
def Item.close : Item → Setting
  | .value setting => setting
  | .table _ entries => .table (close entries)
  | .tables elements => .list (closeAll elements)

/-- The settings of a table. -/
def close : List (String × Item) → List (String × Setting)
  | [] => []
  | (key, item) :: entries => (key, item.close) :: close entries

/-- The tables of a list. -/
def closeAll : List (List (String × Item)) → List Setting
  | [] => []
  | entries :: elements => .table (close entries) :: closeAll elements

end

end ComponentMarkup.Toml
