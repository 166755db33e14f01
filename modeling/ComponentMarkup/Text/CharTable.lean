/-
  Tables of character classes.

  * `CharTable`: a class given by its ranges of scalar values, both ends included.
  * `CharTable.has`: membership, range by range.
-/

namespace ComponentMarkup

/-- A class of characters, as ranges of scalar values with both ends included. -/
abbrev CharTable := List (Nat × Nat)

/-- A character belongs to a table when one of its ranges holds its scalar value. -/
def CharTable.has (table : CharTable) (c : Char) : Bool :=
  table.any fun range => range.1 ≤ c.toNat && c.toNat ≤ range.2

theorem CharTable.has_iff {table : CharTable} {c : Char} :
    table.has c = true ↔ ∃ range ∈ table, range.1 ≤ c.toNat ∧ c.toNat ≤ range.2 := by
  simp [CharTable.has]

end ComponentMarkup
