/-
  Reading positions in source text.

  * `Cursor`: the characters still to be read, and the byte offset of the first of them.
  * `Cursor.Reads`: one cursor comes from another by reading the given characters. Reading composes
    (`Reads.trans`) and never gains characters (`Reads.length_le`).
  * `takeWhile`, `skip?`, `takeUntil?`, `finish`: the ways to read on, each with the lemma that it
    reads.
-/
import ComponentMarkup.Markup.Span
import ComponentMarkup.Text.Pieces

namespace ComponentMarkup.Markup

/-- A position in a source text. -/
structure Cursor where
  offset : Nat
  rest : List Char
deriving DecidableEq, Repr

namespace Cursor

variable {a b c : Cursor} {s t : List Char}

/-- The position before the first character. -/
def ofString (source : String) : Cursor := ⟨0, source.toList⟩

/-- Reading the characters `s` leads from `a` to `b`. -/
def Reads (a : Cursor) (s : List Char) (b : Cursor) : Prop :=
  a.rest = s ++ b.rest ∧ b.offset = a.offset + utf8Length s

theorem Reads.refl (a : Cursor) : a.Reads [] a := by
  simp [Reads, utf8Length]

theorem Reads.trans (hab : a.Reads s b) (hbc : b.Reads t c) : a.Reads (s ++ t) c := by
  simp [Reads, hab.1, hbc.1, hab.2, hbc.2, Nat.add_assoc]

theorem Reads.length_eq (h : a.Reads s b) : a.rest.length = s.length + b.rest.length := by
  rw [h.1, List.length_append]

theorem Reads.length_le (h : a.Reads s b) : b.rest.length ≤ a.rest.length := by
  rw [h.length_eq]; omega

theorem Reads.length_lt (h : a.Reads s b) (hs : s ≠ []) : b.rest.length < a.rest.length := by
  have := List.length_pos_iff.2 hs
  rw [h.length_eq]; omega

/-- The range between two positions. -/
def spanTo (a b : Cursor) : Span := .between a.offset b.offset

/-- The position after the characters `s`, which leave `rest`. -/
def past (a : Cursor) (s rest : List Char) : Cursor := ⟨a.offset + utf8Length s, rest⟩

theorem reads_past {rest : List Char} (h : a.rest = s ++ rest) : a.Reads s (a.past s rest) :=
  ⟨h, rfl⟩

/-- The end of the text. -/
def finish (a : Cursor) : Cursor := a.past a.rest []

theorem reads_finish (a : Cursor) : a.Reads a.rest a.finish := by
  simp [Reads, finish, past]

/-- Reads the longest run of characters that satisfy `p`. -/
def takeWhile (p : Char → Bool) (a : Cursor) : List Char × Cursor :=
  (a.rest.takeWhile p, a.past (a.rest.takeWhile p) (a.rest.dropWhile p))

theorem reads_takeWhile (p : Char → Bool) (a : Cursor) :
    a.Reads (a.takeWhile p).1 (a.takeWhile p).2 := by
  simp [Reads, takeWhile, past, List.takeWhile_append_dropWhile]

/-- Skips the longest run of characters that satisfy `p`. -/
def skipWhile (p : Char → Bool) (a : Cursor) : Cursor := (a.takeWhile p).2

/-- Skips the characters `pat`, if they come next. -/
def skip? (pat : List Char) (a : Cursor) : Option Cursor :=
  (pat.isPrefixOf? a.rest).map fun after => a.past pat after

theorem reads_skip? {pat : List Char} (h : a.skip? pat = some b) : a.Reads pat b := by
  obtain ⟨after, hp, rfl⟩ := Option.map_eq_some_iff.1 h
  exact ⟨Text.isPrefixOf?_eq_some.1 hp, rfl⟩

/-- Reads the text before the next occurrence of `pat` and skips that occurrence. -/
def takeUntil? (pat : List Char) (a : Cursor) : Option (List Char × Cursor) :=
  (Text.cut? pat a.rest).map fun parts => (parts.1, a.past (parts.1 ++ pat) parts.2)

theorem reads_takeUntil? {pat : List Char} (h : a.takeUntil? pat = some (s, b)) :
    a.Reads (s ++ pat) b := by
  obtain ⟨⟨before, after⟩, hc, he⟩ := Option.map_eq_some_iff.1 h
  cases he
  exact ⟨Text.cut?_eq_some hc, rfl⟩

end Cursor

end ComponentMarkup.Markup
