/-
  Places in source text.

  * `Span`: a half-open range of byte offsets whose end is never before its start.
  * `Span.between`: the range between two offsets, empty at the first if they are inverted.
  * `Span.union`: the least range around two; `Span.start_union`, `Span.stop_union`.
  * `utf8Length`: the number of bytes that a list of characters takes.
-/

namespace ComponentMarkup.Markup

/-- The number of UTF-8 bytes of a list of characters. -/
def utf8Length : List Char → Nat
  | [] => 0
  | c :: cs => c.utf8Size + utf8Length cs

@[simp] theorem utf8Length_append (a b : List Char) :
    utf8Length (a ++ b) = utf8Length a + utf8Length b := by
  induction a with
  | nil => simp [utf8Length]
  | cons c cs ih => simp [utf8Length, ih, Nat.add_assoc]

/-- A half-open range of byte offsets. -/
structure Span where
  start : Nat
  stop : Nat
  start_le_stop : start ≤ stop
deriving DecidableEq, Repr

namespace Span

/-- The range from `start` to `stop`, empty at `start` if `stop` lies before it. -/
def between (start stop : Nat) : Span :=
  ⟨start, max stop start, Nat.le_max_right stop start⟩

instance : Inhabited Span := ⟨between 0 0⟩

/-- The number of bytes. -/
def length (s : Span) : Nat := s.stop - s.start

/-- Whether the range holds no byte. -/
def isEmpty (s : Span) : Bool := s.start == s.stop

/-- The least range that holds both. -/
def union (s t : Span) : Span :=
  ⟨min s.start t.start, max s.stop t.stop, by
    have := s.start_le_stop
    omega⟩

/-- The range as it is shown: both offsets with two dots between. -/
def text (s : Span) : String := s!"{s.start}..{s.stop}"

@[simp] theorem start_union (s t : Span) : (s.union t).start = min s.start t.start := rfl

@[simp] theorem stop_union (s t : Span) : (s.union t).stop = max s.stop t.stop := rfl

theorem between_of_le {a b : Nat} (h : a ≤ b) : between a b = ⟨a, b, h⟩ := by
  simp [between, Nat.max_eq_left h]

end Span

end ComponentMarkup.Markup
