/-
  Blank characters and blank text.

  * `isBlank`: the 25 characters with the Unicode property White_Space.
  * `trim`: text without its leading and trailing blanks.
  * `isVisible`: text with a character that is not blank; `isVisible_iff_trim` ties the two.
  * `blankWords`: the maximal runs of characters that are not blank.
-/
import ComponentMarkup.Text.CharTable
import ComponentMarkup.Text.Pieces

namespace ComponentMarkup.Text

/-- The characters with the property White_Space. -/
def blankTable : CharTable :=
  [ (0x9, 0xD), (0x20, 0x20), (0x85, 0x85), (0xA0, 0xA0), (0x1680, 0x1680), (0x2000, 0x200A),
    (0x2028, 0x2029), (0x202F, 0x202F), (0x205F, 0x205F), (0x3000, 0x3000)]

/-- A character with the Unicode property White_Space. -/
def isBlank (c : Char) : Bool :=
  blankTable.has c

/-- The characters between the first and the last one that are not blank. -/
def trimChars (cs : List Char) : List Char :=
  ((cs.dropWhile isBlank).reverse.dropWhile isBlank).reverse

/-- Text without its leading and trailing blanks. -/
def trim (s : String) : String :=
  String.ofList (trimChars s.toList)

/-- Text is visible when some character of it is not blank. -/
def isVisible (s : String) : Bool :=
  s.toList.any fun c => !isBlank c

/-- The maximal runs of characters that are not blank, in order. -/
def blankWords (s : String) : List String :=
  (runsWhere (fun c => !isBlank c) s.toList).map String.ofList

theorem isVisible_append (s t : String) : isVisible (s ++ t) = (isVisible s || isVisible t) := by
  rw [isVisible, String.toList_append, List.any_append]
  rfl

theorem trimChars_eq_nil_iff {cs : List Char} :
    trimChars cs = [] ↔ ∀ c ∈ cs, isBlank c = true := by
  have key : ∀ l : List Char, l.dropWhile isBlank = [] ↔ ∀ c ∈ l, isBlank c = true := by
    intro l
    induction l with
    | nil => simp
    | cons c cs ih => by_cases h : isBlank c <;> simp [h, ih]
  have head : ∀ l : List Char, ∀ c r, l.dropWhile isBlank = c :: r → isBlank c = false := by
    intro l
    induction l with
    | nil => simp
    | cons d ds ih =>
      intro c r h
      by_cases hd : isBlank d
      · exact ih c r (by simpa [List.dropWhile_cons, hd] using h)
      · simp only [List.dropWhile_cons, hd] at h
        cases h
        simpa using hd
  rw [trimChars, List.reverse_eq_nil_iff, key]
  constructor
  · intro h
    cases hd : cs.dropWhile isBlank with
    | nil => exact (key cs).1 hd
    | cons c r =>
      have := h c (by simp [hd])
      simp [head cs c r hd] at this
  · intro h c hc
    simp [(key cs).2 h] at hc

/-- Text is visible exactly when trimming leaves something of it. -/
theorem isVisible_iff_trim {s : String} : isVisible s = true ↔ trim s ≠ "" := by
  have : trim s = "" ↔ trimChars s.toList = [] := by
    rw [trim, ← String.ofList_nil, String.ofList_inj]
  rw [Ne, this, trimChars_eq_nil_iff]
  simp [isVisible]

end ComponentMarkup.Text
