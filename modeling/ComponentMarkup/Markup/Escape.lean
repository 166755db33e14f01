/-
  Escaping of markup.

  * `escapeText`: text between tags, where `&`, `<` and `>` are written as references.
  * `escapeAttribute`: a value between double quotes, where `"` is written as a reference too.

  All other characters stand for themselves. Both work character by character
  (`escapeText_append`, `escapeAttribute_append`).
-/

namespace ComponentMarkup.Markup

/-- The written form of a character of text. -/
def textForm : Char → List Char
  | '&' => ['&', 'a', 'm', 'p', ';']
  | '<' => ['&', 'l', 't', ';']
  | '>' => ['&', 'g', 't', ';']
  | c => [c]

/-- The written form of a character of a double-quoted attribute value. -/
def attributeForm : Char → List Char
  | '"' => ['&', 'q', 'u', 'o', 't', ';']
  | c => textForm c

/-- Text as it is written between tags. -/
def escapeText (s : String) : String :=
  String.ofList (s.toList.flatMap textForm)

/-- An attribute value as it is written between double quotes. -/
def escapeAttribute (s : String) : String :=
  String.ofList (s.toList.flatMap attributeForm)

theorem escapeText_append (s t : String) : escapeText (s ++ t) = escapeText s ++ escapeText t := by
  simp [escapeText]

theorem escapeAttribute_append (s t : String) :
    escapeAttribute (s ++ t) = escapeAttribute s ++ escapeAttribute t := by
  simp [escapeAttribute]

end ComponentMarkup.Markup
