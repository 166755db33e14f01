/-
  Names derived from names.

  * `TagJoiner`: how the words of a class token are joined, by a literal text or in camel case;
    in configurations it is written as a text, `^` for camel case (`ofText_text`).
  * `slug`: a label as a class token: the runs of letters and numbers of the lowered label, joined.
  * `camelCase`: an attribute name as a binding key: `data-id` becomes `dataId`.
-/
import ComponentMarkup.Text.Alphabetic
import ComponentMarkup.Text.Case
import ComponentMarkup.Text.Pieces

namespace ComponentMarkup

/-- How the words of a class token are joined. -/
inductive TagJoiner where
  | literal (separator : String)
  | camel
deriving DecidableEq, Repr

namespace TagJoiner

/-- The joiner that a text stands for. -/
def ofText (s : String) : TagJoiner := if s = "^" then .camel else .literal s

/-- The text of a joiner. -/
def text : TagJoiner → String
  | .literal separator => separator
  | .camel => "^"

@[simp] theorem text_ofText (s : String) : (ofText s).text = s := by
  unfold ofText
  split <;> simp_all [text]

end TagJoiner

namespace Naming

/-- The word with its first character in capitals. -/
def capitalize : List Char → List Char
  | [] => []
  | c :: cs => Text.upperChar c ++ cs

/-- The word with its first character in small letters. -/
def decapitalize : List Char → List Char
  | [] => []
  | c :: cs => Text.lowerChar c ++ cs

/-- The runs of letters and numbers of the lowered label. -/
def slugWords (label : String) : List (List Char) :=
  Text.runsWhere Text.isAlphanumeric (Text.lowercase label).toList

/-- A label as a class token. In camel case all words but the first are capitalized. -/
def slug (joiner : TagJoiner) (label : String) : String :=
  match joiner, slugWords label with
  | .literal separator, words => separator.intercalate (words.map String.ofList)
  | .camel, [] => ""
  | .camel, word :: words => String.ofList (word ++ words.flatMap capitalize)

/-- The characters between the words of an attribute name. -/
def isWordGap (c : Char) : Bool := c == ' ' || c == '-' || c == '_'

/-- A name in camel case: the gaps are dropped and the first character of each word changes its
case, to a small letter in the first word and to a capital in the others. -/
def camelCase (name : String) : String :=
  match Text.runsWhere (fun c => !isWordGap c) name.toList with
  | [] => ""
  | word :: words => String.ofList (decapitalize word ++ words.flatMap capitalize)

end Naming

end ComponentMarkup
