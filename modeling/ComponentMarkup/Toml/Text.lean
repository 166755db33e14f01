/-
  Characters, strings and keys of TOML.

  * `Reader`: a step of reading, which gives a value and the characters after it.
  * `readString`: strings between one or three quotes. Between double quotes a backslash stands
    for a character, or joins lines; between single quotes every character is itself.
  * `readKey`: the parts of a dotted key, each bare or quoted, at most `maxNesting` of them.
-/
import ComponentMarkup.Text.Digits

namespace ComponentMarkup.Toml

/-- A step of reading: a value and the characters after it. -/
abbrev Reader (α : Type) := List Char → Option (α × List Char)

/-! ## Characters -/

/-- The characters between words of one line. -/
def isSpace (c : Char) : Bool := c == ' ' || c == '\t'

/-- A character of comments and strings: none of the control characters but the tab. -/
def isPlain (c : Char) : Bool := c == '\t' || (' ' ≤ c && c != '\x7F')

/-- The characters after the spaces. -/
def skipSpaces (cs : List Char) : List Char := cs.dropWhile isSpace

/-- The characters after a line end. -/
def newline? : List Char → Option (List Char)
  | '\n' :: cs => some cs
  | '\r' :: '\n' :: cs => some cs
  | _ => none

theorem length_skipSpaces (cs : List Char) : (skipSpaces cs).length ≤ cs.length :=
  (List.dropWhile_sublist _).length_le

theorem length_newline? {cs rest : List Char} (h : newline? cs = some rest) :
    rest.length < cs.length := by
  unfold newline? at h
  split at h <;> cases h <;> simp only [List.length_cons] <;> omega

/-! ## Escapes -/

/-- The character given by `n` hexadecimal digits. -/
def readHex (n : Nat) : Reader Char := fun cs =>
  match Text.readDigits? 16 (cs.take n) with
  | some value =>
    if n ≤ cs.length ∧ value.isValidChar then some (Char.ofNat value, cs.drop n) else none
  | none => none

/-- The character that the text after a backslash stands for. -/
def readEscape : Reader Char
  | 'b' :: cs => some ('\x08', cs)
  | 't' :: cs => some ('\t', cs)
  | 'n' :: cs => some ('\n', cs)
  | 'f' :: cs => some ('\x0C', cs)
  | 'r' :: cs => some ('\r', cs)
  | 'e' :: cs => some ('\x1B', cs)
  | '"' :: cs => some ('"', cs)
  | '\\' :: cs => some ('\\', cs)
  | 'x' :: cs => readHex 2 cs
  | 'u' :: cs => readHex 4 cs
  | 'U' :: cs => readHex 8 cs
  | _ => none

/-- The text after the line ends and spaces. -/
def skipBlankLines (cs : List Char) : List Char :=
  match _h : newline? (skipSpaces cs) with
  | some rest => skipBlankLines rest
  | none => skipSpaces cs
termination_by cs.length
decreasing_by
  have := length_newline? _h
  have := length_skipSpaces cs
  omega

/-- The text after a line end that a backslash hides, and after the blanks that follow. -/
def joinLine? (cs : List Char) : Option (List Char) :=
  (newline? (skipSpaces cs)).map skipBlankLines

theorem length_readEscape {cs rest : List Char} {c : Char}
    (h : readEscape cs = some (c, rest)) : rest.length ≤ cs.length := by
  have hex : ∀ n cs, readHex n cs = some (c, rest) → rest.length ≤ cs.length := by
    intro n cs hx
    unfold readHex at hx
    split at hx
    · split at hx <;> cases hx
      simp
    · cases hx
  unfold readEscape at h
  split at h
  case h_9 | h_10 | h_11 => exact Nat.le_succ_of_le (hex _ _ h)
  case h_12 => cases h
  all_goals cases h; simp

theorem length_skipBlankLines (cs : List Char) : (skipBlankLines cs).length ≤ cs.length := by
  fun_induction skipBlankLines cs with
  | case1 cs rest h ih =>
    have := length_newline? h
    have := length_skipSpaces cs
    omega
  | case2 cs => exact length_skipSpaces cs

theorem length_joinLine? {cs rest : List Char} (h : joinLine? cs = some rest) :
    rest.length ≤ cs.length := by
  obtain ⟨next, hn, rfl⟩ := Option.map_eq_some_iff.1 h
  have := length_newline? hn
  have := length_skipSpaces cs
  have := length_skipBlankLines next
  omega

/-- Whether a character may stand in a string before the characters `after`. Line ends may only if
the string has several lines. -/
def allows (multiline : Bool) (c : Char) (after : List Char) : Bool :=
  isPlain c || (multiline && (newline? (c :: after)).isSome)

/-- The text that the body of a string between double quotes stands for. -/
def unescape (multiline : Bool) : List Char → Option (List Char)
  | [] => some []
  | '\\' :: cs =>
    match _h : readEscape cs with
    | some (c, rest) => (unescape multiline rest).map (c :: ·)
    | none =>
      match _h' : if multiline then joinLine? cs else none with
      | some rest => unescape multiline rest
      | none => none
  | c :: cs => if allows multiline c cs then (unescape multiline cs).map (c :: ·) else none
termination_by cs => cs.length
decreasing_by
  · have := length_readEscape _h
    simp only [List.length_cons]
    omega
  · split at _h'
    · have := length_joinLine? _h'
      simp only [List.length_cons]
      omega
    · cases _h'
  · simp

/-- The body of a string between single quotes, if all its characters may stand there. -/
def literal (multiline : Bool) : List Char → Option (List Char)
  | [] => some []
  | c :: cs => if allows multiline c cs then (literal multiline cs).map (c :: ·) else none

/-! ## Strings -/

/-- The text of the body of a string, by its quotes. -/
def decode (quote : Char) (multiline : Bool) (body : List Char) : Option String :=
  (if quote = '"' then unescape multiline body else literal multiline body).map String.ofList

/-- Reads the body of a string up to its closing quote. After a backslash between double quotes, a
quote does not close. -/
def readBody (quote : Char) : Reader (List Char)
  | [] => none
  | c :: cs =>
    if c = quote then some ([], cs)
    else if c = '\\' ∧ quote = '"' then
      match cs with
      | [] => none
      | d :: cs => (readBody quote cs).map fun (body, rest) => (c :: d :: body, rest)
    else (readBody quote cs).map fun (body, rest) => (c :: body, rest)

/-- Reads the body of a string up to its three closing quotes. Up to two more quotes right before
them belong to the body. -/
def readLongBody (quote : Char) : Reader (List Char)
  | [] => none
  | c :: cs =>
    match [quote, quote, quote].isPrefixOf? (c :: cs) with
    | some after =>
      let more := (after.takeWhile (· == quote)).take 2
      some (more, after.drop more.length)
    | none =>
      if c = '\\' ∧ quote = '"' then
        match cs with
        | [] => none
        | d :: cs => (readLongBody quote cs).map fun (body, rest) => (c :: d :: body, rest)
      else (readLongBody quote cs).map fun (body, rest) => (c :: body, rest)

/-- Reads a string of one line after its opening quote. -/
def readQuoted (quote : Char) (cs : List Char) : Option (String × List Char) := do
  let (body, rest) ← readBody quote cs
  return (← decode quote false body, rest)

/-- Reads a string of several lines after its opening quotes. A line end right after them is no part
of it. -/
def readLong (quote : Char) (cs : List Char) : Option (String × List Char) := do
  let (body, rest) ← readLongBody quote ((newline? cs).getD cs)
  return (← decode quote true body, rest)

/-- Reads a string. -/
def readString : Reader String
  | '"' :: '"' :: '"' :: cs => readLong '"' cs
  | '\'' :: '\'' :: '\'' :: cs => readLong '\'' cs
  | '"' :: cs => readQuoted '"' cs
  | '\'' :: cs => readQuoted '\'' cs
  | _ => none

/-! ## Keys -/

/-- A character of a key without quotes. -/
def isBareKeyChar (c : Char) : Bool := c.isAlphanum || c == '_' || c == '-'

/-- Reads one part of a key. -/
def readKeyPart : Reader String
  | '"' :: cs => readQuoted '"' cs
  | '\'' :: cs => readQuoted '\'' cs
  | cs =>
    match cs.takeWhile isBareKeyChar with
    | [] => none
    | part => some (String.ofList part, cs.dropWhile isBareKeyChar)

/-- Reads parts of a key with dots between them, and the spaces after the last one. -/
def readKeyParts (cs : List Char) : Option (List String × List Char) := do
  let (part, rest) ← readKeyPart cs
  match skipSpaces rest with
  | '.' :: next =>
    if (skipSpaces next).length < cs.length then
      let (parts, rest) ← readKeyParts (skipSpaces next)
      return (part :: parts, rest)
    else none
  | rest => return ([part], rest)
termination_by cs.length

/-- How many parts a key may have, and how deep brackets may be nested. -/
def maxNesting : Nat := 80

/-- Reads a key, and the spaces after it. -/
def readKey : Reader (List String) := fun cs => do
  let (path, rest) ← readKeyParts cs
  if path.length ≤ maxNesting then some (path, rest) else none

end ComponentMarkup.Toml
