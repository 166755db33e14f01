/-
  Character references.

  A reference is `&`, a body of at most eight characters, and `;`. The body is one of six names, or
  `#` and a number that names a character. Everything else that starts with `&` is kept as written,
  so that no text is lost.

  * `referent?`: the character that a body names.
  * `takeReference?`: the reference after a `&`, with what follows it (`length_takeReference?`).
  * `decodeReferences`: text with its references replaced, from left to right.
-/
import ComponentMarkup.Text.Digits
import ComponentMarkup.Text.Pieces

namespace ComponentMarkup.Markup

/-- The longest body of a reference, as in `#x10FFFF`. -/
def maxReferenceLength : Nat := 8

/-- The character of a scalar value. -/
def scalar? (n : Nat) : Option Char :=
  if n.isValidChar then some (Char.ofNat n) else none

/-- The character that the body of a reference names: decimal after `#`, hexadecimal after `#x`. -/
def referent? : List Char → Option Char
  | '#' :: 'x' :: digits => (Text.readUnsigned? 16 digits).bind scalar?
  | '#' :: 'X' :: digits => (Text.readUnsigned? 16 digits).bind scalar?
  | '#' :: digits => (Text.readUnsigned? 10 digits).bind scalar?
  | ['a', 'm', 'p'] => some '&'
  | ['l', 't'] => some '<'
  | ['g', 't'] => some '>'
  | ['q', 'u', 'o', 't'] => some '"'
  | ['a', 'p', 'o', 's'] => some '\''
  | ['n', 'b', 's', 'p'] => some '\u00a0'
  | _ => none

/-- The character of the reference whose `&` has just been read, and the text after its `;`. -/
def takeReference? (cs : List Char) : Option (Char × List Char) :=
  match Text.cut? [';'] (cs.take (maxReferenceLength + 1)) with
  | some (body, _) => (referent? body).map fun c => (c, cs.drop (body.length + 1))
  | none => none

theorem length_takeReference? {cs after : List Char} {c : Char}
    (h : takeReference? cs = some (c, after)) : after.length < cs.length := by
  unfold takeReference? at h
  split at h
  next body rest hcut =>
    obtain ⟨_, _, he⟩ := Option.map_eq_some_iff.1 h
    cases he
    have := Text.length_cut? hcut
    simp only [List.length_cons, List.length_nil, List.length_take] at this
    simp only [List.length_drop]
    omega
  next => cases h

/-- The text with every reference replaced by its character. -/
def decodeReferences : List Char → List Char
  | [] => []
  | c :: cs =>
    if c = '&' then
      match _h : takeReference? cs with
      | some (d, after) => d :: decodeReferences after
      | none => c :: decodeReferences cs
    else c :: decodeReferences cs
termination_by cs => cs.length
decreasing_by
  · have := length_takeReference? _h
    simp only [List.length_cons]
    omega
  · simp
  · simp

end ComponentMarkup.Markup
