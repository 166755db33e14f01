/-
  Numbers, booleans and dates of TOML.

  * `integer?`: decimal digits with a sign, or digits of base 16, 8 or 2. Single underscores may
    stand between digits. Numbers must fit into 128 bits.
  * `isFraction`: numbers with a decimal point or an exponent that are not too large for a double,
    infinity and the undefined number.
  * `isMoment`: dates, times and both together, each part within its range.
  * `readScalar`: a value without quotes and brackets.
-/
import ComponentMarkup.Config.Setting
import ComponentMarkup.Toml.Text

namespace ComponentMarkup.Toml

/-! ## Numbers -/

/-- The value of digits that may have single underscores between them. -/
def digits? (base : Nat) (cs : List Char) : Option Nat :=
  let groups := Text.piecesOf ['_'] cs
  if groups.any List.isEmpty then none else Text.readDigits? base groups.flatten

/-- The value of decimal digits without needless zeros at the front. -/
def decimal? (cs : List Char) : Option Nat :=
  match cs with
  | '0' :: _ :: _ => none
  | _ => digits? 10 cs

/-- The sign of a number, positive if there is none, and the characters after it. -/
def signed (cs : List Char) : Int × List Char :=
  match cs with
  | '+' :: cs => (1, cs)
  | '-' :: cs => (-1, cs)
  | cs => (1, cs)

/-- The integer that is written. -/
def integer? (cs : List Char) : Option Int := do
  let value : Int ←
    match cs with
    | '0' :: 'x' :: digits => Int.ofNat <$> digits? 16 digits
    | '0' :: 'o' :: digits => Int.ofNat <$> digits? 8 digits
    | '0' :: 'b' :: digits => Int.ofNat <$> digits? 2 digits
    | _ =>
      let (sign, digits) := signed cs
      (fun n => sign * Int.ofNat n) <$> decimal? digits
  if -Nat.pow 2 127 ≤ value ∧ value < Nat.pow 2 128 then some value else none

/-- The least number that rounds to no finite double. -/
def doubleLimit : Nat := Nat.pow 2 1024 - Nat.pow 2 970

/-- Whether `mantissa * 10 ^ exponent` is below `doubleLimit`. The number of digits settles all but
a few cases. -/
def fitsDouble (mantissa : Nat) (exponent : Int) : Bool :=
  let size := (Nat.toDigits 10 mantissa).length + exponent
  if mantissa = 0 ∨ size < 300 then true
  else if 320 < size then false
  else mantissa * Nat.pow 10 exponent.toNat < doubleLimit * Nat.pow 10 (-exponent).toNat

/-- The digits after a decimal point, as a number and a count. -/
def places? : List Char → Option (Nat × Nat)
  | [] => some (0, 0)
  | _ :: cs => (digits? 10 cs).map (·, (cs.filter (· != '_')).length)

/-- The exponent after its letter. -/
def exponent? : List Char → Option Int
  | [] => some 0
  | _ :: cs =>
    let (sign, cs) := signed cs
    (digits? 10 cs).map fun n => sign * Int.ofNat n

/-- The mantissa and the exponent of a number with a decimal point or an exponent. -/
def fraction? (cs : List Char) : Option (Nat × Int) :=
  let front := cs.takeWhile fun c => c != 'e' && c != 'E'
  let whole := front.takeWhile (· != '.')
  if whole.length = cs.length then none
  else do
    let n ← decimal? whole
    let (m, size) ← places? (front.drop whole.length)
    let exponent ← exponent? (cs.drop front.length)
    return (n * Nat.pow 10 size + m, exponent - size)

/-- Whether the characters are a number that is no integer. -/
def isFraction (cs : List Char) : Bool :=
  let (_, cs) := signed cs
  cs == "inf".toList || cs == "nan".toList ||
    match fraction? cs with
    | some (mantissa, exponent) => fitsDouble mantissa exponent
    | none => false

/-! ## Dates and times -/

/-- Reads a number of exactly `n` digits within bounds. -/
def readNumber (n low high : Nat) : Reader Nat := fun cs =>
  match Text.readDigits? 10 (cs.take n) with
  | some value =>
    if n ≤ cs.length ∧ low ≤ value ∧ value ≤ high then some (value, cs.drop n) else none
  | none => none

/-- The characters after the one that is expected. -/
def expect? (c : Char) : List Char → Option (List Char)
  | [] => none
  | d :: cs => if c = d then some cs else none

/-- The number of days of a month. -/
def daysOf (year month : Nat) : Nat :=
  if month = 2 then
    if year % 4 = 0 ∧ (year % 100 ≠ 0 ∨ year % 400 = 0) then 29 else 28
  else if month ∈ [4, 6, 9, 11] then 30
  else 31

/-- The characters after a date. -/
def afterDate? (cs : List Char) : Option (List Char) := do
  let (year, cs) ← readNumber 4 0 9999 cs
  let (month, cs) ← readNumber 2 1 12 (← expect? '-' cs)
  let (_, cs) ← readNumber 2 1 (daysOf year month) (← expect? '-' cs)
  return cs

/-- The characters after hours and minutes. -/
def afterMinutes? (cs : List Char) : Option (List Char) := do
  let (_, cs) ← readNumber 2 0 23 cs
  let (_, cs) ← readNumber 2 0 59 (← expect? ':' cs)
  return cs

/-- The characters after a time. Seconds may be left out. -/
def afterTime? (cs : List Char) : Option (List Char) := do
  let cs ← afterMinutes? cs
  match cs with
  | ':' :: cs =>
    let (_, cs) ← readNumber 2 0 60 cs
    match cs with
    | '.' :: cs =>
      let places := cs.takeWhile Char.isDigit
      if places.isEmpty then none else some (cs.drop places.length)
    | _ => some cs
  | _ => some cs

/-- Whether the characters are nothing, or an offset from universal time. -/
def isOffset (cs : List Char) : Bool :=
  match cs with
  | [] => true
  | [c] => c == 'Z' || c == 'z'
  | '+' :: cs | '-' :: cs => afterMinutes? cs == some []
  | _ => false

/-- Whether the characters are a date, a time, or both. -/
def isMoment (cs : List Char) : Bool :=
  afterTime? cs == some [] ||
    match afterDate? cs with
    | some [] => true
    | some (c :: time) => ['T', 't', ' '].contains c && ((afterTime? time).map isOffset).getD false
    | none => false

/-! ## Values -/

/-- The value that is written. -/
def scalar? (cs : List Char) : Option Setting :=
  if cs = "true".toList then some (.bool true)
  else if cs = "false".toList then some (.bool false)
  else
    match integer? cs with
    | some n => some (.integer n)
    | none => if isFraction cs then some .fraction else if isMoment cs then some .moment else none

/-- A character of a value without quotes and brackets. -/
def isScalarChar (c : Char) : Bool :=
  c.isAlphanum || c == '+' || c == '-' || c == '.' || c == ':' || c == '_'

/-- Reads a value without quotes and brackets. A space after a date leads to its time. -/
def readScalar : Reader Setting := fun cs =>
  let word := cs.takeWhile isScalarChar
  let after := cs.drop word.length
  match afterDate? word, after with
  | some [], ' ' :: c :: _ =>
    if c.isDigit then
      let time := (after.drop 1).takeWhile isScalarChar
      (scalar? (word ++ ' ' :: time)).map (·, after.drop (time.length + 1))
    else (scalar? word).map (·, after)
  | _, _ => (scalar? word).map (·, after)

end ComponentMarkup.Toml
