/-
  Numbers written in digits.

  * `digitValue?`: the value of an ASCII digit or letter in a base up to 16.
  * `readDigits?`: one or more digits, and nothing else.
  * `readUnsigned?`: digits after an optional plus sign.
-/

namespace ComponentMarkup.Text

/-- The value of a digit of the base; letters of either case stand for ten and more. -/
def digitValue? (base : Nat) (c : Char) : Option Nat :=
  let n :=
    if '0' ≤ c ∧ c ≤ '9' then c.toNat - '0'.toNat
    else if 'a' ≤ c ∧ c ≤ 'f' then c.toNat - 'a'.toNat + 10
    else if 'A' ≤ c ∧ c ≤ 'F' then c.toNat - 'A'.toNat + 10
    else base
  if n < base then some n else none

/-- The value of the digits `cs` that follow digits with the value `acc`. -/
def readDigitsAfter? (base : Nat) (acc : Nat) : List Char → Option Nat
  | [] => some acc
  | c :: cs =>
    match digitValue? base c with
    | some n => readDigitsAfter? base (acc * base + n) cs
    | none => none

/-- The value of one or more digits. -/
def readDigits? (base : Nat) : List Char → Option Nat
  | [] => none
  | cs => readDigitsAfter? base 0 cs

/-- The value of one or more digits after an optional plus sign. -/
def readUnsigned? (base : Nat) : List Char → Option Nat
  | '+' :: cs => readDigits? base cs
  | cs => readDigits? base cs

end ComponentMarkup.Text
