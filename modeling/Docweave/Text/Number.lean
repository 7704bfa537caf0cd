set_option autoImplicit false

/-! # Counts

A count is written in decimal digits, with an optional plus sign, and fits in 64 bits. -/

namespace Docweave.Text

/-- The value of a list of decimal digits. -/
def digitsValue (digits : List Char) : Nat :=
  digits.foldl (fun n c => 10 * n + (c.toNat - '0'.toNat)) 0

/-- One more than the largest count. -/
def countBound : Nat := Nat.pow 2 64

/-- The count that a text writes. -/
def count? (s : List Char) : Option Nat :=
  let digits := match s with
    | '+' :: rest => rest
    | _ => s
  if digits.isEmpty || !digits.all Char.isDigit then none
  else if digitsValue digits < countBound then some (digitsValue digits)
  else none

end Docweave.Text
