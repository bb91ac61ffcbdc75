/-! # Counts in text

    A count is written as decimal digits, possibly behind a plus sign, and has
    to fit in 64 bits. -/

namespace MessageHarvest.Text

/-- The first number that is too large for a count. -/
def countLimit : Nat := 0x10000000000000000

/-- Whether a text is made of digits, at least one. -/
def isDigits (t : List Char) : Bool := !t.isEmpty && t.all Char.isDigit

/-- The number that decimal digits stand for. -/
def digitsValue (t : List Char) : Nat := t.foldl (fun n c => n * 10 + (c.toNat - 48)) 0

/-- The number that digits stand for, if it is a count. -/
def digitsCount? (t : List Char) : Option Nat :=
  if isDigits t && digitsValue t < countLimit then some (digitsValue t) else none

/-- The number that a text stands for, if it is a count. -/
def count? : List Char → Option Nat
  | '+' :: t => digitsCount? t
  | t => digitsCount? t

example : count? "+12".toList = some 12 := by decide

example : count? "18446744073709551616".toList = none := by decide

example : count? "".toList = none := by decide

end MessageHarvest.Text
