/-! # UTF-16 code units

    Source text literals are sequences of 16-bit code units. `units` spells a
    text in code units, `ofUnits` reads code units back: a high surrogate
    followed by a low one is one character, and every surrogate that stands
    alone becomes U+FFFD. -/

namespace MessageHarvest.Text

/-- Stands for code units that are no character. -/
def replacement : Char := Char.ofNat 0xFFFD

/-- The one or two code units of a character. -/
def unitsOf (c : Char) : List UInt16 :=
  let n := c.toNat
  if n < 0x10000 then [n.toUInt16]
  else
    let m := n - 0x10000
    [(0xD800 + m / 0x400).toUInt16, (0xDC00 + m % 0x400).toUInt16]

/-- The code units of a text. -/
def units (t : List Char) : List UInt16 := t.flatMap unitsOf

/-- The first half of a pair. -/
def isHigh (u : UInt16) : Bool := 0xD800 ≤ u && u ≤ 0xDBFF

/-- The second half of a pair. -/
def isLow (u : UInt16) : Bool := 0xDC00 ≤ u && u ≤ 0xDFFF

/-- The character of one code unit that is not part of a pair. -/
def ofUnit (u : UInt16) : Char :=
  if isHigh u || isLow u then replacement else Char.ofNat u.toNat

/-- The character of a pair. -/
def ofPair (high low : UInt16) : Char :=
  Char.ofNat (0x10000 + (high.toNat - 0xD800) * 0x400 + (low.toNat - 0xDC00))

/-- The text that code units spell. -/
def ofUnits : List UInt16 → List Char
  | [] => []
  | [u] => [ofUnit u]
  | u :: v :: us =>
    if isHigh u && isLow v then ofPair u v :: ofUnits us else ofUnit u :: ofUnits (v :: us)

@[simp] theorem units_nil : units [] = [] := rfl

@[simp] theorem units_append (s t : List Char) : units (s ++ t) = units s ++ units t := by
  simp [units]

@[simp] theorem ofUnits_nil : ofUnits [] = [] := rfl

end MessageHarvest.Text
