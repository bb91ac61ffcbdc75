/-! # Text as bytes

    The UTF-8 form of text: `utf8` writes it, `ofUtf8?` reads it and refuses
    everything that `utf8` does not write: stray and missing continuation
    bytes, overlong forms, surrogates and numbers that are no characters. -/

namespace MessageHarvest.Text

/-- The number of bytes of a text. -/
def byteLength (t : List Char) : Nat := t.foldl (fun n c => n + c.utf8Size) 0

/-- The bytes of a character. -/
def utf8Char (c : Char) : List UInt8 :=
  let n := c.toNat
  if n < 0x80 then [n.toUInt8]
  else if n < 0x800 then [(0xC0 + n / 64).toUInt8, (0x80 + n % 64).toUInt8]
  else if n < 0x10000 then
    [(0xE0 + n / 4096).toUInt8, (0x80 + n / 64 % 64).toUInt8, (0x80 + n % 64).toUInt8]
  else
    [(0xF0 + n / 262144).toUInt8, (0x80 + n / 4096 % 64).toUInt8,
     (0x80 + n / 64 % 64).toUInt8, (0x80 + n % 64).toUInt8]

/-- The bytes of a text. -/
def utf8 (t : List Char) : List UInt8 := t.flatMap utf8Char

/-- The character of a number that is one. -/
def char? (n : Nat) : Option Char :=
  if n < 0xD800 ∨ (0xE000 ≤ n ∧ n < 0x110000) then some (Char.ofNat n) else none

/-- How many bytes follow a first byte, and the bits of the number in it. -/
def lead? (b : UInt8) : Option (Nat × Nat) :=
  let n := b.toNat
  if n < 0x80 then some (0, n)
  else if n < 0xC2 then none
  else if n < 0xE0 then some (1, n - 0xC0)
  else if n < 0xF0 then some (2, n - 0xE0)
  else if n < 0xF5 then some (3, n - 0xF0)
  else none

/-- The number that continues with the given bytes. -/
def continue? : Nat → List UInt8 → Option Nat
  | acc, [] => some acc
  | acc, b :: bs =>
    if 0x80 ≤ b.toNat ∧ b.toNat < 0xC0 then continue? (acc * 64 + (b.toNat - 0x80)) bs else none

/-- The first character of some bytes, with the number of bytes behind the first. -/
def firstChar? : List UInt8 → Option (Char × Nat)
  | [] => none
  | b :: bs => do
    let (k, bits) ← lead? b
    let more := bs.take k
    if more.length < k then none
    else
      let n ← continue? bits more
      let c ← char? n
      if c.utf8Size = k + 1 then return (c, k) else none

/-- The text of some bytes. -/
def ofUtf8? : List UInt8 → Option (List Char)
  | [] => some []
  | b :: bs =>
    match firstChar? (b :: bs) with
    | none => none
    | some (c, k) => (ofUtf8? (bs.drop k)).map (c :: ·)
termination_by bs => bs.length
decreasing_by simp only [List.length_cons, List.length_drop]; omega

example : ofUtf8? (utf8 "aé€😀".toList) = some "aé€😀".toList := by decide +kernel

example : ofUtf8? [0xC0, 0x80] = none := by decide +kernel

example : ofUtf8? [0xED, 0xA0, 0x80] = none := by decide +kernel

end MessageHarvest.Text
