import MessageHarvest.Text.Units
import MessageHarvest.Text.Utf8

/-! # Encodings

    An encoding turns text into bytes and back.

    * A single-byte encoding has ASCII and a table for the upper half of the
      bytes.
    * UTF-16 and the replacement encoding are only ever read: what is written
      for them is UTF-8.
    * Multi-byte encodings of legacy are known by their labels; of their
      characters only ASCII is converted.

    A byte order mark at the start of some bytes decides how they are read,
    whatever encoding is asked for, and is no part of the text. -/

namespace MessageHarvest

/-- How an encoding represents characters. -/
inductive Encoding.Form where
  | utf8
  | utf16 (bigEndian : Bool)
  /-- The characters of the bytes from 0x80 on; zero for none. -/
  | singleByte (upper : List Nat)
  /-- The bytes from 0x80 on are characters for private use. -/
  | userDefined
  /-- ASCII only. -/
  | ascii
  /-- Nothing can be read. -/
  | replacement
  deriving DecidableEq, Repr, Inhabited

/-- An encoding with the labels it is known by. -/
structure Encoding where
  name : String
  form : Encoding.Form
  labels : List String
  deriving DecidableEq, Repr, Inhabited

/-- Bytes, such as the content of a file. -/
abbrev Bytes := List UInt8

namespace Encoding

/-! ## Reading -/

/-- The character that one byte is, given the characters of the upper half. -/
def upperChar? (upper : List Nat) (b : UInt8) : Option Char :=
  if b.toNat < 0x80 then some (Char.ofNat b.toNat)
  else
    match upper[b.toNat - 0x80]? with
    | some (n + 1) => some (Char.ofNat (n + 1))
    | _ => none

/-- The characters for private use that stand for the bytes from 0x80 on. -/
def privateUpper : List Nat := (List.range 128).map (· + 0xF780)

/-- The two bytes of units of 16 bits. -/
def units? (bigEndian : Bool) : Bytes → Option (List UInt16)
  | [] => some []
  | [_] => none
  | a :: b :: bs =>
    let n := if bigEndian then a.toNat * 256 + b.toNat else b.toNat * 256 + a.toNat
    (units? bigEndian bs).map (n.toUInt16 :: ·)

/-- The text of units of 16 bits without lone surrogates. -/
def ofUnits? : List UInt16 → Option (List Char)
  | [] => some []
  | u :: us =>
    if Text.isHigh u then
      match us with
      | v :: vs => if Text.isLow v then (ofUnits? vs).map (Text.ofPair u v :: ·) else none
      | [] => none
    else if Text.isLow u then none
    else (ofUnits? us).map (Char.ofNat u.toNat :: ·)

/-- The text of some bytes in a given form. -/
def Form.decode? : Form → Bytes → Option (List Char)
  | .utf8, bs => Text.ofUtf8? bs
  | .utf16 be, bs => (units? be bs).bind ofUnits?
  | .singleByte upper, bs => bs.mapM (upperChar? upper)
  | .userDefined, bs => bs.mapM (upperChar? privateUpper)
  | .ascii, bs => bs.mapM (upperChar? [])
  | .replacement, bs => if bs.isEmpty then some [] else none

/-- The form that a byte order mark asks for, with the bytes behind it. -/
def mark? : Bytes → Option (Form × Bytes)
  | 0xEF :: 0xBB :: 0xBF :: bs => some (.utf8, bs)
  | 0xFF :: 0xFE :: bs => some (.utf16 false, bs)
  | 0xFE :: 0xFF :: bs => some (.utf16 true, bs)
  | _ => none

/-- The text of some bytes. -/
def decode? (e : Encoding) (bs : Bytes) : Option (List Char) :=
  match mark? bs with
  | some (form, bs) => form.decode? bs
  | none => e.form.decode? bs

/-! ## Writing -/

/-- The byte of a character, given the characters of the upper half. -/
def upperByte? (upper : List Nat) (c : Char) : Option UInt8 :=
  if c.toNat < 0x80 then some c.toNat.toUInt8
  else (upper.idxOf? c.toNat).map fun i => (i + 0x80).toUInt8

/-- The bytes of a text in a given form. -/
def Form.encode? : Form → List Char → Option Bytes
  | .singleByte upper, t => t.mapM (upperByte? upper)
  | .userDefined, t => t.mapM (upperByte? privateUpper)
  | .ascii, t => t.mapM (upperByte? [])
  | .utf8, t | .utf16 _, t | .replacement, t => some (Text.utf8 t)

/-- The bytes of a text. -/
def encode? (e : Encoding) (t : List Char) : Option Bytes := e.form.encode? t

end Encoding

end MessageHarvest
