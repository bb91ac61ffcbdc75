import MessageHarvest.Json.Basic
import MessageHarvest.Text.Units

/-! # Reading JSON

    `Json.parse?` reads one value with nothing but blanks around it. It is
    strict: no control characters in strings, no lone surrogates, no leading
    zeros, no trailing commas, and at most 127 levels of nesting. -/

namespace MessageHarvest.Json

/-- The blanks between tokens. -/
def isSpace (c : Char) : Bool := c = ' ' || c = '\n' || c = '\t' || c = '\r'

/-- Text after leading blanks. -/
def skip (t : List Char) : List Char := t.dropWhile isSpace

/-- The value of a hexadecimal digit. -/
def hexValue? (c : Char) : Option Nat :=
  if '0' ≤ c ∧ c ≤ '9' then some (c.toNat - 48)
  else if 'a' ≤ c ∧ c ≤ 'f' then some (c.toNat - 87)
  else if 'A' ≤ c ∧ c ≤ 'F' then some (c.toNat - 55)
  else none

/-- The number of four hexadecimal digits, with the rest. -/
def hex4? : List Char → Option (Nat × List Char)
  | a :: b :: c :: d :: t => do
    let w ← hexValue? a
    let x ← hexValue? b
    let y ← hexValue? c
    let z ← hexValue? d
    return (((w * 16 + x) * 16 + y) * 16 + z, t)
  | _ => none

/-- The character of a unit escape, whose `\u` has been read, with the rest. A
    high surrogate needs the escape of a low one behind it. -/
def unitEscape? (t : List Char) : Option (Char × List Char) := do
  let (n, t) ← hex4? t
  if Text.isHigh n.toUInt16 then
    match t with
    | '\\' :: 'u' :: t =>
      let (m, t) ← hex4? t
      if Text.isLow m.toUInt16 then return (Text.ofPair n.toUInt16 m.toUInt16, t) else none
    | _ => none
  else if Text.isLow n.toUInt16 then none
  else return (Char.ofNat n, t)

/-- The character that a one-letter escape stands for. -/
def letterEscape? (c : Char) : Option Char :=
  match c with
  | '"' => some '"'
  | '\\' => some '\\'
  | '/' => some '/'
  | 'b' => some (Char.ofNat 8)
  | 'f' => some (Char.ofNat 12)
  | 'n' => some '\n'
  | 'r' => some '\r'
  | 't' => some '\t'
  | _ => none

/-- The rest of a string whose opening quote has been read, and what follows it. -/
def string? : Nat → List Char → List Char → Option (String × List Char)
  | 0, _, _ => none
  | _, _, [] => none
  | n + 1, acc, c :: t =>
    if c = '"' then some (String.ofList acc.reverse, t)
    else if c = '\\' then
      match t with
      | 'u' :: t => do
        let (d, t) ← unitEscape? t
        string? n (d :: acc) t
      | e :: t => do
        let d ← letterEscape? e
        string? n (d :: acc) t
      | [] => none
    else if c.toNat < 32 then none
    else string? n (c :: acc) t

/-- One or more decimal digits, with the rest. -/
def digits? (t : List Char) : Option (List Char × List Char) :=
  match t.span Char.isDigit with
  | ([], _) => none
  | r => some r

/-- The fraction of a number, possibly empty, with the rest. -/
def fraction? : List Char → Option (List Char × List Char)
  | '.' :: t => (digits? t).map fun (d, t) => ('.' :: d, t)
  | t => some ([], t)

/-- The exponent of a number, possibly empty, with the rest. -/
def exponent? : List Char → Option (List Char × List Char)
  | e :: s :: t =>
    if e = 'e' ∨ e = 'E' then
      if s = '+' ∨ s = '-' then (digits? t).map fun (d, t) => (e :: s :: d, t)
      else (digits? (s :: t)).map fun (d, t) => (e :: d, t)
    else some ([], e :: s :: t)
  | [e] => if e = 'e' ∨ e = 'E' then none else some ([], [e])
  | [] => some ([], [])

/-- The digits before the fraction, without leading zeros, with the rest. -/
def whole? (t : List Char) : Option (List Char × List Char) :=
  match digits? t with
  -- a leading zero stands alone
  | some ('0' :: _ :: _, _) => none
  | r => r

/-- A number, with the rest. -/
def number? (t : List Char) : Option (Json × List Char) := do
  let (sign, t) := match t with
    | '-' :: t => (['-'], t)
    | t => ([], t)
  let (w, t) ← whole? t
  let (f, t) ← fraction? t
  let (e, t) ← exponent? t
  return (.number (String.ofList (sign ++ w ++ f ++ e)), t)

mutual

/-- A value, with the rest; `depth` bounds the levels of nesting and the first
    argument the number of steps. -/
def value? : Nat → Nat → List Char → Option (Json × List Char)
  | 0, _, _ => none
  | n + 1, depth, t =>
    match skip t with
    | 'n' :: 'u' :: 'l' :: 'l' :: t => some (.null, t)
    | 't' :: 'r' :: 'u' :: 'e' :: t => some (.bool true, t)
    | 'f' :: 'a' :: 'l' :: 's' :: 'e' :: t => some (.bool false, t)
    | '"' :: t => (string? (t.length + 1) [] t).map fun (s, t) => (.string s, t)
    | '[' :: t =>
      match depth with
      | 0 => none
      | depth + 1 =>
        match skip t with
        | ']' :: t => some (.array [], t)
        | t => (items? n depth t).map fun (vs, t) => (.array vs, t)
    | c :: t =>
      if c.toNat = 0x7B then
        match depth with
        | 0 => none
        | depth + 1 =>
          match skip t with
          | d :: t =>
            if d.toNat = 0x7D then some (.object [], t)
            else (members? n depth (d :: t)).map fun (ms, t) => (.object ms, t)
          | [] => none
      else number? (c :: t)
    | [] => none

/-- Items up to the closing bracket. -/
def items? : Nat → Nat → List Char → Option (List Json × List Char)
  | 0, _, _ => none
  | n + 1, depth, t => do
    let (v, t) ← value? n depth t
    match skip t with
    | ',' :: t =>
      let (vs, t) ← items? n depth t
      return (v :: vs, t)
    | ']' :: t => return ([v], t)
    | _ => none

/-- Members up to the closing brace. -/
def members? : Nat → Nat → List Char → Option (List (String × Json) × List Char)
  | 0, _, _ => none
  | n + 1, depth, t => do
    match skip t with
    | '"' :: t =>
      let (k, t) ← string? (t.length + 1) [] t
      match skip t with
      | ':' :: t =>
        let (v, t) ← value? n depth t
        match skip t with
        | ',' :: t =>
          let (ms, t) ← members? n depth t
          return ((k, v) :: ms, t)
        | c :: t => if c.toNat = 0x7D then return ([(k, v)], t) else none
        | [] => none
      | _ => none
    | _ => none

end

/-- The value that a whole text spells. -/
def parse? (s : String) : Option Json :=
  let t := s.toList
  match value? (2 * t.length + 2) 127 t with
  | some (v, rest) => if (skip rest).isEmpty then some v else none
  | none => none

end MessageHarvest.Json
