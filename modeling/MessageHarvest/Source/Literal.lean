import MessageHarvest.Source.Double
import MessageHarvest.Source.Expr
import MessageHarvest.Text.Blank
import MessageHarvest.Text.Split
import MessageHarvest.Text.Units

/-! # Literals

    The value of a literal from its spelling, quotes included.

    * `decodeString`: string literals and text blocks. A text block first
      loses the indentation that all its lines share; then both have their
      escapes read as UTF-16 code units, and the units are read as text.
    * `decodeChar`: the single code unit of a character literal.
    * `decodeInt`: integers with radix and width. A non-decimal number may use
      all bits of its width, and a decimal one may be one more than the
      greatest, so that its negation is the least.
    * `decodeFloat`: decimal floating point numbers. -/

namespace MessageHarvest.Literal

/-! ## Escapes -/

/-- The value of a digit in a radix up to sixteen. -/
def digit? (radix : Nat) (c : Char) : Option Nat :=
  let n :=
    if '0' ≤ c ∧ c ≤ '9' then some (c.toNat - 48)
    else if 'a' ≤ c ∧ c ≤ 'f' then some (c.toNat - 87)
    else if 'A' ≤ c ∧ c ≤ 'F' then some (c.toNat - 55)
    else none
  n.filter (· < radix)

/-- The number that digits spell. -/
def number? (radix : Nat) : Nat → List Char → Option Nat
  | acc, [] => some acc
  | acc, c :: t => (digit? radix c).bind fun d => number? radix (acc * radix + d) t

/-- An unsigned number: at least one digit behind an optional plus sign. -/
def unsigned? (radix : Nat) (t : List Char) : Option Nat :=
  match t with
  | '+' :: c :: t => number? radix 0 (c :: t)
  | ['+'] | [] => none
  | t => number? radix 0 t

/-- The code units of an escape that keeps its backslash. -/
def verbatim (t : List Char) : List UInt16 := Text.units ('\\' :: t)

/-- A Unicode escape behind its first `u`: further ones are skipped, and the
    next four characters, or as many as there are, spell the code unit. -/
def unicodeEscape (t : List Char) : List UInt16 × List Char :=
  let t := t.dropWhile (· == 'u')
  let hex := t.take 4
  match unsigned? 16 hex with
  | some n => ([n.toUInt16], t.drop 4)
  | none => (verbatim ('u' :: hex), t.drop 4)

/-- Up to `n` more octal digits behind the number read so far. -/
def octalEscape : Nat → Nat → List Char → Nat × List Char
  | 0, acc, t => (acc, t)
  | _ + 1, acc, [] => (acc, [])
  | n + 1, acc, c :: t =>
    match digit? 8 c with
    | some d => octalEscape n (acc * 8 + d) t
    | none => (acc, c :: t)

/-- The code unit of a one-letter escape. -/
def simpleEscape? (c : Char) : Option UInt16 :=
  match c with
  | 'n' => some 10
  | 't' => some 9
  | 'r' => some 13
  | 'b' => some 8
  | 'f' => some 12
  | 's' => some 32
  | '"' => some 34
  | '\'' => some 39
  | '\\' => some 92
  | _ => none

/-- The code units of the escape behind a backslash, and the rest. An octal
    escape has up to three digits if it starts with `0` to `3`, else up to two;
    a line feed is a continued line; anything unknown stays as written. -/
def escape : List Char → List UInt16 × List Char
  | [] => (verbatim [], [])
  | c :: t =>
    match simpleEscape? c with
    | some u => ([u], t)
    | none =>
      if c = '\n' then ([], t)
      else if c = 'u' then unicodeEscape t
      else
        match digit? 8 c with
        | some d =>
          let (n, t) := octalEscape (if d ≤ 3 then 2 else 1) d t
          ([n.toUInt16], t)
        | none => (verbatim [c], t)

theorem octalEscape_length_le (n acc : Nat) (t : List Char) :
    (octalEscape n acc t).2.length ≤ t.length := by
  induction n generalizing acc t with
  | zero => simp [octalEscape]
  | succ n ih =>
    cases t with
    | nil => simp [octalEscape]
    | cons c t =>
      rw [octalEscape]
      split
      · exact Nat.le_succ_of_le (ih ..)
      · simp

theorem unicodeEscape_length_le (t : List Char) : (unicodeEscape t).2.length ≤ t.length := by
  have h : (t.dropWhile (· == 'u')).length ≤ t.length := (List.dropWhile_suffix _).length_le
  unfold unicodeEscape
  simp only
  split <;> (simp only [List.length_drop]; omega)

theorem escape_length_le (t : List Char) : (escape t).2.length ≤ t.length := by
  cases t with
  | nil => simp [escape]
  | cons c t =>
    rw [escape]
    split
    · simp
    · split
      · simp
      · split
        · exact Nat.le_succ_of_le (unicodeEscape_length_le t)
        · split
          · exact Nat.le_succ_of_le (octalEscape_length_le ..)
          · simp

/-- The code units of the body of a literal. -/
def unescape : List Char → List UInt16
  | [] => []
  | c :: t =>
    if c = '\\' then (escape t).1 ++ unescape (escape t).2
    else Text.unitsOf c ++ unescape t
termination_by t => t.length
decreasing_by
  · exact Nat.lt_succ_of_le (escape_length_le t)
  · exact Nat.lt_succ_self _

/-! ## Text blocks -/

/-- The number of leading blanks. -/
def indentation (line : List Char) : Nat := (line.takeWhile Text.isBlank).length

/-- Whether a line holds nothing but blanks. -/
def isBlankLine (line : List Char) : Bool := (Text.trim line).isEmpty

/-- The least number in a list, zero for none. -/
def least : List Nat → Nat
  | [] => 0
  | [n] => n
  | n :: ns => min n (least ns)

/-- A line without its first `n` characters and its trailing blanks. -/
def stripLine (n : Nat) (line : List Char) : List Char := Text.trimEnd (line.drop n)

/-- The content of a text block: what follows the first line feed. -/
def blockContent (block : List Char) : List Char :=
  match Text.splitFirst (· == '\n') block with
  | some (_, content) => content
  | none => block

/-- A line without its trailing carriage returns. -/
def dropReturns (line : List Char) : List Char :=
  (line.reverse.dropWhile (· == '\r')).reverse

/-- The lines of a text block. -/
def blockLines (block : List Char) : List (List Char) :=
  (Text.fields (· == '\n') (blockContent block)).map dropReturns

/-- A text block without its incidental indentation. The last line counts for
    the indentation even if it is blank; then it gives only a line feed. -/
def stripIndent (block : List Char) : List Char :=
  let ls := blockLines block
  let last := ls.getLast?.getD []
  -- the closing delimiter stands on a line of its own
  let closing := isBlankLine last
  let counted := ls.filter (fun l => !isBlankLine l) ++ (if closing then [last] else [])
  let n := least (counted.map indentation)
  let out := ls.map (stripLine n)
  if closing then Text.join ['\n'] out.dropLast ++ ['\n'] else Text.join ['\n'] out

/-! ## Strings and characters -/

/-- The delimiter of a text block. -/
def blockQuote : List Char := ['"', '"', '"']

/-- The body of a string literal or text block, with its escapes. -/
def stringBody (raw : List Char) : List Char :=
  match Text.dropStart? blockQuote raw with
  | some block => stripIndent ((Text.dropEnd? blockQuote block).getD block)
  | none =>
    let body := (Text.dropStart? ['"'] raw).getD raw
    (Text.dropEnd? ['"'] body).getD body

/-- The text of a string literal or text block. -/
def decodeString (raw : String) : String :=
  String.ofList (Text.ofUnits (unescape (stringBody raw.toList)))

/-- The code unit of a character literal; `none` unless it has exactly one. -/
def decodeChar (raw : String) : Option UInt16 := do
  let body ← Text.dropStart? ['\''] raw.toList
  let body ← Text.dropEnd? ['\''] body
  match unescape body with
  | [u] => some u
  | _ => none

/-! ## Numbers -/

/-- The radix of an integer and its digits. -/
def radixAndDigits (t : List Char) : Nat × List Char :=
  match t with
  | '0' :: 'x' :: r => (16, r)
  | '0' :: 'b' :: r => (2, r)
  | '0' :: c :: r => (8, c :: r)
  | t => (10, t)

/-- An integer without underscores and its width suffix, in lower case, and
    whether it had the suffix. -/
def withoutSuffix (raw : List Char) : List Char × Bool :=
  let cleaned := raw.filter (· != '_')
  match cleaned.reverse with
  | 'l' :: r | 'L' :: r => (r.reverse.map Char.toLower, true)
  | _ => (cleaned.map Char.toLower, false)

/-- The greatest number that a literal may spell. -/
def limit (radix : Nat) (isLong : Bool) : Nat :=
  match isLong, radix with
  | false, 10 => 0x80000000
  | false, _ => 0xFFFFFFFF
  | true, 10 => 0x8000000000000000
  | true, _ => 0xFFFFFFFFFFFFFFFF

/-- The value of an integer literal. -/
def decodeInt (raw : String) : Option Literal := do
  let (t, isLong) := withoutSuffix raw.toList
  let (radix, ds) := radixAndDigits t
  let n ← unsigned? radix ds
  if n ≤ limit radix isLong then
    some (if isLong then .long (Int64.ofNat n) else .int (Int32.ofNat n))
  else none

/-- The digits of a decimal and how many of them stand behind the point, with
    the rest; `none` without any digit. -/
def decimal? (t : List Char) : Option (Nat × Nat × List Char) := do
  let (whole, t) := t.span Char.isDigit
  let (part, t) := match t with
    | '.' :: t => t.span Char.isDigit
    | t => ([], t)
  if whole.isEmpty && part.isEmpty then none
  else
    let n ← number? 10 0 (whole ++ part)
    return (n, part.length, t)

/-- The exponent of a decimal: nothing, or `e`, a sign and digits. -/
def exponent? (t : List Char) : Option Int :=
  match t with
  | [] => some 0
  | e :: t =>
    if e = 'e' ∨ e = 'E' then
      match t with
      | '-' :: c :: t => (number? 10 0 (c :: t)).map fun n => -(n : Int)
      | '+' :: c :: t => (number? 10 0 (c :: t)).map fun n => (n : Int)
      | c :: t => (number? 10 0 (c :: t)).map fun n => (n : Int)
      | [] => none
    else none

/-- The value of a floating point literal, without underscores and suffix. A
    hexadecimal one is not read and gives a NaN. -/
def decodeFloat (raw : String) : Float :=
  let cleaned := (raw.toList.filter (· != '_')).reverse
  let t := (cleaned.dropWhile (fun c => c = 'f' ∨ c = 'F' ∨ c = 'd' ∨ c = 'D')).reverse
  let bits := do
    let (n, places, t) ← decimal? t
    let e ← exponent? t
    return Double.ofDecimal n (e - places)
  Float.ofBits (bits.getD Double.nan).toUInt64

end MessageHarvest.Literal
