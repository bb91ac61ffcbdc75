/-! # JSON values

    Objects keep their members in order, repeated names included, and numbers
    keep their spelling: whether a number is an integer in range is for the
    reader of a value to decide. `compact` and `pretty` write values. -/

namespace MessageHarvest

/-- A JSON value. -/
inductive Json where
  | null
  | bool (value : Bool)
  | number (spelling : String)
  | string (value : String)
  | array (items : List Json)
  | object (members : List (String × Json))
  deriving Repr, Inhabited

namespace Json

/-- A natural number. -/
def ofNat (n : Nat) : Json := number (toString n)

/-- A list of texts. -/
def ofStrings (ts : List String) : Json := array (ts.map string)

/-- The value of the last member of a given name. -/
def member? (name : String) : Json → Option Json
  | object ms => (ms.reverse.find? (fun m => m.1 == name)).map Prod.snd
  | _ => none

/-- The digit of a number below sixteen. -/
def hexDigit (n : Nat) : Char := if n < 10 then Char.ofNat (48 + n) else Char.ofNat (87 + n)

/-- How a character is written inside a string. -/
def escapeChar (c : Char) : List Char :=
  if c = '"' then ['\\', '"']
  else if c = '\\' then ['\\', '\\']
  else if c = '\n' then ['\\', 'n']
  else if c = '\r' then ['\\', 'r']
  else if c = '\t' then ['\\', 't']
  else if c.toNat = 8 then ['\\', 'b']
  else if c.toNat = 12 then ['\\', 'f']
  else if c.toNat < 32 then
    ['\\', 'u', '0', '0', hexDigit (c.toNat / 16), hexDigit (c.toNat % 16)]
  else [c]

/-- A text as a JSON string. -/
def quote (s : String) : String :=
  String.ofList ('"' :: (s.toList.flatMap escapeChar ++ ['"']))

mutual

/-- A value on one line. -/
def compact : Json → String
  | null => "null"
  | bool true => "true"
  | bool false => "false"
  | number s => s
  | string s => quote s
  | array vs => "[" ++ compactItems vs ++ "]"
  | object ms => "\x7b" ++ compactMembers ms ++ "\x7d"

/-- Items with commas between them. -/
def compactItems : List Json → String
  | [] => ""
  | [v] => v.compact
  | v :: vs => v.compact ++ "," ++ compactItems vs

/-- Members with commas between them. -/
def compactMembers : List (String × Json) → String
  | [] => ""
  | [m] => compactMember m
  | m :: ms => compactMember m ++ "," ++ compactMembers ms

/-- A member. -/
def compactMember : String × Json → String
  | (k, v) => quote k ++ ":" ++ v.compact

end

/-- A line feed and two spaces for each level. -/
def newline (level : Nat) : String := String.ofList ('\n' :: List.replicate (2 * level) ' ')

mutual

/-- A value with every item and member on a line of its own, two spaces deeper
    than what holds it; empty arrays and objects have no lines. -/
def prettyAt (level : Nat) : Json → String
  | array [] => "[]"
  | array (v :: vs) =>
    "[" ++ newline (level + 1) ++ prettyItems (level + 1) (v :: vs) ++ newline level ++ "]"
  | object [] => "\x7b\x7d"
  | object (m :: ms) =>
    "\x7b" ++ newline (level + 1) ++ prettyMembers (level + 1) (m :: ms) ++ newline level ++ "\x7d"
  | null => "null"
  | bool true => "true"
  | bool false => "false"
  | number s => s
  | string s => quote s

/-- Items on lines of their own. -/
def prettyItems (level : Nat) : List Json → String
  | [] => ""
  | [v] => v.prettyAt level
  | v :: vs => v.prettyAt level ++ "," ++ newline level ++ prettyItems level vs

/-- Members on lines of their own. -/
def prettyMembers (level : Nat) : List (String × Json) → String
  | [] => ""
  | [m] => prettyMember level m
  | m :: ms => prettyMember level m ++ "," ++ newline level ++ prettyMembers level ms

/-- A member. -/
def prettyMember (level : Nat) : String × Json → String
  | (k, v) => quote k ++ ": " ++ v.prettyAt level

end

/-- A value over several lines. -/
def pretty (v : Json) : String := v.prettyAt 0

end Json

end MessageHarvest
