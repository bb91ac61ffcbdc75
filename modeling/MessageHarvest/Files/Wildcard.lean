import MessageHarvest.Text.Split

/-! # Wildcards

    A wildcard describes a set of texts, mostly paths.

    * `?` is any character and `*` any text, slashes included.
    * `**` is any number of directories; it stands alone between slashes and
      takes the slash behind it along.
    * `[a-cx]` is one of some characters and `[!a-cx]` none of them; a bracket
      that comes first is one of the characters.
    * Every other character is itself; case counts. -/

namespace MessageHarvest

/-- The characters from `first` to `last`. -/
structure CharRange where
  first : Char
  last : Char
  deriving DecidableEq, Repr, Inhabited

/-- What a part of a wildcard stands for. -/
inductive Wildcard.Token where
  | char (c : Char)
  | anyChar
  /-- Any text. -/
  | sequence
  /-- Any number of directories. -/
  | directories
  | oneOf (ranges : List CharRange)
  | noneOf (ranges : List CharRange)
  deriving DecidableEq, Repr, Inhabited

/-- A text with placeholders. -/
structure Wildcard where
  tokens : List Wildcard.Token
  deriving DecidableEq, Repr, Inhabited

namespace Wildcard

/-! ## Errors -/

/-- What is wrong with a wildcard. -/
inductive Problem where
  | tooManyStars
  | directoriesNotAlone
  | malformedSet
  deriving DecidableEq, Repr, Inhabited

/-- What is wrong with a wildcard, and before which character. -/
structure Fault where
  position : Nat
  problem : Problem
  deriving DecidableEq, Repr, Inhabited

/-- The error message of a problem. -/
def Problem.message : Problem → String
  | tooManyStars => "wildcards are either regular `*` or recursive `**`"
  | directoriesNotAlone => "recursive wildcards must form a single path component"
  | malformedSet => "invalid range pattern"

/-- The error message. -/
def Fault.message (f : Fault) : String :=
  "Pattern syntax error near position " ++ toString f.position ++ ": " ++ f.problem.message

/-! ## Reading -/

/-- The ranges that a set of characters is made of. -/
def ranges : List Char → List CharRange
  | a :: '-' :: b :: t => ⟨a, b⟩ :: ranges t
  | a :: t => ⟨a, a⟩ :: ranges t
  | [] => []

/-- A set of characters whose opening bracket has been read, with the rest. -/
def set? : List Char → Option (Token × List Char)
  | '!' :: c :: t =>
    (Text.splitFirst (· == ']') t).map fun (cs, rest) => (.noneOf (ranges (c :: cs)), rest)
  | ['!'] => none
  | c :: t =>
    (Text.splitFirst (· == ']') t).map fun (cs, rest) => (.oneOf (ranges (c :: cs)), rest)
  | [] => none

theorem length_of_set? {t rest : List Char} {k : Token} (h : set? t = some (k, rest)) :
    rest.length < t.length := by
  unfold set? at h
  split at h
  · obtain ⟨⟨cs, r⟩, hs, h⟩ := Option.map_eq_some_iff.1 h
    cases h
    have := Text.length_of_splitFirst hs
    simp; omega
  · cases h
  · obtain ⟨⟨cs, r⟩, hs, h⟩ := Option.map_eq_some_iff.1 h
    cases h
    have := Text.length_of_splitFirst hs
    simp; omega
  · cases h

/-- The parts of a wildcard from a position on; `fresh` tells whether it is
    the start or the place behind a slash. -/
def read (position : Nat) (fresh : Bool) : List Char → Except Fault (List Token)
  | [] => .ok []
  | '?' :: t => return .anyChar :: (← read (position + 1) false t)
  | '*' :: '*' :: '*' :: _ => .error ⟨position + 2, .tooManyStars⟩
  | '*' :: '*' :: t =>
    -- a fault before the stars is at the character before them
    if !fresh then .error ⟨position - 1, .directoriesNotAlone⟩
    else match t with
      | [] => .ok [.directories]
      | '/' :: t => return .directories :: (← read (position + 3) true t)
      | _ => .error ⟨position + 2, .directoriesNotAlone⟩
  | '*' :: t => return .sequence :: (← read (position + 1) false t)
  | '[' :: t =>
    match h : set? t with
    | none => .error ⟨position, .malformedSet⟩
    | some (k, rest) =>
      have := length_of_set? h
      return k :: (← read (position + 1 + (t.length - rest.length)) false rest)
  | c :: t => return .char c :: (← read (position + 1) (c == '/') t)
termination_by t => t.length

/-- Reads a wildcard. -/
def parse (t : List Char) : Except Fault Wildcard := return ⟨← read 0 true t⟩

/-! ## Matching -/

/-- Whether one of the ranges has a character. -/
def inRanges (rs : List CharRange) (c : Char) : Bool := rs.any fun r => r.first ≤ c && c ≤ r.last

/-- Whether a part that stands for one character accepts it. -/
def Token.accepts : Token → Char → Bool
  | char a, c => a == c
  | anyChar, _ => true
  | oneOf rs, c => inRanges rs c
  | noneOf rs, c => !inRanges rs c
  | sequence, _ | directories, _ => false

/-- What is left of a text at every place in it. -/
def suffixes : List Char → List (List Char)
  | [] => [[]]
  | c :: t => (c :: t) :: suffixes t

/-- What is left of a text behind every slash in it. -/
def behindSlashes : List Char → List (List Char)
  | [] => []
  | c :: t => if c = '/' then t :: behindSlashes t else behindSlashes t

/-- Whether parts match a whole text. Directories leave the text as it is,
    leave what is behind one of its slashes, or leave nothing. -/
def matchTokens : List Token → List Char → Bool
  | [], t => t.isEmpty
  | .sequence :: ks, t => (suffixes t).any (matchTokens ks)
  | .directories :: ks, t => (t :: behindSlashes t ++ [[]]).any (matchTokens ks)
  | k :: ks, c :: t => k.accepts c && matchTokens ks t
  | _ :: _, [] => false

/-- Whether a wildcard matches a whole text. -/
def matches? (w : Wildcard) (t : List Char) : Bool := matchTokens w.tokens t

/-! ## Wildcards of one name -/

/-- The characters of parts that are nothing else. -/
def literalTokens? : List Token → Option (List Char)
  | [] => some []
  | .char c :: ks => (literalTokens? ks).map (c :: ·)
  | _ :: _ => none

/-- The text that a wildcard without placeholders is. -/
def literal? (w : Wildcard) : Option (List Char) := literalTokens? w.tokens

/-- Whether a wildcard reaches into directories of any depth. -/
def isRecursive (w : Wildcard) : Bool := w.tokens.contains .directories

/-- Whether a wildcard starts with a dot. -/
def startsWithDot (w : Wildcard) : Bool := w.tokens.head? == some (.char '.')

/-- Whether a text has a placeholder for other text. -/
def hasPlaceholder (t : List Char) : Bool := t.any fun c => c == '*' || c == '?'

end Wildcard

end MessageHarvest
