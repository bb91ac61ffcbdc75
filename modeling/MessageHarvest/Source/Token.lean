import MessageHarvest.Text.Identifier
import MessageHarvest.Text.Pattern

/-! # Tokens

    Source text as a list of tokens. Every token holds the blanks and comments
    before it, so the tokens spell the text exactly. Words are not divided
    into keywords and identifiers here: which words are keywords depends on
    the place, and the grammar says so.

    * A number is the longest match of six patterns; of equally long ones the
      first wins.
    * A string without embedded expressions is one token. With embedded
      expressions its pieces are a head, middles and a tail, and the tokens of
      the expressions stand between them.
    * A character that starts no token, and an unfinished literal, give an
      `invalid` token that runs to the end of the text. The last token is
      always `finish`. -/

namespace MessageHarvest

namespace Token

/-- The classes of tokens. -/
inductive Kind where
  | word
  | decimalInt | hexInt | octalInt | binaryInt | decimalFloat | hexFloat
  | char
  | string | stringHead | stringMiddle | stringTail
  | symbol
  | invalid
  | finish
  deriving DecidableEq, Repr, Inhabited

end Token

/-- One token. -/
structure Token where
  kind : Token.Kind
  /-- The blanks and comments before the token. -/
  lead : List Char
  text : List Char
  /-- The line on which the token starts. -/
  line : Nat
  /-- How many tokens stand before it. -/
  index : Nat
  deriving DecidableEq, Repr, Inhabited

namespace Token

/-- The number of line feeds in a text. -/
def lineFeeds (t : List Char) : Nat := t.countP (· == '\n')

/-- The line on which a token ends. -/
def endLine (t : Token) : Nat := t.line + lineFeeds t.text

/-! ## Numbers -/

/-- Decimal digits. -/
def digit : Text.Pattern := .one Char.isDigit

/-- Hexadecimal digits. -/
def hexDigit : Text.Pattern :=
  .one fun c => c.isDigit || ('a' ≤ c && c ≤ 'f') || ('A' ≤ c && c ≤ 'F')

/-- `0`, or digits that start with another digit; underscores may stand between
    digits, but at most one behind the first. -/
def wholeDigits : Text.Pattern :=
  .alt (.char '0') (.cat [.one (fun c => '1' ≤ c && c ≤ '9'),
    .opt (.cat [.opt (.char '_'), .separated (.plus digit) (.plus (.char '_'))])])

/-- Groups of digits with single underscores between them. -/
def groupedDigits (d : Text.Pattern) : Text.Pattern := .separated (.plus d) (.char '_')

/-- The suffix of a 64-bit integer. -/
def longSuffix : Text.Pattern := .opt (.oneOf ['l', 'L'])

/-- The suffix of a floating point number. -/
def floatSuffix : Text.Pattern := .oneOf ['f', 'F', 'd', 'D']

/-- The sign of an exponent. -/
def exponentSign : Text.Pattern := .opt (.oneOf ['-', '+'])

/-- A decimal exponent. -/
def exponent : Text.Pattern :=
  .cat [.oneOf ['e', 'E'], exponentSign, groupedDigits digit]

/-- The patterns of numbers in order of preference. -/
def numberPatterns : List (Kind × Text.Pattern) :=
  [(.decimalInt, .cat [wholeDigits, longSuffix]),
   (.hexInt, .cat [.char '0', .oneOf ['x', 'X'], groupedDigits hexDigit, longSuffix]),
   (.octalInt, .cat [.char '0', .opt (.oneOf ['o', 'O']),
     groupedDigits (.one fun c => '0' ≤ c && c ≤ '7'), longSuffix]),
   (.binaryInt, .cat [.char '0', .oneOf ['b', 'B'], groupedDigits (.oneOf ['0', '1']), longSuffix]),
   (.decimalFloat, .choice [
     .cat [groupedDigits digit, .char '.', .opt (groupedDigits digit), .opt exponent,
       .opt floatSuffix],
     .cat [.char '.', groupedDigits digit, .opt exponent, .opt floatSuffix],
     .cat [wholeDigits, .oneOf ['e', 'E', 'p', 'P'], exponentSign, groupedDigits digit,
       .opt floatSuffix],
     .cat [wholeDigits, .opt exponent, floatSuffix]]),
   (.hexFloat, .cat [.char '0', .oneOf ['x', 'X'],
     .alt (.cat [groupedDigits hexDigit, .opt (.char '.')])
       (.cat [.opt (groupedDigits hexDigit), .char '.', groupedDigits hexDigit]),
     .opt (.cat [.oneOf ['e', 'E', 'p', 'P'], exponentSign, wholeDigits, .opt floatSuffix])])]

/-- The longest match of some patterns, the first of equally long ones. -/
def longestOf (t : List Char) : List (Kind × Text.Pattern) → Option (Kind × Nat)
  | [] => none
  | (k, r) :: ps =>
    match r.longest t, longestOf t ps with
    | some n, some (k', m) => if n < m then some (k', m) else some (k, n)
    | some n, none => some (k, n)
    | none, best => best

/-! ## Symbols -/

/-- Symbols, longer ones before their beginnings. -/
def symbols : List String :=
  [">>>=", "<<=", ">>=", ">>>", "...", "->", "::", "++", "--", "&&", "||", "==", "!=", "<=", ">=",
   "+=", "-=", "*=", "/=", "&=", "|=", "^=", "%=", "<<", ">>",
   "(", ")", "\x7b", "\x7d", "[", "]", ";", ",", ".", "@", "=", "<", ">", "!", "~", "?", ":",
   "+", "-", "*", "/", "&", "|", "^", "%"]

/-- The first symbol that a text starts with. -/
def symbol? (t : List Char) : Option (List Char) :=
  (symbols.map String.toList).find? (fun s => s.isPrefixOf t)

/-! ## Literals in quotes -/

/-- How a piece of a string ends. -/
inductive PieceEnd where
  | closed
  /-- An embedded expression follows. -/
  | embedded
  /-- The string is unfinished or has a bad escape. -/
  | broken
  deriving DecidableEq, Repr, Inhabited

/-- Whether a character is a hexadecimal digit. -/
def isHex (c : Char) : Bool := c.isDigit || ('a' ≤ c && c ≤ 'f') || ('A' ≤ c && c ≤ 'F')

/-- Whether the text behind a backslash is an escape of a string literal. -/
def isEscape : List Char → Bool
  | 'x' :: a :: b :: _ => isHex a && isHex b
  | 'x' :: _ => false
  | 'u' :: '\x7b' :: a :: t => isHex a && (t.dropWhile isHex).head? == some '\x7d'
  | 'u' :: a :: b :: c :: d :: _ => isHex a && isHex b && isHex c && isHex d
  | 'u' :: _ => false
  | _ :: _ => true
  | [] => false

/-- The rest of a piece of a string or text block: its characters, how it ends,
    and what follows. -/
def piece (block : Bool) : List Char → List Char × PieceEnd × List Char
  | [] => ([], .broken, [])
  | '"' :: t =>
    if block then
      match t with
      | '"' :: '"' :: r => (['"', '"', '"'], .closed, r)
      | _ =>
        let (p, e, r) := piece block t
        ('"' :: p, e, r)
    else (['"'], .closed, t)
  | '\\' :: '\x7b' :: t => (['\\', '\x7b'], .embedded, t)
  | '\\' :: c :: t =>
    if block || isEscape (c :: t) then
      let (p, e, r) := piece block t
      ('\\' :: c :: p, e, r)
    else ('\\' :: c :: t, .broken, [])
  | c :: t =>
    if c = '\\' then (['\\'], .broken, [])
    else
      let (p, e, r) := piece block t
      (c :: p, e, r)

/-- The body of a character literal up to its closing quote, and the rest. -/
def quotedChar : List Char → Option (List Char × List Char)
  | [] => none
  | '\'' :: t => some (['\''], t)
  | '\\' :: c :: t => (quotedChar t).map fun (b, r) => ('\\' :: c :: b, r)
  | c :: t =>
    if c = '\n' || c = '\\' then none else (quotedChar t).map fun (b, r) => (c :: b, r)

/-- A character literal with at least one character between its quotes, and the rest. -/
def charLiteral? : List Char → Option (List Char × List Char)
  | '\'' :: '\'' :: _ => none
  | '\'' :: t => (quotedChar t).map fun (b, r) => ('\'' :: b, r)
  | _ => none

/-! ## Blanks and comments -/

/-- The blanks between tokens. -/
def isSpace (c : Char) : Bool := c = ' ' || (9 ≤ c.toNat && c.toNat ≤ 13)

/-- A block comment behind its opening, and the rest. -/
def blockComment : List Char → Option (List Char × List Char)
  | [] => none
  | '*' :: '/' :: t => some (['*', '/'], t)
  | c :: t => (blockComment t).map fun (b, r) => (c :: b, r)

/-- A comment, and the rest. -/
def comment? : List Char → Option (List Char × List Char)
  | '/' :: '/' :: t =>
    let (b, r) := t.span (· != '\n')
    some ('/' :: '/' :: b, r)
  | '/' :: '*' :: t => (blockComment t).map fun (b, r) => ('/' :: '*' :: b, r)
  | _ => none

/-- The blanks and comments at the start of a text, and the rest. The first
    argument bounds the number of comments and runs of blanks. -/
def leading : Nat → List Char → List Char × List Char
  | 0, t => ([], t)
  | n + 1, t =>
    let (b, r) := t.span isSpace
    match comment? r with
    | some (c, r) =>
      let (l, r) := leading n r
      (b ++ c ++ l, r)
    | none => (b, r)

/-! ## The text as tokens -/

/-- An embedded expression that is being read: the depth of its braces, and
    whether it stands in a text block. -/
structure Embedding where
  depth : Nat
  block : Bool
  deriving DecidableEq, Repr

/-- The token of a piece of a string, the embeddings behind it and the rest. -/
def ofPiece (first : List Char) (block isStart : Bool) (outer : List Embedding)
    (p : List Char × PieceEnd × List Char) : Kind × List Char × List Embedding × List Char :=
  match p with
  | (b, .closed, r) => (if isStart then .string else .stringTail, first ++ b, outer, r)
  | (b, .embedded, r) =>
    (if isStart then .stringHead else .stringMiddle, first ++ b, ⟨0, block⟩ :: outer, r)
  | (b, .broken, r) => (.invalid, first ++ b, outer, r)

/-- The first token of a text without leading blanks: its class, its text, the
    embeddings behind it and the rest. -/
def first (embeddings : List Embedding) (t : List Char) :
    Kind × List Char × List Embedding × List Char :=
  match t with
  | [] => (.finish, [], embeddings, [])
  | '"' :: '"' :: '"' :: r => ofPiece ['"', '"', '"'] true true embeddings (piece true r)
  | '"' :: r => ofPiece ['"'] false true embeddings (piece false r)
  | '\'' :: _ =>
    match charLiteral? t with
    | some (b, r) => (.char, b, embeddings, r)
    | none => (.invalid, t, embeddings, [])
  | c :: r =>
    if Text.isIdentifierStart c then
      let (w, r) := r.span Text.isIdentifierPart
      (.word, c :: w, embeddings, r)
    else
      match longestOf t numberPatterns with
      | some (k, n) => (k, t.take n, embeddings, t.drop n)
      | none =>
        match symbol? t with
        | none => (.invalid, t, embeddings, [])
        | some s =>
          let rest := t.drop s.length
          match embeddings with
          | [] => (.symbol, s, [], rest)
          | e :: es =>
            -- braces inside an embedded expression are counted, the one too many ends it
            if s = ['\x7b'] then (.symbol, s, ⟨e.depth + 1, e.block⟩ :: es, rest)
            else if s = ['\x7d'] then
              match e.depth with
              | 0 => ofPiece s e.block false es (piece e.block rest)
              | d + 1 => (.symbol, s, ⟨d, e.block⟩ :: es, rest)
            else (.symbol, s, embeddings, rest)

/-- The tokens of a text; the first argument bounds their number. -/
def scan : Nat → Nat → Nat → List Embedding → List Char → List Token
  | 0, line, index, _, t => [⟨.finish, t, [], line, index⟩]
  | n + 1, line, index, es, t =>
    let (lead, r) := leading (n + 1) t
    let line := line + lineFeeds lead
    let (kind, text, es, rest) := first es r
    let token : Token := ⟨kind, lead, text, line, index⟩
    match kind with
    | .finish => [token]
    | _ => token :: scan n (line + lineFeeds text) (index + 1) es rest

/-- A text without a byte order mark at its start. -/
def dropMark : List Char → List Char
  | c :: t => if c.toNat = 0xFEFF then t else c :: t
  | [] => []

/-- The tokens of a source text. -/
def ofSource (s : String) : List Token :=
  let t := dropMark s.toList
  scan (t.length + 1) 1 0 [] t

end Token

end MessageHarvest
