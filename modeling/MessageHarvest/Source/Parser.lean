import MessageHarvest.Source.Syntax.Declarations

/-! # Reading a source text

    `Source.parse` gives the syntax tree of a source text, or the line of its
    first syntax error. One error makes the whole source fail. -/

namespace MessageHarvest.Source

/-- Reads tokens as a program. No rule is entered twice at one token, so the
    depth of rules inside rules is at most the number of rules, which counts
    every level of expressions, times the number of tokens. -/
def readProgram (ts : List Token) : Grammar.Outcome :=
  let n := ts.length
  Grammar.read Syntax.rules n (64 * (n + 1)) .program ts

/-- Whether tokens make up a program. -/
def fits (ts : List Token) : Bool := (readProgram ts).toOption.isSome

/-- The symbols that close or end something. -/
def closers : List Char := [';', ')', ']', '\x7d']

/-- How many tokens before the furthest one may be the error. -/
def reach : Nat := 8

/-- The line of the last of some tokens without which the source fits. -/
def strayLine? : Nat → List Token → List Token → Option Nat
  | n + 1, t :: before, after =>
    if fits (before.reverse ++ after) then some t.line else strayLine? n before (t :: after)
  | _, _, _ => none

/-- The line of the first syntax error, given the furthest token that did not
    fit.

    * If the source fits without that token, the token is the error.
    * If it fits with a closing symbol before the token, that symbol is
      missing, where the text before the token ends.
    * If it fits without one of the tokens shortly before, that one is the
      error.
    * Otherwise something is missing before the token. -/
def errorLine (ts : List Token) (furthest : Nat) : Nat :=
  let before := (ts.takeWhile (fun t => t.index < furthest)).reverse
  let after := ts.dropWhile (fun t => t.index < furthest)
  match after, before with
  | [], _ => 1
  | t :: _, [] => t.line
  | t :: rest, p :: _ =>
    let closed := fun c =>
      fits (before.reverse ++ { t with lead := [], kind := .symbol, text := [c] } :: after)
    -- the token itself is one too many
    if t.kind ≠ .finish && fits (before.reverse ++ rest) then t.line
    -- something before it is not closed
    else if closers.any closed then p.endLine
    else (strayLine? reach before after).getD p.endLine

/-- The syntax tree of a source text, or the line of its first syntax error. -/
def parse (source : String) : Except Nat Tree :=
  let ts := Token.ofSource source
  match readProgram ts with
  | .ok r => .ok (r.trees.headD default)
  | .error f => .error (errorLine ts f)

end MessageHarvest.Source
