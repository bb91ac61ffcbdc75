/-! # Patterns

    Regular expressions over characters, matched by derivatives. `longest` is
    the length of the longest beginning of a text that a pattern matches; it
    decides which token a text starts with. -/

namespace MessageHarvest.Text

/-- A regular expression. -/
inductive Pattern where
  | never
  | empty
  | one (p : Char → Bool)
  | seq (a b : Pattern)
  | alt (a b : Pattern)
  | star (a : Pattern)

namespace Pattern

/-- Whether the empty text matches. -/
def nullable : Pattern → Bool
  | never => false
  | empty => true
  | one _ => false
  | seq a b => a.nullable && b.nullable
  | alt a b => a.nullable || b.nullable
  | star _ => true

/-- A sequence, without parts that cannot matter. -/
def mkSeq : Pattern → Pattern → Pattern
  | never, _ => never
  | _, never => never
  | empty, b => b
  | a, b => seq a b

/-- A choice, without parts that cannot matter. -/
def mkAlt : Pattern → Pattern → Pattern
  | never, b => b
  | a, never => a
  | a, b => alt a b

/-- What a match must continue with after the character `c`. -/
def after (c : Char) : Pattern → Pattern
  | never => never
  | empty => never
  | one p => if p c then empty else never
  | seq a b =>
    if a.nullable then mkAlt (mkSeq (a.after c) b) (b.after c) else mkSeq (a.after c) b
  | alt a b => mkAlt (a.after c) (b.after c)
  | star a => mkSeq (a.after c) (star a)

/-- Whether a pattern is `never` itself. -/
def isNever : Pattern → Bool
  | never => true
  | _ => false

/-- Whether a whole text matches. -/
def accepts (r : Pattern) : List Char → Bool
  | [] => r.nullable
  | c :: t => (r.after c).accepts t

/-- The length of the longest beginning that matches, given that `n`
    characters have been read and `best` is the last length that matched. -/
def longestFrom (r : Pattern) (n : Nat) (best : Option Nat) : List Char → Option Nat
  | [] => if r.nullable then some n else best
  | c :: t =>
    if r.isNever then best
    else (r.after c).longestFrom (n + 1) (if r.nullable then some n else best) t

/-- The length of the longest beginning that matches. -/
def longest (r : Pattern) (t : List Char) : Option Nat := r.longestFrom 0 none t

/-! ## Building patterns -/

/-- A given character. -/
def char (c : Char) : Pattern := one (· == c)

/-- One of some characters. -/
def oneOf (cs : List Char) : Pattern := one cs.contains

/-- One of some patterns. -/
def choice (rs : List Pattern) : Pattern := rs.foldr mkAlt never

/-- Patterns one after the other. -/
def cat (rs : List Pattern) : Pattern := rs.foldr mkSeq empty

/-- At most once. -/
def opt (r : Pattern) : Pattern := alt r empty

/-- At least once. -/
def plus (r : Pattern) : Pattern := seq r (star r)

/-- At least once, with a separator in between. -/
def separated (r sep : Pattern) : Pattern := seq r (star (seq sep r))

end Pattern

end MessageHarvest.Text
