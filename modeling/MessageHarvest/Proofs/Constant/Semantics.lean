import Mathlib.Data.Int.Bitwise
import MessageHarvest.Constant.Evaluator

/-! # What constant expressions denote

    A reference semantics on integers, without machine words. Results are
    exact and then reduced to the signed range of their type:

    * arithmetic has 64 bits as soon as one operand is `long`, else 32; a zero
      divisor denotes nothing, quotients are truncated toward zero;
    * a shift has the type of its left operand alone, and its distance is the
      count modulo the number of bits;
    * comparisons are those of the numbers, whatever their types are.

    Names, fields, calls and all other expressions denote nothing. -/

namespace MessageHarvest

/-! ## Meanings -/

/-- What an expression can denote. -/
inductive Meaning where
  | text (value : String)
  | bool (value : Bool)
  /-- A code unit. -/
  | char (unit : Nat)
  | int (width : IntWidth) (number : Int)
  deriving DecidableEq, Repr, Inhabited

namespace Meaning

/-- The type and the number of a numeric operand. A character counts as its
    unsigned number. -/
def number? : Meaning → Option (IntWidth × Int)
  | int w n => some (w, n)
  | char u => some (.w32, u)
  | _ => none

/-- Whether a meaning is text. -/
def isText : Meaning → Bool
  | text _ => true
  | _ => false

/-- The text that a meaning adds to a concatenation. A code unit that is no
    character, being half of a pair, adds U+FFFD. -/
def conversion : Meaning → String
  | text t => t
  | bool b => if b then "true" else "false"
  | char u => String.singleton (if u.isValidChar then Char.ofNat u else Char.ofNat 0xFFFD)
  | int _ n => toString n

end Meaning

/-- The meaning of a value. -/
def Value.meaning : Value → Meaning
  | text t => .text t
  | bool b => .bool b
  | char u => .char u.toNat
  | int v => .int v.width v.toInt

/-- The meaning of a literal; floating point numbers and `null` have none. -/
def Literal.meaning? : Literal → Option Meaning
  | text t => some (.text t)
  | char u => some (.char u.toNat)
  | bool b => some (.bool b)
  | int v => some (.int .w32 v.toInt)
  | long v => some (.int .w64 v.toInt)
  | float _ | null => none

/-! ## Operators -/

/-- The number in the signed range of a width that is congruent to `n`. -/
def IntWidth.signed (w : IntWidth) (n : Int) : Int := n.bmod (2 ^ w.bits)

/-- The common type of two numeric operands. -/
def IntWidth.common (w w' : IntWidth) : IntWidth := if w = .w64 ∨ w' = .w64 then .w64 else .w32

namespace BinaryOp

/-- The exact results of arithmetic and bitwise operators. -/
def result? (op : BinaryOp) (m n : Int) : Option Int :=
  match op with
  | add => some (m + n)
  | sub => some (m - n)
  | mul => some (m * n)
  | div => if n = 0 then none else some (m.tdiv n)
  | rem => if n = 0 then none else some (m.tmod n)
  | bitAnd => some (m.land n)
  | bitOr => some (m.lor n)
  | bitXor => some (m.xor n)
  | _ => none

/-- A number of width `w` shifted by `d` bits. To the right, quotients are
    rounded down; `>>>` divides the unsigned number of the same bits. -/
def shifted? (op : BinaryOp) (w : IntWidth) (m : Int) (d : Nat) : Option Int :=
  match op with
  | shl => some (m * 2 ^ d)
  | shr => some (m / 2 ^ d)
  | ushr => some (m % 2 ^ w.bits / 2 ^ d)
  | _ => none

/-- The comparisons of numbers. -/
def compared? (op : BinaryOp) (m n : Int) : Option Bool :=
  match op with
  | eq => some (decide (m = n))
  | ne => some (decide (m ≠ n))
  | lt => some (decide (m < n))
  | le => some (decide (m ≤ n))
  | gt => some (decide (n < m))
  | ge => some (decide (n ≤ m))
  | _ => none

/-- The operators on truth values; none of them is lazy. -/
def connected? (op : BinaryOp) (p q : Bool) : Option Bool :=
  match op with
  | and | bitAnd => some (p && q)
  | or | bitOr => some (p || q)
  | bitXor | ne => some (p ^^ q)
  | eq => some (!(p ^^ q))
  | _ => none

end BinaryOp

/-- The exact results of unary operators on numbers. -/
def UnaryOp.result? (op : UnaryOp) (n : Int) : Option Int :=
  match op with
  | plus => some n
  | neg => some (-n)
  | bitNot => some (-n - 1)
  | not => none

/-- The width of a cast to an integer type. -/
def CastType.width? : CastType → Option IntWidth
  | byte => some .w8
  | short => some .w16
  | int => some .w32
  | long => some .w64
  | _ => none

open IntWidth (common signed)

/-- What binary operators make of two numbers and their types. -/
inductive Numeric : BinaryOp → IntWidth → Int → IntWidth → Int → Meaning → Prop where
  | arithmetic {op : BinaryOp} {w w' : IntWidth} {m n r : Int} : op.result? m n = some r →
      Numeric op w m w' n (.int (common w w') (signed (common w w') r))
  | shift {op : BinaryOp} {w w' : IntWidth} {m n r : Int} :
      op.shifted? (common w w) m (n % (common w w).bits).toNat = some r →
      Numeric op w m w' n (.int (common w w) (signed (common w w) r))
  | comparison {op : BinaryOp} {w w' : IntWidth} {m n : Int} {b : Bool} :
      op.compared? m n = some b → Numeric op w m w' n (.bool b)

/-- What binary operators make of what their operands denote. -/
inductive Binary : BinaryOp → Meaning → Meaning → Meaning → Prop where
  | concat {x y : Meaning} : (x.isText || y.isText) = true →
      Binary .add x y (.text (x.conversion ++ y.conversion))
  | numeric {op : BinaryOp} {x y z : Meaning} {w w' : IntWidth} {m n : Int} :
      x.number? = some (w, m) → y.number? = some (w', n) → Numeric op w m w' n z →
      Binary op x y z
  | logical {op : BinaryOp} {p q b : Bool} : op.connected? p q = some b →
      Binary op (.bool p) (.bool q) (.bool b)

/-- What unary operators make of what their operand denotes. -/
inductive Unary : UnaryOp → Meaning → Meaning → Prop where
  | arithmetic {op : UnaryOp} {x : Meaning} {w : IntWidth} {n r : Int} :
      x.number? = some (w, n) → op.result? n = some r →
      Unary op x (.int (common w w) (signed (common w w) r))
  | not {b : Bool} : Unary .not (.bool b) (.bool !b)

/-- What casts make of what their operand denotes. -/
inductive Cast : CastType → Meaning → Meaning → Prop where
  | int {t : CastType} {x : Meaning} {w w' : IntWidth} {n : Int} :
      t.width? = some w → x.number? = some (w', n) → Cast t x (.int w (signed w n))
  | char {x : Meaning} {w : IntWidth} {n : Int} :
      x.number? = some (w, n) → Cast .char x (.char (n % 2 ^ 16).toNat)
  | text {t : String} : Cast .string (.text t) (.text t)

/-! ## Expressions -/

/-- What an expression denotes. The branch of a conditional that is not taken
    need not denote anything. -/
inductive Denotes : Expr → Meaning → Prop where
  | literal {line : Nat} {l : Literal} {m : Meaning} : l.meaning? = some m →
      Denotes (.literal line l) m
  | binary {line : Nat} {op : BinaryOp} {a b : Expr} {x y m : Meaning} :
      Denotes a x → Denotes b y → Binary op x y m → Denotes (.binary line op a b) m
  | unary {line : Nat} {op : UnaryOp} {a : Expr} {x m : Meaning} :
      Denotes a x → Unary op x m → Denotes (.unary line op a) m
  | onTrue {line : Nat} {c a b : Expr} {m : Meaning} :
      Denotes c (.bool true) → Denotes a m → Denotes (.conditional line c a b) m
  | onFalse {line : Nat} {c a b : Expr} {m : Meaning} :
      Denotes c (.bool false) → Denotes b m → Denotes (.conditional line c a b) m
  | cast {line : Nat} {t : CastType} {a : Expr} {x m : Meaning} :
      Denotes a x → Cast t x m → Denotes (.cast line t a) m

end MessageHarvest
