import MessageHarvest.Source.Expr
import MessageHarvest.Constant.Value

/-! # Operators on constants

    * Arithmetic promotes both operands to the wider width, never below 32
      bits, and wraps at that width. Division truncates toward zero; a zero
      divisor gives no constant.
    * A shift has the promoted type of its left operand alone and takes its
      distance modulo that width.
    * `+` with a text operand joins the string conversions.
    * Operand types that an operator does not take give no constant. -/

namespace MessageHarvest

/-- Why an evaluation failed: operands that an operator claims to take could
    not be interpreted. Not being constant is no failure. -/
inductive EvalError where
  | mismatchedWidths (op : BinaryOp) (left right : IntWidth)
  | unpromotedNegation (width : IntWidth)
  | unpromotedShift (width : IntWidth)
  /-- Raised by a registered handler. -/
  | handler (detail : String)
  deriving DecidableEq, Repr, Inhabited

/-- The outcome of an evaluation; `none` means that the expression is not constant. -/
abbrev Folded := Except EvalError (Option Value)

namespace BinaryOp

/-- The operator's name in error messages. -/
def label : BinaryOp → String
  | add => "Add" | sub => "Sub" | mul => "Mul" | div => "Div" | rem => "Rem"
  | bitAnd => "BitAnd" | bitOr => "BitOr" | bitXor => "BitXor"
  | shl => "Shl" | shr => "Shr" | ushr => "UShr"
  | eq => "Eq" | ne => "Ne" | lt => "Lt" | le => "Le" | gt => "Gt" | ge => "Ge"
  | and => "And" | or => "Or"

/-- The operators that are typed by their left operand alone. -/
def isShift : BinaryOp → Bool
  | shl | shr | ushr => true
  | _ => false

end BinaryOp

namespace EvalError

/-- The cause in words. -/
def detail : EvalError → String
  | mismatchedWidths op l r =>
    "operator " ++ op.label ++ " on mismatched operand widths " ++ l.typeName ++ " and " ++
      r.typeName
  | unpromotedNegation w => "negation of unpromoted " ++ w.typeName ++ " operand"
  | unpromotedShift w => "shift of unpromoted " ++ w.typeName ++ " operand"
  | handler d => d

/-- The error message. -/
def message (e : EvalError) : String := "internal evaluator inconsistency: " ++ e.detail

end EvalError

namespace Operator

/-- Arithmetic and bitwise operators on 32-bit words; no divisor is zero here. -/
def onInt (op : BinaryOp) (x y : Int32) : Option Int32 :=
  match op with
  | .add => some (x + y)
  | .sub => some (x - y)
  | .mul => some (x * y)
  | .div => some (x / y)
  | .rem => some (x % y)
  | .bitAnd => some (x &&& y)
  | .bitOr => some (x ||| y)
  | .bitXor => some (x ^^^ y)
  | _ => none

/-- Arithmetic and bitwise operators on 64-bit words; no divisor is zero here. -/
def onLong (op : BinaryOp) (x y : Int64) : Option Int64 :=
  match op with
  | .add => some (x + y)
  | .sub => some (x - y)
  | .mul => some (x * y)
  | .div => some (x / y)
  | .rem => some (x % y)
  | .bitAnd => some (x &&& y)
  | .bitOr => some (x ||| y)
  | .bitXor => some (x ^^^ y)
  | _ => none

/-- Arithmetic on operands that already have a common promoted width. A zero
    divisor is looked for before the widths are. -/
def arithmetic (op : BinaryOp) (a b : IntValue) : Except EvalError (Option IntValue) :=
  if (op = .div ∨ op = .rem) ∧ b.toInt64 = 0 then .ok none
  else
    match a, b with
    | .int x, .int y => .ok ((onInt op x y).map .int)
    | .long x, .long y => .ok ((onLong op x y).map .long)
    | a, b => .error (.mismatchedWidths op a.width b.width)

/-- The shift operators; the distance is the count modulo the promoted width. -/
def shift (op : BinaryOp) (value count : IntValue) : Except EvalError IntValue :=
  match value.cast value.width.promoted with
  | .int v =>
    let d := (count.toInt64 &&& 31).toInt32
    .ok (.int (match op with
      | .shl => v <<< d
      | .shr => v >>> d
      | _ => (v.toUInt32 >>> d.toUInt32).toInt32))
  | .long v =>
    let d := count.toInt64 &&& 63
    .ok (.long (match op with
      | .shl => v <<< d
      | .shr => v >>> d
      | _ => (v.toUInt64 >>> d.toUInt64).toInt64))
  | v => .error (.unpromotedShift v.width)

/-- The six comparisons, of numbers across widths; `none` for other operators. -/
def comparison (op : BinaryOp) (a b : Int64) : Option Bool :=
  match op with
  | .eq => some (a == b)
  | .ne => some (a != b)
  | .lt => some (decide (a < b))
  | .le => some (decide (a ≤ b))
  | .gt => some (decide (b < a))
  | .ge => some (decide (b ≤ a))
  | _ => none

/-- The operators on two truth values. -/
def logical (op : BinaryOp) (a b : Bool) : Option Bool :=
  match op with
  | .and | .bitAnd => some (a && b)
  | .or | .bitOr => some (a || b)
  | .bitXor | .ne => some (a != b)
  | .eq => some (a == b)
  | _ => none

/-- The operators on two numbers. -/
def numeric (op : BinaryOp) (a b : IntValue) : Folded :=
  if op.isShift then (shift op a b).map fun v => some (.int v)
  else
    match comparison op a.toInt64 b.toInt64 with
    | some r => .ok (some (.bool r))
    | none =>
      match op with
      | .and | .or => .ok none
      | op =>
        let w := a.width.widen b.width
        (arithmetic op (a.cast w) (b.cast w)).map fun v => v.map .int

/-- A binary operator on two values. -/
def applyBinary (op : BinaryOp) (lhs rhs : Value) : Folded :=
  if op = .add ∧ (lhs.text?.isSome ∨ rhs.text?.isSome) then
    .ok (some (.text (lhs.toText ++ rhs.toText)))
  else
    match lhs, rhs with
    | .bool a, .bool b => .ok ((logical op a b).map .bool)
    | _, _ =>
      match lhs.int?, rhs.int? with
      | some a, some b => numeric op a b
      | _, _ => .ok none

/-- Negation of a promoted integer. -/
def negate : IntValue → Except EvalError IntValue
  | .int v => .ok (.int (-v))
  | .long v => .ok (.long (-v))
  | v => .error (.unpromotedNegation v.width)

/-- The complement of every bit. -/
def complement (v : IntValue) : IntValue := .ofInt64 v.width (~~~ v.toInt64)

/-- A unary operator on a value. -/
def applyUnary (op : UnaryOp) (operand : Value) : Folded :=
  match op, operand with
  | .not, .bool b => .ok (some (.bool (!b)))
  | op, operand =>
    match operand.int? with
    | none => .ok none
    | some v =>
      let v := v.cast v.width.promoted
      match op with
      | .plus => .ok (some (.int v))
      | .neg => (negate v).map fun r => some (.int r)
      | .bitNot => .ok (some (.int (complement v)))
      | .not => .ok none

/-- A cast of a value; the numeric types take numbers and `String` takes text. -/
def applyCast (target : CastType) (v : Value) : Option Value :=
  match target with
  | .byte => v.int?.map fun n => .int (n.cast .w8)
  | .short => v.int?.map fun n => .int (n.cast .w16)
  | .int => v.int?.map fun n => .int (n.cast .w32)
  | .long => v.int?.map fun n => .int (n.cast .w64)
  | .char => v.int?.map fun n => .char n.toInt64.toUInt64.toUInt16
  | .string => v.text?.map .text
  | .other _ => none

end Operator

end MessageHarvest
