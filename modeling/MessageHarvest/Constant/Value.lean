import MessageHarvest.Text.Units

/-! # Constant values

    What a constant expression folds to: text, a truth value, a 16-bit
    character or a signed integer of one of four widths. An integer is a
    machine word of its own width, so it cannot leave its range. -/

namespace MessageHarvest

/-- The widths of the integer types. -/
inductive IntWidth where
  | w8 | w16 | w32 | w64
  deriving DecidableEq, Repr, Inhabited

namespace IntWidth

/-- The number of bits. -/
def bits : IntWidth → Nat
  | w8 => 8 | w16 => 16 | w32 => 32 | w64 => 64

/-- The type name of a width. -/
def typeName : IntWidth → String
  | w8 => "byte" | w16 => "short" | w32 => "int" | w64 => "long"

/-- Unary numeric promotion: never below 32 bits. -/
def promoted : IntWidth → IntWidth
  | w64 => w64
  | _ => w32

/-- Binary numeric promotion: 64 bits as soon as one operand has them. -/
def widen (a b : IntWidth) : IntWidth :=
  match a, b with
  | w64, _ => w64
  | _, w64 => w64
  | _, _ => w32

@[simp] theorem promoted_promoted (w : IntWidth) : w.promoted.promoted = w.promoted := by
  cases w <;> rfl

theorem widen_comm (a b : IntWidth) : a.widen b = b.widen a := by
  cases a <;> cases b <;> rfl

end IntWidth

/-- A signed integer of one of the four widths. -/
inductive IntValue where
  | byte (value : Int8)
  | short (value : Int16)
  | int (value : Int32)
  | long (value : Int64)
  deriving DecidableEq, Repr, Inhabited

namespace IntValue

/-- The width of an integer. -/
def width : IntValue → IntWidth
  | byte _ => .w8 | short _ => .w16 | int _ => .w32 | long _ => .w64

/-- The number in 64 bits, which hold every width. -/
def toInt64 : IntValue → Int64
  | byte v => v.toInt64 | short v => v.toInt64 | int v => v.toInt64 | long v => v

/-- The number that an integer stands for. -/
def toInt : IntValue → Int
  | byte v => v.toInt | short v => v.toInt | int v => v.toInt | long v => v.toInt

/-- The integer of a given width with the low bits of `v`. -/
def ofInt64 (w : IntWidth) (v : Int64) : IntValue :=
  match w with
  | .w8 => byte v.toInt8
  | .w16 => short v.toInt16
  | .w32 => int v.toInt32
  | .w64 => long v

/-- Sign extension or truncation to a width. -/
def cast (a : IntValue) (w : IntWidth) : IntValue := ofInt64 w a.toInt64

@[simp] theorem width_ofInt64 (w : IntWidth) (v : Int64) : (ofInt64 w v).width = w := by
  cases w <;> rfl

@[simp] theorem width_cast (a : IntValue) (w : IntWidth) : (a.cast w).width = w :=
  width_ofInt64 ..

end IntValue

/-- The result of folding a constant expression. -/
inductive Value where
  | text (value : String)
  | bool (value : Bool)
  /-- A code unit. -/
  | char (unit : UInt16)
  | int (value : IntValue)
  deriving DecidableEq, Repr, Inhabited

namespace Value

/-- The text of a text value. -/
def text? : Value → Option String
  | text t => some t
  | _ => none

/-- A value as a numeric operand; a character counts as its unsigned number. -/
def int? : Value → Option IntValue
  | int v => some v
  | char u => some (.int u.toUInt32.toInt32)
  | _ => none

/-- The string conversion of text concatenation. -/
def toText : Value → String
  | text t => t
  | bool true => "true"
  | bool false => "false"
  | char u => String.singleton (Text.ofUnit u)
  | int v => toString v.toInt

end Value

end MessageHarvest
