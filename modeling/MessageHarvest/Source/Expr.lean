/-! # The extraction model of a source file

    The model is coarse on purpose. Only the expressions that constant folding
    understands have a shape of their own; everything else is a `Node.group`,
    or `Expr.other` inside an expression, so that a call or an annotation is
    reachable wherever it stands. Every node knows the line, counted from one,
    on which it starts. -/

namespace MessageHarvest

/-- The binary operators of constant folding. -/
inductive BinaryOp where
  | add | sub | mul | div | rem
  | bitAnd | bitOr | bitXor
  | shl | shr | ushr
  | eq | ne | lt | le | gt | ge
  | and | or
  deriving DecidableEq, Repr, Inhabited

namespace BinaryOp

/-- How each operator is written. -/
def token : BinaryOp → String
  | add => "+" | sub => "-" | mul => "*" | div => "/" | rem => "%"
  | bitAnd => "&" | bitOr => "|" | bitXor => "^"
  | shl => "<<" | shr => ">>" | ushr => ">>>"
  | eq => "==" | ne => "!=" | lt => "<" | le => "<=" | gt => ">" | ge => ">="
  | and => "&&" | or => "||"

/-- Every operator once. -/
def all : List BinaryOp :=
  [add, sub, mul, div, rem, bitAnd, bitOr, bitXor, shl, shr, ushr, eq, ne, lt, le, gt, ge, and, or]

/-- The operator written as `s`. -/
def ofToken? (s : String) : Option BinaryOp := all.find? (fun op => op.token == s)

end BinaryOp

/-- The unary operators of constant folding. -/
inductive UnaryOp where
  | neg | plus | bitNot | not
  deriving DecidableEq, Repr, Inhabited

namespace UnaryOp

/-- How each operator is written. -/
def token : UnaryOp → String
  | neg => "-" | plus => "+" | bitNot => "~" | not => "!"

/-- Every operator once. -/
def all : List UnaryOp := [neg, plus, bitNot, not]

/-- The operator written as `s`. -/
def ofToken? (s : String) : Option UnaryOp := all.find? (fun op => op.token == s)

end UnaryOp

/-- Cast targets; folding acts on all but `other`. -/
inductive CastType where
  | byte | short | char | int | long | string
  | other (spelling : String)
  deriving DecidableEq, Repr, Inhabited

namespace CastType

/-- How a cast target is written. -/
def spelling : CastType → String
  | byte => "byte" | short => "short" | char => "char" | int => "int" | long => "long"
  | string => "String"
  | other s => s

/-- The target that a type name stands for. -/
def ofSpelling (s : String) : CastType :=
  if s = "byte" then byte
  else if s = "short" then short
  else if s = "char" then char
  else if s = "int" then int
  else if s = "long" then long
  else if s = "String" || s = "java.lang.String" then string
  else other s

end CastType

/-- Literals with their type: `1` is 32 bits wide and `1L` is 64. -/
inductive Literal where
  | text (value : String)
  | char (unit : UInt16)
  | bool (value : Bool)
  | int (value : Int32)
  | long (value : Int64)
  | float (value : Float)
  | null
  deriving Repr, Inhabited

mutual

/-- Expressions. -/
inductive Expr where
  | literal (line : Nat) (value : Literal)
  | binary (line : Nat) (op : BinaryOp) (lhs rhs : Expr)
  | unary (line : Nat) (op : UnaryOp) (operand : Expr)
  | conditional (line : Nat) (condition onTrue onFalse : Expr)
  | cast (line : Nat) (target : CastType) (operand : Expr)
  /-- A bare identifier. -/
  | name (line : Nat) (identifier : String)
  | field (line : Nat) (target : Expr) (field : String)
  /-- A method call; `method` is its simple name. -/
  | call (line : Nat) (method : String) (receiver : Option Expr) (arguments : List Expr)
  /-- Any other construct, with the parts that may hold calls. -/
  | other (line : Nat) (kind : String) (children : List Node)

/-- What stands in a list of nodes. -/
inductive Node where
  | expr (e : Expr)
  | annotated (a : Annotation)
  /-- Any other syntax: a class body, a statement, a declaration. -/
  | group (kind : String) (line : Nat) (children : List Node)

/-- An annotation with its name as written and its elements in order. -/
inductive Annotation where
  | mk (name : String) (line : Nat) (elements : List Element)

/-- `name = value`; a single unnamed argument has the name `value`. -/
inductive Element where
  | mk (name : String) (value : ElementValue)

/-- Element values. -/
inductive ElementValue where
  | expr (e : Expr)
  | array (items : List ElementValue)
  | nested (a : Annotation)

end

instance : Inhabited Expr := ⟨.name 0 ""⟩

instance : Inhabited Node := ⟨.expr default⟩

namespace Expr

/-- The kinds of expressions, by which evaluation is dispatched. -/
inductive Kind where
  | literal | binary | unary | conditional | cast | name | field | call | other
  deriving DecidableEq, Repr, Inhabited

/-- The kind of an expression. -/
def kind : Expr → Kind
  | literal .. => .literal
  | binary .. => .binary
  | unary .. => .unary
  | conditional .. => .conditional
  | cast .. => .cast
  | name .. => .name
  | field .. => .field
  | call .. => .call
  | other .. => .other

/-- The line on which an expression starts. -/
def line : Expr → Nat
  | literal l _ | binary l _ _ _ | unary l _ _ | conditional l _ _ _ | cast l _ _
  | name l _ | field l _ _ | call l _ _ _ | other l _ _ => l

end Expr

namespace Element

/-- The name of an element. -/
def name : Element → String
  | mk n _ => n

/-- The value of an element. -/
def value : Element → ElementValue
  | mk _ v => v

end Element

namespace Annotation

/-- The element name of a single unnamed argument. -/
def defaultElement : String := "value"

/-- The name of an annotation as written. -/
def name : Annotation → String
  | mk n _ _ => n

/-- The line on which an annotation starts. -/
def line : Annotation → Nat
  | mk _ l _ => l

/-- The elements of an annotation in order. -/
def elements : Annotation → List Element
  | mk _ _ es => es

/-- The value of the first element of a given name. -/
def element? (a : Annotation) (name : String) : Option ElementValue :=
  (a.elements.find? (fun e => e.name == name)).map Element.value

end Annotation

end MessageHarvest
