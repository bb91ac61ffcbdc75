import MessageHarvest.Constant.Operator

/-! # Folding constant expressions

    An evaluator is a table of handlers by kind of expression. A kind without
    a handler is not constant, so an evaluator is extended by adding handlers.
    A handler gets the expression and the evaluator for its parts.

    * `Evaluator.standard` folds literals, operators, conditionals and casts.
    * `Evaluator.empty` folds nothing.

    Evaluation descends at most as many levels as the expression has, which
    is as deep as any handler that looks at parts of its expression can go. -/

namespace MessageHarvest

/-- The rule for one kind of expression, given the evaluation of parts. -/
abbrev Handler := (Expr → Folded) → Expr → Folded

/-- A table of handlers. -/
structure Evaluator where
  handler : Expr.Kind → Option Handler

namespace Expr

mutual

/-- The number of levels of an expression. -/
def depth : Expr → Nat
  | literal .. | name .. => 1
  | binary _ _ a b => max a.depth b.depth + 1
  | unary _ _ a => a.depth + 1
  | conditional _ c a b => max c.depth (max a.depth b.depth) + 1
  | cast _ _ a => a.depth + 1
  | field _ a _ => a.depth + 1
  | call _ _ r as => max (depthReceiver r) (depthList as) + 1
  | other _ _ cs => depthNodes cs + 1

/-- The number of levels of a receiver. -/
def depthReceiver : Option Expr → Nat
  | none => 0
  | some e => e.depth

/-- The greatest number of levels in a list of expressions. -/
def depthList : List Expr → Nat
  | [] => 0
  | e :: es => max e.depth (depthList es)

/-- The greatest number of levels in a list of nodes. -/
def depthNodes : List Node → Nat
  | [] => 0
  | n :: ns => max (depthNode n) (depthNodes ns)

/-- The number of levels of a node. -/
def depthNode : Node → Nat
  | .expr e => e.depth
  | .annotated a => depthAnnotation a
  | .group _ _ cs => depthNodes cs + 1

/-- The number of levels of an annotation. -/
def depthAnnotation : Annotation → Nat
  | .mk _ _ es => depthElements es + 1

/-- The greatest number of levels in a list of elements. -/
def depthElements : List Element → Nat
  | [] => 0
  | e :: es => max (depthElement e) (depthElements es)

/-- The number of levels of an element. -/
def depthElement : Element → Nat
  | .mk _ v => depthValue v

/-- The number of levels of an element value. -/
def depthValue : ElementValue → Nat
  | .expr e => e.depth
  | .array vs => depthValues vs + 1
  | .nested a => depthAnnotation a

/-- The greatest number of levels in a list of element values. -/
def depthValues : List ElementValue → Nat
  | [] => 0
  | v :: vs => max (depthValue v) (depthValues vs)

end

theorem depth_pos (e : Expr) : 0 < e.depth := by
  cases e <;> simp [depth]

end Expr

namespace Literal

/-- The value of a literal; floating point numbers and `null` have none. -/
def value? : Literal → Option Value
  | text t => some (.text t)
  | char u => some (.char u)
  | bool b => some (.bool b)
  | int v => some (.int (.int v))
  | long v => some (.int (.long v))
  | float _ | null => none

end Literal

namespace Handler

/-- A literal denotes itself. -/
def literal : Handler
  | _, .literal _ l => .ok l.value?
  | _, _ => .ok none

/-- Both operands are constant, the left one first. -/
def binary : Handler
  | eval, .binary _ op a b => do
    match ← eval a with
    | none => return none
    | some x =>
      match ← eval b with
      | none => return none
      | some y => Operator.applyBinary op x y
  | _, _ => .ok none

/-- The operand is constant. -/
def unary : Handler
  | eval, .unary _ op a => do
    match ← eval a with
    | none => return none
    | some x => Operator.applyUnary op x
  | _, _ => .ok none

/-- The condition is a constant truth value; the other branch is not looked at. -/
def conditional : Handler
  | eval, .conditional _ c a b => do
    match ← eval c with
    | some (.bool true) => eval a
    | some (.bool false) => eval b
    | _ => return none
  | _, _ => .ok none

/-- The operand is constant and the target takes it. -/
def cast : Handler
  | eval, .cast _ t a => do
    match ← eval a with
    | none => return none
    | some x => return Operator.applyCast t x
  | _, _ => .ok none

end Handler

namespace Evaluator

/-- No expression is constant. -/
def empty : Evaluator := ⟨fun _ => none⟩

/-- Sets the handler of one kind. -/
def register (E : Evaluator) (k : Expr.Kind) (h : Handler) : Evaluator :=
  ⟨fun k' => if k' = k then some h else E.handler k'⟩

/-- Folds literals, operators, conditionals and casts. -/
def standard : Evaluator :=
  ((((empty.register .literal Handler.literal).register .binary Handler.binary).register
    .unary Handler.unary).register .conditional Handler.conditional).register .cast Handler.cast

/-- Evaluation to a given number of levels; what lies deeper is not constant. -/
def run (E : Evaluator) : Nat → Expr → Folded
  | 0, _ => .ok none
  | n + 1, e =>
    match E.handler e.kind with
    | some h => h (E.run n) e
    | none => .ok none

/-- The value of an expression if it is constant. -/
def evaluate (E : Evaluator) (e : Expr) : Folded := E.run e.depth e

/-- The text of an expression if it is constant text. -/
def evaluateText (E : Evaluator) (e : Expr) : Except EvalError (Option String) :=
  (E.evaluate e).map fun v => v.bind Value.text?

@[simp] theorem handler_empty (k : Expr.Kind) : empty.handler k = none := rfl

@[simp] theorem handler_register_self (E : Evaluator) (k : Expr.Kind) (h : Handler) :
    (E.register k h).handler k = some h := by simp [register]

theorem handler_register_ne (E : Evaluator) {k k' : Expr.Kind} (h : Handler) (hne : k' ≠ k) :
    (E.register k h).handler k' = E.handler k' := by simp [register, hne]

end Evaluator

end MessageHarvest
