import MessageHarvest.Rule.Basic
import MessageHarvest.Text.Number
import MessageHarvest.Text.Split

/-! # Rules as text

    * A keyword is `name`, `name:S` or `name:S,P`, with arguments counted from
      one.
    * An annotation is `name` or `name:field,field`; empty fields are left
      out.

    Blanks around names, numbers and fields do not count. -/

namespace MessageHarvest

/-- Text without the blanks around it. -/
def stripped (t : List Char) : String := String.ofList (Text.trim t)

namespace MethodRule

/-- An argument counted from one, as an index counted from zero. -/
def index? (t : List Char) : Option Nat :=
  match Text.count? (Text.trim t) with
  | some (n + 1) => some n
  | _ => none

/-- The indexes of singular and plural. -/
def indexes? (t : List Char) : Option (Nat × Option Nat) :=
  match Text.splitFirst (· == ',') t with
  | none => (index? t).map fun s => (s, none)
  | some (s, p) => do return (← index? s, some (← index? p))

/-- Reads a keyword. -/
def parse (spec : String) : Except RuleError MethodRule := do
  let rule : MethodRule ←
    match Text.splitFirst (· == ':') spec.toList with
    | none => .ok { name := stripped spec.toList }
    | some (name, rest) =>
      match indexes? rest with
      | some (s, p) => .ok ⟨stripped name, s, p⟩
      | none => .error (.invalidKeyword spec)
  rule.validate
  return rule

end MethodRule

namespace AnnotationRule

/-- Reads an annotation specification. -/
def parse (spec : String) : Except RuleError AnnotationRule := do
  let rule : AnnotationRule :=
    match Text.splitFirst (· == ':') spec.toList with
    | none => { name := stripped spec.toList }
    | some (name, rest) =>
      let fields := (Text.fields (· == ',') rest).map stripped
      ⟨stripped name, fields.filter fun f => f != ""⟩
  rule.validate
  return rule

end AnnotationRule

end MessageHarvest
