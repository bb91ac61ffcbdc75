import MessageHarvest.Constant.Evaluator
import MessageHarvest.Message.Store
import MessageHarvest.Rule.Registry
import MessageHarvest.Source.Unit

/-! # Scanning source units for messages

    A site is a method call or an annotation. The sites of a unit are listed
    in source order, each before the ones inside it, wherever they stand: in
    operands, receivers, arguments, branches, element values and nested
    annotations.

    * A call of a method with a rule is a message if its singular argument,
      and its plural argument if there is one, are constant and not empty.
    * An annotation with a rule is a message for every constant text that is
      not empty among the values of the fields of the rule.

    Everything else is passed over. -/

namespace MessageHarvest

/-- A place that rules look at. -/
inductive Site where
  | call (line : Nat) (method : String) (arguments : List Expr)
  | annotated (a : Annotation)

mutual

/-- The sites of an expression. -/
def Expr.sites : Expr → List Site
  | .literal .. | .name .. => []
  | .binary _ _ a b => a.sites ++ b.sites
  | .unary _ _ a => a.sites
  | .conditional _ c a b => c.sites ++ a.sites ++ b.sites
  | .cast _ _ a => a.sites
  | .field _ a _ => a.sites
  | .call l m r as => .call l m as :: (sitesReceiver r ++ sitesExprs as)
  | .other _ _ cs => sitesNodes cs

/-- The sites of a receiver. -/
def sitesReceiver : Option Expr → List Site
  | none => []
  | some e => e.sites

/-- The sites of some expressions. -/
def sitesExprs : List Expr → List Site
  | [] => []
  | e :: es => e.sites ++ sitesExprs es

/-- The sites of some nodes. -/
def sitesNodes : List Node → List Site
  | [] => []
  | n :: ns => n.sites ++ sitesNodes ns

/-- The sites of a node. -/
def Node.sites : Node → List Site
  | .expr e => e.sites
  | .annotated a => a.sites
  | .group _ _ cs => sitesNodes cs

/-- The sites of an annotation, itself first. -/
def Annotation.sites : Annotation → List Site
  | .mk n l es => .annotated (.mk n l es) :: sitesElements es

/-- The sites of some elements. -/
def sitesElements : List Element → List Site
  | [] => []
  | e :: es => e.sites ++ sitesElements es

/-- The sites of an element. -/
def Element.sites : Element → List Site
  | .mk _ v => v.sites

/-- The sites of an element value. -/
def ElementValue.sites : ElementValue → List Site
  | .expr e => e.sites
  | .array vs => sitesValues vs
  | .nested a => a.sites

/-- The sites of some element values. -/
def sitesValues : List ElementValue → List Site
  | [] => []
  | v :: vs => v.sites ++ sitesValues vs

end

mutual

/-- The expressions that stand for texts in an element value: the value itself
    or the items of an array, but nothing inside a nested annotation. -/
def ElementValue.texts : ElementValue → List Expr
  | .expr e => [e]
  | .array vs => textsOf vs
  | .nested _ => []

/-- The expressions that stand for texts in some element values. -/
def textsOf : List ElementValue → List Expr
  | [] => []
  | v :: vs => v.texts ++ textsOf vs

end

namespace Scan

/-- A message found on a line. -/
structure Finding where
  key : Message.Key
  line : Nat
  deriving DecidableEq, Repr

/-- Constant text that is not empty. -/
def text? (E : Evaluator) (e : Expr) : Except EvalError (Option String) :=
  (E.evaluateText e).map fun t => t.filter (· ≠ "")

/-- The message of a call under a rule. A call without the plural argument
    still has its singular. -/
def callFinding? (E : Evaluator) (r : MethodRule) (line : Nat) (args : List Expr) :
    Except EvalError (Option Finding) := do
  match args[r.singularIndex]? with
  | none => return none
  | some e =>
    match ← text? E e with
    | none => return none
    | some singular =>
      match r.pluralIndex.bind fun i => args[i]? with
      | none => return some ⟨⟨singular, none⟩, line⟩
      | some e =>
        match ← text? E e with
        | none => return none
        | some plural => return some ⟨⟨singular, some plural⟩, line⟩

/-- The expressions that a rule takes for texts in an annotation. -/
def annotationTexts (r : AnnotationRule) (a : Annotation) : List Expr :=
  r.fields.flatMap fun f => ((a.element? f).map ElementValue.texts).getD []

/-- The messages of an annotation under a rule. -/
def annotationFindings (E : Evaluator) (r : AnnotationRule) (a : Annotation) :
    Except EvalError (List Finding) := do
  let ts ← (annotationTexts r a).mapM (text? E)
  return ts.filterMap fun t => t.map fun s => ⟨⟨s, none⟩, a.line⟩

/-- The messages of a site in a unit. -/
def findings (g : Registry) (E : Evaluator) (u : SourceUnit) :
    Site → Except EvalError (List Finding)
  | .call l m as =>
    match g.methodRule? m with
    | some r => (callFinding? E r l as).map Option.toList
    | none => .ok []
  | .annotated a =>
    match g.annotationRule? (u.qualify a.name) with
    | some r => annotationFindings E r a
    | none => .ok []

/-- Records findings in the file of a given path. -/
def recordAll (path : String) (fs : List Finding) : Store :=
  fs.foldl (fun s f => s.record f.key ⟨path, f.line⟩) .empty

end Scan

/-- The messages of a unit. -/
def SourceUnit.scan (u : SourceUnit) (g : Registry) (E : Evaluator) : Except EvalError Store := do
  let fs ← (sitesNodes u.nodes).mapM (Scan.findings g E u)
  return Scan.recordAll u.path fs.flatten

end MessageHarvest
