import MessageHarvest.Rule.Basic

/-! # Registries of rules

    A registry holds valid rules, at most one for each name. Rules are checked
    in order, methods first, each for itself and then against the ones before
    it. -/

namespace MessageHarvest

/-- Method rules and annotation rules by name. -/
structure Registry where
  methods : List MethodRule
  annotations : List AnnotationRule
  deriving DecidableEq, Repr, Inhabited

namespace Registry

/-- Checks method rules behind the ones of the given names. -/
def checkMethods : List String → List MethodRule → Except RuleError Unit
  | _, [] => .ok ()
  | seen, r :: rs => do
    r.validate
    if seen.contains r.name then .error (.duplicateMethodName r.name)
    else checkMethods (r.name :: seen) rs

/-- Checks annotation rules behind the ones of the given names. -/
def checkAnnotations : List String → List AnnotationRule → Except RuleError Unit
  | _, [] => .ok ()
  | seen, r :: rs => do
    r.validate
    if seen.contains r.name then .error (.duplicateAnnotationName r.name)
    else checkAnnotations (r.name :: seen) rs

/-- The registry of some rules. -/
def build (methods : List MethodRule) (annotations : List AnnotationRule) :
    Except RuleError Registry := do
  checkMethods [] methods
  checkAnnotations [] annotations
  return ⟨methods, annotations⟩

/-- The rule for the methods of a simple name. -/
def methodRule? (g : Registry) (name : String) : Option MethodRule :=
  g.methods.find? fun r => r.name == name

/-- The rule for the annotation of a qualified name. -/
def annotationRule? (g : Registry) (name : String) : Option AnnotationRule :=
  g.annotations.find? fun r => r.name == name

end Registry

end MessageHarvest
