import MessageHarvest.Text.Blank

/-! # Extraction rules

    A method rule says which arguments of the calls of a method are
    translatable; it goes by the simple name of the method alone. An
    annotation rule says which elements of an annotation are translatable; it
    goes by the qualified name of the annotation. -/

namespace MessageHarvest

/-- Why a rule or a set of rules is refused. -/
inductive RuleError where
  | emptyMethodName
  | samePluralIndex (name : String) (index : Nat)
  | duplicateMethodName (name : String)
  | invalidKeyword (spec : String)
  | emptyAnnotationName
  | noAnnotationFields (name : String)
  | duplicateAnnotationName (name : String)
  deriving DecidableEq, Repr, Inhabited

namespace RuleError

/-- The error message. -/
def message : RuleError → String
  | emptyMethodName => "keyword rule has an empty method name"
  | samePluralIndex name index =>
    "keyword '" ++ name ++ "' uses argument " ++ toString index ++ " for both singular and plural"
  | duplicateMethodName name => "keyword '" ++ name ++ "' is defined more than once"
  | invalidKeyword spec =>
    "invalid keyword specification '" ++ spec ++ "' (expected name[:S[,P]])"
  | emptyAnnotationName => "annotation rule has an empty name"
  | noAnnotationFields name => "annotation '" ++ name ++ "' has no fields to extract"
  | duplicateAnnotationName name => "annotation '" ++ name ++ "' is defined more than once"

end RuleError

/-- Whether a text is made of blanks only. -/
def blank (s : String) : Bool := s.toList.all Text.isBlank

/-- The translatable arguments of the calls of a method, counted from zero. -/
structure MethodRule where
  name : String
  singularIndex : Nat := 0
  pluralIndex : Option Nat := none
  deriving DecidableEq, Repr, Inhabited

/-- The translatable elements of an annotation. -/
structure AnnotationRule where
  /-- The qualified name. -/
  name : String
  fields : List String := ["value"]
  deriving DecidableEq, Repr, Inhabited

/-- A method has a name, and singular and plural are different arguments. -/
def MethodRule.validate (r : MethodRule) : Except RuleError Unit :=
  if blank r.name then .error .emptyMethodName
  else if r.pluralIndex = some r.singularIndex then
    .error (.samePluralIndex r.name r.singularIndex)
  else .ok ()

/-- An annotation has a name, and there are fields, each with a name. -/
def AnnotationRule.validate (r : AnnotationRule) : Except RuleError Unit :=
  if blank r.name then .error .emptyAnnotationName
  else if r.fields.isEmpty || r.fields.any blank then .error (.noAnnotationFields r.name)
  else .ok ()

theorem MethodRule.validate_eq_ok_iff (r : MethodRule) :
    r.validate = .ok () ↔ blank r.name = false ∧ r.pluralIndex ≠ some r.singularIndex := by
  unfold validate
  split
  · simp_all
  · split <;> simp_all

theorem AnnotationRule.validate_eq_ok_iff (r : AnnotationRule) :
    r.validate = .ok () ↔
      blank r.name = false ∧ r.fields ≠ [] ∧ ∀ f ∈ r.fields, blank f = false := by
  unfold validate
  split
  · simp_all
  · split
    · next h =>
      simp_all only [List.isEmpty_iff, Bool.or_eq_true, List.any_eq_true]
      rcases h with h | ⟨f, hf, hb⟩
      · simp [h]
      · simp only [reduceCtorEq, false_iff]
        exact fun h => by simp_all [h.2.2 f hf]
    · simp_all

end MessageHarvest
