import MessageHarvest.Source.Syntax.Rule

/-! # Types and annotations -/

namespace MessageHarvest.Syntax

open Grammar

/-! ## Types -/

/-- The name of a type, or of a part of a dotted one. -/
def typeName : Phrase :=
  node .typeIdentifier (wordExcept (primitiveWords ++ ["class", "new", "this", "super"]))

/-- Primitive types and `void`. -/
def primitiveType : Phrase :=
  choice [
    node .voidType (kw "void"),
    node .integralType (choice [kw "byte", kw "short", kw "int", kw "long", kw "char"]),
    node .floatingPointType (choice [kw "float", kw "double"]),
    node .booleanType (kw "boolean")]

/-- `? extends T`, `? super T` or `?`. -/
def wildcard : Phrase :=
  node .wildcard (cat [star annotationForm, sym "?",
    opt (choice [cat [kw "extends", anyType], cat [superWord, anyType]])])

/-- The arguments of a generic type. -/
def typeArguments : Phrase :=
  node .typeArguments (cat [sym "<", commas (choice [wildcard, anyType]), angle])

/-- One more part of a dotted type name. -/
def scopedStep : Phrase :=
  node .scopedTypeIdentifier (cat [before, sym ".", star annotationForm, typeName])

/-- A type that is not an array. -/
def simpleType : Phrase :=
  choice [primitiveType,
    chain typeName (choice [
      cat [beforeIs [.typeIdentifier, .scopedTypeIdentifier],
        node .genericType (cat [before, typeArguments])],
      scopedStep])]

/-- The brackets of an array type. -/
def dimensions : Phrase :=
  node .dimensions (plus (cat [star annotationForm, sym "[", sym "]"]))

/-- The rule for types without annotations in front. -/
def plainTypeRule : Phrase := chain simpleType (node .arrayType (cat [before, dimensions]))

/-- The rule for types. -/
def typeRule : Phrase :=
  choice [node .annotatedType (cat [plus annotationForm, plainType]), plainType]

/-- The words that cannot start the type of a cast. -/
def uncastWords : List String := operandWords ++ contextualWords

/-- The type of a cast. -/
def castType : Phrase := cat [noneOf uncastWords, anyType]

/-- The type of a cast if it is a simple name. -/
def simpleCastType : Phrase := cat [noneOf uncastWords, typeName]

/-- The bound of a type parameter. -/
def typeBound : Phrase :=
  node .typeBound (cat [kw "extends", anyType, star (cat [sym "&", anyType])])

/-- The parameters of a generic declaration. -/
def typeParameters : Phrase :=
  node .typeParameters (cat [sym "<",
    commas1 (node .typeParameter (cat [star annotationForm, typeName, opt typeBound])), angle])

/-! ## Annotations -/

/-- `@interface`, which is no annotation. -/
def atInterface : Phrase := cat [sym "@", adjacent, kw "interface"]

/-- `name = value` in an annotation. -/
def elementPair : Phrase :=
  node .elementValuePair (cat [role .key anyName, sym "=", role .value (rule .elementValue)])

/-- The arguments of an annotation: pairs, or a single value. -/
def annotationArguments : Phrase :=
  node .annotationArgumentList (choice [
    parens (commas1 elementPair),
    parens (rule .elementValue),
    parens empty])

/-- The rule for annotations. -/
def annotationRule : Phrase :=
  cat [not atInterface, choice [
    node .annotationForm
      (cat [sym "@", role .name dottedName, role .arguments annotationArguments]),
    node .markerForm (cat [sym "@", role .name dottedName])]]

/-- The rule for element values. -/
def elementValueRule : Phrase :=
  choice [
    node .elementValueArrayInitializer
      (braces (cat [commas (rule .elementValue), opt (sym ",")])),
    annotationForm,
    expression]

end MessageHarvest.Syntax
