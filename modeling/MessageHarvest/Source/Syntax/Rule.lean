import MessageHarvest.Source.Grammar

/-! # The rules of the source grammar

    The rules are named here so that they can refer to each other; what they
    read is said in the modules beside this one. Words are keywords only where
    a keyword can stand: the word lists below say which words those are at the
    start of an expression, a statement and a member. Everywhere else any word
    is a name. -/

namespace MessageHarvest.Syntax

/-- The rules that are recursive. -/
inductive Rule where
  | program
  | annotationForm
  | elementValue
  /-- A type without annotations in front. -/
  | plainType
  | type
  /-- An expression whose operators bind at least as tightly as `level`; a
      lambda may start in it only if `arrow` is set, which it is not in the
      labels of a switch. -/
  | expression (level : Nat) (arrow : Bool)
  | primary
  | arrayInitializer
  | recordPattern
  | block
  | statement
  | formalParameters
  | classBody
  | enumBody
  | interfaceBody
  | annotationTypeBody
  deriving DecidableEq, Repr

/-- A grammar over these rules. -/
abbrev Phrase := Grammar Rule

open Grammar

/-! ## Words -/

/-- The words of primitive types and `void`. -/
def primitiveWords : List String :=
  ["byte", "short", "int", "long", "char", "float", "double", "boolean", "void"]

/-- The other keywords at the start of an expression. -/
def operandWords : List String := ["true", "false", "null", "this", "super", "new", "switch"]

/-- The words that are modifiers. -/
def modifierWords : List String :=
  ["public", "protected", "private", "abstract", "static", "final", "strictfp", "default",
   "synchronized", "native", "transient", "volatile", "sealed"]

/-- The words that start a declaration of a type. -/
def declarationWords : List String := ["class", "interface", "enum"]

/-- The words at the start of a statement that cannot start an expression. -/
def statementWords : List String :=
  ["if", "while", "for", "do", "try", "return", "throw", "break", "continue", "assert",
   "package", "import", "case", "public", "protected", "private", "abstract", "static", "final",
   "strictfp", "default", "synchronized", "native", "transient", "volatile"] ++ declarationWords

/-- The words that are keywords in some places and names in others. -/
def contextualWords : List String := ["open", "module", "record", "with", "sealed", "yield"]

/-- The words at the start of a statement that cannot name a type. -/
def untypedWords : List String := statementWords ++ operandWords ++ contextualWords

/-! ## Names -/

/-- Any word as an identifier. -/
def anyName : Phrase := node .identifier (wordExcept [])

/-- An identifier in an expression. -/
def operandName : Phrase := node .identifier (wordExcept (primitiveWords ++ operandWords))

/-- An identifier behind a dot. -/
def memberName : Phrase := node .identifier (wordExcept ["new", "super", "this", "class"])

/-- A dotted name. -/
def dottedName : Phrase :=
  chain anyName (node .scopedIdentifier (cat [before, sym ".", anyName]))

/-- The word `this`. -/
def thisWord : Phrase := node .thisWord (kw "this")

/-- The word `super`. -/
def superWord : Phrase := node .superWord (kw "super")

/-! ## References to rules -/

/-- An annotation. -/
def annotationForm : Phrase := rule .annotationForm

/-- A type, possibly with annotations in front. -/
def anyType : Phrase := rule .type

/-- A type without annotations in front. -/
def plainType : Phrase := rule .plainType

/-- Any expression. -/
def expression : Phrase := rule (.expression 0 true)

/-- An expression in the label of a switch. -/
def labelExpression : Phrase := rule (.expression 0 false)

/-- A block of statements. -/
def block : Phrase := rule .block

/-- A statement. -/
def statement : Phrase := rule .statement

/-- The parameters of a method. -/
def formalParameters : Phrase := rule .formalParameters

/-- The body of a class. -/
def classBody : Phrase := rule .classBody

end MessageHarvest.Syntax
