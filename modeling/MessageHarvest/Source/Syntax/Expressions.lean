import MessageHarvest.Source.Syntax.Types

/-! # Expressions

    Operators are read by levels: a binary operator of level `q` has a right
    operand of level `q + 1`, so it associates to the left. A cast binds more
    tightly than every binary operator, and the unary operators more tightly
    than a cast. An assignment is an operand, since its left side is one and
    its right side takes everything that follows. -/

namespace MessageHarvest.Syntax

open Grammar

/-! ## Literals and arguments -/

/-- A string literal, with the expressions that are embedded in it. -/
def stringLiteral : Phrase :=
  let embedded := node .stringInterpolation expression
  node .stringLiteral (choice [
    token .string,
    cat [token .stringHead, embedded, star (cat [token .stringMiddle, embedded]),
      token .stringTail]])

/-- A literal. -/
def literal : Phrase :=
  choice [
    stringLiteral,
    node .decimalIntegerLiteral (token .decimalInt),
    node .hexIntegerLiteral (token .hexInt),
    node .octalIntegerLiteral (token .octalInt),
    node .binaryIntegerLiteral (token .binaryInt),
    node .decimalFloatingPointLiteral (token .decimalFloat),
    node .hexFloatingPointLiteral (token .hexFloat),
    node .characterLiteral (token .char),
    node .trueLiteral (kw "true"),
    node .falseLiteral (kw "false"),
    node .nullLiteral (kw "null")]

/-- The arguments of a call. -/
def arguments : Phrase := node .argumentList (parens (commas expression))

/-- An expression in parentheses. -/
def parenthesized : Phrase := node .parenthesizedExpression (parens expression)

/-- The rule for array initializers. -/
def arrayInitializerRule : Phrase :=
  node .arrayInitializer
    (braces (cat [commas (choice [rule .arrayInitializer, expression]), opt (sym ",")]))

/-! ## Primary expressions -/

/-- `new` with a type and arguments. -/
def creation : Phrase :=
  cat [kw "new",
    choice [cat [star annotationForm, typeArguments, star annotationForm], star annotationForm],
    simpleType, role .arguments arguments, opt classBody]

/-- `new` with a type and dimensions. -/
def arrayCreation : Phrase :=
  node .arrayCreationExpression (cat [kw "new", star annotationForm, simpleType,
    choice [
      cat [plus (node .dimensionsExpr (cat [star annotationForm, sym "[", expression, sym "]"])),
        opt dimensions],
      cat [dimensions, rule .arrayInitializer]]])

/-- What follows the two colons of a method reference. -/
def referenceTail : Phrase :=
  cat [sym "::", opt typeArguments, choice [kw "new", anyName]]

/-- What a primary expression starts with. -/
def primaryBase : Phrase :=
  choice [
    literal,
    parenthesized,
    node .classLiteral (cat [plainType, sym ".", kw "class"]),
    node .methodReference (cat [not (cat [noneOf primitiveWords, dottedName, sym "::"]), plainType,
      referenceTail]),
    thisWord,
    cat [superWord, ahead fun k w => k = .symbol && (w = ['.'] || w = [':', ':'])],
    arrayCreation,
    node .objectCreationExpression creation,
    node .methodInvocation (cat [role .name operandName, role .arguments arguments]),
    operandName]

/-- What a primary expression continues with. -/
def primaryStep : Phrase :=
  let object := role .object before
  let call := cat [opt typeArguments, role .name memberName, role .arguments arguments]
  let field := role .field (choice [memberName, thisWord])
  choice [
    node .objectCreationExpression (cat [before, sym ".", creation]),
    node .templateExpression (cat [before, sym ".", stringLiteral]),
    node .methodInvocation (cat [object, sym ".", superWord, sym ".", call]),
    node .fieldAccess (cat [object, sym ".", superWord, sym ".", field]),
    node .methodInvocation (cat [object, sym ".", call]),
    node .fieldAccess (cat [object, sym ".", field]),
    node .arrayAccess (cat [before, sym "[", expression, sym "]"]),
    node .methodReference (cat [before, referenceTail])]

/-- The rule for primary expressions. -/
def primaryRule : Phrase := chain primaryBase primaryStep

/-! ## Patterns and switches -/

/-- The rule for record patterns. -/
def recordPatternRule : Phrase :=
  node .recordPattern (cat [
    choice [
      cat [given (chain typeName scopedStep) (node .genericType (cat [before, typeArguments])),
        ahead fun k w => k = .symbol && w = ['(']],
      anyName],
    node .recordPatternBody (parens (commas (choice [
      rule .recordPattern,
      node .recordPatternComponent (cat [plainType, anyName]),
      node .recordPatternComponent (kw "_")])))])

/-- A pattern in the label of a switch. -/
def pattern : Phrase :=
  node .pattern (choice [
    rule .recordPattern,
    node .typePattern (cat [plainType, node .identifier (wordExcept ["when", "instanceof"])])])

/-- A label of a switch, without what ends it. -/
def switchLabel : Phrase :=
  node .switchLabel (choice [
    cat [kw "case", choice [pattern, commas1 labelExpression],
      opt (node .guard (cat [kw "when", labelExpression]))],
    kw "default"])

/-- An expression as a statement. -/
def expressionStatement : Phrase := node .expressionStatement (cat [expression, sym ";"])

/-- A `throw` statement. -/
def throwStatement : Phrase := node .throwStatement (cat [kw "throw", expression, sym ";"])

/-- The body of a switch, with arrows or with colons throughout. -/
def switchBlock : Phrase :=
  let arrowRule := node .switchRule
    (cat [switchLabel, sym "->", choice [throwStatement, block, expressionStatement]])
  let group := node .switchBlockStatementGroup
    (cat [plus (cat [switchLabel, sym ":"]), star statement])
  node .switchBlock (choice [braces (plus arrowRule), braces (plus group), braces empty])

/-- A switch, as an expression or a statement. -/
def switchExpression : Phrase :=
  node .switchExpression (cat [kw "switch", parenthesized, switchBlock])

/-! ## Operands -/

/-- A lambda expression. -/
def lambda : Phrase :=
  node .lambdaExpression (cat [
    choice [
      operandName,
      node .inferredParameters (parens (commas1 operandName)),
      formalParameters],
    sym "->",
    choice [block, expression]])

/-- Whether a token of a class and a text can start the operand of a cast to a
    simple name. Signs cannot: behind a name in parentheses they are binary
    operators. -/
def startsOperand (k : Token.Kind) (w : List Char) : Bool :=
  match k with
  | .word => w ≠ "instanceof".toList
  | .symbol => w = ['('] || w = ['!'] || w = ['~']
  | .invalid | .finish | .stringMiddle | .stringTail => false
  | _ => true

/-- A cast to several types has a primary expression or a lambda as its operand.
    A cast to a simple name, which could as well be an expression, needs an
    operand that could not continue one; to any other type every operand goes. -/
def castExpression (arrow : Bool) : Phrase :=
  let value := role .value (rule (Rule.expression 15 arrow))
  let updated := cat [anySym ["++", "--"], ahead startsOperand]
  choice [
    -- `(A & B) x`
    node .castExpression (cat [sym "(", role .type castType,
      plus (cat [sym "&", role .type castType]), sym ")",
      role .value (choice ((if arrow then [lambda] else []) ++ [rule Rule.primary]))]),
    -- `(A) x`, but not `(a) + x` or `(a)++`
    node .castExpression (cat [sym "(", role .type simpleCastType, sym ")",
      choice [ahead startsOperand, not (not updated)], value]),
    -- `(int) + x`, `(A[]) x`, `(a.B) + x`
    node .castExpression (cat [sym "(", not (cat [simpleCastType, sym ")"]), role .type castType,
      sym ")", value])]

/-- The assignment operators. -/
def assignmentOperators : List String :=
  ["=", "+=", "-=", "*=", "/=", "&=", "|=", "^=", "%=", "<<=", ">>=", ">>>="]

/-- A primary expression, or an assignment to one. -/
def assignment : Phrase :=
  chain (rule .primary) (cat [
    beforeIs [.identifier, .fieldAccess, .arrayAccess],
    node .assignmentExpression (cat [before, anySym assignmentOperators, expression])])

/-- An operand of the binary operators. -/
def operand (arrow : Bool) : Phrase :=
  let tight := rule (Rule.expression 16 arrow)
  choice ([
    node .unaryExpression (cat [role .operator (anySym ["+", "-", "!", "~"]), role .operand tight]),
    node .updateExpression (cat [anySym ["++", "--"], tight])] ++
    (if arrow then [lambda] else []) ++
    [castExpression arrow, switchExpression, assignment])

/-! ## Operators -/

/-- The binary operators with their levels. -/
def binaryOperators : List (String × Nat) :=
  [("||", 4), ("&&", 5), ("|", 6), ("^", 7), ("&", 8), ("==", 9), ("!=", 9),
   ("<", 10), (">", 10), ("<=", 10), (">=", 10), ("<<", 11), (">>", 11), (">>>", 11),
   ("+", 12), ("-", 12), ("*", 13), ("/", 13), ("%", 13)]

/-- A binary operator behind its left operand. -/
def binaryStep (arrow : Bool) (op : String × Nat) : Phrase :=
  node .binaryExpression (cat [role .left before, role .operator (sym op.1),
    role .right (rule (.expression (op.2 + 1) arrow))])

/-- `instanceof` behind its operand. -/
def instanceofStep : Phrase :=
  node .instanceofExpression (cat [before, kw "instanceof", opt (kw "final"), choice [
    rule .recordPattern,
    cat [anyType, opt (node .identifier (wordExcept ["instanceof", "when"]))]]])

/-- A conditional behind its condition. -/
def ternaryStep (arrow : Bool) : Phrase :=
  node .ternaryExpression (cat [role .condition before, sym "?", role .consequence expression,
    sym ":", role .alternative (rule (.expression 3 arrow))])

/-- An increment or decrement behind its operand. -/
def updateStep : Phrase := node .updateExpression (cat [before, anySym ["++", "--"]])

/-- The rule for expressions of a level. -/
def expressionRule (level : Nat) (arrow : Bool) : Phrase :=
  chain (operand arrow) (choice (
    ((binaryOperators.filter (fun op => level ≤ op.2)).map (binaryStep arrow)) ++
    (if level ≤ 10 then [instanceofStep] else []) ++
    (if level ≤ 3 then [ternaryStep arrow] else []) ++
    (if level ≤ 15 then [updateStep] else [])))

end MessageHarvest.Syntax
