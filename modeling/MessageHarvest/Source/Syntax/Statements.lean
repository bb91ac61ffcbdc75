import MessageHarvest.Source.Syntax.Expressions

/-! # Statements -/

namespace MessageHarvest.Syntax

open Grammar

/-- The modifiers of a declaration. -/
def modifiers : Phrase :=
  node .modifiers (plus (choice (
    [annotationForm, cat [kw "non", adjacent, sym "-", adjacent, kw "sealed"]] ++
      modifierWords.map kw)))

/-- A declared name with its dimensions. -/
def declaredName : Phrase := cat [anyName, opt dimensions]

/-- A declared name with its initial value. -/
def variableDeclarator : Phrase :=
  node .variableDeclarator (cat [declaredName,
    opt (cat [sym "=", choice [rule .arrayInitializer, expression]])])

/-- A type, names with initial values and a semicolon, behind modifiers. -/
def declarators : Phrase := cat [plainType, commas1 variableDeclarator, sym ";"]

/-- A declaration of local variables behind its modifiers. -/
def localVariables : Phrase :=
  cat [noneOf untypedWords, node .localVariableDeclaration (cat [before, declarators])]

/-! ## Control flow -/

/-- `if` with an optional `else`. -/
def ifStatement : Phrase :=
  node .ifStatement (cat [kw "if", parenthesized, statement, opt (cat [kw "else", statement])])

/-- `while`. -/
def whileStatement : Phrase := node .whileStatement (cat [kw "while", parenthesized, statement])

/-- `do` with `while`. -/
def doStatement : Phrase :=
  node .doStatement (cat [kw "do", statement, kw "while", parenthesized, sym ";"])

/-- `for` over a collection. -/
def enhancedForStatement : Phrase :=
  node .enhancedForStatement (cat [kw "for", sym "(", opt modifiers, plainType, declaredName,
    sym ":", expression, sym ")", statement])

/-- `for` with initialization, condition and updates. -/
def forStatement : Phrase :=
  node .forStatement (cat [kw "for", sym "(",
    choice [given (opt modifiers) localVariables, cat [commas expression, sym ";"]],
    opt expression, sym ";", commas expression, sym ")", statement])

/-- A handler of a `try` statement. -/
def catchClause : Phrase :=
  node .catchClause (cat [kw "catch",
    parens (node .catchFormalParameter (cat [opt modifiers,
      node .catchType (separated plainType (sym "|")), declaredName])),
    block])

/-- The final part of a `try` statement. -/
def finallyClause : Phrase := node .finallyClause (cat [kw "finally", block])

/-- `try` with handlers. -/
def tryStatement : Phrase :=
  node .tryStatement (cat [kw "try", block,
    choice [cat [plus catchClause, opt finallyClause], finallyClause]])

/-- The resources of a `try` statement. -/
def resources : Phrase :=
  let resource := node .resource (choice [
    cat [opt modifiers, plainType, declaredName, sym "=", expression],
    given (rule .primary) (cat [beforeIs [.identifier, .fieldAccess], before])])
  node .resourceSpecification (parens (cat [separated resource (sym ";"), opt (sym ";")]))

/-- `try` with resources. -/
def tryResourcesStatement : Phrase :=
  node .tryWithResourcesStatement
    (cat [kw "try", resources, block, star catchClause, opt finallyClause])

/-- `return`. -/
def returnStatement : Phrase := node .returnStatement (cat [kw "return", opt expression, sym ";"])

/-- `break`. -/
def breakStatement : Phrase := node .breakStatement (cat [kw "break", opt anyName, sym ";"])

/-- `continue`. -/
def continueStatement : Phrase :=
  node .continueStatement (cat [kw "continue", opt anyName, sym ";"])

/-- `assert`. -/
def assertStatement : Phrase :=
  node .assertStatement
    (cat [kw "assert", expression, opt (cat [sym ":", expression]), sym ";"])

/-- `synchronized` with a block. -/
def synchronizedStatement : Phrase :=
  node .synchronizedStatement (cat [kw "synchronized", parenthesized, block])

/-- `yield`. -/
def yieldStatement : Phrase := node .yieldStatement (cat [kw "yield", expression, sym ";"])

/-- A statement with a label. -/
def labeledStatement : Phrase :=
  node .labeledStatement (cat [noneOf untypedWords, operandName, sym ":", statement])

/-- The rule for blocks. -/
def blockRule : Phrase := node .block (braces (star statement))

/-- The statements that a keyword or a symbol starts. -/
def controlStatements : List Phrase :=
  [block, sym ";", ifStatement, whileStatement, doStatement, enhancedForStatement, forStatement,
   tryStatement, tryResourcesStatement, returnStatement, throwStatement, breakStatement,
   continueStatement, assertStatement, synchronizedStatement, switchExpression, yieldStatement]

/-- An expression statement where a statement starts. -/
def plainStatement : Phrase := cat [noneOf statementWords, expressionStatement]

end MessageHarvest.Syntax
