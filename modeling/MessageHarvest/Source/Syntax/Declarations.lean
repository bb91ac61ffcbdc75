import MessageHarvest.Source.Syntax.Statements

/-! # Declarations

    A declaration is read behind its modifiers, which `before` stands for. -/

namespace MessageHarvest.Syntax

open Grammar

/-! ## Packages, imports and modules -/

/-- A package declaration. -/
def packageDeclaration : Phrase :=
  node .packageDeclaration (cat [star annotationForm, kw "package", dottedName, sym ";"])

/-- An import declaration. -/
def importDeclaration : Phrase :=
  node .importDeclaration (cat [kw "import", opt (kw "static"), dottedName,
    opt (cat [sym ".", node .asterisk (sym "*")]), sym ";"])

/-- A directive of a module. -/
def moduleDirective : Phrase :=
  let targets := opt (cat [kw "to", commas1 dottedName])
  choice [
    node .requiresModuleDirective (cat [kw "requires",
      star (node .requiresModifier (choice [kw "transitive", kw "static"])), dottedName, sym ";"]),
    node .exportsModuleDirective (cat [kw "exports", dottedName, targets, sym ";"]),
    node .opensModuleDirective (cat [kw "opens", dottedName, targets, sym ";"]),
    node .usesModuleDirective (cat [kw "uses", dottedName, sym ";"]),
    node .providesModuleDirective
      (cat [kw "provides", dottedName, kw "with", commas1 dottedName, sym ";"])]

/-- A module declaration. -/
def moduleDeclaration : Phrase :=
  node .moduleDeclaration (cat [star annotationForm, opt (kw "open"), kw "module", dottedName,
    node .moduleBody (braces (star moduleDirective))])

/-! ## Types -/

/-- Types with commas between them. -/
def typeList : Phrase := node .typeList (commas1 anyType)

/-- `implements`. -/
def superInterfaces : Phrase := node .superInterfaces (cat [kw "implements", typeList])

/-- `permits`. -/
def permitted : Phrase := node .permits (cat [kw "permits", typeList])

/-- A class. -/
def classDeclaration : Phrase :=
  node .classDeclaration (cat [before, kw "class", anyName, opt typeParameters,
    opt (node .superclass (cat [kw "extends", anyType])), opt superInterfaces, opt permitted,
    classBody])

/-- A record. -/
def recordDeclaration : Phrase :=
  node .recordDeclaration (cat [before, kw "record", anyName, opt typeParameters,
    formalParameters, opt superInterfaces, classBody])

/-- An interface. -/
def interfaceDeclaration : Phrase :=
  node .interfaceDeclaration (cat [before, kw "interface", anyName, opt typeParameters,
    opt (node .extendsInterfaces (cat [kw "extends", typeList])), opt permitted,
    rule .interfaceBody])

/-- An annotation type. -/
def annotationTypeDeclaration : Phrase :=
  node .annotationTypeDeclaration
    (cat [before, atInterface, anyName, rule .annotationTypeBody])

/-! ## Members -/

/-- The `throws` clause of a method. -/
def throwsClause : Phrase := node .throwsClause (cat [kw "throws", commas1 anyType])

/-- A parameter of a method. -/
def parameter : Phrase :=
  given (opt modifiers) (choice [
    node .spreadParameter
      (cat [before, plainType, sym "...", star annotationForm, variableDeclarator]),
    node .formalParameter (cat [before, plainType, declaredName])])

/-- The rule for the parameters of a method, with an optional receiver. -/
def formalParametersRule : Phrase :=
  let receiver := node .receiverParameter
    (cat [star annotationForm, plainType, star (cat [anyName, sym "."]), thisWord])
  node .formalParameters (parens (choice [
    cat [receiver, opt (cat [sym ",", commas parameter])],
    commas parameter]))

/-- A method. -/
def methodDeclaration : Phrase :=
  node .methodDeclaration (cat [before, opt (cat [typeParameters, star annotationForm]), plainType,
    anyName, formalParameters, opt dimensions, opt throwsClause, choice [block, sym ";"]])

/-- A call of another constructor. -/
def constructorCall : Phrase :=
  node .explicitConstructorInvocation (cat [
    choice [
      cat [opt typeArguments, choice [thisWord, superWord],
        ahead fun k w => k = .symbol && w = ['(']],
      cat [rule .primary, sym ".", opt typeArguments, superWord]],
    arguments, sym ";"])

/-- A constructor. -/
def constructorDeclaration : Phrase :=
  node .constructorDeclaration (cat [before, opt typeParameters, anyName, formalParameters,
    opt throwsClause,
    node .constructorBody (braces (cat [opt constructorCall, star statement]))])

/-- The constructor of a record without parameters of its own. -/
def compactConstructor : Phrase :=
  node .compactConstructorDeclaration (cat [before, anyName, block])

/-- A constant of an enumeration. -/
def enumConstant : Phrase :=
  node .enumConstant (cat [opt modifiers, anyName, opt (role .arguments arguments), opt classBody])

/-- An enumeration. -/
def enumDeclaration : Phrase :=
  node .enumDeclaration
    (cat [before, kw "enum", anyName, opt superInterfaces, rule .enumBody])

/-- The declarations of types other than records behind their modifiers. -/
def nestedDeclarations : List Phrase :=
  [classDeclaration, interfaceDeclaration, annotationTypeDeclaration, enumDeclaration]

/-- The declarations of types behind their modifiers. -/
def typeDeclarations : List Phrase := recordDeclaration :: nestedDeclarations

/-- The words at the start of a member that cannot start a field or a method. -/
def memberWords : List String := "record" :: declarationWords

/-- A member of a class. -/
def classMember : Phrase :=
  choice [
    sym ";",
    block,
    node .staticInitializer (cat [kw "static", block]),
    given (opt modifiers) (choice (typeDeclarations ++ [
      cat [noneOf memberWords, choice [
        node .fieldDeclaration (cat [before, declarators]),
        methodDeclaration,
        constructorDeclaration,
        compactConstructor]]]))]

/-- The rule for the body of a class. -/
def classBodyRule : Phrase := node .classBody (braces (star classMember))

/-- The rule for the body of an enumeration. -/
def enumBodyRule : Phrase :=
  node .enumBody (braces (cat [commas enumConstant, opt (sym ","),
    opt (node .enumBodyDeclarations (cat [sym ";", star classMember]))]))

/-- A constant of an interface or annotation type. -/
def constantDeclaration : Phrase := node .constantDeclaration (cat [before, declarators])

/-- The rule for the body of an interface. -/
def interfaceBodyRule : Phrase :=
  node .interfaceBody (braces (star (choice [
    sym ";",
    given (opt modifiers) (choice (typeDeclarations ++ [
      cat [noneOf memberWords, choice [constantDeclaration, methodDeclaration]]]))])))

/-- An element of an annotation type with its default value. -/
def annotationElement : Phrase :=
  node .annotationTypeElementDeclaration (cat [before, plainType, anyName, sym "(", sym ")",
    opt dimensions, opt (cat [kw "default", rule .elementValue]), sym ";"])

/-- The rule for the body of an annotation type. -/
def annotationTypeBodyRule : Phrase :=
  node .annotationTypeBody (braces (star (choice [
    sym ";",
    given (opt modifiers) (choice (nestedDeclarations ++ [
      cat [noneOf declarationWords, choice [annotationElement, constantDeclaration]]]))])))

/-! ## Statements and programs -/

/-- The rule for statements. -/
def statementRule : Phrase :=
  choice (controlStatements ++ [
    packageDeclaration,
    importDeclaration,
    moduleDeclaration,
    labeledStatement,
    given (opt modifiers) (choice (typeDeclarations ++ [localVariables])),
    plainStatement])

/-- The rule for a whole source: statements and methods. -/
def programRule : Phrase :=
  node .program (cat [
    star (choice [
      statement,
      given (opt modifiers) (cat [noneOf untypedWords, methodDeclaration])]),
    finish])

/-- What every rule reads. -/
def rules : Rule → Phrase
  | .program => programRule
  | .annotationForm => annotationRule
  | .elementValue => elementValueRule
  | .plainType => plainTypeRule
  | .type => typeRule
  | .expression level arrow => expressionRule level arrow
  | .primary => primaryRule
  | .arrayInitializer => arrayInitializerRule
  | .recordPattern => recordPatternRule
  | .block => blockRule
  | .statement => statementRule
  | .formalParameters => formalParametersRule
  | .classBody => classBodyRule
  | .enumBody => enumBodyRule
  | .interfaceBody => interfaceBodyRule
  | .annotationTypeBody => annotationTypeBodyRule

end MessageHarvest.Syntax
