import MessageHarvest.Source.Token

/-! # Syntax trees

    A lossless tree over the tokens of a source: leaves are tokens, nodes have
    a kind, and a child may have a role in its parent. A leaf that stands
    directly in a node is punctuation or a keyword; whatever has a meaning of
    its own (a name, a literal, `this`) is a node with one leaf. -/

namespace MessageHarvest

namespace Tree

/-- The kinds of nodes. -/
inductive Kind where
  | program
  | identifier | scopedIdentifier | typeIdentifier | asterisk
  | decimalIntegerLiteral | hexIntegerLiteral | octalIntegerLiteral | binaryIntegerLiteral
  | decimalFloatingPointLiteral | hexFloatingPointLiteral
  | trueLiteral | falseLiteral | characterLiteral | stringLiteral | stringInterpolation
  | nullLiteral
  | thisWord | superWord
  | assignmentExpression | binaryExpression | instanceofExpression | lambdaExpression
  | inferredParameters | ternaryExpression | unaryExpression | updateExpression | castExpression
  | parenthesizedExpression | arrayCreationExpression | dimensionsExpr | classLiteral
  | objectCreationExpression | fieldAccess | templateExpression | arrayAccess | methodInvocation
  | argumentList | methodReference
  | typeArguments | wildcard | dimensions
  | switchExpression | switchBlock | switchBlockStatementGroup | switchRule | switchLabel | guard
  | pattern | typePattern | recordPattern | recordPatternBody | recordPatternComponent
  | block | expressionStatement | labeledStatement | assertStatement | doStatement
  | breakStatement | continueStatement | returnStatement | yieldStatement | synchronizedStatement
  | throwStatement
  | tryStatement | catchClause | catchFormalParameter | catchType | finallyClause
  | tryWithResourcesStatement | resourceSpecification | resource
  | ifStatement | whileStatement | forStatement | enhancedForStatement
  | markerForm | annotationForm | annotationArgumentList | elementValuePair
  | elementValueArrayInitializer
  | moduleDeclaration | moduleBody | requiresModuleDirective | requiresModifier
  | exportsModuleDirective | opensModuleDirective | usesModuleDirective | providesModuleDirective
  | packageDeclaration | importDeclaration
  | enumDeclaration | enumBody | enumBodyDeclarations | enumConstant
  | classDeclaration | modifiers | typeParameters | typeParameter | typeBound | superclass
  | superInterfaces | typeList | permits | classBody | staticInitializer
  | constructorDeclaration | constructorBody | explicitConstructorInvocation
  | fieldDeclaration | recordDeclaration | annotationTypeDeclaration | annotationTypeBody
  | annotationTypeElementDeclaration
  | interfaceDeclaration | extendsInterfaces | interfaceBody | constantDeclaration
  | variableDeclarator | arrayInitializer
  | annotatedType | scopedTypeIdentifier | genericType | arrayType | integralType
  | floatingPointType | booleanType | voidType
  | formalParameters | formalParameter | receiverParameter | spreadParameter | throwsClause
  | localVariableDeclaration | methodDeclaration | compactConstructorDeclaration
  deriving DecidableEq, Repr, Inhabited

/-- The name of a kind. -/
def Kind.name : Kind → String
  | .program => "program"
  | .identifier => "identifier"
  | .scopedIdentifier => "scoped_identifier"
  | .typeIdentifier => "type_identifier"
  | .asterisk => "asterisk"
  | .decimalIntegerLiteral => "decimal_integer_literal"
  | .hexIntegerLiteral => "hex_integer_literal"
  | .octalIntegerLiteral => "octal_integer_literal"
  | .binaryIntegerLiteral => "binary_integer_literal"
  | .decimalFloatingPointLiteral => "decimal_floating_point_literal"
  | .hexFloatingPointLiteral => "hex_floating_point_literal"
  | .trueLiteral => "true"
  | .falseLiteral => "false"
  | .characterLiteral => "character_literal"
  | .stringLiteral => "string_literal"
  | .stringInterpolation => "string_interpolation"
  | .nullLiteral => "null_literal"
  | .thisWord => "this"
  | .superWord => "super"
  | .assignmentExpression => "assignment_expression"
  | .binaryExpression => "binary_expression"
  | .instanceofExpression => "instanceof_expression"
  | .lambdaExpression => "lambda_expression"
  | .inferredParameters => "inferred_parameters"
  | .ternaryExpression => "ternary_expression"
  | .unaryExpression => "unary_expression"
  | .updateExpression => "update_expression"
  | .castExpression => "cast_expression"
  | .parenthesizedExpression => "parenthesized_expression"
  | .arrayCreationExpression => "array_creation_expression"
  | .dimensionsExpr => "dimensions_expr"
  | .classLiteral => "class_literal"
  | .objectCreationExpression => "object_creation_expression"
  | .fieldAccess => "field_access"
  | .templateExpression => "template_expression"
  | .arrayAccess => "array_access"
  | .methodInvocation => "method_invocation"
  | .argumentList => "argument_list"
  | .methodReference => "method_reference"
  | .typeArguments => "type_arguments"
  | .wildcard => "wildcard"
  | .dimensions => "dimensions"
  | .switchExpression => "switch_expression"
  | .switchBlock => "switch_block"
  | .switchBlockStatementGroup => "switch_block_statement_group"
  | .switchRule => "switch_rule"
  | .switchLabel => "switch_label"
  | .guard => "guard"
  | .pattern => "pattern"
  | .typePattern => "type_pattern"
  | .recordPattern => "record_pattern"
  | .recordPatternBody => "record_pattern_body"
  | .recordPatternComponent => "record_pattern_component"
  | .block => "block"
  | .expressionStatement => "expression_statement"
  | .labeledStatement => "labeled_statement"
  | .assertStatement => "assert_statement"
  | .doStatement => "do_statement"
  | .breakStatement => "break_statement"
  | .continueStatement => "continue_statement"
  | .returnStatement => "return_statement"
  | .yieldStatement => "yield_statement"
  | .synchronizedStatement => "synchronized_statement"
  | .throwStatement => "throw_statement"
  | .tryStatement => "try_statement"
  | .catchClause => "catch_clause"
  | .catchFormalParameter => "catch_formal_parameter"
  | .catchType => "catch_type"
  | .finallyClause => "finally_clause"
  | .tryWithResourcesStatement => "try_with_resources_statement"
  | .resourceSpecification => "resource_specification"
  | .resource => "resource"
  | .ifStatement => "if_statement"
  | .whileStatement => "while_statement"
  | .forStatement => "for_statement"
  | .enhancedForStatement => "enhanced_for_statement"
  | .markerForm => "marker_annotation"
  | .annotationForm => "annotation"
  | .annotationArgumentList => "annotation_argument_list"
  | .elementValuePair => "element_value_pair"
  | .elementValueArrayInitializer => "element_value_array_initializer"
  | .moduleDeclaration => "module_declaration"
  | .moduleBody => "module_body"
  | .requiresModuleDirective => "requires_module_directive"
  | .requiresModifier => "requires_modifier"
  | .exportsModuleDirective => "exports_module_directive"
  | .opensModuleDirective => "opens_module_directive"
  | .usesModuleDirective => "uses_module_directive"
  | .providesModuleDirective => "provides_module_directive"
  | .packageDeclaration => "package_declaration"
  | .importDeclaration => "import_declaration"
  | .enumDeclaration => "enum_declaration"
  | .enumBody => "enum_body"
  | .enumBodyDeclarations => "enum_body_declarations"
  | .enumConstant => "enum_constant"
  | .classDeclaration => "class_declaration"
  | .modifiers => "modifiers"
  | .typeParameters => "type_parameters"
  | .typeParameter => "type_parameter"
  | .typeBound => "type_bound"
  | .superclass => "superclass"
  | .superInterfaces => "super_interfaces"
  | .typeList => "type_list"
  | .permits => "permits"
  | .classBody => "class_body"
  | .staticInitializer => "static_initializer"
  | .constructorDeclaration => "constructor_declaration"
  | .constructorBody => "constructor_body"
  | .explicitConstructorInvocation => "explicit_constructor_invocation"
  | .fieldDeclaration => "field_declaration"
  | .recordDeclaration => "record_declaration"
  | .annotationTypeDeclaration => "annotation_type_declaration"
  | .annotationTypeBody => "annotation_type_body"
  | .annotationTypeElementDeclaration => "annotation_type_element_declaration"
  | .interfaceDeclaration => "interface_declaration"
  | .extendsInterfaces => "extends_interfaces"
  | .interfaceBody => "interface_body"
  | .constantDeclaration => "constant_declaration"
  | .variableDeclarator => "variable_declarator"
  | .arrayInitializer => "array_initializer"
  | .annotatedType => "annotated_type"
  | .scopedTypeIdentifier => "scoped_type_identifier"
  | .genericType => "generic_type"
  | .arrayType => "array_type"
  | .integralType => "integral_type"
  | .floatingPointType => "floating_point_type"
  | .booleanType => "boolean_type"
  | .voidType => "void_type"
  | .formalParameters => "formal_parameters"
  | .formalParameter => "formal_parameter"
  | .receiverParameter => "receiver_parameter"
  | .spreadParameter => "spread_parameter"
  | .throwsClause => "throws"
  | .localVariableDeclaration => "local_variable_declaration"
  | .methodDeclaration => "method_declaration"
  | .compactConstructorDeclaration => "compact_constructor_declaration"

/-- The part that a child plays in its parent. -/
inductive Role where
  | object | field | name | arguments
  | left | operator | right | operand
  | condition | consequence | alternative
  | type | value | key
  deriving DecidableEq, Repr, Inhabited

end Tree

/-- A syntax tree. -/
inductive Tree where
  | leaf (role : Option Tree.Role) (token : Token)
  | node (role : Option Tree.Role) (kind : Tree.Kind) (children : List Tree)
  deriving Inhabited

namespace Tree

/-- The role of a tree in its parent. -/
def role : Tree → Option Role
  | leaf r _ => r
  | node r _ _ => r

/-- The same tree in another role. -/
def withRole (r : Role) : Tree → Tree
  | leaf _ t => leaf (some r) t
  | node _ k cs => node (some r) k cs

/-- The kind of a node. -/
def kind? : Tree → Option Kind
  | leaf _ _ => none
  | node _ k _ => some k

/-- The children of a node. -/
def children : Tree → List Tree
  | leaf _ _ => []
  | node _ _ cs => cs

mutual

/-- The tokens of a tree in order. -/
def tokens : Tree → List Token
  | leaf _ t => [t]
  | node _ _ cs => tokensList cs

/-- The tokens of some trees in order. -/
def tokensList : List Tree → List Token
  | [] => []
  | t :: ts => t.tokens ++ tokensList ts

end

mutual

/-- The first token of a tree. -/
def first? : Tree → Option Token
  | leaf _ t => some t
  | node _ _ cs => firstOf? cs

/-- The first token of some trees. -/
def firstOf? : List Tree → Option Token
  | [] => none
  | t :: ts => t.first?.or (firstOf? ts)

end

/-- The line on which a tree starts. -/
def line (t : Tree) : Nat := (t.first?.map Token.line).getD 1

/-- The text that tokens spell. -/
def spell (ts : List Token) : List Char := ts.flatMap fun t => t.lead ++ t.text

/-- The source text of a tree, without what stands before its first token. -/
def text (t : Tree) : List Char :=
  match t.tokens with
  | [] => []
  | t :: ts => t.text ++ spell ts

end Tree

end MessageHarvest
