import MessageHarvest.Source.Literal
import MessageHarvest.Source.Parser
import MessageHarvest.Source.Unit

/-! # From syntax trees to the extraction model

    A tree can stand in a list of nodes, as an expression, as an element value
    or as an argument of an annotation, and `Tree.Meaning` says what it is in
    each of these places. The meaning of a tree is put together from the
    meanings of its children: an expression with a shape of its own from the
    children with the right roles, every other expression and every other node
    from all its children. `Tree.toUnit` reads package, imports and nodes off
    the tree of a whole source. -/

namespace MessageHarvest

namespace Tree

/-- The kinds of nodes that are expressions. -/
def Kind.isExpression : Kind → Bool
  | .binaryExpression | .unaryExpression | .ternaryExpression | .parenthesizedExpression
  | .castExpression | .methodInvocation | .fieldAccess | .identifier | .stringLiteral
  | .characterLiteral | .decimalIntegerLiteral | .hexIntegerLiteral | .octalIntegerLiteral
  | .binaryIntegerLiteral | .decimalFloatingPointLiteral | .hexFloatingPointLiteral
  | .trueLiteral | .falseLiteral | .nullLiteral | .objectCreationExpression | .lambdaExpression
  | .arrayAccess | .arrayCreationExpression | .arrayInitializer | .assignmentExpression
  | .updateExpression | .instanceofExpression | .methodReference | .classLiteral
  | .switchExpression | .thisWord | .superWord => true
  | _ => false

/-- The kinds of nodes that are annotations. -/
def Kind.isAnnotationForm : Kind → Bool
  | .annotationForm | .markerForm => true
  | _ => false

/-- What a tree is in each place where it can stand. -/
structure Meaning where
  tree : Tree
  /-- In a list of nodes. -/
  node? : Option Node
  /-- As an expression. -/
  expr : Expr
  /-- As an element value. -/
  value : ElementValue
  /-- As an argument of an annotation. -/
  element? : Option Element
  /-- As the argument list of a call. -/
  exprs : List Expr
  /-- As the argument list of an annotation. -/
  elements : List Element

namespace Meaning

/-- The source text. -/
def text (m : Meaning) : List Char := m.tree.text

/-- The first meaning in a role. -/
def find? (r : Role) (ms : List Meaning) : Option Meaning :=
  ms.find? (fun m => m.tree.role == some r)

/-- The expression of the first meaning in a role. -/
def expr? (r : Role) (ms : List Meaning) : Option Expr := (find? r ms).map Meaning.expr

/-- The source text of the first meaning in a role. -/
def text? (r : Role) (ms : List Meaning) : Option String :=
  (find? r ms).map fun m => String.ofList m.text

/-- Whether a meaning is that of a node. -/
def isNode (m : Meaning) : Bool := m.tree.kind?.isSome

/-- An expression whose kind has no shape of its own. -/
def otherExpr (line : Nat) (k : Kind) (ms : List Meaning) : Expr :=
  .other line k.name (ms.filterMap Meaning.node?)

/-- The expression that a node of kind `k` is, if it has a shape of its own. -/
def shapedExpr? (t : Tree) (k : Kind) (ms : List Meaning) : Option Expr :=
  let line := t.line
  let spelling := fun _ : Unit => String.ofList t.text
  match k with
  | .parenthesizedExpression => (ms.find? isNode).map Meaning.expr
  | .stringLiteral => some (.literal line (.text (Literal.decodeString (spelling ()))))
  | .characterLiteral => (Literal.decodeChar (spelling ())).map fun u => .literal line (.char u)
  | .decimalIntegerLiteral | .hexIntegerLiteral | .octalIntegerLiteral | .binaryIntegerLiteral =>
    (Literal.decodeInt (spelling ())).map fun l => .literal line l
  | .decimalFloatingPointLiteral | .hexFloatingPointLiteral =>
    some (.literal line (.float (Literal.decodeFloat (spelling ()))))
  | .trueLiteral => some (.literal line (.bool true))
  | .falseLiteral => some (.literal line (.bool false))
  | .nullLiteral => some (.literal line .null)
  | .identifier => some (.name line (spelling ()))
  | .binaryExpression => do
    let op ← (text? .operator ms).bind BinaryOp.ofToken?
    let a ← expr? .left ms
    let b ← expr? .right ms
    return .binary line op a b
  | .unaryExpression => do
    let op ← (text? .operator ms).bind UnaryOp.ofToken?
    let a ← expr? .operand ms
    return .unary line op a
  | .ternaryExpression => do
    let c ← expr? .condition ms
    let a ← expr? .consequence ms
    let b ← expr? .alternative ms
    return .conditional line c a b
  | .castExpression => do
    let t ← find? .type ms
    let a ← expr? .value ms
    return .cast line (.ofSpelling (String.ofList (Text.trim t.text))) a
  | .fieldAccess => do
    let o ← expr? .object ms
    let f ← text? .field ms
    return .field line o f
  | .methodInvocation => do
    let m ← text? .name ms
    return .call line m (expr? .object ms) (((find? .arguments ms).map Meaning.exprs).getD [])
  | _ => none

/-- The annotation that a node is. -/
def annotationOf (line : Nat) (ms : List Meaning) : Annotation :=
  let name := ((find? .name ms).map fun m => String.ofList (Text.compact m.text)).getD ""
  .mk name line (((find? .arguments ms).map Meaning.elements).getD [])

/-- The meaning of a token. -/
def ofToken (r : Option Role) (t : Token) : Meaning where
  tree := .leaf r t
  node? := none
  expr := .other t.line "" []
  value := .array []
  element? := none
  exprs := []
  elements := []

/-- The meaning of a node from the meanings of its children. -/
def ofNode (t : Tree) (k : Kind) (ms : List Meaning) : Meaning :=
  let line := t.line
  let expr := (shapedExpr? t k ms).getD (otherExpr line k ms)
  let value : ElementValue :=
    if k = .elementValueArrayInitializer then .array ((ms.filter isNode).map Meaning.value)
    else if k.isAnnotationForm then .nested (annotationOf line ms)
    else .expr expr
  { tree := t
    node? :=
      if k.isAnnotationForm then some (.annotated (annotationOf line ms))
      else if k.isExpression then some (.expr expr)
      else some (.group k.name line (ms.filterMap Meaning.node?))
    expr := expr
    value := value
    element? :=
      if k = .elementValuePair then do
        let n ← text? .key ms
        let v ← find? .value ms
        return .mk n v.value
      else some (.mk Annotation.defaultElement value)
    exprs := (ms.filter isNode).map Meaning.expr
    elements := ms.filterMap Meaning.element? }

end Meaning

mutual

/-- The meaning of a tree. -/
def meaning : Tree → Meaning
  | leaf r t => .ofToken r t
  | node r k cs => .ofNode (node r k cs) k (meanings cs)

/-- The meanings of some trees. -/
def meanings : List Tree → List Meaning
  | [] => []
  | t :: ts => t.meaning :: meanings ts

end

/-! ## Units -/

/-- The name that a package declaration declares. -/
def packageName? (t : Tree) : Option String :=
  (t.children.find? fun c => c.kind? = some .scopedIdentifier || c.kind? = some .identifier).map
    fun c => String.ofList (Text.compact c.text)

/-- Whether an import is static. -/
def isStaticImport (t : Tree) : Bool :=
  t.children.any fun c =>
    match c with
    | leaf _ k => k.text = "static".toList
    | node .. => false

/-- The type that a single-type import names; static imports and imports on
    demand name none. The name is the text of the declaration between its
    keyword and its semicolon, without blanks. -/
def importedType? (t : Tree) : Option String :=
  if t.isStaticImport then none
  else
    let body := (Text.dropStart? "import".toList t.text).getD t.text
    let body := Text.compact ((body.reverse.dropWhile (· == ';')).reverse)
    if body.isEmpty || body.getLast? = some '*' then none else some (String.ofList body)

/-- Adds a top-level tree to a unit. -/
def addTo (u : SourceUnit) (t : Tree) : SourceUnit :=
  match t.kind? with
  | some .packageDeclaration => { u with package? := t.packageName? }
  | some .importDeclaration => { u with imports := u.imports ++ t.importedType?.toList }
  | _ => { u with nodes := u.nodes ++ t.meaning.node?.toList }

/-- The unit of a whole source. -/
def toUnit (path : String) (t : Tree) : SourceUnit := t.children.foldl addTo ⟨path, none, [], []⟩

end Tree

/-- A syntax error in a source file. -/
structure SyntaxError where
  path : String
  line : Nat
  deriving DecidableEq, Repr, Inhabited

namespace SyntaxError

/-- The error message. -/
def message (e : SyntaxError) : String := e.path ++ ":" ++ toString e.line ++ ": syntax error"

end SyntaxError

namespace SourceUnit

/-- The unit of a source text. -/
def parse (path source : String) : Except SyntaxError SourceUnit :=
  match Source.parse source with
  | .ok t => .ok (t.toUnit path)
  | .error line => .error ⟨path, line⟩

end SourceUnit

end MessageHarvest
