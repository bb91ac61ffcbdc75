import MessageHarvest.Proofs.Scan.Lines
import MessageHarvest.Proofs.Source.Layout

/-! # The lines of a source

    A tree on the first line has the meaning of the tree, put on the first line
    (`Tree.meaning_still`), and so has its unit (`Tree.toUnit_still`). -/

namespace MessageHarvest

/-- The same token on the first line. -/
def Token.still (t : Token) : Token := { t with line := 1, index := 0 }

namespace Tree

/-- A tree on the first line. -/
abbrev still (t : Tree) : Tree := t.mapTokens Token.still

theorem text_still (t : Tree) : t.still.text = t.text := by
  have hspell : ∀ ts : List Token, spell (ts.map Token.still) = spell ts := by
    intro ts
    rw [spell, spell, List.flatMap_map]
    rfl
  rw [text, text, tokens_mapTokens]
  cases t.tokens with
  | nil => rfl
  | cons u us => exact congrArg (u.text ++ ·) (hspell us)

theorem line_still (t : Tree) : t.still.line = 1 := by
  rw [line_eq, tokens_mapTokens, List.map_map]
  cases t.tokens <;> rfl

attribute [ext] Meaning

namespace Meaning

/-- A meaning on the first line. -/
def still (m : Meaning) : Meaning where
  tree := m.tree.still
  node? := m.node?.map Node.flat
  expr := m.expr.flat
  value := m.value.flat
  element? := m.element?.map Element.flat
  exprs := m.exprs.map Expr.flat
  elements := m.elements.map Element.flat

section Still

variable (t : Tree) (k : Kind) (ms : List Meaning) (r : Role)

theorem find?_still : find? r (ms.map still) = (find? r ms).map still := by
  rw [find?, find?, List.find?_map]
  refine congrArg (Option.map still) (congrArg (ms.find? ·) (funext fun m => ?_))
  exact congrArg (· == some r) (role_mapTokens m.tree)

theorem expr?_still : expr? r (ms.map still) = (expr? r ms).map Expr.flat := by
  rw [expr?, expr?, find?_still, Option.map_map, Option.map_map]
  rfl

theorem text?_still : text? r (ms.map still) = text? r ms := by
  rw [text?, text?, find?_still, Option.map_map]
  refine congrArg (Option.map · (find? r ms)) (funext fun m => ?_)
  exact congrArg String.ofList (text_still m.tree)

theorem filter_isNode_still :
    (ms.map still).filter isNode = (ms.filter isNode).map still := by
  rw [List.filter_map]
  refine congrArg (List.map still) (congrArg (ms.filter ·) (funext fun m => ?_))
  exact congrArg Option.isSome (kind?_mapTokens m.tree)

theorem filterMap_node?_still :
    (ms.map still).filterMap node? = (ms.filterMap node?).map Node.flat := by
  rw [List.filterMap_map, List.map_filterMap]
  rfl

theorem otherExpr_still (l : Nat) :
    otherExpr 1 k (ms.map still) = (otherExpr l k ms).flat := by
  rw [otherExpr, otherExpr, Expr.flat, flatNodes_eq, filterMap_node?_still]

/-- An expression with a shape of its own has it on the first line too. -/
theorem shapedExpr?_still :
    shapedExpr? t.still k (ms.map still) = (shapedExpr? t k ms).map Expr.flat := by
  cases k with
  | binaryExpression =>
    rw [shapedExpr?_binary, shapedExpr?_binary, line_still, text?_still, expr?_still, expr?_still]
    cases (text? .operator ms).bind BinaryOp.ofToken? <;> cases expr? .left ms <;>
      cases expr? .right ms <;> rfl
  | unaryExpression =>
    rw [shapedExpr?_unary, shapedExpr?_unary, line_still, text?_still, expr?_still]
    cases (text? .operator ms).bind UnaryOp.ofToken? <;> cases expr? .operand ms <;> rfl
  | ternaryExpression =>
    rw [shapedExpr?_ternary, shapedExpr?_ternary, line_still, expr?_still, expr?_still,
      expr?_still]
    cases expr? .condition ms <;> cases expr? .consequence ms <;>
      cases expr? .alternative ms <;> rfl
  | parenthesizedExpression =>
    rw [shapedExpr?_parenthesized, shapedExpr?_parenthesized, ← List.head?_filter,
      ← List.head?_filter, filter_isNode_still, List.head?_map, Option.map_map, Option.map_map]
    rfl
  | fieldAccess =>
    rw [shapedExpr?_field, shapedExpr?_field, line_still, text?_still, expr?_still]
    cases expr? .object ms <;> cases text? .field ms <;> rfl
  | castExpression =>
    rw [shapedExpr?_cast, shapedExpr?_cast, line_still, find?_still, expr?_still]
    cases find? .type ms with
    | none => rfl
    | some m =>
      have htext : m.still.text = m.text := text_still m.tree
      cases expr? .value ms with
      | none => rfl
      | some a => simp [htext, Expr.flat]
  | methodInvocation =>
    rw [shapedExpr?_call, shapedExpr?_call, line_still, text?_still, find?_still, expr?_still]
    cases text? .name ms with
    | none => rfl
    | some n =>
      cases find? .arguments ms <;>
        simp [Expr.flat, flatReceiver_eq, flatExprs_eq, flatExprs, still]
  | stringLiteral | identifier | trueLiteral | falseLiteral | nullLiteral
  | decimalFloatingPointLiteral | hexFloatingPointLiteral =>
    simp only [shapedExpr?, text_still, line_still]
    rfl
  | characterLiteral | decimalIntegerLiteral | hexIntegerLiteral | octalIntegerLiteral
  | binaryIntegerLiteral =>
    simp only [shapedExpr?, text_still, line_still, Option.map_map]
    rfl
  | _ => rfl

theorem annotationOf_still (l : Nat) :
    annotationOf 1 (ms.map still) = (annotationOf l ms).flat := by
  rw [annotationOf, annotationOf, Annotation.flat, find?_still, find?_still, flatElements_eq]
  cases find? .name ms with
  | none => cases find? .arguments ms <;> rfl
  | some m =>
    have htext : m.still.text = m.text := text_still m.tree
    simp only [Option.map_some, Option.getD_some, htext]
    cases find? .arguments ms <;> rfl

theorem expr_still : (ofNode t.still k (ms.map still)).expr = (ofNode t k ms).expr.flat := by
  simp only [ofNode, line_still, shapedExpr?_still, otherExpr_still k ms t.line]
  cases shapedExpr? t k ms <;> rfl

theorem value_still : (ofNode t.still k (ms.map still)).value = (ofNode t k ms).value.flat := by
  have hexpr := expr_still t k ms
  simp only [ofNode, line_still] at hexpr
  simp only [ofNode, line_still, hexpr, filter_isNode_still, annotationOf_still ms t.line]
  split
  · simp [ElementValue.flat, flatValues_eq, still]
  · split <;> rfl

theorem node?_still :
    (ofNode t.still k (ms.map still)).node? = (ofNode t k ms).node?.map Node.flat := by
  have hexpr := expr_still t k ms
  simp only [ofNode, line_still] at hexpr
  simp only [ofNode, line_still, hexpr, filterMap_node?_still, annotationOf_still ms t.line]
  split
  · rfl
  · split
    · rfl
    · simp [Node.flat, flatNodes_eq]

theorem element?_still :
    (ofNode t.still k (ms.map still)).element? = (ofNode t k ms).element?.map Element.flat := by
  by_cases hk : k = .elementValuePair
  · simp only [ofNode, hk, if_true, text?_still, find?_still]
    cases text? .key ms <;> cases find? .value ms <;> rfl
  · have hvalue := value_still t k ms
    simp only [ofNode, hk, if_false] at hvalue ⊢
    rw [hvalue]
    rfl

theorem ofNode_still : ofNode t.still k (ms.map still) = (ofNode t k ms).still := by
  refine Meaning.ext rfl (node?_still t k ms) (expr_still t k ms) (value_still t k ms)
    (element?_still t k ms) ?_ ?_
  · simp [ofNode, filter_isNode_still, still]
  · simp only [ofNode, still, List.filterMap_map, List.map_filterMap]
    rfl

end Still

end Meaning

/-- On the first line a tree has its meaning, put on the first line. -/
theorem meaning_still (t : Tree) : t.still.meaning = t.meaning.still := by
  induction t using induct with
  | leaf r t => rfl
  | node r k cs ih =>
    have hmeanings : meanings (cs.map still) = (meanings cs).map Meaning.still := by
      rw [meanings_eq, meanings_eq, List.map_map, List.map_map]
      exact List.map_congr_left ih
    have hstill : (Tree.node r k cs).still = .node r k (cs.map still) := mapTokens_node r k cs
    show _ = (Meaning.ofNode (.node r k cs) k (meanings cs)).still
    rw [← Meaning.ofNode_still, ← hmeanings, hstill, meaning]

/-! ## Units -/

theorem children_still (t : Tree) : t.still.children = t.children.map still := by
  cases t with
  | leaf r u => rfl
  | node r k cs => rw [still, mapTokens_node]; rfl

theorem packageName?_still (t : Tree) : t.still.packageName? = t.packageName? := by
  simp only [packageName?, children_still, List.find?_map, Option.map_map, Function.comp_def,
    kind?_mapTokens, text_still]

theorem importedType?_still (t : Tree) : t.still.importedType? = t.importedType? := by
  have hword : ∀ c : Tree, c.still.isStaticWord = c.isStaticWord := by
    intro c
    cases c <;> rfl
  have hstatic : t.still.isStaticImport = t.isStaticImport := by
    simp only [isStaticImport_eq, children_still, List.any_map, Function.comp_def, hword]
  rw [importedType?, importedType?, hstatic, text_still]

theorem addTo_still (u : SourceUnit) (t : Tree) :
    addTo u.flat t.still = (addTo u t).flat := by
  unfold addTo
  rw [kind?_mapTokens]
  split
  · rw [packageName?_still]
    rfl
  · rw [importedType?_still]
    rfl
  · rw [meaning_still]
    cases hnode : t.meaning.node? <;> simp [SourceUnit.flat, Meaning.still, hnode]

theorem foldl_addTo_still (u : SourceUnit) (cs : List Tree) :
    (cs.map still).foldl addTo u.flat = (cs.foldl addTo u).flat := by
  induction cs generalizing u with
  | nil => rfl
  | cons c cs ih => rw [List.map_cons, List.foldl_cons, List.foldl_cons, addTo_still, ih]

/-- On the first line a tree has its unit, put on the first line. -/
theorem toUnit_still (path : String) (t : Tree) :
    t.still.toUnit path = (t.toUnit path).flat := by
  rw [toUnit, children_still]
  exact foldl_addTo_still ⟨path, none, [], []⟩ t.children

end Tree

end MessageHarvest
