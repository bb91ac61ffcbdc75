import MessageHarvest.Proofs.Source.Syntax

/-! # The sites of a source are the marks of its tree

    The model of a source is built from its syntax tree bottom up, and a node
    with a shape keeps only the children that it names. `Tree.Kept` is what is
    preserved: in each place where a tree can stand, its meaning has the marks
    that are visible in the tree, in the same order. One lemma for each kind of
    node with a shape, and one for all the others, give it for every well
    shaped tree (`Tree.WellShaped.kept`).

    * `SourceUnit.sites_of_parse`: the sites of a unit are the visible marks of
      its tree, so every mark is a site exactly once unless it stands in one of
      the places that the model leaves out.
    * `SourceUnit.package_mark_lost`: such a mark is lost. -/

namespace MessageHarvest

/-! ## Marks of the extraction model -/

/-- The marks of the sites of an expression. -/
def Expr.marks (e : Expr) : List Mark := e.sites.map Site.mark

/-- The marks of the sites of a node. -/
def Node.marks (n : Node) : List Mark := n.sites.map Site.mark

/-- The marks of the sites of an annotation. -/
def Annotation.marks (a : Annotation) : List Mark := a.sites.map Site.mark

/-- The marks of the sites of an element. -/
def Element.marks (e : Element) : List Mark := e.sites.map Site.mark

/-- The marks of the sites of an element value. -/
def ElementValue.marks (v : ElementValue) : List Mark := v.sites.map Site.mark

theorem marks_sitesExprs (es : List Expr) :
    (sitesExprs es).map Site.mark = es.flatMap Expr.marks := by
  induction es with
  | nil => rfl
  | cons e es ih => rw [sitesExprs, List.map_append, ih, List.flatMap_cons, Expr.marks]

theorem marks_sitesNodes (ns : List Node) :
    (sitesNodes ns).map Site.mark = ns.flatMap Node.marks := by
  induction ns with
  | nil => rfl
  | cons n ns ih => rw [sitesNodes, List.map_append, ih, List.flatMap_cons, Node.marks]

theorem marks_sitesElements (es : List Element) :
    (sitesElements es).map Site.mark = es.flatMap Element.marks := by
  induction es with
  | nil => rfl
  | cons e es ih => rw [sitesElements, List.map_append, ih, List.flatMap_cons, Element.marks]

theorem marks_sitesValues (vs : List ElementValue) :
    (sitesValues vs).map Site.mark = vs.flatMap ElementValue.marks := by
  induction vs with
  | nil => rfl
  | cons v vs ih => rw [sitesValues, List.map_append, ih, List.flatMap_cons, ElementValue.marks]

section Marks

variable {l : Nat}

@[simp] theorem marks_binary (op : BinaryOp) (a b : Expr) :
    (Expr.binary l op a b).marks = a.marks ++ b.marks := by
  simp [Expr.marks, Expr.sites]

@[simp] theorem marks_unary (op : UnaryOp) (a : Expr) :
    (Expr.unary l op a).marks = a.marks := by
  simp [Expr.marks, Expr.sites]

@[simp] theorem marks_conditional (c a b : Expr) :
    (Expr.conditional l c a b).marks = c.marks ++ a.marks ++ b.marks := by
  simp [Expr.marks, Expr.sites]

@[simp] theorem marks_cast (t : CastType) (a : Expr) : (Expr.cast l t a).marks = a.marks := by
  simp [Expr.marks, Expr.sites]

@[simp] theorem marks_field (a : Expr) (f : String) : (Expr.field l a f).marks = a.marks := by
  simp [Expr.marks, Expr.sites]

@[simp] theorem marks_call (m : String) (r : Option Expr) (as : List Expr) :
    (Expr.call l m r as).marks =
      .call l m :: (r.toList.flatMap Expr.marks ++ as.flatMap Expr.marks) := by
  rw [Expr.marks, Expr.sites, List.map_cons, List.map_append, marks_sitesExprs]
  cases r <;> simp [sitesReceiver, Site.mark, Expr.marks]

@[simp] theorem marks_other (k : String) (ns : List Node) :
    (Expr.other l k ns).marks = ns.flatMap Node.marks := marks_sitesNodes ns

@[simp] theorem marks_expr (e : Expr) : (Node.expr e).marks = e.marks := by
  rw [Node.marks, Node.sites, Expr.marks]

@[simp] theorem marks_annotated (a : Annotation) : (Node.annotated a).marks = a.marks := by
  rw [Node.marks, Node.sites, Annotation.marks]

@[simp] theorem marks_group (k : String) (ns : List Node) :
    (Node.group k l ns).marks = ns.flatMap Node.marks := marks_sitesNodes ns

@[simp] theorem marks_mk (n : String) (es : List Element) :
    (.mk n l es : Annotation).marks = .annotated l n :: es.flatMap Element.marks := by
  unfold Annotation.marks Annotation.sites
  rw [List.map_cons, marks_sitesElements]
  rfl

@[simp] theorem marks_element (n : String) (v : ElementValue) :
    (Element.mk n v).marks = v.marks := by
  rw [Element.marks, Element.sites, ElementValue.marks]

@[simp] theorem marks_valueExpr (e : Expr) : (ElementValue.expr e).marks = e.marks := by
  rw [ElementValue.marks, ElementValue.sites, Expr.marks]

@[simp] theorem marks_array (vs : List ElementValue) :
    (ElementValue.array vs).marks = vs.flatMap ElementValue.marks := marks_sitesValues vs

@[simp] theorem marks_nested (a : Annotation) : (ElementValue.nested a).marks = a.marks := by
  rw [ElementValue.marks, ElementValue.sites, Annotation.marks]

end Marks

namespace Tree

/-! ## Meanings of children -/

theorem meanings_eq (cs : List Tree) : meanings cs = cs.map meaning := by
  induction cs with
  | nil => rfl
  | cons c cs ih => rw [meanings, ih, List.map_cons]

@[simp] theorem tree_meaning (t : Tree) : t.meaning.tree = t := by
  cases t <;> rfl

theorem find?_meanings (r : Role) (cs : List Tree) :
    Meaning.find? r (meanings cs) = (child? r cs).map meaning := by
  rw [meanings_eq, Meaning.find?, List.find?_map, child?]
  show (cs.find? fun c => c.meaning.tree.role == some r).map meaning = _
  simp only [tree_meaning]

/-- In each place where a tree can stand, its meaning has the marks that are
    visible in the tree. An annotation does not stand as an operand, and only
    argument lists stand as such. -/
structure Kept (t : Tree) : Prop where
  node : t.meaning.node?.toList.flatMap Node.marks = t.visible
  expr : t.Operand → t.meaning.expr.marks = t.visible
  value : t.meaning.value.marks = t.visible
  element : t.meaning.element?.toList.flatMap Element.marks = t.visible
  exprs : t.kind? = some .argumentList → t.meaning.exprs.flatMap Expr.marks = t.visible
  elements : t.kind? = some .annotationArgumentList →
    t.meaning.elements.flatMap Element.marks = t.visible

theorem kept_leaf (r : Option Role) (t : Token) : Kept (.leaf r t) where
  node := rfl
  expr := fun ⟨_, h, _⟩ => nomatch h
  value := rfl
  element := rfl
  exprs := fun h => nomatch h
  elements := fun h => nomatch h

/-! ## Nodes with all their children -/

section Children

variable {r : Option Role} {k : Kind} {cs : List Tree}

theorem flatMap_filterMap_eq {α β γ : Type} {f : α → Option β} {g : β → List γ}
    {v : α → List γ} {xs : List α} (h : ∀ x ∈ xs, (f x).toList.flatMap g = v x) :
    (xs.filterMap f).flatMap g = xs.flatMap v := by
  induction xs with
  | nil => rfl
  | cons x xs ih =>
    obtain ⟨hx, hxs⟩ := List.forall_mem_cons.1 h
    rw [List.flatMap_cons, ← hx, ← ih hxs]
    cases hf : f x with
    | none => simp [hf]
    | some y => simp [hf]

theorem visible_of_kind?_eq_none {t : Tree} (h : t.kind? = none) : t.visible = [] := by
  cases t with
  | leaf r t => rfl
  | node r k cs => cases h

/-- The nodes of some trees. -/
theorem flatMap_nodes (ih : ∀ c ∈ cs, Kept c) :
    ((meanings cs).filterMap Meaning.node?).flatMap Node.marks = cs.flatMap visible := by
  rw [meanings_eq, List.filterMap_map]
  exact flatMap_filterMap_eq fun c hc => (ih c hc).node

/-- The elements of some trees. -/
theorem flatMap_elements (ih : ∀ c ∈ cs, Kept c) :
    ((meanings cs).filterMap Meaning.element?).flatMap Element.marks = cs.flatMap visible := by
  rw [meanings_eq, List.filterMap_map]
  exact flatMap_filterMap_eq fun c hc => (ih c hc).element

/-- Tokens have no marks, so it does not matter that they are passed over. -/
theorem flatMap_filter_isNode {β : Type} {f : Meaning → β} {g : β → List Mark}
    (h : ∀ c ∈ cs, c.kind? ≠ none → g (f c.meaning) = c.visible) :
    (((meanings cs).filter Meaning.isNode).map f).flatMap g = cs.flatMap visible := by
  rw [meanings_eq]
  induction cs with
  | nil => rfl
  | cons c cs ih =>
    obtain ⟨hc, hcs⟩ := List.forall_mem_cons.1 h
    rw [List.map_cons, List.flatMap_cons, ← ih hcs]
    by_cases hkind : c.kind? = none
    · have hnode : c.meaning.isNode = false := by simp [Meaning.isNode, hkind]
      rw [List.filter_cons_of_neg (by simp [hnode]), visible_of_kind?_eq_none hkind]
      rfl
    · have hnode : c.meaning.isNode = true := by
        simpa [Meaning.isNode, Option.isSome_iff_ne_none] using hkind
      rw [List.filter_cons_of_pos hnode, List.map_cons, List.flatMap_cons, hc hkind]

/-- The kinds of nodes that show more or less than their children. -/
abbrev markedKinds : List Kind :=
  [.program, .castExpression, .methodInvocation, .stringLiteral, .annotationForm, .markerForm]

theorem visible_of_not_mem (h : k ∉ markedKinds) :
    (Tree.node r k cs).visible = cs.flatMap visible := by
  have hmark : (Tree.node r k cs).mark? = none := by
    cases k <;> first | rfl | exact absurd (by decide) h
  have hhides : ∀ c ∈ cs, hides k c = false := by
    intro c hc
    cases k <;> first | rfl | exact absurd (by decide) h
  rw [visible, hmark, visibleIn_of_forall hhides]
  rfl

/-- An annotation shows itself and all of its children. -/
theorem mark?_of_isAnnotationForm (hk : k.isAnnotationForm = true) :
    (Tree.node r k cs).mark? = some (.annotated (Tree.node r k cs).line
      (String.ofList (Text.compact (childText .name cs)))) := by
  obtain rfl | rfl := eq_or_eq_of_isAnnotationForm hk
  · rfl
  · rfl

theorem hides_of_isAnnotationForm (hk : k.isAnnotationForm = true) (c : Tree) :
    hides k c = false := by
  obtain rfl | rfl := eq_or_eq_of_isAnnotationForm hk
  · rfl
  · rfl

theorem flatMap_visible_eq_nil (h : ∀ c ∈ cs, c.marks = []) : cs.flatMap visible = [] :=
  List.flatMap_eq_nil_iff.2 fun c hc => visible_eq_nil (h c hc)

end Children

/-! ## Expressions -/

section Expressions

variable {r : Option Role} {k : Kind} {cs : List Tree}

theorem expr?_meanings (x : Role) (cs : List Tree) :
    Meaning.expr? x (meanings cs) = (child? x cs).map fun c => c.meaning.expr := by
  rw [Meaning.expr?, find?_meanings, Option.map_map]
  rfl

theorem text?_meanings (x : Role) (cs : List Tree) :
    Meaning.text? x (meanings cs) = (child? x cs).map fun c => String.ofList c.text := by
  rw [Meaning.text?, find?_meanings, Option.map_map]
  refine congrArg (Option.map · (child? x cs)) (funext fun c => ?_)
  simp [Meaning.text]

/-! ### The children that each shape is read off -/

section Shaped

variable (t : Tree) (ms : List Meaning)

theorem shapedExpr?_binary : Meaning.shapedExpr? t .binaryExpression ms =
    ((Meaning.text? .operator ms).bind BinaryOp.ofToken?).bind fun op =>
      (Meaning.expr? .left ms).bind fun a => (Meaning.expr? .right ms).bind fun b =>
        some (.binary t.line op a b) := rfl

theorem shapedExpr?_unary : Meaning.shapedExpr? t .unaryExpression ms =
    ((Meaning.text? .operator ms).bind UnaryOp.ofToken?).bind fun op =>
      (Meaning.expr? .operand ms).bind fun a => some (.unary t.line op a) := rfl

theorem shapedExpr?_ternary : Meaning.shapedExpr? t .ternaryExpression ms =
    (Meaning.expr? .condition ms).bind fun c => (Meaning.expr? .consequence ms).bind fun a =>
      (Meaning.expr? .alternative ms).bind fun b => some (.conditional t.line c a b) := rfl

theorem shapedExpr?_parenthesized : Meaning.shapedExpr? t .parenthesizedExpression ms =
    (ms.find? Meaning.isNode).map Meaning.expr := rfl

theorem shapedExpr?_field : Meaning.shapedExpr? t .fieldAccess ms =
    (Meaning.expr? .object ms).bind fun o => (Meaning.text? .field ms).bind fun f =>
      some (.field t.line o f) := rfl

theorem shapedExpr?_cast : Meaning.shapedExpr? t .castExpression ms =
    (Meaning.find? .type ms).bind fun s => (Meaning.expr? .value ms).bind fun a =>
      some (.cast t.line (.ofSpelling (String.ofList (Text.trim s.text))) a) := rfl

theorem shapedExpr?_call : Meaning.shapedExpr? t .methodInvocation ms =
    (Meaning.text? .name ms).bind fun m => some (.call t.line m (Meaning.expr? .object ms)
      (((Meaning.find? .arguments ms).map Meaning.exprs).getD [])) := rfl

end Shaped

/-! ### One lemma for each shape -/

/-- An expression without a shape of its own holds all its children. -/
theorem marks_otherExpr (ih : ∀ c ∈ cs, Kept c) (l : Nat) :
    (Meaning.otherExpr l k (meanings cs)).marks = cs.flatMap visible := by
  rw [Meaning.otherExpr, marks_other, flatMap_nodes ih]

/-- A shape is used only if all of it is there; in both cases the marks are the same. -/
theorem marks_expr_of_shaped (ih : ∀ c ∈ cs, Kept c)
    (h : ∀ e, Meaning.shapedExpr? (.node r k cs) k (meanings cs) = some e →
      e.marks = cs.flatMap visible) :
    (Tree.node r k cs).meaning.expr.marks = cs.flatMap visible := by
  show ((Meaning.shapedExpr? (.node r k cs) k (meanings cs)).getD _).marks = _
  cases he : Meaning.shapedExpr? (.node r k cs) k (meanings cs) with
  | none => exact marks_otherExpr ih _
  | some e => exact h e he

theorem expr_binary (hshape : Shape .binaryExpression cs) (ih : ∀ c ∈ cs, Kept c) :
    (Tree.node r .binaryExpression cs).meaning.expr.marks =
      (Tree.node r .binaryExpression cs).visible := by
  rw [visible_of_not_mem (by decide)]
  refine marks_expr_of_shaped ih fun e he => ?_
  obtain ⟨a, o, b, rfl, har, ha, hbr, hb⟩ := hshape
  have hleft : child? .left [a, .leaf (some .operator) o, b] = some a := by simp [child?, har]
  have hright : child? .right [a, .leaf (some .operator) o, b] = some b := by
    simp [child?, har, hbr]
  simp only [shapedExpr?_binary, expr?_meanings, hleft, hright] at he
  obtain ⟨op, -, he⟩ := Option.bind_eq_some_iff.1 he
  cases he
  rw [marks_binary, (ih a (by simp)).expr ha, (ih b (by simp)).expr hb]
  simp

theorem expr_unary (hshape : Shape .unaryExpression cs) (ih : ∀ c ∈ cs, Kept c) :
    (Tree.node r .unaryExpression cs).meaning.expr.marks =
      (Tree.node r .unaryExpression cs).visible := by
  rw [visible_of_not_mem (by decide)]
  refine marks_expr_of_shaped ih fun e he => ?_
  obtain ⟨o, a, rfl, har, ha⟩ := hshape
  have hoperand : child? .operand [.leaf (some .operator) o, a] = some a := by simp [child?, har]
  simp only [shapedExpr?_unary, expr?_meanings, hoperand] at he
  obtain ⟨op, -, he⟩ := Option.bind_eq_some_iff.1 he
  cases he
  rw [marks_unary, (ih a (by simp)).expr ha]
  simp

theorem expr_ternary (hshape : Shape .ternaryExpression cs) (ih : ∀ c ∈ cs, Kept c) :
    (Tree.node r .ternaryExpression cs).meaning.expr.marks =
      (Tree.node r .ternaryExpression cs).visible := by
  rw [visible_of_not_mem (by decide)]
  refine marks_expr_of_shaped ih fun e he => ?_
  obtain ⟨c, p, a, q, b, rfl, hcr, hc, har, ha, hbr, hb⟩ := hshape
  have hcondition : child? .condition [c, .leaf none p, a, .leaf none q, b] = some c := by
    simp [child?, hcr]
  have hconsequence : child? .consequence [c, .leaf none p, a, .leaf none q, b] = some a := by
    simp [child?, hcr, har]
  have halternative : child? .alternative [c, .leaf none p, a, .leaf none q, b] = some b := by
    simp [child?, hcr, har, hbr]
  simp only [shapedExpr?_ternary, expr?_meanings, hcondition, hconsequence, halternative] at he
  cases he
  rw [marks_conditional, (ih c (by simp)).expr hc, (ih a (by simp)).expr ha,
    (ih b (by simp)).expr hb]
  simp

theorem expr_parenthesized (hshape : Shape .parenthesizedExpression cs)
    (ih : ∀ c ∈ cs, Kept c) : (Tree.node r .parenthesizedExpression cs).meaning.expr.marks =
      (Tree.node r .parenthesizedExpression cs).visible := by
  rw [visible_of_not_mem (by decide)]
  refine marks_expr_of_shaped ih fun e he => ?_
  obtain ⟨p, a, q, rfl, ha⟩ := hshape
  have hnode : a.meaning.isNode = true := by
    obtain ⟨k, hk, -⟩ := ha
    simp [Meaning.isNode, hk]
  -- the parentheses are tokens, so the first node is the operand
  have hfirst : (meanings [.leaf none p, a, .leaf none q]).find? Meaning.isNode =
      some a.meaning := by
    rw [meanings_eq, List.map_cons, List.find?_cons_of_neg (by simp [Meaning.isNode, kind?]),
      List.map_cons, List.find?_cons_of_pos hnode]
  simp only [shapedExpr?_parenthesized, hfirst, Option.map_some, Option.some.injEq] at he
  rw [← he, (ih a (by simp)).expr ha]
  simp

theorem expr_field (hshape : Shape .fieldAccess cs) (ih : ∀ c ∈ cs, Kept c) :
    (Tree.node r .fieldAccess cs).meaning.expr.marks = (Tree.node r .fieldAccess cs).visible := by
  rw [visible_of_not_mem (by decide)]
  refine marks_expr_of_shaped ih fun e he => ?_
  obtain ⟨object, rest, rfl, hrole, hobject, hrest⟩ := hshape
  have hchild : child? .object (object :: rest) = some object := by simp [child?, hrole]
  simp only [shapedExpr?_field, expr?_meanings, hchild] at he
  obtain ⟨_, ho, he⟩ := Option.bind_eq_some_iff.1 he
  obtain ⟨f, -, he⟩ := Option.bind_eq_some_iff.1 he
  cases ho
  cases he
  rw [marks_field, (ih object (by simp)).expr hobject, List.flatMap_cons,
    flatMap_visible_eq_nil hrest, List.append_nil]

theorem expr_cast (hshape : Shape .castExpression cs) (ih : ∀ c ∈ cs, Kept c) :
    (Tree.node r .castExpression cs).meaning.expr.marks =
      (Tree.node r .castExpression cs).visible := by
  obtain ⟨front, v, rfl, hrole, hv, ⟨t, ht, htr⟩, hfront⟩ := hshape
  have hvalue : child? .value (front ++ [v]) = some v := by
    have hnone : front.find? (fun c => c.role == some .value) = none := by
      rw [List.find?_eq_none]
      intro c hc
      rcases hfront c hc with h | ⟨h, -⟩ <;> simp [h]
    simp [child?, hnone, hrole]
  have htype : (child? .type (front ++ [v])).isSome := by
    rw [child?, List.find?_isSome]
    exact ⟨t, by simp [ht], by simp [htr]⟩
  obtain ⟨s, hs⟩ := Option.isSome_iff_exists.1 htype
  -- both the type and the operand are there, so the shape is used
  have hshaped : Meaning.shapedExpr? (.node r .castExpression (front ++ [v])) .castExpression
      (meanings (front ++ [v])) = some (.cast (Tree.node r .castExpression (front ++ [v])).line
        (.ofSpelling (String.ofList (Text.trim s.meaning.text))) v.meaning.expr) := by
    simp only [shapedExpr?_cast, expr?_meanings, find?_meanings, hvalue, hs]
    rfl
  have hexpr : (Tree.node r .castExpression (front ++ [v])).meaning.expr.marks = v.visible := by
    show ((Meaning.shapedExpr? _ _ (meanings (front ++ [v]))).getD _).marks = _
    rw [hshaped, Option.getD_some, marks_cast, (ih v (by simp)).expr hv]
  have hhidden : visibleIn .castExpression front = [] := by
    refine visibleIn_eq_nil fun c hc => ?_
    rcases hfront c hc with h | ⟨-, h⟩
    · exact .inr (by simp [hides, h])
    · exact .inl h
  have hshown : visibleIn .castExpression [v] = v.visible := by
    simp [visibleIn, hides, hrole]
  rw [hexpr, visible, visibleIn_append, hhidden, hshown]
  rfl

theorem role_of_receiver {front : List Tree} (h : Receiver front) :
    ∀ c ∈ front, c.role = some .object ∨ c.role = none := by
  rcases h with rfl | ⟨object, rest, rfl, hrole, -, hrest⟩
  · exact fun c hc => nomatch hc
  · exact List.forall_mem_cons.2 ⟨.inl hrole, fun c hc => .inr (hrest c hc).1⟩

/-- Only the object in front of a call shows marks. -/
theorem marks_receiver {front rest : List Tree} (h : Receiver front) (ih : ∀ c ∈ front, Kept c)
    (hrest : child? .object rest = none) :
    ((child? .object (front ++ rest)).map fun c => c.meaning.expr).toList.flatMap Expr.marks =
      visibleIn .methodInvocation front := by
  rcases h with rfl | ⟨object, link, rfl, hrole, hobject, hlink⟩
  · rw [List.nil_append, hrest]
    rfl
  · have hchild : child? .object (object :: link ++ rest) = some object := by
      simp [child?, hrole]
    have hshown : hides .methodInvocation object = false := by
      obtain ⟨k, hk, -, htypes⟩ := hobject
      simpa [hides, hk] using htypes
    have hhidden : visibleIn .methodInvocation link = [] := by
      refine visibleIn_eq_nil fun c hc => ?_
      rcases (hlink c hc).2 with h | h
      · exact .inl h
      · exact .inr (by simp [hides, h])
    rw [hchild, visibleIn, hhidden, hshown]
    simpa using (ih object (by simp)).expr hobject

theorem expr_call (hshape : Shape .methodInvocation cs) (ih : ∀ c ∈ cs, Kept c) :
    (Tree.node r .methodInvocation cs).meaning.expr.marks =
      (Tree.node r .methodInvocation cs).visible := by
  obtain ⟨front, name, args, rfl, hfront, hnrole, hname, harole, hargs⟩ := hshape
  -- the name and the arguments are the only children in their roles
  have hnone : ∀ x ≠ .object, front.find? (fun c => c.role == some x) = none := by
    intro x hx
    rw [List.find?_eq_none]
    intro c hc
    rcases role_of_receiver hfront c hc with h | h
    · simpa [h] using hx.symm
    · simp [h]
  have hchildName : child? .name (front ++ [name, args]) = some name := by
    simp [child?, hnone, hnrole]
  have hchildArgs : child? .arguments (front ++ [name, args]) = some args := by
    simp [child?, hnone, hnrole, harole]
  have hobject : child? .object [name, args] = none := by simp [child?, hnrole, harole]
  have hshaped : Meaning.shapedExpr? (.node r .methodInvocation (front ++ [name, args]))
      .methodInvocation (meanings (front ++ [name, args])) =
        some (.call (Tree.node r .methodInvocation (front ++ [name, args])).line
          (String.ofList name.text)
          ((child? .object (front ++ [name, args])).map fun c => c.meaning.expr)
          args.meaning.exprs) := by
    simp only [shapedExpr?_call, expr?_meanings, find?_meanings, text?_meanings, hchildName,
      hchildArgs]
    rfl
  have hexpr : (Tree.node r .methodInvocation (front ++ [name, args])).meaning.expr.marks =
      .call (Tree.node r .methodInvocation (front ++ [name, args])).line (String.ofList name.text)
        :: (visibleIn .methodInvocation front ++ args.visible) := by
    show ((Meaning.shapedExpr? _ _ (meanings (front ++ [name, args]))).getD _).marks = _
    rw [hshaped, Option.getD_some, marks_call, (ih args (by simp)).exprs hargs,
      marks_receiver hfront (fun c hc => ih c (by simp [hc])) hobject]
  have hmark : (Tree.node r .methodInvocation (front ++ [name, args])).mark? =
      some (.call (Tree.node r .methodInvocation (front ++ [name, args])).line
        (String.ofList name.text)) := by
    simp only [mark?, kind?, children, childText, hchildName]
    rfl
  have hrest : visibleIn .methodInvocation [name, args] = args.visible := by
    simp [visibleIn, visible_eq_nil hname, hides, hargs]
  rw [hexpr, visible, hmark, visibleIn_append, hrest]
  rfl

/-- A literal or a name has no marks, however it is read. -/
theorem expr_silent (hcs : ∀ c ∈ cs, c.marks = []) (ih : ∀ c ∈ cs, Kept c) (hk : k ∉ markedKinds)
    (hshaped : ∀ e, Meaning.shapedExpr? (.node r k cs) k (meanings cs) = some e → e.marks = []) :
    (Tree.node r k cs).meaning.expr.marks = (Tree.node r k cs).visible := by
  rw [visible_of_not_mem hk]
  refine marks_expr_of_shaped ih fun e he => ?_
  rw [hshaped e he, flatMap_visible_eq_nil hcs]

theorem expr_string : (Tree.node r .stringLiteral cs).meaning.expr.marks =
    (Tree.node r .stringLiteral cs).visible := by
  have hhidden : visibleIn .stringLiteral cs = [] := visibleIn_eq_nil fun c _ => .inr rfl
  rw [visible, hhidden]
  rfl

/-- What stands as an expression keeps its visible marks. -/
theorem expr_kept (hk : k.isAnnotationForm = false) (hshape : Shape k cs) (ih : ∀ c ∈ cs, Kept c) :
    (Tree.node r k cs).meaning.expr.marks = (Tree.node r k cs).visible := by
  have hplain : k ∉ markedKinds → Meaning.shapedExpr? (.node r k cs) k (meanings cs) = none →
      (Tree.node r k cs).meaning.expr.marks = (Tree.node r k cs).visible := by
    intro hmarked hnone
    rw [visible_of_not_mem hmarked]
    refine marks_expr_of_shaped ih fun e he => ?_
    rw [hnone] at he
    cases he
  cases k with
  | program => exact hshape.elim
  | annotationForm | markerForm => cases hk
  | binaryExpression => exact expr_binary hshape ih
  | unaryExpression => exact expr_unary hshape ih
  | ternaryExpression => exact expr_ternary hshape ih
  | parenthesizedExpression => exact expr_parenthesized hshape ih
  | castExpression => exact expr_cast hshape ih
  | methodInvocation => exact expr_call hshape ih
  | fieldAccess => exact expr_field hshape ih
  | stringLiteral => exact expr_string
  | identifier | trueLiteral | falseLiteral | nullLiteral | decimalFloatingPointLiteral
  | hexFloatingPointLiteral =>
    refine expr_silent hshape ih (by decide) fun e he => ?_
    cases he
    rfl
  | characterLiteral | decimalIntegerLiteral | hexIntegerLiteral | octalIntegerLiteral
  | binaryIntegerLiteral =>
    refine expr_silent hshape ih (by decide) fun e he => ?_
    obtain ⟨l, -, rfl⟩ := Option.map_eq_some_iff.1 he
    rfl
  | _ => exact hplain (by decide) rfl

end Expressions

/-! ## Annotations and their values -/

section Annotations

variable {r : Option Role} {k : Kind} {cs : List Tree}

/-- An annotation is a mark itself, and its arguments keep theirs. -/
theorem annotated_kept (hk : k.isAnnotationForm = true) (hshape : Shape k cs)
    (ih : ∀ c ∈ cs, Kept c) :
    (Meaning.annotationOf (Tree.node r k cs).line (meanings cs)).marks =
      (Tree.node r k cs).visible := by
  obtain ⟨p, name, rest, rfl, hnrole, hname, hrest⟩ := hshape.annotated hk
  have hchildName : child? .name (.leaf none p :: name :: rest) = some name := by
    simp [child?, hnrole]
  have hhides : ∀ c ∈ Tree.leaf none p :: name :: rest, hides k c = false :=
    fun c _ => hides_of_isAnnotationForm hk c
  rw [visible, mark?_of_isAnnotationForm hk, visibleIn_of_forall hhides,
    Meaning.annotationOf, marks_mk, find?_meanings, find?_meanings, childText, hchildName]
  rcases hrest with rfl | ⟨args, rfl, harole, hargs⟩
  · have hchildArgs : child? .arguments [.leaf none p, name] = none := by
      simp [child?, hnrole]
    simp [hchildArgs, visible_eq_nil hname, Meaning.text]
  · have hchildArgs : child? .arguments [.leaf none p, name, args] = some args := by
      simp [child?, hnrole, harole]
    have helements := (ih args (by simp)).elements hargs
    simp [hchildArgs, helements, visible_eq_nil hname, Meaning.text]

theorem value_kept (hshape : Shape k cs) (ih : ∀ c ∈ cs, Kept c) :
    (Tree.node r k cs).meaning.value.marks = (Tree.node r k cs).visible := by
  show ElementValue.marks (if k = .elementValueArrayInitializer then _ else
    if k.isAnnotationForm then _ else _) = _
  split
  · next hk =>
    subst hk
    rw [marks_array, visible_of_not_mem (by decide)]
    exact flatMap_filter_isNode fun c hc _ => (ih c hc).value
  · split
    · next hk => rw [marks_nested, annotated_kept hk hshape ih]
    · next hk =>
      rw [marks_valueExpr]
      exact expr_kept (Bool.eq_false_iff.2 hk) hshape ih

theorem element_kept (hshape : Shape k cs) (ih : ∀ c ∈ cs, Kept c) :
    (Tree.node r k cs).meaning.element?.toList.flatMap Element.marks =
      (Tree.node r k cs).visible := by
  show List.flatMap Element.marks (Option.toList (if k = .elementValuePair then _ else _)) = _
  split
  · next hk =>
    subst hk
    obtain ⟨key, p, v, rfl, hkrole, hkey, hvrole⟩ := hshape
    have hchildKey : child? .key [key, .leaf none p, v] = some key := by simp [child?, hkrole]
    have hchildValue : child? .value [key, .leaf none p, v] = some v := by
      simp [child?, hkrole, hvrole]
    rw [visible_of_not_mem (by decide), text?_meanings, find?_meanings, hchildKey, hchildValue]
    show (Element.mk _ v.meaning.value).marks ++ [] = _
    rw [marks_element, (ih v (by simp)).value]
    simp [visible_eq_nil hkey]
  · show (Element.mk _ (Tree.node r k cs).meaning.value).marks ++ [] = _
    rw [List.append_nil, marks_element, value_kept hshape ih]

/-- A group neither is a mark nor hides any. -/
theorem not_mem_markedKinds (hshape : Shape k cs) (hk : ¬ k.isAnnotationForm = true)
    (hexpr : ¬ k.isExpression = true) : k ∉ markedKinds := by
  intro hmem
  simp only [List.mem_cons, List.not_mem_nil, or_false] at hmem
  rcases hmem with rfl | rfl | rfl | rfl | rfl | rfl
  · exact hshape
  · exact hexpr rfl
  · exact hexpr rfl
  · exact hexpr rfl
  · exact hk rfl
  · exact hk rfl

theorem node_kept (hshape : Shape k cs) (ih : ∀ c ∈ cs, Kept c) :
    (Tree.node r k cs).meaning.node?.toList.flatMap Node.marks = (Tree.node r k cs).visible := by
  show List.flatMap Node.marks (Option.toList (if k.isAnnotationForm then _ else
    if k.isExpression then _ else _)) = _
  split
  · next hk =>
    show (Node.annotated _).marks ++ [] = _
    rw [List.append_nil, marks_annotated, annotated_kept hk hshape ih]
  · next hk =>
    split
    · show (Node.expr _).marks ++ [] = _
      rw [List.append_nil, marks_expr]
      exact expr_kept (Bool.eq_false_iff.2 hk) hshape ih
    · next hexpr =>
      have hmarked := not_mem_markedKinds hshape hk hexpr
      show (Node.group _ _ ((meanings cs).filterMap Meaning.node?)).marks ++ [] = _
      rw [List.append_nil, marks_group, flatMap_nodes ih, visible_of_not_mem hmarked]

/-- A well shaped tree keeps in each place what is visible of it. -/
theorem WellShaped.kept {t : Tree} (h : t.WellShaped) : Kept t := by
  induction h with
  | leaf => exact kept_leaf _ _
  | node hshape _ ih =>
    exact {
      node := node_kept hshape ih
      expr := by
        rintro ⟨k, hk, hform, -⟩
        cases hk
        exact expr_kept hform hshape ih
      value := value_kept hshape ih
      element := element_kept hshape ih
      exprs := by
        intro hk
        cases hk
        rw [visible_of_not_mem (by decide)]
        refine flatMap_filter_isNode fun c hc hkind => (ih c hc).expr ?_
        exact (hshape c hc).resolve_right hkind
      elements := by
        intro hk
        cases hk
        rw [visible_of_not_mem (by decide)]
        exact flatMap_elements ih }

end Annotations

/-! ## Units -/

theorem visible_import {c : Tree} (h : c.WellShaped) (hk : c.kind? = some .importDeclaration) :
    c.visible = [] := by
  cases h with
  | leaf => cases hk
  | node hshape _ =>
    cases hk
    rw [visible_of_not_mem (by decide), flatMap_visible_eq_nil hshape]

/-- Adding a tree to a unit adds what is visible of it in a source. -/
theorem marks_addTo {c : Tree} (h : c.WellShaped) (u : SourceUnit) :
    (addTo u c).nodes.flatMap Node.marks =
      u.nodes.flatMap Node.marks ++ (if hides .program c then [] else c.visible) := by
  unfold addTo
  split
  · next hk => simp [hides, hk]
  · next hk => simp [visible_import h hk]
  · next hpackage _ =>
    have hshown : hides .program c = false := by simpa [hides] using hpackage
    simp only [List.flatMap_append, h.kept.node, hshown, Bool.false_eq_true, if_false]

theorem marks_foldl_addTo {cs : List Tree} (h : ∀ c ∈ cs, c.WellShaped) (u : SourceUnit) :
    (cs.foldl addTo u).nodes.flatMap Node.marks =
      u.nodes.flatMap Node.marks ++ visibleIn .program cs := by
  induction cs generalizing u with
  | nil => simp [visibleIn]
  | cons c cs ih =>
    obtain ⟨hc, hcs⟩ := List.forall_mem_cons.1 h
    rw [List.foldl_cons, ih hcs, marks_addTo hc, visibleIn, List.append_assoc]

/-- The sites of the unit of a source are what is visible of its tree. -/
theorem marks_toUnit {cs : List Tree} (h : ∀ c ∈ cs, c.WellShaped) (r : Option Role)
    (path : String) :
    ((Tree.node r .program cs).toUnit path).nodes.flatMap Node.marks =
      (Tree.node r .program cs).visible :=
  marks_foldl_addTo h _

end Tree

namespace SourceUnit

theorem parse_eq_ok_iff {path source : String} {u : SourceUnit} :
    parse path source = .ok u ↔ ∃ t, Source.parse source = .ok t ∧ t.toUnit path = u := by
  unfold parse
  split
  · next t ht => simp [ht]
  · next line hline => simp [hline]

/-- For every source that can be read, the sites that a scan of its unit visits
    are, with their names and lines and in source order, the method invocations
    and annotations of its tree outside the places that are left out. Together
    with those in these places they are all the marks of the tree, each as often
    as it stands there; so nothing is lost exactly if there are none. -/
theorem sites_of_parse {path source : String} {u : SourceUnit} (h : parse path source = .ok u) :
    ∃ t, Source.parse source = .ok t ∧
      (sitesNodes u.nodes).map Site.mark = t.visible ∧
      ((sitesNodes u.nodes).map Site.mark ++ t.hidden).Perm t.marks ∧
      (((sitesNodes u.nodes).map Site.mark).Perm t.marks ↔ t.hidden = []) := by
  obtain ⟨t, ht, rfl⟩ := parse_eq_ok_iff.1 h
  obtain ⟨cs, rfl, hcs⟩ := Source.wellShaped_of_parse ht
  have hsites := (marks_sitesNodes _).trans (Tree.marks_toUnit hcs none path)
  have hperm := (Tree.node none .program cs).visible_append_hidden
  rw [hsites]
  refine ⟨_, ht, rfl, hperm, ?_, ?_⟩
  · intro hall
    have hlength := (hperm.trans hall.symm).length_eq
    rw [List.length_append] at hlength
    exact List.eq_nil_of_length_eq_zero (by omega)
  · intro hnone
    rwa [hnone, List.append_nil] at hperm

/-- Calls as receiver and argument, in a lambda and behind a cast, and
    annotations on a class and in the type of the cast. -/
def sampleSource : String := "@A class C \x7b\n  int x = f(y -> g(y)).h((@B T) z());\n\x7d"

theorem sites_of_parse_sample : ∃ u, parse "C.java" sampleSource = .ok u ∧
    (sitesNodes u.nodes).map Site.mark =
      [.annotated 1 "A", .call 2 "h", .call 2 "f", .call 2 "g", .call 2 "z"] := by
  have hvisible : (Source.parse sampleSource).toOption.map Tree.visible =
      some [.annotated 1 "A", .call 2 "h", .call 2 "f", .call 2 "g", .call 2 "z"] := by
    decide +kernel
  cases hparse : Source.parse sampleSource with
  | error line =>
    rw [hparse] at hvisible
    cases hvisible
  | ok tree =>
    have hunit : parse "C.java" sampleSource = .ok (tree.toUnit "C.java") :=
      parse_eq_ok_iff.2 ⟨tree, hparse, rfl⟩
    obtain ⟨t, ht, hsites, -, -⟩ := sites_of_parse hunit
    rw [ht] at hvisible
    exact ⟨_, hunit, hsites.trans (Option.some.inj hvisible)⟩

/-- The annotation of a package declaration is a mark of the tree and no site of
    the unit. -/
theorem package_mark_lost :
    (Source.parse "@Tr(\"x\") package p;").toOption.map Tree.marks = some [.annotated 1 "Tr"] ∧
      (parse "package-info.java" "@Tr(\"x\") package p;").toOption.map
        (fun u => (sitesNodes u.nodes).map Site.mark) = some [] := by
  decide +kernel

end SourceUnit

end MessageHarvest
