import MessageHarvest.Proofs.Source.Names

/-! # The layout of names

    `Tree.lay` takes away whatever stands between the tokens of the names of
    annotations, and `Tree.layUnit` in addition what stands between the tokens
    of package declarations and imports. A tree without comments in these
    places means the same without that layout:

    * `Laid`: what is to show of a tree in each place where it can stand.
    * `WellShaped.laid`: a well shaped tree keeps its meaning.
    * `toUnit_layUnit`: the unit of a source stays as it is. -/

namespace MessageHarvest

namespace Token

/-- The same token with nothing before it. -/
def bare (t : Token) : Token := { t with lead := [] }

theorem Sound.bare {t : Token} (h : t.Sound) : t.bare.Sound where
  word := h.word
  lead := fun _ _ => List.forall_mem_nil _

theorem plain_bare (ts : List Token) : Plain (ts.map bare) := by
  refine List.forall_mem_map.2 fun t _ => ?_
  exact List.not_mem_nil

end Token

namespace Tree

/-! ## Other tokens in a tree -/

mutual

/-- The same tree with other tokens. -/
def mapTokens (f : Token → Token) : Tree → Tree
  | leaf r t => leaf r (f t)
  | node r k cs => node r k (mapTokensIn f cs)

/-- The same trees with other tokens. -/
def mapTokensIn (f : Token → Token) : List Tree → List Tree
  | [] => []
  | c :: cs => c.mapTokens f :: mapTokensIn f cs

end

section MapTokens

variable {f : Token → Token}

theorem mapTokensIn_eq (cs : List Tree) : mapTokensIn f cs = cs.map (mapTokens f) := by
  induction cs with
  | nil => rfl
  | cons c cs ih => rw [mapTokensIn, ih, List.map_cons]

@[simp] theorem mapTokens_leaf (r : Option Role) (t : Token) :
    (Tree.leaf r t).mapTokens f = .leaf r (f t) := rfl

theorem mapTokens_node (r : Option Role) (k : Kind) (cs : List Tree) :
    (Tree.node r k cs).mapTokens f = .node r k (cs.map (mapTokens f)) := by
  rw [mapTokens, mapTokensIn_eq]

@[simp] theorem role_mapTokens (t : Tree) : (t.mapTokens f).role = t.role := by
  cases t <;> rfl

@[simp] theorem kind?_mapTokens (t : Tree) : (t.mapTokens f).kind? = t.kind? := by
  cases t <;> rfl

theorem tokens_mapTokens (t : Tree) : (t.mapTokens f).tokens = t.tokens.map f := by
  induction t using induct with
  | leaf r t => rfl
  | node r k cs ih =>
    rw [mapTokens_node, tokens, tokens, tokensList_eq, tokensList_eq, List.flatMap_map,
      List.map_flatMap]
    exact List.flatMap_congr ih

/-- A dotted name is one with other tokens of the same kinds and texts. -/
theorem Dotted.mapTokens {ns : List (List Char)} {name : Tree}
    (hkind : ∀ t, (f t).kind = t.kind) (htext : ∀ t, (f t).text = t.text)
    (h : Dotted ns name) : Dotted ns (name.mapTokens f) := by
  induction h with
  | @simple r w hw =>
    have hword : (f w).kind = .word := (hkind w).trans hw
    have hdotted := Dotted.simple (r := r) hword
    rw [htext] at hdotted
    exact hdotted
  | @qualified r ns n d w _ hd hw ih =>
    have hdot : Grammar.isSymbol ['.'] (f d) = true := by
      rw [Grammar.isSymbol, hkind, htext]
      exact hd
    have hword : (f w).kind = .word := (hkind w).trans hw
    have hdotted := Dotted.qualified (r := r) ih hdot hword
    rw [htext] at hdotted
    exact hdotted

end MapTokens

/-- A tree whose tokens have nothing before them. -/
abbrev bare (t : Tree) : Tree := t.mapTokens Token.bare

theorem sound_bare {t : Tree} (h : ∀ u ∈ t.tokens, u.Sound) : ∀ u ∈ t.bare.tokens, u.Sound := by
  rw [tokens_mapTokens]
  exact List.forall_mem_map.2 fun u hu => (h u hu).bare

theorem plain_tail_bare (t : Tree) : Token.Plain t.bare.tokens.tail := by
  rw [tokens_mapTokens, ← List.map_tail]
  exact Token.plain_bare _

/-- The name that is read off a dotted name without comments does not depend on
    its layout. -/
theorem Dotted.compact_bare {ns : List (List Char)} {name : Tree} (h : Dotted ns name)
    (hsound : ∀ u ∈ name.tokens, u.Sound) (hplain : Token.Plain name.tokens.tail) :
    Text.compact name.bare.text = Text.compact name.text := by
  have hbare := h.mapTokens (f := Token.bare) (fun _ => rfl) fun _ => rfl
  rw [(h.compact_text_iff hsound).2 hplain,
    (hbare.compact_text_iff (sound_bare hsound)).2 (plain_tail_bare name)]

/-! ## Names of annotations -/

/-- Whether a child of a node of kind `k` is the name of an annotation. -/
def isNameIn (k : Kind) (c : Tree) : Bool := k.isAnnotationForm && c.role == some .name

/-- Whether a child of a node of kind `k` is read as it is written. -/
def isVerbatimIn : Kind → Tree → Bool
  | .castExpression, c => c.role = some .type
  | .stringLiteral, _ => true
  | _, _ => false

mutual

/-- A tree without layout in the names of its annotations. -/
def lay : Tree → Tree
  | leaf r t => leaf r t
  | node r k cs => node r k (layIn k cs)

/-- The children of a node of kind `k` without that layout. -/
def layIn (k : Kind) : List Tree → List Tree
  | [] => []
  | c :: cs =>
    (if isNameIn k c then c.bare else if isVerbatimIn k c then c else c.lay) :: layIn k cs

end

/-- A child of a node of kind `k` without that layout. -/
def layChild (k : Kind) (c : Tree) : Tree :=
  if isNameIn k c then c.bare else if isVerbatimIn k c then c else c.lay

section Lay

variable {r : Option Role} {k : Kind} {cs : List Tree} {c : Tree}

theorem layIn_eq (k : Kind) (cs : List Tree) : layIn k cs = cs.map (layChild k) := by
  induction cs with
  | nil => rfl
  | cons c cs ih => rw [layIn, ih, List.map_cons, layChild]

theorem lay_node (r : Option Role) (k : Kind) (cs : List Tree) :
    (Tree.node r k cs).lay = .node r k (cs.map (layChild k)) := by
  rw [lay, layIn_eq]

@[simp] theorem role_lay (t : Tree) : t.lay.role = t.role := by
  cases t <;> rfl

@[simp] theorem kind?_lay (t : Tree) : t.lay.kind? = t.kind? := by
  cases t <;> rfl

@[simp] theorem role_layChild : (layChild k c).role = c.role := by
  unfold layChild
  split
  · simp
  · split <;> simp

@[simp] theorem kind?_layChild : (layChild k c).kind? = c.kind? := by
  unfold layChild
  split
  · simp
  · split <;> simp

/-- A tree without marks has no names of annotations. -/
theorem lay_of_marks_eq_nil {t : Tree} (h : t.marks = []) : t.lay = t := by
  induction t using induct with
  | leaf r t => rfl
  | node r k cs ih =>
    rw [marks, List.append_eq_nil_iff, marksIn_eq, List.flatMap_eq_nil_iff] at h
    obtain ⟨hmark, hcs⟩ := h
    have hform : k.isAnnotationForm = false := by
      cases k <;> first | rfl | cases hmark
    have hchild : ∀ c ∈ cs, layChild k c = c := by
      intro c hc
      simp only [layChild, isNameIn, hform, Bool.false_and, Bool.false_eq_true, if_false,
        ih c hc (hcs c hc), ite_self]
    rw [lay_node, List.map_congr_left hchild, List.map_id']

/-- Most children are laid out by themselves. -/
theorem layChild_eq_lay (hname : k.isAnnotationForm = false)
    (hverbatim : isVerbatimIn k c = false) : layChild k c = c.lay := by
  simp [layChild, isNameIn, hname, hverbatim]

theorem layChild_of_marks_eq_nil (hname : isNameIn k c = false) (h : c.marks = []) :
    layChild k c = c := by
  rw [layChild, hname, lay_of_marks_eq_nil h]
  simp

theorem layChild_leaf (h : k.isAnnotationForm = false) (t : Token) :
    layChild k (.leaf r t) = .leaf r t := by
  simp [layChild, isNameIn, h, lay]

/-! ### Lines -/

theorem first?_eq (t : Tree) : t.first? = t.tokens.head? := by
  induction t using induct with
  | leaf r t => rfl
  | node r k cs ih =>
    rw [first?, tokens]
    induction cs with
    | nil => rfl
    | cons c cs ihcs =>
      obtain ⟨hc, hcs⟩ := List.forall_mem_cons.1 ih
      rw [firstOf?, tokensList, List.head?_append, hc, ihcs hcs]

/-- The line of a tree is that of its first token. -/
theorem line_eq (t : Tree) : t.line = ((t.tokens.map Token.line).head?).getD 1 := by
  rw [line, first?_eq, List.head?_map]

theorem lines_lay (t : Tree) : t.lay.tokens.map Token.line = t.tokens.map Token.line := by
  induction t using induct with
  | leaf r t => rfl
  | node r k cs ih =>
    rw [lay_node, tokens, tokens, tokensList_eq, tokensList_eq, List.map_flatMap, List.map_flatMap,
      List.flatMap_map]
    refine List.flatMap_congr fun c hc => ?_
    unfold layChild
    split
    · rw [tokens_mapTokens, List.map_map]
      rfl
    · split
      · rfl
      · exact ih c hc

@[simp] theorem line_lay (t : Tree) : t.lay.line = t.line := by
  rw [line_eq, line_eq, lines_lay]

end Lay

/-! ## Meanings -/

/-- In each place where a tree can stand, it means the same without the layout
    of its names. An annotation does not stand as an operand, and only argument
    lists stand as such. -/
structure Laid (t : Tree) : Prop where
  node : t.lay.meaning.node? = t.meaning.node?
  expr : t.Operand → t.lay.meaning.expr = t.meaning.expr
  value : t.lay.meaning.value = t.meaning.value
  element : t.lay.meaning.element? = t.meaning.element?
  exprs : t.kind? = some .argumentList → t.lay.meaning.exprs = t.meaning.exprs
  elements : t.kind? = some .annotationArgumentList →
    t.lay.meaning.elements = t.meaning.elements

section Meanings

variable {r : Option Role} {k : Kind} {cs : List Tree} {x : Role}

/-- What is made of the child in a role. -/
theorem map_find?_lay {β : Type} {f : Meaning → β}
    (h : ∀ c ∈ cs, c.role = some x → f (layChild k c).meaning = f c.meaning) :
    (Meaning.find? x (meanings (cs.map (layChild k)))).map f =
      (Meaning.find? x (meanings cs)).map f := by
  have hchild : child? x (cs.map (layChild k)) = (child? x cs).map (layChild k) := by
    rw [child?, child?, List.find?_map]
    refine congrArg (Option.map (layChild k)) (congrArg (cs.find? ·) (funext fun c => ?_))
    exact congrArg (· == some x) role_layChild
  rw [find?_meanings, find?_meanings, hchild]
  cases hc : child? x cs with
  | none => rfl
  | some c =>
    have hrole : c.role = some x := by simpa using List.find?_some hc
    exact congrArg some (h c (List.mem_of_find?_eq_some hc) hrole)

theorem text?_lay (h : ∀ c ∈ cs, c.role = some x → layChild k c = c) :
    Meaning.text? x (meanings (cs.map (layChild k))) = Meaning.text? x (meanings cs) :=
  map_find?_lay fun c hc hrole => by rw [h c hc hrole]

theorem expr?_lay
    (h : ∀ c ∈ cs, c.role = some x → (layChild k c).meaning.expr = c.meaning.expr) :
    Meaning.expr? x (meanings (cs.map (layChild k))) = Meaning.expr? x (meanings cs) :=
  map_find?_lay h

theorem exists_find?_meanings {c : Tree} (hc : c ∈ cs) (hrole : c.role = some x) :
    ∃ m, Meaning.find? x (meanings cs) = some m := by
  have hsome : (child? x cs).isSome = true :=
    List.find?_isSome.2 ⟨c, hc, by simp [hrole]⟩
  obtain ⟨d, hd⟩ := Option.isSome_iff_exists.1 hsome
  exact ⟨d.meaning, by rw [find?_meanings, hd, Option.map_some]⟩

/-- What is made of all children. -/
theorem filterMap_lay {β : Type} {f : Meaning → Option β}
    (h : ∀ c ∈ cs, f (layChild k c).meaning = f c.meaning) :
    (meanings (cs.map (layChild k))).filterMap f = (meanings cs).filterMap f := by
  rw [meanings_eq, meanings_eq, List.map_map, List.filterMap_map, List.filterMap_map]
  exact List.filterMap_congr h

/-- What is made of all children that are nodes. -/
theorem filter_isNode_lay {β : Type} {f : Meaning → β}
    (h : ∀ c ∈ cs, c.kind? ≠ none → f (layChild k c).meaning = f c.meaning) :
    ((meanings (cs.map (layChild k))).filter Meaning.isNode).map f =
      ((meanings cs).filter Meaning.isNode).map f := by
  rw [meanings_eq, meanings_eq]
  induction cs with
  | nil => rfl
  | cons c cs ih =>
    obtain ⟨hc, hcs⟩ := List.forall_mem_cons.1 h
    have hnode : (layChild k c).meaning.isNode = c.meaning.isNode := by simp [Meaning.isNode]
    simp only [List.map_cons, List.filter_cons, hnode]
    split
    · next hisNode =>
      have hkind : c.kind? ≠ none := by
        simpa [Meaning.isNode, Option.isSome_iff_ne_none] using hisNode
      rw [List.map_cons, List.map_cons, hc hkind, ih hcs]
    · exact ih hcs

/-! ### Expressions -/

/-- An expression means the same if its shape does, and if all its children do
    where it has none. -/
theorem expr_of_shaped
    (hshaped : Meaning.shapedExpr? (Tree.node r k cs).lay k (meanings (cs.map (layChild k))) =
      Meaning.shapedExpr? (.node r k cs) k (meanings cs))
    (hnodes : Meaning.shapedExpr? (.node r k cs) k (meanings cs) = none →
      ∀ c ∈ cs, (layChild k c).meaning.node? = c.meaning.node?) :
    (Tree.node r k cs).lay.meaning.expr = (Tree.node r k cs).meaning.expr := by
  have hlay : (Tree.node r k cs).lay.meaning.expr =
      (Meaning.shapedExpr? (Tree.node r k cs).lay k (meanings (cs.map (layChild k)))).getD
        (Meaning.otherExpr (Tree.node r k cs).lay.line k (meanings (cs.map (layChild k)))) := by
    rw [lay_node]
    rfl
  have hexpr : (Tree.node r k cs).meaning.expr =
      (Meaning.shapedExpr? (.node r k cs) k (meanings cs)).getD
        (Meaning.otherExpr (Tree.node r k cs).line k (meanings cs)) := rfl
  rw [hlay, hexpr, hshaped, line_lay]
  cases hnone : Meaning.shapedExpr? (.node r k cs) k (meanings cs) with
  | some e => rfl
  | none => rw [Meaning.otherExpr, Meaning.otherExpr, filterMap_lay (hnodes hnone)]

variable (ih : ∀ c ∈ cs, hides k c = false → Laid c)

/-- The kinds of nodes some of whose children are hidden or read as written. -/
theorem layChild_of_not_mem (h : k ∉ markedKinds) (c : Tree) :
    hides k c = false ∧ layChild k c = c.lay := by
  constructor
  · cases k <;> first | rfl | exact absurd (by decide) h
  · refine layChild_eq_lay ?_ ?_
    · cases k <;> first | rfl | exact absurd (by decide) h
    · cases k <;> first | rfl | exact absurd (by decide) h

include ih

theorem nodes_laid (h : k ∉ markedKinds) :
    ∀ c ∈ cs, (layChild k c).meaning.node? = c.meaning.node? := by
  intro c hc
  obtain ⟨hshown, hlay⟩ := layChild_of_not_mem h c
  rw [hlay, (ih c hc hshown).node]

/-- Operands and what has no marks mean the same. -/
theorem exprs_laid (h : k ∉ markedKinds) (hcs : ∀ c ∈ cs, c.Operand ∨ c.marks = []) :
    ∀ c ∈ cs, (layChild k c).meaning.expr = c.meaning.expr := by
  intro c hc
  obtain ⟨hshown, hlay⟩ := layChild_of_not_mem h c
  rw [hlay]
  rcases hcs c hc with hoperand | hmarks
  · exact (ih c hc hshown).expr hoperand
  · rw [lay_of_marks_eq_nil hmarks]

theorem expr_binary_laid (hk : k = .binaryExpression) (hshape : Shape k cs) :
    (Tree.node r k cs).lay.meaning.expr = (Tree.node r k cs).meaning.expr := by
  subst hk
  refine expr_of_shaped ?_ fun _ => nodes_laid ih (by decide)
  obtain ⟨a, o, b, rfl, har, ha, hbr, hb⟩ := hshape
  have hexprs := exprs_laid ih (by decide) (by simp [ha, hb, marks])
  have hoperator : ∀ c ∈ [a, .leaf (some .operator) o, b], c.role = some .operator →
      layChild .binaryExpression c = c := by
    simp [har, hbr, layChild_leaf (k := .binaryExpression) rfl]
  rw [shapedExpr?_binary, shapedExpr?_binary, line_lay, text?_lay hoperator,
    expr?_lay fun c hc _ => hexprs c hc, expr?_lay fun c hc _ => hexprs c hc]

theorem expr_unary_laid (hk : k = .unaryExpression) (hshape : Shape k cs) :
    (Tree.node r k cs).lay.meaning.expr = (Tree.node r k cs).meaning.expr := by
  subst hk
  refine expr_of_shaped ?_ fun _ => nodes_laid ih (by decide)
  obtain ⟨o, a, rfl, har, ha⟩ := hshape
  have hexprs := exprs_laid ih (by decide) (by simp [ha, marks])
  have hoperator : ∀ c ∈ [.leaf (some .operator) o, a], c.role = some .operator →
      layChild .unaryExpression c = c := by
    simp [har, layChild_leaf (k := .unaryExpression) rfl]
  rw [shapedExpr?_unary, shapedExpr?_unary, line_lay, text?_lay hoperator,
    expr?_lay fun c hc _ => hexprs c hc]

theorem expr_ternary_laid (hk : k = .ternaryExpression) (hshape : Shape k cs) :
    (Tree.node r k cs).lay.meaning.expr = (Tree.node r k cs).meaning.expr := by
  subst hk
  refine expr_of_shaped ?_ fun _ => nodes_laid ih (by decide)
  obtain ⟨c, p, a, q, b, rfl, -, hc, -, ha, -, hb⟩ := hshape
  have hexprs := exprs_laid ih (by decide) (by simp [hc, ha, hb, marks])
  rw [shapedExpr?_ternary, shapedExpr?_ternary, line_lay, expr?_lay fun c hc _ => hexprs c hc,
    expr?_lay fun c hc _ => hexprs c hc, expr?_lay fun c hc _ => hexprs c hc]

theorem expr_parenthesized_laid (hk : k = .parenthesizedExpression) (hshape : Shape k cs) :
    (Tree.node r k cs).lay.meaning.expr = (Tree.node r k cs).meaning.expr := by
  subst hk
  refine expr_of_shaped ?_ fun _ => nodes_laid ih (by decide)
  obtain ⟨p, a, q, rfl, ha⟩ := hshape
  have hexprs := exprs_laid ih (by decide) (by simp [ha, marks])
  rw [shapedExpr?_parenthesized, shapedExpr?_parenthesized, ← List.head?_filter,
    ← List.head?_filter, ← List.head?_map, ← List.head?_map,
    filter_isNode_lay fun c hc _ => hexprs c hc]

theorem expr_field_laid (hk : k = .fieldAccess) (hshape : Shape k cs) :
    (Tree.node r k cs).lay.meaning.expr = (Tree.node r k cs).meaning.expr := by
  subst hk
  refine expr_of_shaped ?_ fun _ => nodes_laid ih (by decide)
  obtain ⟨object, rest, rfl, hrole, hobject, hrest⟩ := hshape
  have hexprs := exprs_laid ih (by decide)
    (List.forall_mem_cons.2 ⟨.inl hobject, fun c hc => .inr (hrest c hc)⟩)
  have hfield : ∀ c ∈ object :: rest, c.role = some .field → layChild .fieldAccess c = c := by
    refine List.forall_mem_cons.2 ⟨by simp [hrole], fun c hc _ => ?_⟩
    exact layChild_of_marks_eq_nil rfl (hrest c hc)
  rw [shapedExpr?_field, shapedExpr?_field, line_lay, text?_lay hfield,
    expr?_lay fun c hc _ => hexprs c hc]

theorem expr_cast_laid (hk : k = .castExpression) (hshape : Shape k cs) :
    (Tree.node r k cs).lay.meaning.expr = (Tree.node r k cs).meaning.expr := by
  subst hk
  obtain ⟨front, v, rfl, hrole, hv, ⟨type, htype, htrole⟩, hfront⟩ := hshape
  have hvalue : ∀ c ∈ front ++ [v], c.role = some .value →
      (layChild .castExpression c).meaning.expr = c.meaning.expr := by
    refine List.forall_mem_append.2 ⟨fun c hc hvrole => ?_, List.forall_mem_singleton.2 fun _ => ?_⟩
    · rcases hfront c hc with h | ⟨h, -⟩ <;> simp [h] at hvrole
    · have hshown : hides .castExpression v = false := by simp [hides, hrole]
      rw [layChild_eq_lay rfl (by simp [isVerbatimIn, hrole]), (ih v (by simp) hshown).expr hv]
  have htext : ∀ c ∈ front ++ [v], c.role = some .type →
      (layChild .castExpression c).meaning.text = c.meaning.text := by
    intro c _ hc
    simp [layChild, isNameIn, Kind.isAnnotationForm, isVerbatimIn, hc]
  refine expr_of_shaped ?_ fun hnone => ?_
  · have hbind : ∀ t ms, Meaning.shapedExpr? t .castExpression ms =
        ((Meaning.find? .type ms).map Meaning.text).bind fun s => (Meaning.expr? .value ms).bind
          fun a => some (.cast t.line (.ofSpelling (String.ofList (Text.trim s))) a) := by
      intro t ms
      rw [shapedExpr?_cast, Option.bind_map]
      rfl
    rw [hbind, hbind, line_lay, map_find?_lay htext, expr?_lay hvalue]
  · obtain ⟨s, hs⟩ := exists_find?_meanings (x := .type) (List.mem_append_left [v] htype) htrole
    have hmem : v ∈ front ++ [v] := by simp
    obtain ⟨a, ha⟩ := exists_find?_meanings hmem hrole
    simp [shapedExpr?_cast, hs, Meaning.expr?, ha] at hnone

omit ih in
/-- What stands in the role of the object is an operand. -/
theorem operand_of_receiver {front : List Tree} (h : Receiver front) :
    ∀ c ∈ front, c.role = some .object → c.Operand := by
  rcases h with rfl | ⟨object, rest, rfl, -, hobject, hrest⟩
  · exact List.forall_mem_nil _
  · refine List.forall_mem_cons.2 ⟨fun _ => hobject, fun c hc hrole => ?_⟩
    rw [(hrest c hc).1] at hrole
    cases hrole

theorem expr_call_laid (hk : k = .methodInvocation) (hshape : Shape k cs) :
    (Tree.node r k cs).lay.meaning.expr = (Tree.node r k cs).meaning.expr := by
  subst hk
  obtain ⟨front, name, args, rfl, hfront, hnrole, hname, harole, hargs⟩ := hshape
  have hroles := role_of_receiver hfront
  have hchildName : ∀ c ∈ front ++ [name, args], c.role = some .name →
      layChild .methodInvocation c = c := by
    refine List.forall_mem_append.2 ⟨fun c hc hrole => ?_, ?_⟩
    · rcases hroles c hc with h | h <;> simp [h] at hrole
    · simp [harole, layChild_of_marks_eq_nil (k := .methodInvocation) rfl hname]
  have hchildObject : ∀ c ∈ front ++ [name, args], c.role = some .object →
      (layChild .methodInvocation c).meaning.expr = c.meaning.expr := by
    refine List.forall_mem_append.2 ⟨fun c hc hrole => ?_, by simp [hnrole, harole]⟩
    have hoperand : c.Operand := operand_of_receiver hfront c hc hrole
    have hshown : hides .methodInvocation c = false := by
      obtain ⟨k, hk, -, htypes⟩ := hoperand
      simpa [hides, hk] using htypes
    rw [layChild_eq_lay rfl rfl, (ih c (by simp [hc]) hshown).expr hoperand]
  have hchildArgs : ∀ c ∈ front ++ [name, args], c.role = some .arguments →
      (layChild .methodInvocation c).meaning.exprs = c.meaning.exprs := by
    refine List.forall_mem_append.2 ⟨fun c hc hrole => ?_, ?_⟩
    · rcases hroles c hc with h | h <;> simp [h] at hrole
    · have hshown : hides .methodInvocation args = false := by simp [hides, hargs]
      have hexprs := (ih args (by simp) hshown).exprs hargs
      simp [hnrole, layChild_eq_lay (k := .methodInvocation) (c := args) rfl rfl, hexprs]
  refine expr_of_shaped ?_ fun hnone => ?_
  · rw [shapedExpr?_call, shapedExpr?_call, line_lay, text?_lay hchildName, expr?_lay hchildObject,
      map_find?_lay hchildArgs]
  · have hmem : name ∈ front ++ [name, args] := by simp
    obtain ⟨m, hm⟩ := exists_find?_meanings hmem hnrole
    simp [shapedExpr?_call, Meaning.text?, hm] at hnone

omit ih in
/-- A literal or a name has no names of annotations in it. -/
theorem lay_silent (hk : k ∉ markedKinds) (hcs : ∀ c ∈ cs, c.marks = []) :
    (Tree.node r k cs).lay = .node r k cs := by
  refine lay_of_marks_eq_nil ?_
  have hmark : (Tree.node r k cs).mark? = none := by
    cases k <;> first | rfl | exact absurd (by decide) hk
  rw [marks, hmark, marksIn_eq, List.flatMap_eq_nil_iff.2 hcs]
  rfl

omit ih in
theorem lay_string : (Tree.node r .stringLiteral cs).lay = .node r .stringLiteral cs := by
  have hchild : ∀ c ∈ cs, layChild .stringLiteral c = c := fun _ _ => rfl
  rw [lay_node, List.map_congr_left hchild, List.map_id']

/-- What stands as an expression means the same. -/
theorem expr_laid (hk : k.isAnnotationForm = false) (hshape : Shape k cs) :
    (Tree.node r k cs).lay.meaning.expr = (Tree.node r k cs).meaning.expr := by
  cases k with
  | program => exact hshape.elim
  | annotationForm | markerForm => cases hk
  | binaryExpression => exact expr_binary_laid ih rfl hshape
  | unaryExpression => exact expr_unary_laid ih rfl hshape
  | ternaryExpression => exact expr_ternary_laid ih rfl hshape
  | parenthesizedExpression => exact expr_parenthesized_laid ih rfl hshape
  | castExpression => exact expr_cast_laid ih rfl hshape
  | methodInvocation => exact expr_call_laid ih rfl hshape
  | fieldAccess => exact expr_field_laid ih rfl hshape
  | stringLiteral => rw [lay_string]
  | identifier | trueLiteral | falseLiteral | nullLiteral | decimalFloatingPointLiteral
  | hexFloatingPointLiteral | characterLiteral | decimalIntegerLiteral | hexIntegerLiteral
  | octalIntegerLiteral | binaryIntegerLiteral => rw [lay_silent (by decide) hshape]
  | _ => exact expr_of_shaped rfl fun _ => nodes_laid ih (by decide)

/-! ### Annotations and their values -/

/-- An annotation without comments in its name means the same. -/
theorem annotated_laid (hk : k.isAnnotationForm = true) (hshape : Shape k cs)
    (hspelled : (Tree.node r k cs).Spelled)
    (hplain : Token.Plain (Tree.node r k cs).nameTokens.tail) (l : Nat) :
    Meaning.annotationOf l (meanings (cs.map (layChild k))) =
      Meaning.annotationOf l (meanings cs) := by
  obtain ⟨p, name, rest, ns, rfl, hnrole, hdotted, hsound, htokens⟩ := hspelled.annotated hk
  obtain ⟨p', name', rest', hcs, -, -, hrest⟩ := hshape.annotated hk
  cases hcs
  rw [htokens] at hplain
  have hrestRole : ∀ c ∈ rest, c.role = some .arguments ∧
      c.kind? = some .annotationArgumentList := by
    rcases hrest with rfl | ⟨args, rfl, hargs⟩
    · exact List.forall_mem_nil _
    · exact List.forall_mem_singleton.2 hargs
  have hname : ∀ c ∈ .leaf none p :: name :: rest, c.role = some .name →
      Text.compact (layChild k c).meaning.text = Text.compact c.meaning.text := by
    refine List.forall_mem_cons.2 ⟨by simp, List.forall_mem_cons.2 ⟨fun _ => ?_, ?_⟩⟩
    · have hbare : layChild k name = name.bare := by simp [layChild, isNameIn, hk, hnrole]
      rw [hbare, Meaning.text, Meaning.text, tree_meaning, tree_meaning]
      exact hdotted.compact_bare hsound hplain
    · intro c hc hrole
      simp [(hrestRole c hc).1] at hrole
  have hargs : ∀ c ∈ .leaf none p :: name :: rest, c.role = some .arguments →
      (layChild k c).meaning.elements = c.meaning.elements := by
    refine List.forall_mem_cons.2 ⟨by simp, List.forall_mem_cons.2 ⟨?_, ?_⟩⟩
    · intro hrole
      simp [hnrole] at hrole
    · intro c hc hrole
      have hlay : layChild k c = c.lay := by
        have hverbatim : isVerbatimIn k c = false := by
          obtain rfl | rfl := eq_or_eq_of_isAnnotationForm hk
          · rfl
          · rfl
        simp [layChild, isNameIn, hrole, hverbatim]
      rw [hlay, (ih c (by simp [hc]) (hides_of_isAnnotationForm hk c)).elements (hrestRole c hc).2]
  unfold Meaning.annotationOf
  rw [map_find?_lay (f := fun m => String.ofList (Text.compact m.text)) fun c hc hrole => ?_,
    map_find?_lay hargs]
  rw [hname c hc hrole]

variable (hshape : Shape k cs) (hspelled : (Tree.node r k cs).Spelled)
  (hplain : k.isAnnotationForm = true → Token.Plain (Tree.node r k cs).nameTokens.tail)

include hshape hspelled hplain

theorem value_laid : (Tree.node r k cs).lay.meaning.value = (Tree.node r k cs).meaning.value := by
  have hexpr : k.isAnnotationForm = false →
      (Tree.node r k cs).lay.meaning.expr = (Tree.node r k cs).meaning.expr :=
    fun hk => expr_laid ih hk hshape
  have hline := line_lay (Tree.node r k cs)
  rw [lay_node] at hexpr hline ⊢
  show (if k = .elementValueArrayInitializer then _ else if k.isAnnotationForm then _ else _) =
    (if k = .elementValueArrayInitializer then _ else if k.isAnnotationForm then _ else _)
  split
  · next hk =>
    subst hk
    refine congrArg ElementValue.array (filter_isNode_lay fun c hc _ => ?_)
    exact (ih c hc rfl).value
  · split
    · next hk =>
      rw [hline, annotated_laid ih hk hshape hspelled (hplain hk)]
    · next hk => exact congrArg ElementValue.expr (hexpr (Bool.eq_false_iff.2 hk))

theorem element_laid :
    (Tree.node r k cs).lay.meaning.element? = (Tree.node r k cs).meaning.element? := by
  have hvalue := value_laid ih hshape hspelled hplain
  rw [lay_node] at hvalue ⊢
  show (if k = .elementValuePair then _ else some (Element.mk _ _)) =
    (if k = .elementValuePair then _ else some (Element.mk _ _))
  split
  · next hk =>
    subst hk
    obtain ⟨key, p, v, rfl, hkrole, hkey, hvrole⟩ := hshape
    have hkeys : ∀ c ∈ [key, .leaf none p, v], c.role = some .key →
        layChild .elementValuePair c = c := by
      simp [hvrole, layChild_of_marks_eq_nil (k := .elementValuePair) rfl hkey]
    have hvalues : ∀ c ∈ [key, .leaf none p, v], c.role = some .value →
        (layChild .elementValuePair c).meaning.value = c.meaning.value := fun c hc _ => by
      rw [layChild_eq_lay rfl rfl, (ih c hc rfl).value]
    have hpair : ∀ ms : List Meaning, (do
        let n ← Meaning.text? .key ms
        let v ← Meaning.find? .value ms
        return Element.mk n v.value) = (Meaning.text? .key ms).bind fun n =>
          ((Meaning.find? .value ms).map Meaning.value).map (Element.mk n) := by
      intro ms
      cases Meaning.text? .key ms <;> cases Meaning.find? .value ms <;> rfl
    rw [hpair, hpair, text?_lay hkeys, map_find?_lay hvalues]
  · exact congrArg (fun v => some (Element.mk Annotation.defaultElement v)) hvalue

theorem node_laid : (Tree.node r k cs).lay.meaning.node? = (Tree.node r k cs).meaning.node? := by
  have hexpr : k.isAnnotationForm = false →
      (Tree.node r k cs).lay.meaning.expr = (Tree.node r k cs).meaning.expr :=
    fun hk => expr_laid ih hk hshape
  have hline := line_lay (Tree.node r k cs)
  rw [lay_node] at hexpr hline ⊢
  show (if k.isAnnotationForm then _ else if k.isExpression then _ else _) =
    (if k.isAnnotationForm then _ else if k.isExpression then _ else _)
  split
  · next hk => rw [hline, annotated_laid ih hk hshape hspelled (hplain hk)]
  · next hk =>
    split
    · exact congrArg (fun e => some (Node.expr e)) (hexpr (Bool.eq_false_iff.2 hk))
    · next hnot =>
      have hmarked : k ∉ markedKinds := not_mem_markedKinds hshape hk hnot
      rw [hline, filterMap_lay (nodes_laid ih hmarked)]

end Meanings

/-- There are no comments in the names of the annotations that are shown. -/
def PlainNames (t : Tree) : Prop :=
  ∀ n ∈ t.shown, n.IsAnnotationForm → Token.Plain n.nameTokens.tail

theorem PlainNames.child {r : Option Role} {k : Kind} {cs : List Tree}
    (h : (Tree.node r k cs).PlainNames) {c : Tree} (hc : c ∈ cs) (hshown : hides k c = false) :
    c.PlainNames := fun n hn =>
  h n (List.mem_cons_of_mem _ (mem_partsByIn.2 ⟨c, hc, hshown, hn⟩))

/-- A well shaped tree without comments in the names of its annotations means
    the same without the layout of these names. -/
theorem WellShaped.laid {t : Tree} (h : t.WellShaped) (hspelled : t.Spelled)
    (hplain : t.PlainNames) : Laid t := by
  induction h with
  | leaf => exact ⟨rfl, fun _ => rfl, rfl, rfl, fun _ => rfl, fun _ => rfl⟩
  | @node r k cs hshape _ ih =>
    -- nothing is read off the children that are hidden, so comments may stand there
    have hcs : ∀ c ∈ cs, hides k c = false → Laid c := by
      intro c hc hshown
      cases hspelled with
      | node _ hspelled => exact ih c hc (hspelled c hc) (hplain.child hc hshown)
    have hname : k.isAnnotationForm = true → Token.Plain (Tree.node r k cs).nameTokens.tail :=
      fun hk => hplain _ List.mem_cons_self ⟨k, rfl, hk⟩
    exact {
      node := node_laid hcs hshape hspelled hname
      expr := by
        rintro ⟨k, hk, hform, -⟩
        cases hk
        exact expr_laid hcs hform hshape
      value := value_laid hcs hshape hspelled hname
      element := element_laid hcs hshape hspelled hname
      exprs := by
        intro hk
        cases hk
        rw [lay_node]
        refine filter_isNode_lay fun c hc hkind => ?_
        rw [layChild_eq_lay rfl rfl]
        exact (hcs c hc rfl).expr ((hshape c hc).resolve_right hkind)
      elements := by
        intro hk
        cases hk
        rw [lay_node]
        refine filterMap_lay fun c hc => ?_
        rw [layChild_eq_lay rfl rfl]
        exact (hcs c hc rfl).element }

/-! ## Units -/

section Units

variable {r : Option Role} {cs : List Tree}

theorem packageName?_bare (h : (Tree.node r .packageDeclaration cs).Spelled)
    (hplain : Token.Plain (Tree.node r .packageDeclaration cs).nameTokens.tail) :
    (Tree.node r .packageDeclaration cs).bare.packageName? =
      (Tree.node r .packageDeclaration cs).packageName? := by
  obtain ⟨front, p, name, q, ns, rfl, hfront, hdotted, hsound, htokens⟩ := h.package
  have hbare := hdotted.mapTokens (f := Token.bare) (fun _ => rfl) fun _ => rfl
  have hfronts : ∀ c ∈ front.map bare, c.IsAnnotationForm := by
    refine List.forall_mem_map.2 fun c hc => ?_
    obtain ⟨k, hk, hform⟩ := hfront c hc
    exact ⟨k, (kind?_mapTokens c).trans hk, hform⟩
  rw [htokens] at hplain
  rw [bare, mapTokens_node, List.map_append, packageName?_eq hfront hdotted]
  have hname := packageName?_eq (r := r) (k := .packageDeclaration) (p := p.bare) (q := q.bare)
    hfronts hbare
  rw [hdotted.compact_bare hsound hplain] at hname
  exact hname

/-- An import is one with other tokens of the same kinds and texts. -/
theorem ImportOf.bare {static demand : List Tree} {name : Tree}
    (h : ImportOf static name demand cs) :
    ImportOf (static.map Tree.bare) name.bare (demand.map Tree.bare) (cs.map Tree.bare) := by
  obtain @⟨k, s, _, _, _, hk, hstatic, hdemand, hs⟩ := h
  simp only [List.map_cons, List.map_append, List.map_nil]
  refine .mk (k := k.bare) (s := s.bare) hk ?_ ?_ hs
  · rcases hstatic with rfl | ⟨w, rfl, hw⟩
    · exact .inl rfl
    · exact .inr ⟨w.bare, rfl, hw⟩
  · rcases hdemand with rfl | ⟨d, a, rfl, hd, ha⟩
    · exact .inl rfl
    · exact .inr ⟨d.bare, a.bare, rfl, hd, ha⟩

theorem importedType?_bare (h : (Tree.node r .importDeclaration cs).Spelled)
    (hplain : Token.Plain (Tree.node r .importDeclaration cs).nameTokens.tail) :
    (Tree.node r .importDeclaration cs).bare.importedType? =
      (Tree.node r .importDeclaration cs).importedType? := by
  obtain ⟨static, name, demand, ns, himport, hdotted, htokens⟩ := h.imported
  have hbare := hdotted.mapTokens (f := Token.bare) (fun _ => rfl) fun _ => rfl
  have hsound := sound_bare h.sound
  have hplains := plain_tail_bare (.node r .importDeclaration cs)
  have himports := himport.bare
  rw [bare, mapTokens_node] at hsound hplains ⊢
  cases static with
  | nil =>
    rw [htokens rfl] at hplain
    rw [himport.importedType?_of_plain hdotted h.sound hplain,
      himports.importedType?_of_plain hbare hsound hplains]
    simp
  | cons w static =>
    rw [importedType?, importedType?, himport.isStaticImport hdotted,
      himports.isStaticImport hbare]
    rfl

end Units

/-- A tree at the top of a source without the layout of its names. -/
def layDeclaration (t : Tree) : Tree :=
  match t.kind? with
  | some .packageDeclaration | some .importDeclaration => t.bare
  | _ => t.lay

/-- The tree of a source without the layout of its names. -/
def layUnit : Tree → Tree
  | leaf r t => leaf r t
  | node r k cs => node r k (cs.map layDeclaration)

/-- There are no comments in the names that are read off the tree of a source. -/
structure Uncommented (t : Tree) : Prop where
  declarations : ∀ c ∈ t.children, c.kind? = some .packageDeclaration ∨
    c.kind? = some .importDeclaration → Token.Plain c.nameTokens.tail
  annotations : t.PlainNames

theorem addTo_layDeclaration {c : Tree} (hshaped : c.WellShaped) (hspelled : c.Spelled)
    (hdeclaration : c.kind? = some .packageDeclaration ∨ c.kind? = some .importDeclaration →
      Token.Plain c.nameTokens.tail)
    (hplain : hides .program c = false → c.PlainNames) (u : SourceUnit) :
    addTo u (layDeclaration c) = addTo u c := by
  by_cases hpackage : c.kind? = some .packageDeclaration
  · obtain ⟨r, cs, rfl⟩ := eq_node_of_kind? hpackage
    exact congrArg (fun p => { u with package? := p })
      (packageName?_bare hspelled (hdeclaration (.inl rfl)))
  by_cases himport : c.kind? = some .importDeclaration
  · obtain ⟨r, cs, rfl⟩ := eq_node_of_kind? himport
    exact congrArg (fun i : Option String => { u with imports := u.imports ++ i.toList })
      (importedType?_bare hspelled (hdeclaration (.inr rfl)))
  · have hshown : hides .program c = false := by simpa [hides] using hpackage
    have hnode := (hshaped.laid hspelled (hplain hshown)).node
    have hlay : layDeclaration c = c.lay := by
      unfold layDeclaration
      split
      · next hk => exact absurd hk hpackage
      · next hk => exact absurd hk himport
      · rfl
    rw [hlay]
    unfold addTo
    rw [kind?_lay]
    split
    · next hk => exact absurd hk hpackage
    · next hk => exact absurd hk himport
    · rw [hnode]

theorem foldl_addTo_layDeclaration {cs : List Tree} (hshaped : ∀ c ∈ cs, c.WellShaped)
    (hspelled : ∀ c ∈ cs, c.Spelled)
    (hdeclarations : ∀ c ∈ cs, c.kind? = some .packageDeclaration ∨
      c.kind? = some .importDeclaration → Token.Plain c.nameTokens.tail)
    (hplain : ∀ c ∈ cs, hides .program c = false → c.PlainNames) (u : SourceUnit) :
    (cs.map layDeclaration).foldl addTo u = cs.foldl addTo u := by
  induction cs generalizing u with
  | nil => rfl
  | cons c cs ih =>
    rw [List.forall_mem_cons] at hshaped hspelled hdeclarations hplain
    rw [List.map_cons, List.foldl_cons, List.foldl_cons,
      addTo_layDeclaration hshaped.1 hspelled.1 hdeclarations.1 hplain.1,
      ih hshaped.2 hspelled.2 hdeclarations.2 hplain.2]

end Tree

/-- Without comments in its names, the unit of a source does not depend on their
    layout. -/
theorem Source.toUnit_layUnit {source : String} {t : Tree} (h : parse source = .ok t)
    (hplain : t.Uncommented) (path : String) : t.layUnit.toUnit path = t.toUnit path := by
  have hspelled := spelled_of_parse h
  obtain ⟨cs, rfl, hshaped⟩ := wellShaped_of_parse h
  cases hspelled with
  | node _ hspelled =>
    exact Tree.foldl_addTo_layDeclaration hshaped hspelled hplain.declarations
      (fun c hc hshown => hplain.annotations.child hc hshown) _

end MessageHarvest
