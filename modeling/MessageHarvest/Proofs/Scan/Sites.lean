import Mathlib.Logic.Relation
import MessageHarvest.Scan

/-! # Where sites stand

    The model of a source file is made of pieces: nodes, expressions,
    annotations and element values. `Piece.Part p q` says that `q` stands
    directly in `p`, with one rule for each place where a piece can stand. The
    sites of a unit are the calls and annotations that such steps lead to from
    one of its nodes (`mem_sites_iff`), so no place is left out. -/

namespace MessageHarvest

/-- A piece of a source file. -/
inductive Piece where
  | node (n : Node)
  | expr (e : Expr)
  | annotated (a : Annotation)
  | value (v : ElementValue)

namespace Piece

/-- `Part p q`: the piece `q` stands directly in `p`. -/
inductive Part : Piece → Piece → Prop where
  | left {l op a b} : Part (.expr (.binary l op a b)) (.expr a)
  | right {l op a b} : Part (.expr (.binary l op a b)) (.expr b)
  | operand {l op a} : Part (.expr (.unary l op a)) (.expr a)
  | condition {l c a b} : Part (.expr (.conditional l c a b)) (.expr c)
  | onTrue {l c a b} : Part (.expr (.conditional l c a b)) (.expr a)
  | onFalse {l c a b} : Part (.expr (.conditional l c a b)) (.expr b)
  | castOperand {l t a} : Part (.expr (.cast l t a)) (.expr a)
  | target {l a f} : Part (.expr (.field l a f)) (.expr a)
  | receiver {l m r as} : Part (.expr (.call l m (some r) as)) (.expr r)
  | argument {l m r as e} : e ∈ as → Part (.expr (.call l m r as)) (.expr e)
  | otherChild {l k cs n} : n ∈ cs → Part (.expr (.other l k cs)) (.node n)
  | nodeExpr {e} : Part (.node (.expr e)) (.expr e)
  | nodeAnnotated {a} : Part (.node (.annotated a)) (.annotated a)
  | groupChild {k l cs n} : n ∈ cs → Part (.node (.group k l cs)) (.node n)
  | elementValue {n l es f v} : Element.mk f v ∈ es → Part (.annotated (.mk n l es)) (.value v)
  | valueExpr {e} : Part (.value (.expr e)) (.expr e)
  | item {vs v} : v ∈ vs → Part (.value (.array vs)) (.value v)
  | nested {a} : Part (.value (.nested a)) (.annotated a)

/-- `q` stands somewhere in `p`, or is `p` itself. -/
abbrev Within (p q : Piece) : Prop := Relation.ReflTransGen Part p q

/-- The sites of a piece. -/
def sites : Piece → List Site
  | node n => n.sites
  | expr e => e.sites
  | annotated a => a.sites
  | value v => v.sites

/-- The site that a piece itself is. -/
def site? : Piece → Option Site
  | expr (.call l m _ as) => some (.call l m as)
  | annotated a => some (.annotated a)
  | _ => none

/-- The size of a piece, which every part falls below. -/
noncomputable def size : Piece → Nat
  | node n => sizeOf n
  | expr e => sizeOf e
  | annotated a => sizeOf a
  | value v => sizeOf v

theorem Part.size_lt {p q : Piece} (h : Part p q) : q.size < p.size := by
  cases h with
  | argument h | otherChild h | groupChild h | item h =>
    have := List.sizeOf_lt_of_mem h
    simp only [size, Expr.call.sizeOf_spec, Expr.other.sizeOf_spec, Node.group.sizeOf_spec,
      ElementValue.array.sizeOf_spec]
    omega
  | elementValue h =>
    have := List.sizeOf_lt_of_mem h
    simp only [size, Annotation.mk.sizeOf_spec, Element.mk.sizeOf_spec] at this ⊢
    omega
  | _ => simp [size] <;> omega

end Piece

/-! ## Lists of pieces -/

variable {s : Site}

theorem mem_sitesExprs {es : List Expr} : s ∈ sitesExprs es ↔ ∃ e ∈ es, s ∈ e.sites := by
  induction es with
  | nil => simp [sitesExprs]
  | cons e es ih => simp [sitesExprs, ih]

theorem mem_sitesNodes {ns : List Node} : s ∈ sitesNodes ns ↔ ∃ n ∈ ns, s ∈ n.sites := by
  induction ns with
  | nil => simp [sitesNodes]
  | cons n ns ih => simp [sitesNodes, ih]

theorem mem_sitesElements {es : List Element} :
    s ∈ sitesElements es ↔ ∃ e ∈ es, s ∈ e.value.sites := by
  induction es with
  | nil => simp [sitesElements]
  | cons e es ih =>
    obtain ⟨f, v⟩ := e
    simp [sitesElements, Element.sites, Element.value, ih]

theorem mem_sitesValues {vs : List ElementValue} :
    s ∈ sitesValues vs ↔ ∃ v ∈ vs, s ∈ v.sites := by
  induction vs with
  | nil => simp [sitesValues]
  | cons v vs ih => simp [sitesValues, ih]

/-! ## Sites of pieces -/

namespace Piece

/-- The sites of a part are sites of the whole. -/
theorem Part.mem_sites {p q : Piece} (h : Part p q) (hs : s ∈ q.sites) : s ∈ p.sites := by
  cases h with
  | argument he =>
    simp only [sites, Expr.sites, List.mem_cons, List.mem_append]
    exact .inr (.inr (mem_sitesExprs.2 ⟨_, he, hs⟩))
  | otherChild hn => exact mem_sitesNodes.2 ⟨_, hn, hs⟩
  | groupChild hn => exact mem_sitesNodes.2 ⟨_, hn, hs⟩
  | elementValue he => exact List.mem_cons_of_mem _ (mem_sitesElements.2 ⟨_, he, hs⟩)
  | item hv => exact mem_sitesValues.2 ⟨_, hv, hs⟩
  | _ => simp_all [sites, Expr.sites, sitesReceiver, Node.sites, ElementValue.sites]

theorem mem_sites_of_site? {p : Piece} (h : p.site? = some s) : s ∈ p.sites := by
  unfold site? at h
  split at h
  · cases h
    exact List.mem_cons_self
  · next a =>
    cases h
    obtain ⟨n, l, es⟩ := a
    exact List.mem_cons_self
  · cases h

/-- A site of an expression is the expression itself or a site of a part. -/
theorem mem_sites_expr_cases {e : Expr} (hs : s ∈ e.sites) :
    (expr e).site? = some s ∨ ∃ q, Part (expr e) q ∧ s ∈ q.sites := by
  cases e with
  | literal | name => cases hs
  | binary l op a b =>
    rcases List.mem_append.1 hs with hs | hs
    · exact .inr ⟨_, .left, hs⟩
    · exact .inr ⟨_, .right, hs⟩
  | unary l op a => exact .inr ⟨_, .operand, hs⟩
  | conditional l c a b =>
    rcases List.mem_append.1 hs with hs | hs
    · rcases List.mem_append.1 hs with hs | hs
      · exact .inr ⟨_, .condition, hs⟩
      · exact .inr ⟨_, .onTrue, hs⟩
    · exact .inr ⟨_, .onFalse, hs⟩
  | cast l t a => exact .inr ⟨_, .castOperand, hs⟩
  | field l a f => exact .inr ⟨_, .target, hs⟩
  | call l m r as =>
    rcases List.mem_cons.1 hs with rfl | hs
    · exact .inl rfl
    · rcases List.mem_append.1 hs with hs | hs
      · cases r with
        | none => cases hs
        | some r => exact .inr ⟨_, .receiver, hs⟩
      · obtain ⟨e, he, hs⟩ := mem_sitesExprs.1 hs
        exact .inr ⟨_, .argument he, hs⟩
  | other l k cs =>
    obtain ⟨n, hn, hs⟩ := mem_sitesNodes.1 hs
    exact .inr ⟨_, .otherChild hn, hs⟩

/-- A site of a piece is the piece itself or a site of a part. -/
theorem mem_sites_cases {p : Piece} (hs : s ∈ p.sites) :
    p.site? = some s ∨ ∃ q, Part p q ∧ s ∈ q.sites := by
  cases p with
  | expr e => exact mem_sites_expr_cases hs
  | node n =>
    cases n with
    | expr e => exact .inr ⟨_, .nodeExpr, hs⟩
    | annotated a => exact .inr ⟨_, .nodeAnnotated, hs⟩
    | group k l cs =>
      obtain ⟨n, hn, hs⟩ := mem_sitesNodes.1 hs
      exact .inr ⟨_, .groupChild hn, hs⟩
  | annotated a =>
    obtain ⟨n, l, es⟩ := a
    rcases List.mem_cons.1 hs with rfl | hs
    · exact .inl rfl
    · obtain ⟨⟨f, v⟩, he, hs⟩ := mem_sitesElements.1 hs
      exact .inr ⟨.value v, .elementValue he, hs⟩
  | value v =>
    cases v with
    | expr e => exact .inr ⟨_, .valueExpr, hs⟩
    | array vs =>
      obtain ⟨v, hv, hs⟩ := mem_sitesValues.1 hs
      exact .inr ⟨_, .item hv, hs⟩
    | nested a => exact .inr ⟨_, .nested, hs⟩

/-- The sites of a piece are the pieces in it that are sites. -/
theorem mem_sites_iff_within {p : Piece} :
    s ∈ p.sites ↔ ∃ q, Within p q ∧ q.site? = some s := by
  constructor
  · -- parts are smaller, so the search for the site comes to an end
    intro hs
    induction hn : p.size using Nat.strongRecOn generalizing p with
    | ind n ih =>
      rcases mem_sites_cases hs with hs | ⟨q, hq, hs⟩
      · exact ⟨p, .refl, hs⟩
      · obtain ⟨r, hr, hsite⟩ := ih q.size (hn ▸ hq.size_lt) hs rfl
        exact ⟨r, .head hq hr, hsite⟩
  · rintro ⟨q, hq, hs⟩
    induction hq using Relation.ReflTransGen.head_induction_on with
    | refl => exact mem_sites_of_site? hs
    | head h _ ih => exact h.mem_sites ih

end Piece

/-! ## Sites of units -/

/-- A piece stands somewhere in a unit. -/
def SourceUnit.Holds (u : SourceUnit) (p : Piece) : Prop := ∃ n ∈ u.nodes, Piece.Within (.node n) p

/-- The sites of a unit are the pieces that stand in it and are sites. -/
theorem mem_sites_iff {u : SourceUnit} :
    s ∈ sitesNodes u.nodes ↔ ∃ p, u.Holds p ∧ p.site? = some s := by
  rw [mem_sitesNodes]
  constructor
  · rintro ⟨n, hn, hs⟩
    obtain ⟨q, hq, hsite⟩ := (Piece.mem_sites_iff_within (p := .node n)).1 hs
    exact ⟨q, ⟨n, hn, hq⟩, hsite⟩
  · rintro ⟨q, ⟨n, hn, hq⟩, hsite⟩
    exact ⟨n, hn, (Piece.mem_sites_iff_within (p := .node n)).2 ⟨q, hq, hsite⟩⟩

/-! ## Expressions that stand for texts -/

/-- An expression is an item of an element value, looked for in arrays but not
    in nested annotations. -/
inductive ElementValue.Item : ElementValue → Expr → Prop where
  | expr {e} : Item (.expr e) e
  | array {vs v e} : v ∈ vs → Item v e → Item (.array vs) e

theorem mem_textsOf {vs : List ElementValue} {e : Expr} :
    e ∈ textsOf vs ↔ ∃ v ∈ vs, e ∈ v.texts := by
  induction vs with
  | nil => simp [textsOf]
  | cons v vs ih => simp [textsOf, ih]

theorem ElementValue.mem_texts_iff {v : ElementValue} {e : Expr} : e ∈ v.texts ↔ v.Item e := by
  constructor
  · intro h
    induction hn : sizeOf v using Nat.strongRecOn generalizing v with
    | ind n ih =>
      cases v with
      | expr e' =>
        obtain rfl : e = e' := List.mem_singleton.1 h
        exact .expr
      | array vs =>
        obtain ⟨v, hv, h⟩ := mem_textsOf.1 h
        have hlt : sizeOf v < n := by
          have := List.sizeOf_lt_of_mem hv
          simp only [ElementValue.array.sizeOf_spec] at hn
          omega
        exact .array hv (ih _ hlt h rfl)
      | nested a => cases h
  · intro h
    induction h with
    | expr => exact List.mem_singleton.2 rfl
    | array hv _ ih => exact mem_textsOf.2 ⟨_, hv, ih⟩

/-- `v` is the value of the first element of the name `f`. -/
def Annotation.First (a : Annotation) (f : String) (v : ElementValue) : Prop :=
  ∃ before after, a.elements = before ++ Element.mk f v :: after ∧ ∀ e ∈ before, e.name ≠ f

theorem element?_eq_some_iff {a : Annotation} {f : String} {v : ElementValue} :
    a.element? f = some v ↔ a.First f v := by
  unfold Annotation.element? Annotation.First
  rw [Option.map_eq_some_iff]
  constructor
  · rintro ⟨⟨f', v'⟩, hfind, rfl⟩
    obtain ⟨hname, before, after, helements, hbefore⟩ := List.find?_eq_some_iff_append.1 hfind
    obtain rfl : f' = f := beq_iff_eq.1 hname
    exact ⟨before, after, helements, fun e he hf => by simpa [hf] using hbefore e he⟩
  · rintro ⟨before, after, helements, hbefore⟩
    refine ⟨.mk f v,
      List.find?_eq_some_iff_append.2 ⟨beq_iff_eq.2 rfl, before, after, helements, ?_⟩,
      rfl⟩
    intro e he
    simpa using hbefore e he

end MessageHarvest
