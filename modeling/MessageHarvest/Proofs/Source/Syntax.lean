import MessageHarvest.Proofs.Source.Shape
import MessageHarvest.Source.Parser

/-! # The grammar builds well shaped trees

    A phrase without nodes that have a shape is shapely by unfolding it. What is
    left are the phrases for nodes with a shape, one lemma for each, and the two
    chains in which such a node is built around what was read before: there the
    invariant is that one operand has been read.

    * `expected_rules`: every rule builds what is expected of it.
    * `wellShaped_of_parse`: so a source that can be read is a program whose
      children are well shaped. -/

namespace MessageHarvest.Syntax

open Grammar MessageHarvest.Tree

variable {P : List Tree → Prop} {p : Kind → Prop}

/-! ## Phrases without calls and annotations -/

section Silent

variable {g a b : Phrase}

/-- A phrase builds neither calls nor annotations. -/
def Silent (g : Phrase) : Prop :=
  ∀ acc ts, g.Yields Expected acc ts → ∀ t ∈ ts, t.marks = []

theorem silent_of_leaf (h : ∀ acc ts, g.Yields Expected acc ts → ∃ t, ts = [.leaf none t]) :
    Silent g := by
  intro acc ts hts
  obtain ⟨t, rfl⟩ := h acc ts hts
  exact List.forall_mem_singleton.2 rfl

theorem silent_sym (s : String) : Silent (sym s) := silent_of_leaf fun _ _ h => h

theorem silent_kw (w : String) : Silent (kw w) := silent_of_leaf fun _ _ h => h

theorem silent_token (k : Token.Kind) : Silent (.token k) := silent_of_leaf fun _ _ h => h

theorem silent_wordExcept (ws : List String) : Silent (wordExcept ws) :=
  silent_of_leaf fun _ _ h => h

theorem silent_empty : Silent .empty := by
  rintro acc ts rfl t ht
  cases ht

theorem silent_seq (ha : Silent a) (hb : Silent b) : Silent (.seq a b) := by
  rintro acc ts ⟨xs, ys, hx, hy, rfl⟩
  exact List.forall_mem_append.2 ⟨ha acc xs hx, hb acc ys hy⟩

theorem silent_alt (ha : Silent a) (hb : Silent b) : Silent (.alt a b) := by
  rintro acc ts (h | h)
  · exact ha acc ts h
  · exact hb acc ts h

theorem silent_opt (h : Silent g) : Silent (opt g) := silent_alt h silent_empty

theorem silent_role (r : Role) (h : Silent g) : Silent (.role r g) := by
  rintro acc ts ⟨xs, hxs, rfl⟩ t ht
  obtain ⟨x, hx, rfl⟩ := List.mem_map.1 ht
  rw [marks_withRole, h acc xs hxs x hx]

/-- A node is silent if what it gathers is, unless it is a call or an annotation. -/
theorem silent_node {k : Kind} (hk : ∀ r cs, (Tree.node r k cs).mark? = none) (h : Silent g) :
    Silent (.node k g) := by
  rintro acc ts ⟨cs, hcs, rfl⟩
  refine List.forall_mem_singleton.2 ?_
  rw [marks, hk, marksIn_eq, List.flatMap_eq_nil_iff.2 (h acc cs hcs)]
  rfl

/-- A node of a kind that has no calls or annotations. -/
theorem shapely_silent {k : Kind} (hk : ∀ cs, (∀ c ∈ cs, c.marks = []) → Shape k cs)
    (hg : Shapely P g) (h : Silent g) : Shapely P (.node k g) :=
  ⟨hg, fun acc cs _ hcs _ => hk cs (h acc cs hcs)⟩

end Silent

/-! ## Names -/

theorem silent_identifier (ws : List String) : Silent (.node .identifier (wordExcept ws)) :=
  silent_node (fun _ _ => rfl) (silent_wordExcept ws)

@[simp] theorem shapely_identifier (ws : List String) :
    Shapely P (.node .identifier (wordExcept ws)) :=
  shapely_silent (fun _ h => h) trivial (silent_wordExcept ws)

@[simp] theorem shapely_anyName : Shapely P anyName := shapely_identifier _

@[simp] theorem shapely_operandName : Shapely P operandName := shapely_identifier _

@[simp] theorem shapely_memberName : Shapely P memberName := shapely_identifier _

theorem silent_thisWord : Silent thisWord := silent_node (fun _ _ => rfl) (silent_kw _)

theorem silent_superWord : Silent superWord := silent_node (fun _ _ => rfl) (silent_kw _)

@[simp] theorem shapely_thisWord : Shapely P thisWord := by simp [thisWord]

@[simp] theorem shapely_superWord : Shapely P superWord := by simp [superWord]

@[simp] theorem shapely_dottedName : Shapely P dottedName := by
  simp [dottedName]

/-- A dotted name is one tree without calls and annotations. -/
theorem marks_of_dottedName {acc ts : List Tree} (h : dottedName.Yields Expected acc ts) :
    ∃ t, ts = [t] ∧ t.marks = [] := by
  obtain ⟨xs, hbase, hchain⟩ := h
  induction hchain with
  | refl =>
    obtain ⟨_, ⟨w, rfl⟩, rfl⟩ := hbase
    exact ⟨_, rfl, rfl⟩
  | tail _ hstep ih =>
    -- the name so far, a dot and an identifier
    obtain ⟨t, rfl, ht⟩ := ih
    obtain ⟨_, ⟨_, _, rfl, ⟨_, _, ⟨dot, rfl⟩, ⟨_, ⟨w, rfl⟩, rfl⟩, rfl⟩, rfl⟩, rfl⟩ := hstep
    refine ⟨_, rfl, ?_⟩
    show (t.marks ++ ([] ++ ([] ++ []))) = []
    simp [ht]

theorem silent_dottedName : Silent dottedName := by
  intro acc ts h
  obtain ⟨t, rfl, ht⟩ := marks_of_dottedName h
  exact List.forall_mem_singleton.2 ht

@[simp] theorem shapely_importDeclaration : Shapely P importDeclaration := by
  refine shapely_silent (fun _ h => h) (by simp) ?_
  have hdemand : Silent (cat [sym ".", .node .asterisk (sym "*")]) :=
    silent_seq (silent_sym _) (silent_node (fun _ _ => rfl) (silent_sym _))
  exact silent_seq (silent_kw _) (silent_seq (silent_opt (silent_kw _))
    (silent_seq silent_dottedName (silent_seq (silent_opt hdemand) (silent_sym _))))

/-! ## Types and annotations -/

@[simp] theorem shapely_typeName : Shapely P typeName := by simp [typeName]

@[simp] theorem shapely_typeArguments : Shapely P typeArguments := by
  simp [typeArguments, wildcard, annotationForm, anyType]

@[simp] theorem shapely_scopedStep : Shapely P scopedStep := by
  simp [scopedStep, annotationForm]

@[simp] theorem shapely_simpleType : Shapely P simpleType := by
  simp [simpleType, primitiveType]

@[simp] theorem shapely_dimensions : Shapely P dimensions := by
  simp [dimensions, annotationForm]

@[simp] theorem shapely_elementPair : Shapely P elementPair := by
  refine ⟨by simp, ?_⟩
  rintro acc cs - ⟨_, _, ⟨_, ⟨_, ⟨w, rfl⟩, rfl⟩, rfl⟩, ⟨_, _, ⟨p, rfl⟩, ⟨_, ⟨v, rfl, -, -⟩, rfl⟩,
    rfl⟩, rfl⟩ -
  exact ⟨_, p, _, rfl, rfl, rfl, role_withRole .value v⟩

@[simp] theorem shapely_annotationArguments : Shapely P annotationArguments := by
  simp [annotationArguments]

theorem shapely_annotationRule : Shapely P annotationRule := by
  refine ⟨trivial, ⟨by simp, ?_⟩, ⟨by simp, ?_⟩⟩
  · rintro acc cs - ⟨_, _, ⟨p, rfl⟩, ⟨_, _, ⟨_, hname, rfl⟩, ⟨_, ⟨as, -, rfl⟩, rfl⟩, rfl⟩, rfl⟩ -
    obtain ⟨name, rfl, hmarks⟩ := marks_of_dottedName hname
    exact ⟨p, _, _, rfl, role_withRole _ _, (marks_withRole _ _).trans hmarks,
      .inr ⟨_, rfl, rfl, rfl⟩⟩
  · rintro acc cs - ⟨_, _, ⟨p, rfl⟩, ⟨_, hname, rfl⟩, rfl⟩ -
    obtain ⟨name, rfl, hmarks⟩ := marks_of_dottedName hname
    exact ⟨p, _, _, rfl, role_withRole _ _, (marks_withRole _ _).trans hmarks, .inl rfl⟩

/-! ## Operands -/

@[simp] theorem shapely_arguments : Shapely P arguments := by
  refine ⟨by simp [expression], ?_⟩
  rintro acc cs - ⟨_, _, ⟨p, rfl⟩, ⟨_, _, hlist, ⟨q, rfl⟩, rfl⟩, rfl⟩ -
  have hmem : ∀ xs, One Operand xs → ∀ c ∈ xs, c.Operand ∨ c.kind? = none := by
    rintro _ ⟨e, rfl, -, he⟩
    exact List.forall_mem_singleton.2 (.inl he)
  refine List.forall_mem_append.2 ⟨List.forall_mem_singleton.2 (.inr rfl),
    List.forall_mem_append.2 ⟨?_, List.forall_mem_singleton.2 (.inr rfl)⟩⟩
  rcases hlist with ⟨_, _, he, ⟨xss, hxss, rfl⟩, rfl⟩ | rfl
  · -- the first argument, and the others each behind a comma
    refine List.forall_mem_append.2 ⟨hmem _ he, ?_⟩
    intro c hc
    obtain ⟨xs, hxs, hc⟩ := List.mem_flatten.1 hc
    obtain ⟨_, _, ⟨comma, rfl⟩, he, rfl⟩ := hxss xs hxs
    exact List.forall_mem_append.2 ⟨List.forall_mem_singleton.2 (.inr rfl), hmem _ he⟩ c hc
  · exact fun c hc => nomatch hc

@[simp] theorem shapely_parenthesized : Shapely P parenthesized := by
  refine ⟨by simp [expression], ?_⟩
  rintro acc cs - ⟨_, _, ⟨p, rfl⟩, ⟨_, _, ⟨e, rfl, -, he⟩, ⟨q, rfl⟩, rfl⟩, rfl⟩ -
  exact ⟨p, e, q, rfl, he⟩

@[simp] theorem shapely_stringLiteral : Shapely P stringLiteral := by
  simp [stringLiteral, expression]

@[simp] theorem shapely_literal : Shapely P literal := by
  rw [literal, shapely_choice]
  simp only [List.forall_mem_cons]
  refine ⟨shapely_stringLiteral, ?_, ?_, ?_, ?_, ?_, ?_, ?_, ?_, ?_, ?_, by simp⟩
  -- numbers and characters are one token, the others one keyword
  iterate 7 exact shapely_silent (fun _ h => h) trivial (silent_token _)
  iterate 3 exact shapely_silent (fun _ h => h) trivial (silent_kw _)

/-! ## Primary expressions -/

@[simp] theorem shapely_creation : Shapely P creation := by
  simp [creation, annotationForm, classBody]

@[simp] theorem shapely_arrayCreation : Shapely P arrayCreation := by
  simp [arrayCreation, annotationForm, expression]

@[simp] theorem shapely_referenceTail : Shapely P referenceTail := by
  simp [referenceTail]

theorem shapely_plainCall : Shapely P
    (.node .methodInvocation (cat [.role .name operandName, .role .arguments arguments])) := by
  refine ⟨by simp, ?_⟩
  rintro acc cs - ⟨_, _, ⟨_, ⟨_, ⟨w, rfl⟩, rfl⟩, rfl⟩, ⟨_, ⟨as, -, rfl⟩, rfl⟩, rfl⟩ -
  exact ⟨[], _, _, rfl, .inl rfl, rfl, rfl, rfl, rfl⟩

theorem shapely_primaryBase : Shapely P primaryBase := by
  simp [primaryBase, shapely_plainCall, plainType]

/-- What a call behind an object ends with. -/
theorem exists_of_memberCall {acc ts : List Tree}
    (h : (cat [opt typeArguments, .role .name memberName, .role .arguments arguments]).Yields
      Expected acc ts) :
    ∃ (types : List Tree) (name args : Tree), ts = types ++ [name, args] ∧
      (∀ c ∈ types, c.role = none ∧ c.kind? = some .typeArguments) ∧
      name.role = some .name ∧ name.marks = [] ∧
      args.role = some .arguments ∧ args.kind? = some .argumentList := by
  obtain ⟨types, _, htypes, ⟨_, _, ⟨_, ⟨_, ⟨w, rfl⟩, rfl⟩, rfl⟩, ⟨_, ⟨as, -, rfl⟩, rfl⟩, rfl⟩,
    rfl⟩ := h
  refine ⟨types, _, _, rfl, ?_, rfl, rfl, rfl, rfl⟩
  rcases htypes with ⟨ts, -, rfl⟩ | rfl
  · exact List.forall_mem_singleton.2 ⟨rfl, rfl⟩
  · exact fun c hc => nomatch hc

/-- The object of a call with what stands between it and the name. -/
theorem receiver_of_link {object : Tree} (link : List Tree) {types : List Tree}
    (hobject : object.Operand)
    (hlink : ∀ c ∈ link, c.role = none ∧ c.marks = [])
    (htypes : ∀ c ∈ types, c.role = none ∧ c.kind? = some .typeArguments) :
    Receiver (object.withRole .object :: (link ++ types)) := by
  refine .inr ⟨_, _, rfl, role_withRole _ _, hobject.withRole _, List.forall_mem_append.2 ⟨?_, ?_⟩⟩
  · exact fun c hc => ⟨(hlink c hc).1, .inl (hlink c hc).2⟩
  · exact fun c hc => ⟨(htypes c hc).1, .inr (htypes c hc).2⟩

theorem silent_field : Silent (.role .field (choice [memberName, thisWord])) :=
  silent_role _ (silent_alt (silent_identifier _) silent_thisWord)

theorem shapely_primaryStep : Shapely (One Operand) primaryStep := by
  rw [primaryStep, shapely_choice]
  simp only [List.forall_mem_cons]
  refine ⟨by simp, by simp, ⟨by simp, ?_⟩, ⟨by simp, ?_⟩, ⟨by simp, ?_⟩, ⟨by simp, ?_⟩,
    by simp [expression], by simp, by simp⟩
  · -- a call of `super`
    rintro acc cs ⟨object, rfl, -, hobject⟩ ⟨_, _, ⟨_, rfl, rfl⟩, ⟨_, _, ⟨dot, rfl⟩, ⟨_, _,
      ⟨_, ⟨w, rfl⟩, rfl⟩, ⟨_, _, ⟨dot', rfl⟩, hcall, rfl⟩, rfl⟩, rfl⟩, rfl⟩ -
    obtain ⟨types, name, args, rfl, htypes, hcall⟩ := exists_of_memberCall hcall
    refine ⟨_, name, args, rfl, receiver_of_link [_, _, _] hobject ?_ htypes, hcall⟩
    simp [Tree.role, marks, marksIn, mark?, kind?]
  · -- a field of `super`
    rintro acc cs ⟨object, rfl, -, hobject⟩ ⟨_, _, ⟨_, rfl, rfl⟩, hfield, rfl⟩ -
    refine ⟨_, _, rfl, role_withRole _ _, hobject.withRole _, ?_⟩
    exact silent_seq (silent_sym _) (silent_seq silent_superWord
      (silent_seq (silent_sym _) silent_field)) _ _ hfield
  · -- a call
    rintro acc cs ⟨object, rfl, -, hobject⟩ ⟨_, _, ⟨_, rfl, rfl⟩, ⟨_, _, ⟨dot, rfl⟩, hcall, rfl⟩,
      rfl⟩ -
    obtain ⟨types, name, args, rfl, htypes, hcall⟩ := exists_of_memberCall hcall
    refine ⟨_, name, args, rfl, receiver_of_link [_] hobject ?_ htypes, hcall⟩
    simp [Tree.role, marks]
  · -- a field
    rintro acc cs ⟨object, rfl, -, hobject⟩ ⟨_, _, ⟨_, rfl, rfl⟩, hfield, rfl⟩ -
    refine ⟨_, _, rfl, role_withRole _ _, hobject.withRole _, ?_⟩
    exact silent_seq (silent_sym _) silent_field _ _ hfield

/-! ## Chains of operands -/

theorem one_of_solo {g : Phrase} (hg : Solo p g) {acc ts : List Tree} (hgood : Good ts)
    (h : g.Yields Expected acc ts) : One (IsNode p) ts := by
  obtain ⟨t, rfl, ht⟩ := solo_of_yields hg h
  exact ⟨t, rfl, List.forall_mem_singleton.1 hgood, ht⟩

/-- Chains in which every step is an operand around the one before. -/
theorem one_of_yields_chain {base step : Phrase} (hbase : Shapely P base)
    (hstep : Shapely (One Operand) step) (hsolo : Solo Kind.Operates (.chain base step))
    (hP : ∀ acc, P acc → Good acc) {acc ts : List Tree} (hacc : P acc)
    (h : (Grammar.chain base step).Yields Expected acc ts) : One Operand ts := by
  obtain ⟨xs, hx, hchain⟩ := h
  induction hchain with
  | refl => exact one_of_solo hsolo.1 (good_of_yields hP hbase hacc hx) hx
  | tail _ hlast ih =>
    exact one_of_solo hsolo.2 (good_of_yields (fun _ h => h.good) hstep ih hlast) hlast

theorem solo_rule {r : Rule} {q : Kind → Prop} (h : ∀ ts, Expected r ts → One (IsNode q) ts)
    (hqp : ∀ k, q k → p k) : Solo p (.rule r) := by
  intro ts hts
  obtain ⟨t, rfl, -, k, hk, hq⟩ := h ts hts
  exact ⟨t, rfl, k, hk, hqp k hq⟩

theorem solo_primaryBase : Solo Kind.Operates primaryBase := by
  simp [primaryBase, Solo, Blank, literal, stringLiteral, parenthesized, thisWord, superWord,
    arrayCreation, operandName, cat, Kind.Operates, Kind.isAnnotationForm]

theorem solo_primaryStep : Solo Kind.Operates primaryStep := by
  simp [primaryStep, Solo, Kind.Operates, Kind.isAnnotationForm]

theorem solo_lambda : Solo Kind.Operates lambda := ⟨rfl, by decide⟩

theorem solo_assignment : Solo Kind.Operates assignment :=
  ⟨solo_rule (fun _ h => h) (fun _ h => h), .inr ⟨trivial, rfl, by decide⟩⟩

theorem solo_operand (arrow : Bool) : Solo Kind.Operates (operand arrow) := by
  cases arrow <;>
    simp [operand, castExpression, solo_lambda, solo_assignment, switchExpression, Solo,
      Kind.Operates, Kind.isAnnotationForm]

/-! ## Expressions -/

@[simp] theorem shapely_lambda : Shapely P lambda := by
  simp [lambda, block, expression, formalParameters]

@[simp] theorem shapely_castType : Shapely P castType := by simp [castType, anyType]

@[simp] theorem shapely_simpleCastType : Shapely P simpleCastType := by simp [simpleCastType]

theorem shape_cast {p q : Token} {first value : List Tree} (more : List Tree)
    (hfirst : ∃ t, first = [t]) (hmore : ∀ c ∈ more, TypePart c) (hvalue : One Operand value) :
    Shape .castExpression ([Tree.leaf none p] ++ (first.map (withRole .type) ++
      (more ++ ([Tree.leaf none q] ++ value.map (withRole .value))))) := by
  obtain ⟨t, rfl⟩ := hfirst
  obtain ⟨v, rfl, -, hv⟩ := hvalue
  refine ⟨.leaf none p :: t.withRole .type :: (more ++ [Tree.leaf none q]), v.withRole .value,
    by simp, role_withRole _ _, hv.withRole _, ⟨t.withRole .type, by simp, role_withRole _ _⟩, ?_⟩
  have hleaf : ∀ x, TypePart (.leaf none x) := fun _ => .inr ⟨rfl, rfl⟩
  intro c hc
  simp only [List.mem_cons, List.mem_append, List.not_mem_nil, or_false] at hc
  rcases hc with rfl | rfl | hc | rfl
  · exact hleaf p
  · exact .inl (role_withRole _ _)
  · exact hmore c hc
  · exact hleaf q

/-- The type of a cast is one tree. -/
theorem exists_of_castType {acc ts : List Tree} (h : castType.Yields Expected acc ts) :
    ∃ t, ts = [t] := by
  obtain ⟨_, _, rfl, ⟨t, rfl, -⟩, rfl⟩ := h
  exact ⟨t, rfl⟩

theorem exists_of_simpleCastType {acc ts : List Tree}
    (h : simpleCastType.Yields Expected acc ts) : ∃ t, ts = [t] := by
  obtain ⟨_, _, rfl, ⟨_, ⟨w, rfl⟩, rfl⟩, rfl⟩ := h
  exact ⟨_, rfl⟩

/-- One more type of a cast to several types. -/
theorem typePart_of_bound {acc ts : List Tree}
    (h : (cat [sym "&", .role .type castType]).Yields Expected acc ts) :
    ∀ c ∈ ts, TypePart c := by
  obtain ⟨_, _, ⟨p, rfl⟩, ⟨_, htype, rfl⟩, rfl⟩ := h
  obtain ⟨t, rfl⟩ := exists_of_castType htype
  refine List.forall_mem_append.2 ⟨List.forall_mem_singleton.2 (.inr ⟨rfl, rfl⟩), ?_⟩
  exact List.forall_mem_singleton.2 (.inl (role_withRole _ _))

theorem one_of_castOperand {arrow : Bool} {acc ts : List Tree} (hacc : Good acc)
    (h : (choice ((if arrow then [lambda] else []) ++ [Grammar.rule .primary])).Yields
      Expected acc ts) :
    One Operand ts := by
  obtain ⟨g, hg, h⟩ := exists_of_yields_choice h
  have hgs : g = lambda ∨ g = .rule .primary := by
    cases arrow <;> simp at hg <;> simp [hg]
  rcases hgs with rfl | rfl
  · exact one_of_solo solo_lambda (good_of_yields (fun _ h => h) shapely_lambda hacc h) h
  · exact h

@[simp] theorem shapely_castExpression (arrow : Bool) : Shapely Good (castExpression arrow) := by
  rw [castExpression, shapely_choice]
  simp only [List.forall_mem_cons]
  refine ⟨⟨by cases arrow <;> simp, ?_⟩, ⟨by simp, ?_⟩, ⟨by simp, ?_⟩, by simp⟩
  · -- several types
    rintro acc cs hacc ⟨_, _, ⟨p, rfl⟩, ⟨_, _, ⟨_, htype, rfl⟩, ⟨_, _, hmore, ⟨_, _, ⟨q, rfl⟩,
      ⟨_, hv, rfl⟩, rfl⟩, rfl⟩, rfl⟩, rfl⟩ -
    obtain ⟨_, _, hsecond, ⟨xss, hxss, rfl⟩, rfl⟩ := hmore
    refine shape_cast _ (exists_of_castType htype) ?_ (one_of_castOperand hacc hv)
    refine List.forall_mem_append.2 ⟨typePart_of_bound hsecond, fun c hc => ?_⟩
    obtain ⟨xs, hxs, hc⟩ := List.mem_flatten.1 hc
    exact typePart_of_bound (hxss xs hxs) c hc
  · -- a simple name, and a look at what follows
    rintro acc cs - ⟨_, _, ⟨p, rfl⟩, ⟨_, _, ⟨_, htype, rfl⟩, ⟨_, _, ⟨q, rfl⟩, ⟨_, _, hlook,
      ⟨_, hv, rfl⟩, rfl⟩, rfl⟩, rfl⟩, rfl⟩ -
    obtain rfl : _ = [] := hlook.elim id And.left
    exact shape_cast [] (exists_of_simpleCastType htype) (by simp) hv
  · -- any other type
    rintro acc cs - ⟨_, _, ⟨p, rfl⟩, ⟨_, _, ⟨rfl, -⟩, ⟨_, _, ⟨_, htype, rfl⟩, ⟨_, _, ⟨q, rfl⟩,
      ⟨_, hv, rfl⟩, rfl⟩, rfl⟩, rfl⟩, rfl⟩ -
    exact shape_cast [] (exists_of_castType htype) (by simp) hv

/-- A symbol is one of some symbols. -/
theorem exists_of_anySym {ss : List String} {acc ts : List Tree}
    (h : (anySym ss).Yields Expected acc ts) : ∃ t, ts = [.leaf none t] := by
  obtain ⟨g, hg, h⟩ := exists_of_yields_choice h
  obtain ⟨s, -, rfl⟩ := List.mem_map.1 hg
  exact h

theorem shapely_unary (arrow : Bool) : Shapely P (.node .unaryExpression (cat
    [.role .operator (anySym ["+", "-", "!", "~"]),
      .role .operand (.rule (.expression 16 arrow))])) := by
  refine ⟨by simp, ?_⟩
  rintro acc cs - ⟨_, _, ⟨_, hop, rfl⟩, ⟨_, ⟨a, rfl, -, ha⟩, rfl⟩, rfl⟩ -
  obtain ⟨o, rfl⟩ := exists_of_anySym hop
  exact ⟨o, _, rfl, role_withRole _ _, ha.withRole _⟩

@[simp] theorem shapely_expressionStatement : Shapely P expressionStatement := by
  simp [expressionStatement, expression]

@[simp] theorem shapely_throwStatement : Shapely P throwStatement := by
  simp [throwStatement, expression]

@[simp] theorem shapely_switchExpression : Shapely P switchExpression := by
  simp [switchExpression, switchBlock, switchLabel, pattern, labelExpression, plainType, block,
    statement]

@[simp] theorem shapely_assignment : Shapely P assignment := by
  simp [assignment, expression]

theorem shapely_operand (arrow : Bool) : Shapely Good (operand arrow) := by
  cases arrow <;> simp [operand, shapely_unary]

theorem shapely_binaryStep (arrow : Bool) (op : String × Nat) :
    Shapely (One Operand) (binaryStep arrow op) := by
  refine ⟨by simp, ?_⟩
  rintro acc cs ⟨a, rfl, -, ha⟩ ⟨_, _, ⟨_, rfl, rfl⟩, ⟨_, _, ⟨_, ⟨o, rfl⟩, rfl⟩,
    ⟨_, ⟨b, rfl, -, hb⟩, rfl⟩, rfl⟩, rfl⟩ -
  exact ⟨_, o, _, rfl, role_withRole _ _, ha.withRole _, role_withRole _ _, hb.withRole _⟩

theorem shapely_ternaryStep (arrow : Bool) : Shapely (One Operand) (ternaryStep arrow) := by
  refine ⟨by simp [expression], ?_⟩
  rintro acc cs ⟨c, rfl, -, hc⟩ ⟨_, _, ⟨_, rfl, rfl⟩, ⟨_, _, ⟨p, rfl⟩, ⟨_, _,
    ⟨_, ⟨a, rfl, -, ha⟩, rfl⟩, ⟨_, _, ⟨q, rfl⟩, ⟨_, ⟨b, rfl, -, hb⟩, rfl⟩, rfl⟩, rfl⟩, rfl⟩, rfl⟩ -
  exact ⟨_, p, _, q, _, rfl, role_withRole _ _, hc.withRole _, role_withRole _ _, ha.withRole _,
    role_withRole _ _, hb.withRole _⟩

/-- What an expression continues with. -/
theorem continuation_cases {level : Nat} {arrow : Bool} {g : Phrase}
    (h : g ∈ ((binaryOperators.filter (fun op => level ≤ op.2)).map (binaryStep arrow)) ++
      (if level ≤ 10 then [instanceofStep] else []) ++
      (if level ≤ 3 then [ternaryStep arrow] else []) ++
      (if level ≤ 15 then [updateStep] else [])) :
    (∃ op, g = binaryStep arrow op) ∨ g = instanceofStep ∨ g = ternaryStep arrow ∨
      g = updateStep := by
  simp only [List.mem_append, List.mem_map] at h
  rcases h with ((⟨op, -, rfl⟩ | h) | h) | h
  · exact .inl ⟨op, rfl⟩
  · split at h <;> simp_all
  · split at h <;> simp_all
  · split at h <;> simp_all

theorem one_of_expressionRule {level : Nat} {arrow : Bool} {ts : List Tree}
    (h : (expressionRule level arrow).Yields Expected [] ts) : One Operand ts := by
  refine one_of_yields_chain (shapely_operand arrow) ?_ ⟨solo_operand arrow, ?_⟩ (fun _ h => h)
    Good.nil h
  · rw [shapely_choice]
    intro g hg
    rcases continuation_cases hg with ⟨op, rfl⟩ | rfl | rfl | rfl
    · exact shapely_binaryStep arrow op
    · simp [instanceofStep, anyType]
    · exact shapely_ternaryStep arrow
    · simp [updateStep]
  · rw [solo_choice]
    intro g hg
    rcases continuation_cases hg with ⟨op, rfl⟩ | rfl | rfl | rfl <;> exact ⟨rfl, by decide⟩

theorem one_of_primaryRule {ts : List Tree} (h : primaryRule.Yields Expected [] ts) :
    One Operand ts :=
  one_of_yields_chain shapely_primaryBase shapely_primaryStep
    ⟨solo_primaryBase, solo_primaryStep⟩ (fun _ h => h) Good.nil h

/-! ## Rules -/

@[simp] theorem shapely_modifiers : Shapely P modifiers := by
  simp [modifiers, annotationForm, shapely_choice]

@[simp] theorem shapely_variableDeclarator : Shapely P variableDeclarator := by
  simp [variableDeclarator, declaredName, expression]

@[simp] theorem shapely_declarators : Shapely P declarators := by
  simp [declarators, plainType]

@[simp] theorem shapely_localVariables : Shapely Good localVariables := by
  simp [localVariables]

@[simp] theorem shapely_typeParameters : Shapely P typeParameters := by
  simp [typeParameters, typeBound, annotationForm, anyType]

theorem shapely_statement : ∀ g ∈ controlStatements, Shapely P g := by
  simp [controlStatements, ifStatement, whileStatement, doStatement, enhancedForStatement,
    forStatement, tryStatement, tryResourcesStatement, resources, catchClause, finallyClause,
    returnStatement, breakStatement, continueStatement, assertStatement, synchronizedStatement,
    yieldStatement, declaredName, block, statement, expression, plainType]

@[simp] theorem shapely_typeList : Shapely P typeList := by
  simp [typeList, anyType]

@[simp] theorem shapely_superInterfaces : Shapely P superInterfaces := by
  simp [superInterfaces]

@[simp] theorem shapely_permitted : Shapely P permitted := by simp [permitted]

@[simp] theorem shapely_classDeclaration : Shapely P classDeclaration := by
  simp [classDeclaration, anyType, classBody]

@[simp] theorem shapely_recordDeclaration : Shapely P recordDeclaration := by
  simp [recordDeclaration, formalParameters, classBody]

@[simp] theorem shapely_interfaceDeclaration : Shapely P interfaceDeclaration := by
  simp [interfaceDeclaration]

@[simp] theorem shapely_annotationTypeDeclaration : Shapely P annotationTypeDeclaration := by
  simp [annotationTypeDeclaration, atInterface]

@[simp] theorem shapely_enumDeclaration : Shapely P enumDeclaration := by
  simp [enumDeclaration]

@[simp] theorem shapely_methodDeclaration : Shapely P methodDeclaration := by
  simp [methodDeclaration, throwsClause, annotationForm, formalParameters, block, plainType,
    anyType]

@[simp] theorem shapely_constructorDeclaration : Shapely P constructorDeclaration := by
  simp [constructorDeclaration, constructorCall, throwsClause, formalParameters, statement,
    anyType]

@[simp] theorem shapely_classMember : Shapely P classMember := by
  simp [classMember, typeDeclarations, nestedDeclarations, compactConstructor, block]

@[simp] theorem shapely_constantDeclaration : Shapely P constantDeclaration := by
  simp [constantDeclaration]

@[simp] theorem shapely_parameter : Shapely P parameter := by
  simp [parameter, declaredName, annotationForm, plainType]

theorem shapely_statementRule : Shapely P statementRule := by
  rw [statementRule, shapely_choice, List.forall_mem_append]
  refine ⟨shapely_statement, ?_⟩
  simp [packageDeclaration, moduleDeclaration, moduleDirective, labeledStatement, plainStatement,
    typeDeclarations, nestedDeclarations, annotationForm, statement]

/-- Every rule builds what is expected of it. -/
theorem expected_rules (r : Rule) (ts : List Tree) (h : (rules r).Yields Expected [] ts) :
    Expected r ts := by
  have hgood : Shapely Good (rules r) → Good ts :=
    fun hr => good_of_yields (fun _ h => h) hr Good.nil h
  cases r with
  | program =>
    obtain ⟨cs, hcs, rfl⟩ := h
    refine ⟨cs, rfl, good_of_yields (fun _ h => h) ?_ Good.nil hcs⟩
    simp [statement]
  | annotationForm =>
    refine one_of_solo ?_ (hgood shapely_annotationRule) h
    exact .inr ⟨trivial, trivial, trivial⟩
  | elementValue =>
    refine one_of_solo ?_ (hgood ?_) h
    · exact ⟨trivial, solo_rule (fun _ h => h) (fun _ h => h),
        solo_rule (fun _ h => h) (fun _ _ => trivial)⟩
    · simp [rules, elementValueRule, annotationForm, expression]
  | plainType =>
    refine one_of_solo ?_ (hgood ?_) h
    · simp [rules, plainTypeRule, simpleType, primitiveType, typeName, scopedStep, cat, Solo, Blank]
    · simp [rules, plainTypeRule]
  | type =>
    refine one_of_solo ?_ (hgood ?_) h
    · exact ⟨trivial, solo_rule (fun _ h => h) (fun _ h => h)⟩
    · simp [rules, typeRule, plainType, annotationForm]
  | expression level arrow => exact one_of_expressionRule h
  | primary => exact one_of_primaryRule h
  | arrayInitializer =>
    refine hgood ?_
    simp [rules, arrayInitializerRule, expression]
  | recordPattern =>
    refine hgood ?_
    simp [rules, recordPatternRule, plainType]
  | block =>
    refine hgood ?_
    simp [rules, blockRule, statement]
  | statement => exact hgood shapely_statementRule
  | formalParameters =>
    refine hgood ?_
    simp [rules, formalParametersRule, annotationForm, plainType]
  | classBody =>
    refine hgood ?_
    simp [rules, classBodyRule]
  | enumBody =>
    refine hgood ?_
    simp [rules, enumBodyRule, enumConstant, classBody]
  | interfaceBody =>
    refine hgood ?_
    simp [rules, interfaceBodyRule, typeDeclarations, nestedDeclarations]
  | annotationTypeBody =>
    refine hgood ?_
    simp [rules, annotationTypeBodyRule, annotationElement, nestedDeclarations, plainType]

end MessageHarvest.Syntax

namespace MessageHarvest.Source

theorem parse_eq_ok_iff {source : String} {t : Tree} : parse source = .ok t ↔
    ∃ r, readProgram (Token.ofSource source) = .ok r ∧ r.trees.headD default = t := by
  unfold parse
  dsimp only
  cases readProgram (Token.ofSource source) with
  | error far => exact ⟨nofun, nofun⟩
  | ok r =>
    constructor
    · exact fun h => ⟨r, rfl, Except.ok.inj h⟩
    · rintro ⟨_, ⟨⟩, rfl⟩
      rfl

/-- A source that can be read is a program whose children are well shaped. -/
theorem wellShaped_of_parse {source : String} {t : Tree} (h : parse source = .ok t) :
    ∃ cs, t = .node none .program cs ∧ ∀ c ∈ cs, c.WellShaped := by
  obtain ⟨r, hr, rfl⟩ := parse_eq_ok_iff.1 h
  obtain ⟨cs, hcs, hgood⟩ := Grammar.expected_of_read Syntax.expected_rules _ hr
  rw [hcs]
  exact ⟨cs, rfl, hgood⟩

end MessageHarvest.Source
