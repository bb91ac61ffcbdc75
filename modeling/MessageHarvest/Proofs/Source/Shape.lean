import MessageHarvest.Proofs.Source.Grammar
import MessageHarvest.Proofs.Source.Marks
import MessageHarvest.Source.Model
import MessageHarvest.Source.Syntax.Declarations

/-! # The shapes of nodes

    The extraction model takes some nodes apart by the roles of their children
    and keeps only the children that it names. `Tree.Shape` says what the
    children of such a node are, and `Tree.WellShaped` that every node of a
    tree has its shape. The grammar builds no other trees:

    * `Shapely`, `Solo`: what is left to show of a phrase, by recursion on it,
      so that all the phrases without a special node come for free.
    * `wellShaped_of_parse`: the children of a source that can be read are well
      shaped. -/

namespace MessageHarvest

namespace Tree

/-- A node of a kind that satisfies `p`. -/
def IsNode (p : Kind → Prop) (t : Tree) : Prop := ∃ k, t.kind? = some k ∧ p k

/-- The kinds of operands: all but those of annotations and type arguments. -/
def Kind.Operates (k : Kind) : Prop := k.isAnnotationForm = false ∧ k ≠ .typeArguments

/-- A node that can be an operand. -/
abbrev Operand (t : Tree) : Prop := t.IsNode Kind.Operates

/-- What stands before the name in a method invocation: nothing, or the object
    and behind it punctuation, `super` and type arguments. -/
def Receiver (cs : List Tree) : Prop :=
  cs = [] ∨ ∃ object rest, cs = object :: rest ∧ object.role = some .object ∧ object.Operand ∧
    ∀ c ∈ rest, c.role = none ∧ (c.marks = [] ∨ c.kind? = some .typeArguments)

/-- What stands before the value of a cast: its types, and punctuation. -/
def TypePart (c : Tree) : Prop := c.role = some .type ∨ (c.role = none ∧ c.marks = [])

/-- What the children of a node are, as far as the model takes the node apart. -/
def Shape : Kind → List Tree → Prop
  | .program, _ => False
  | .identifier, cs | .characterLiteral, cs | .decimalIntegerLiteral, cs
  | .hexIntegerLiteral, cs | .octalIntegerLiteral, cs | .binaryIntegerLiteral, cs
  | .decimalFloatingPointLiteral, cs | .hexFloatingPointLiteral, cs | .trueLiteral, cs
  | .falseLiteral, cs | .nullLiteral, cs | .importDeclaration, cs => ∀ c ∈ cs, c.marks = []
  | .argumentList, cs => ∀ c ∈ cs, c.Operand ∨ c.kind? = none
  | .parenthesizedExpression, cs => ∃ p e q, cs = [.leaf none p, e, .leaf none q] ∧ e.Operand
  | .binaryExpression, cs => ∃ a o b, cs = [a, .leaf (some .operator) o, b] ∧
    a.role = some .left ∧ a.Operand ∧ b.role = some .right ∧ b.Operand
  | .unaryExpression, cs => ∃ o a, cs = [.leaf (some .operator) o, a] ∧
    a.role = some .operand ∧ a.Operand
  | .ternaryExpression, cs => ∃ c p a q b, cs = [c, .leaf none p, a, .leaf none q, b] ∧
    c.role = some .condition ∧ c.Operand ∧ a.role = some .consequence ∧ a.Operand ∧
    b.role = some .alternative ∧ b.Operand
  | .castExpression, cs => ∃ front v, cs = front ++ [v] ∧ v.role = some .value ∧ v.Operand ∧
    (∃ t ∈ front, t.role = some .type) ∧ ∀ c ∈ front, c.TypePart
  | .fieldAccess, cs => ∃ object rest, cs = object :: rest ∧ object.role = some .object ∧
    object.Operand ∧ ∀ c ∈ rest, c.marks = []
  | .methodInvocation, cs => ∃ front name args, cs = front ++ [name, args] ∧ Receiver front ∧
    name.role = some .name ∧ name.marks = [] ∧
    args.role = some .arguments ∧ args.kind? = some .argumentList
  | .annotationForm, cs | .markerForm, cs => ∃ p name rest, cs = .leaf none p :: name :: rest ∧
    name.role = some .name ∧ name.marks = [] ∧ (rest = [] ∨ ∃ args, rest = [args] ∧
      args.role = some .arguments ∧ args.kind? = some .annotationArgumentList)
  | .elementValuePair, cs => ∃ key p v, cs = [key, .leaf none p, v] ∧
    key.role = some .key ∧ key.marks = [] ∧ v.role = some .value
  | _, _ => True

/-- The kinds of nodes that have a shape. -/
abbrev shapedKinds : List Kind :=
  [.program, .identifier, .characterLiteral, .decimalIntegerLiteral, .hexIntegerLiteral,
   .octalIntegerLiteral, .binaryIntegerLiteral, .decimalFloatingPointLiteral,
   .hexFloatingPointLiteral, .trueLiteral, .falseLiteral, .nullLiteral, .importDeclaration,
   .argumentList, .parenthesizedExpression, .binaryExpression, .unaryExpression,
   .ternaryExpression, .castExpression, .fieldAccess, .methodInvocation, .annotationForm,
   .markerForm, .elementValuePair]

theorem shape_of_not_mem {k : Kind} (h : k ∉ shapedKinds) (cs : List Tree) : Shape k cs := by
  cases k <;> first | exact trivial | exact absurd (by decide) h

/-- An annotation has arguments or is a marker. -/
theorem eq_or_eq_of_isAnnotationForm {k : Kind} (h : k.isAnnotationForm = true) :
    k = .annotationForm ∨ k = .markerForm := by
  cases k <;> first | exact .inl rfl | exact .inr rfl | cases h

theorem Shape.annotated {k : Kind} {cs : List Tree} (hshape : Shape k cs)
    (hk : k.isAnnotationForm = true) : Shape .annotationForm cs := by
  obtain rfl | rfl := eq_or_eq_of_isAnnotationForm hk
  · exact hshape
  · exact hshape

/-- Every node has its shape. -/
inductive WellShaped : Tree → Prop where
  | leaf {r t} : WellShaped (.leaf r t)
  | node {r k cs} : Shape k cs → (∀ c ∈ cs, WellShaped c) → WellShaped (.node r k cs)

theorem WellShaped.withRole {t : Tree} (h : t.WellShaped) (r : Role) :
    (t.withRole r).WellShaped := by
  cases h with
  | leaf => exact .leaf
  | node hshape hcs => exact .node hshape hcs

theorem IsNode.withRole {p : Kind → Prop} {t : Tree} (h : t.IsNode p) (r : Role) :
    (t.withRole r).IsNode p := by
  obtain ⟨k, hk, hp⟩ := h
  exact ⟨k, (kind?_withRole r t).trans hk, hp⟩

end Tree

namespace Syntax

open Grammar MessageHarvest.Tree

/-! ## What is expected of the rules -/

/-- Well shaped trees. -/
def Good (ts : List Tree) : Prop := ∀ t ∈ ts, t.WellShaped

/-- One tree that is well shaped and satisfies `P`. -/
def One (P : Tree → Prop) (ts : List Tree) : Prop := ∃ t, ts = [t] ∧ t.WellShaped ∧ P t

/-- What the rules build. -/
def Expected : Rule → List Tree → Prop
  | .program, ts => ∃ cs, ts = [.node none .program cs] ∧ Good cs
  | .expression _ _, ts | .primary, ts => One Operand ts
  | .annotationForm, ts | .elementValue, ts | .plainType, ts | .type, ts =>
    One (IsNode fun _ => True) ts
  | _, ts => Good ts

theorem Good.append {xs ys : List Tree} (hx : Good xs) (hy : Good ys) : Good (xs ++ ys) :=
  List.forall_mem_append.2 ⟨hx, hy⟩

theorem Good.nil : Good [] := fun _ h => nomatch h

theorem One.good {P : Tree → Prop} {ts : List Tree} (h : One P ts) : Good ts := by
  obtain ⟨t, rfl, ht, -⟩ := h
  exact List.forall_mem_singleton.2 ht

theorem good_of_expected {r : Rule} (hr : r ≠ .program) {ts : List Tree} (h : Expected r ts) :
    Good ts := by
  cases r with
  | program => exact absurd rfl hr
  | expression | primary | annotationForm | elementValue | plainType | type => exact One.good h
  | _ => exact h

/-! ## Phrases that build well shaped trees -/

/-- Every node that a phrase builds, behind trees that satisfy `P`, has its
    shape. In a chain and behind given trees only those are known to be good. -/
def Shapely (P : List Tree → Prop) : Phrase → Prop
  | .node k g => Shapely P g ∧
    ∀ acc cs, P acc → g.Yields Expected acc cs → Good cs → Shape k cs
  | .seq a b | .alt a b => Shapely P a ∧ Shapely P b
  | .star g | .role _ g => Shapely P g
  | .given a b | .chain a b => Shapely P a ∧ Shapely Good b
  | .rule r => r ≠ .program
  | _ => True

theorem good_of_yields {P : List Tree → Prop} (hP : ∀ acc, P acc → Good acc) {g : Phrase}
    (hg : Shapely P g) {acc ts : List Tree} (hacc : P acc) (h : g.Yields Expected acc ts) :
    Good ts := by
  induction g generalizing P acc ts with
  | empty | finish | adjacent | ahead | beforeIs =>
    obtain rfl := h
    exact Good.nil
  | symbol | keyword | word | token | angle =>
    obtain ⟨t, rfl⟩ := h
    exact List.forall_mem_singleton.2 .leaf
  | not g =>
    obtain ⟨rfl, -⟩ := h
    exact Good.nil
  | seq a b iha ihb =>
    obtain ⟨xs, ys, hx, hy, rfl⟩ := h
    exact (iha hP hg.1 hacc hx).append (ihb hP hg.2 hacc hy)
  | alt a b iha ihb =>
    rcases h with h | h
    · exact iha hP hg.1 hacc h
    · exact ihb hP hg.2 hacc h
  | star g ih =>
    obtain ⟨xss, hxss, rfl⟩ := h
    intro t ht
    obtain ⟨xs, hxs, ht⟩ := List.mem_flatten.1 ht
    exact ih hP hg hacc (hxss xs hxs) t ht
  | node k g ih =>
    obtain ⟨cs, hcs, rfl⟩ := h
    have hgood := ih hP hg.1 hacc hcs
    exact List.forall_mem_singleton.2 (.node (hg.2 acc cs hacc hcs hgood) hgood)
  | role r g ih =>
    obtain ⟨xs, hxs, rfl⟩ := h
    intro t ht
    obtain ⟨x, hx, rfl⟩ := List.mem_map.1 ht
    exact (ih hP hg hacc hxs x hx).withRole r
  | given a b iha ihb =>
    obtain ⟨xs, hx, hy⟩ := h
    exact ihb (fun _ h => h) hg.2 (iha hP hg.1 hacc hx) hy
  | chain a b iha ihb =>
    obtain ⟨xs, hx, hchain⟩ := h
    induction hchain with
    | refl => exact iha hP hg.1 hacc hx
    | tail _ hlast ih => exact ihb (fun _ h => h) hg.2 ih hlast
  | before =>
    obtain rfl := h
    exact hP _ hacc
  | rule r => exact good_of_expected hg h

section Combinators

variable {P : List Tree → Prop} {g a b sep : Phrase} {gs : List Phrase}

/-- A node that the model does not take apart needs no more than its parts. -/
@[simp] theorem shapely_node {k : Kind} (hk : k ∉ shapedKinds) :
    Shapely P (.node k g) ↔ Shapely P g :=
  ⟨And.left, fun h => ⟨h, fun _ cs _ _ _ => shape_of_not_mem hk cs⟩⟩

@[simp] theorem shapely_star : Shapely P (.star g) ↔ Shapely P g := Iff.rfl

@[simp] theorem shapely_role (r : Role) : Shapely P (.role r g) ↔ Shapely P g := Iff.rfl

@[simp] theorem shapely_given : Shapely P (.given a b) ↔ Shapely P a ∧ Shapely Good b := Iff.rfl

@[simp] theorem shapely_chain : Shapely P (.chain a b) ↔ Shapely P a ∧ Shapely Good b := Iff.rfl

@[simp] theorem shapely_rule (r : Rule) : Shapely P (.rule r) ↔ r ≠ .program := Iff.rfl

@[simp] theorem shapely_before : Shapely P .before := trivial

@[simp] theorem shapely_beforeIs (ks : List Kind) : Shapely P (.beforeIs ks) := trivial

@[simp] theorem shapely_empty : Shapely P .empty := trivial

@[simp] theorem shapely_finish : Shapely P .finish := trivial

@[simp] theorem shapely_adjacent : Shapely P .adjacent := trivial

@[simp] theorem shapely_ahead (q : Token.Kind → List Char → Bool) : Shapely P (.ahead q) := trivial

@[simp] theorem shapely_not : Shapely P (.not g) := trivial

@[simp] theorem shapely_angle : Shapely P .angle := trivial

@[simp] theorem shapely_token (k : Token.Kind) : Shapely P (.token k) := trivial

@[simp] theorem shapely_wordExcept (ws : List String) : Shapely P (wordExcept ws) := trivial

@[simp] theorem shapely_cat_one : Shapely P (cat [a]) ↔ Shapely P a := Iff.rfl

@[simp] theorem shapely_cat_cons :
    Shapely P (cat (a :: b :: gs)) ↔ Shapely P a ∧ Shapely P (cat (b :: gs)) := Iff.rfl

@[simp] theorem shapely_choice_one : Shapely P (choice [a]) ↔ Shapely P a := Iff.rfl

@[simp] theorem shapely_choice_cons :
    Shapely P (choice (a :: b :: gs)) ↔ Shapely P a ∧ Shapely P (choice (b :: gs)) := Iff.rfl

theorem shapely_choice : Shapely P (choice gs) ↔ ∀ g ∈ gs, Shapely P g := by
  induction gs with
  | nil => simp [choice]
  | cons g gs ih =>
    cases gs with
    | nil => simp
    | cons g' gs => rw [List.forall_mem_cons, ← ih, shapely_choice_cons]

@[simp] theorem shapely_sym (s : String) : Shapely P (sym s) := trivial

@[simp] theorem shapely_kw (w : String) : Shapely P (kw w) := trivial

@[simp] theorem shapely_noneOf (ws : List String) : Shapely P (noneOf ws) := trivial

@[simp] theorem shapely_opt : Shapely P (opt g) ↔ Shapely P g := and_iff_left trivial

@[simp] theorem shapely_plus : Shapely P (plus g) ↔ Shapely P g := and_self_iff

@[simp] theorem shapely_separated : Shapely P (separated g sep) ↔ Shapely P g ∧ Shapely P sep :=
  ⟨fun h => ⟨h.1, h.2.1⟩, fun h => ⟨h.1, h.2, h.1⟩⟩

@[simp] theorem shapely_commas1 : Shapely P (commas1 g) ↔ Shapely P g := by simp [commas1]

@[simp] theorem shapely_commas : Shapely P (commas g) ↔ Shapely P g := by simp [commas]

@[simp] theorem shapely_parens : Shapely P (parens g) ↔ Shapely P g := by simp [parens]

@[simp] theorem shapely_braces : Shapely P (braces g) ↔ Shapely P g := by simp [braces]

@[simp] theorem shapely_anySym (ss : List String) : Shapely P (anySym ss) := by
  simp [anySym, shapely_choice]

end Combinators

/-! ## Phrases that build one node -/

/-- A phrase builds nothing. -/
def Blank : Phrase → Prop
  | .empty | .finish | .adjacent | .ahead _ | .beforeIs _ | .not _ => True
  | _ => False

/-- A phrase builds one node of a kind that satisfies `p`. -/
def Solo (p : Kind → Prop) : Phrase → Prop
  | .node k _ => p k
  | .alt a b | .chain a b => Solo p a ∧ Solo p b
  | .seq a b => (Solo p a ∧ Blank b) ∨ (Blank a ∧ Solo p b)
  | .given _ b => Solo p b
  | .not g => g = .empty
  | .rule r => ∀ ts, Expected r ts → ∃ t, ts = [t] ∧ t.IsNode p
  | _ => False

theorem eq_nil_of_yields {g : Phrase} (hg : Blank g) {acc ts : List Tree}
    (h : g.Yields Expected acc ts) : ts = [] := by
  cases g with
  | empty | finish | adjacent | ahead | beforeIs => exact h
  | not g => exact h.1
  | _ => exact absurd hg id

theorem solo_of_yields {p : Kind → Prop} {g : Phrase} (hg : Solo p g) {acc ts : List Tree}
    (h : g.Yields Expected acc ts) : ∃ t, ts = [t] ∧ t.IsNode p := by
  induction g generalizing acc ts with
  | node k g =>
    obtain ⟨cs, -, rfl⟩ := h
    exact ⟨_, rfl, k, rfl, hg⟩
  | alt a b iha ihb =>
    rcases h with h | h
    · exact iha hg.1 h
    · exact ihb hg.2 h
  | seq a b iha ihb =>
    obtain ⟨xs, ys, hx, hy, rfl⟩ := h
    rcases hg with ⟨ha, hb⟩ | ⟨ha, hb⟩
    · rw [eq_nil_of_yields hb hy, List.append_nil]
      exact iha ha hx
    · rw [eq_nil_of_yields ha hx, List.nil_append]
      exact ihb hb hy
  | chain a b iha ihb =>
    obtain ⟨xs, hx, hchain⟩ := h
    cases hchain with
    | refl => exact iha hg.1 hx
    | tail _ hlast => exact ihb hg.2 hlast
  | given a b iha ihb =>
    obtain ⟨xs, -, hy⟩ := h
    exact ihb hg hy
  | not g => exact absurd hg h.2
  | rule r => exact hg ts h
  | _ => exact absurd hg id

@[simp] theorem solo_choice_one {p : Kind → Prop} {g : Phrase} :
    Solo p (choice [g]) ↔ Solo p g := Iff.rfl

@[simp] theorem solo_choice_cons {p : Kind → Prop} {g g' : Phrase} {gs : List Phrase} :
    Solo p (choice (g :: g' :: gs)) ↔ Solo p g ∧ Solo p (choice (g' :: gs)) := Iff.rfl

theorem solo_choice {p : Kind → Prop} {gs : List Phrase} :
    Solo p (choice gs) ↔ ∀ g ∈ gs, Solo p g := by
  induction gs with
  | nil => simp [choice, Solo]
  | cons g gs ih =>
    cases gs with
    | nil => simp
    | cons g' gs => rw [List.forall_mem_cons, ← ih, solo_choice_cons]

end Syntax

end MessageHarvest
