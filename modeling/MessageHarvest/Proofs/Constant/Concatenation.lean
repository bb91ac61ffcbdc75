import MessageHarvest.Proofs.Constant.Extension
import MessageHarvest.Proofs.Literal.Escapes

/-! # The text of a concatenation

    A concatenation is built with `+` from string literals and from constants
    that are characters, in such a way that one side of every `+` is text.
    `Concatenates e uss` says so, and that `uss` are the code units of the
    operands of `e` in order.

    A text is made of characters and cannot hold half of a pair, so every
    operand becomes text by itself. The text of a concatenation is therefore
    put together from the texts of its operands, and it is the text of all
    their code units in a row exactly if no boundary between operands parts a
    pair. -/

namespace MessageHarvest

open Literal (Item Spells decodeString quoted)

namespace Evaluator

/-- `e` is a concatenation, and `uss` are the code units of its operands. -/
inductive Concatenates : Expr → List (List UInt16) → Prop where
  | literal {line : Nat} {body : List Char} {us : List UInt16} : Spells Item.InString body us →
      Concatenates (.literal line (.text (decodeString (quoted body)))) [us]
  | texts {line : Nat} {a b : Expr} {xs ys : List (List UInt16)} :
      Concatenates a xs → Concatenates b ys → Concatenates (.binary line .add a b) (xs ++ ys)
  /-- Any constant that is a character, on the left of text. -/
  | charLeft {line : Nat} {a b : Expr} {u : UInt16} {ys : List (List UInt16)} :
      standard.evaluate a = .ok (some (.char u)) → Concatenates b ys →
      Concatenates (.binary line .add a b) ([u] :: ys)
  | charRight {line : Nat} {a b : Expr} {u : UInt16} {xs : List (List UInt16)} :
      Concatenates a xs → standard.evaluate b = .ok (some (.char u)) →
      Concatenates (.binary line .add a b) (xs ++ [[u]])

/-! ## One `+` -/

theorem evaluate_literal (line : Nat) (l : Literal) :
    standard.evaluate (.literal line l) = .ok l.value? := rfl

theorem evaluate_binary {line : Nat} {op : BinaryOp} {a b : Expr} {x y : Value}
    (ha : standard.evaluate a = .ok (some x)) (hb : standard.evaluate b = .ok (some y)) :
    standard.evaluate (.binary line op a b) = Operator.applyBinary op x y := by
  rw [local_standard.evaluate_eq]
  show (standard.evaluate a >>= _) = _
  rw [ha]
  show (standard.evaluate b >>= _) = _
  rw [hb]
  rfl

/-- With text on one side, `+` puts the string conversions together. -/
theorem applyBinary_add_text {x y : Value} (h : x.text?.isSome ∨ y.text?.isSome) :
    Operator.applyBinary .add x y = .ok (some (.text (x.toText ++ y.toText))) :=
  if_pos ⟨rfl, h⟩

/-- The string conversion of a character is the text of its code unit. -/
theorem toText_char (u : UInt16) : (Value.char u).toText = String.ofList (Text.ofUnits [u]) := rfl

/-! ## Whole concatenations -/

/-- Every operand becomes text by itself. -/
theorem evaluate_of_concatenates {e : Expr} {uss : List (List UInt16)} (h : Concatenates e uss) :
    standard.evaluate e = .ok (some (.text (String.ofList (uss.flatMap Text.ofUnits)))) := by
  induction h with
  | literal hspells =>
    rw [evaluate_literal, Literal.decodeString_quoted hspells, List.flatMap_singleton]
    rfl
  | texts _ _ iha ihb =>
    rw [evaluate_binary iha ihb, applyBinary_add_text (.inl rfl), List.flatMap_append,
      String.ofList_append]
    rfl
  | charLeft ha _ ihb =>
    rw [evaluate_binary ha ihb, applyBinary_add_text (.inr rfl), List.flatMap_cons,
      String.ofList_append, toText_char]
    rfl
  | charRight _ hb iha =>
    rw [evaluate_binary iha hb, applyBinary_add_text (.inl rfl), List.flatMap_append,
      String.ofList_append, toText_char, List.flatMap_singleton]
    rfl

theorem evaluateText_of_concatenates {e : Expr} {uss : List (List UInt16)}
    (h : Concatenates e uss) :
    standard.evaluateText e = .ok (some (String.ofList (uss.flatMap Text.ofUnits))) := by
  rw [evaluateText, evaluate_of_concatenates h]
  rfl

/-- Two operands have one boundary. -/
theorem partedWithin_pair_iff {us vs : List UInt16} :
    Text.PartedWithin [us, vs] ↔ Text.Parted us vs := by
  constructor
  · rintro ⟨before, after, heq, hlast, hhead⟩
    match before, heq with
    | [], _ => cases hlast
    | [_], heq =>
      cases heq
      exact ⟨by simpa using hlast, by simpa using hhead⟩
    | [_, _], heq =>
      cases heq
      cases hhead
  · rintro ⟨hlast, hhead⟩
    exact ⟨[us], [vs], rfl, by simpa using hlast, by simpa using hhead⟩

/-- The text of a concatenation is put together from the texts that the code
    units of its operands stand for. It is the text that all of them in a row
    stand for exactly if no boundary between operands parts a pair. So a
    literal that is split between two of its code units, into two literals or a
    literal and a character, keeps its text exactly if the split parts no pair. -/
theorem evaluateText_concatenation :
    (∀ (e : Expr) (uss : List (List UInt16)), Concatenates e uss →
      ∃ s ts, standard.evaluateText e = .ok (some s) ∧
        List.Forall₂ Text.Lossy uss ts ∧ s.toList = ts.flatten ∧
        (Text.Lossy uss.flatten s.toList ↔ ¬ Text.PartedWithin uss)) ∧
    ∀ (body : List Char) (us vs : List UInt16) (e : Expr),
      Spells Item.InString body (us ++ vs) → Concatenates e [us, vs] →
      (standard.evaluateText e = .ok (some (decodeString (quoted body))) ↔
        ¬ Text.Parted us vs) := by
  constructor
  · intro e uss h
    refine ⟨_, uss.map Text.ofUnits, evaluateText_of_concatenates h, ?_, ?_, ?_⟩
    · rw [List.forall₂_map_right_iff, List.forall₂_same]
      exact fun us _ => Text.lossy_ofUnits us
    · rw [String.toList_ofList, List.flatMap_def]
    · rw [String.toList_ofList, ← Text.ofUnits_eq_iff, Text.ofUnits_flatten_iff]
  · intro body us vs e hspells h
    rw [evaluateText_of_concatenates h, Literal.decodeString_quoted hspells,
      ← partedWithin_pair_iff, ← Text.ofUnits_flatten_iff]
    have hrow : [us, vs].flatten = us ++ vs := by simp
    rw [hrow]
    constructor
    · intro heq
      exact (String.ofList_injective (Option.some.inj (Except.ok.inj heq))).symm
    · intro heq
      rw [heq]

/-- The literal that spells one code unit as an escape. -/
def unitLiteral (u : UInt16) : Expr :=
  .literal 1 (.text (decodeString (quoted (Item.ofUnit true u).spelling)))

theorem concatenates_unitLiteral (u : UInt16) : Concatenates (unitLiteral u) [[u]] := by
  have hspells := Literal.spells_ofUnit true [u]
  rw [List.flatMap_singleton] at hspells
  exact .literal hspells

/-- Halves in the wrong order, with an empty text between them, and a literal
    split behind a pair into a literal and the result of a cast. -/
theorem evaluateText_concatenation_sample :
    (∃ s, standard.evaluateText (.binary 1 .add (.binary 1 .add (unitLiteral 0xDE00)
          (.literal 1 (.text (decodeString (quoted [])))))
          (.literal 1 (.char 0xD83D))) = .ok (some s) ∧
        Text.Lossy [0xDE00, 0xD83D] s.toList) ∧
      standard.evaluateText (.binary 1 .add (.literal 1 (.text (decodeString (quoted ['😀']))))
        (.cast 1 .char (.literal 1 (.int 233)))) =
          .ok (some (decodeString (quoted ['😀', 'é']))) := by
  constructor
  · have hempty : Concatenates (.literal 1 (.text (decodeString (quoted [])))) [[]] :=
      .literal .nil
    have hconcat : Concatenates (.binary 1 .add (.binary 1 .add (unitLiteral 0xDE00)
        (.literal 1 (.text (decodeString (quoted []))))) (.literal 1 (.char 0xD83D))) _ :=
      .charRight (.texts (concatenates_unitLiteral 0xDE00) hempty) (evaluate_literal 1 _)
    obtain ⟨s, -, hs, -, -, hlossy⟩ := evaluateText_concatenation.1 _ _ hconcat
    exact ⟨s, hs, hlossy.2 ((Text.ofUnits_flatten_iff _).1 (by decide))⟩
  · have hpair : Spells Item.InString ['😀'] [0xD83D, 0xDE00] :=
      .cons (i := .plain '😀' (by decide)) (by decide) trivial .nil
    have hwhole : Spells Item.InString ['😀', 'é'] ([0xD83D, 0xDE00] ++ [233]) :=
      .cons (i := .plain '😀' (by decide)) (by decide) trivial
        (.cons (i := .plain 'é' (by decide)) (by decide) trivial .nil)
    have hcast : standard.evaluate (.cast 1 .char (.literal 1 (.int 233))) =
        .ok (some (.char 233)) := rfl
    have hconcat : Concatenates (.binary 1 .add (.literal 1 (.text (decodeString (quoted ['😀']))))
        (.cast 1 .char (.literal 1 (.int 233)))) _ :=
      .charRight (.literal hpair) hcast
    exact (evaluateText_concatenation.2 _ _ _ _ hwhole hconcat).2 (by decide)

/-- The halves of a pair in two literals are two replacement characters, while
    their code units in a row are one character. -/
theorem evaluateText_parted :
    Concatenates (.binary 1 .add (unitLiteral 0xD83D) (unitLiteral 0xDE00))
        [[0xD83D], [0xDE00]] ∧
      standard.evaluateText (.binary 1 .add (unitLiteral 0xD83D) (unitLiteral 0xDE00)) =
        .ok (some "\uFFFD\uFFFD") ∧
      Text.Lossy [0xD83D, 0xDE00] "😀".toList ∧
      ¬ Text.Lossy [0xD83D, 0xDE00] "\uFFFD\uFFFD".toList := by
  have hconcat : Concatenates (.binary 1 .add (unitLiteral 0xD83D) (unitLiteral 0xDE00))
      [[0xD83D], [0xDE00]] :=
    .texts (concatenates_unitLiteral 0xD83D) (concatenates_unitLiteral 0xDE00)
  refine ⟨hconcat, (evaluateText_of_concatenates hconcat).trans (by decide), ?_, ?_⟩
  · rw [← Text.ofUnits_eq_iff]
    decide
  · rw [← Text.ofUnits_eq_iff]
    decide

end Evaluator

end MessageHarvest
