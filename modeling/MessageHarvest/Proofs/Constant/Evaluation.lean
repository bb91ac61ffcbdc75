import MessageHarvest.Proofs.Constant.Word

/-! # The evaluator computes what expressions denote

    Every operator gives a value of the meaning that the reference semantics
    gives it, or none if there is no such meaning, and it never fails. By
    induction over expressions the same holds of the evaluator
    (`evaluate_eq_iff`). -/

namespace MessageHarvest

/-- An outcome is a value of the one meaning that satisfies `P`, or none if no
    meaning does. In particular the evaluation has not failed. -/
def Folds (r : Folded) (P : Meaning → Prop) : Prop :=
  ∃ o : Option Value, r = .ok o ∧ ∀ m, P m ↔ o.map Value.meaning = some m

theorem folds_none {r : Folded} {P : Meaning → Prop} (hr : r = .ok none) (h : ∀ m, ¬ P m) :
    Folds r P := ⟨none, hr, fun m => by simp [h m]⟩

/-! ## Values and their meanings -/

namespace Value

theorem toInt_charWord (u : UInt16) : (u.toUInt32.toInt32).toInt = u.toNat := by
  have hlt := u.toNat_lt
  show (u.toUInt32.toBitVec).toInt = u.toNat
  rw [BitVec.toInt_eq_toNat_of_lt]
  · rfl
  · show 2 * u.toUInt32.toNat < 2 ^ 32
    rw [UInt16.toNat_toUInt32]
    omega

theorem number?_meaning (x : Value) :
    x.meaning.number? = x.int?.map fun a => (a.width, a.toInt) := by
  cases x with
  | char u =>
    show some (IntWidth.w32, (u.toNat : Int)) = some (.w32, (u.toUInt32.toInt32).toInt)
    rw [toInt_charWord]
  | _ => rfl

theorem isText_meaning (x : Value) : x.meaning.isText = x.text?.isSome := by
  cases x <;> rfl

/-- Lone surrogates are the only code units that are no characters. -/
theorem isValidChar_iff (u : UInt16) :
    u.toNat.isValidChar ↔ ¬ (Text.isHigh u || Text.isLow u) = true := by
  have hlt := u.toNat_lt
  simp only [Text.isHigh, Text.isLow, Bool.or_eq_true, Bool.and_eq_true, decide_eq_true_eq,
    UInt16.le_iff_toNat_le, Nat.isValidChar]
  show _ ↔ ¬ ((0xD800 ≤ u.toNat ∧ u.toNat ≤ 0xDBFF) ∨ (0xDC00 ≤ u.toNat ∧ u.toNat ≤ 0xDFFF))
  omega

theorem conversion_meaning (x : Value) : x.meaning.conversion = x.toText := by
  cases x with
  | char u =>
    unfold meaning Meaning.conversion toText Text.ofUnit Text.replacement
    simp only [isValidChar_iff, ite_not]
  | bool b => cases b <;> rfl
  | _ => rfl

/-- A value is determined by its meaning. -/
theorem meaning_inj {x y : Value} (h : x.meaning = y.meaning) : x = y := by
  cases x <;> cases y <;> simp only [meaning, reduceCtorEq, Meaning.text.injEq,
    Meaning.bool.injEq, Meaning.char.injEq, Meaning.int.injEq] at h
  · exact congrArg text h
  · exact congrArg bool h
  · exact congrArg char (UInt16.toNat_inj.1 h)
  · exact congrArg int (IntValue.eq_of_toInt_eq h.1 h.2)

theorem meaning_ofInt (w : IntWidth) (n : Int) :
    (Value.int (.ofInt w n)).meaning = .int w (w.signed n) := by
  simp [meaning]

end Value

/-! ## Binary operators -/

section Binary

open IntWidth (common signed)

variable {op : BinaryOp} {a b : IntValue}

/-- At most one of the three kinds of results is there. -/
theorem numeric_iff {w w' : IntWidth} {m n : Int} {z : Meaning} :
    Numeric op w m w' n z ↔
      (op.result? m n).map (fun r => .int (common w w') (signed (common w w') r)) = some z ∨
      (op.shifted? (common w w) m (n % (common w w).bits).toNat).map
        (fun r => .int (common w w) (signed (common w w) r)) = some z ∨
      (op.compared? m n).map .bool = some z := by
  constructor
  · intro h
    cases h with
    | arithmetic h => exact .inl (by rw [h]; rfl)
    | shift h => exact .inr (.inl (by rw [h]; rfl))
    | comparison h => exact .inr (.inr (by rw [h]; rfl))
  · rintro (h | h | h)
    · obtain ⟨r, hr, rfl⟩ := Option.map_eq_some_iff.1 h
      exact .arithmetic hr
    · obtain ⟨r, hr, rfl⟩ := Option.map_eq_some_iff.1 h
      exact .shift hr
    · obtain ⟨r, hr, rfl⟩ := Option.map_eq_some_iff.1 h
      exact .comparison hr

theorem numeric_of_shifted? {r : Int}
    (h : op.shifted? (common a.width a.width) a.toInt
      (b.toInt % (common a.width a.width).bits).toNat = some r) :
    Folds (Operator.numeric op a b) (Numeric op a.width a.toInt b.width b.toInt) := by
  have hop : op.isShift = true ∧ op.result? a.toInt b.toInt = none ∧
      op.compared? a.toInt b.toInt = none := by
    cases op <;> first | exact ⟨rfl, rfl, rfl⟩ | cases h
  obtain ⟨hshift, hresult, hcompared⟩ := hop
  refine ⟨some (.int (.ofInt (common a.width a.width) r)), ?_, fun z => ?_⟩
  · unfold Operator.numeric
    rw [if_pos hshift, Operator.shift_eq a b h]
    rfl
  · rw [numeric_iff, h, hresult, hcompared, Option.map_some, Option.map_some, Value.meaning_ofInt]
    simp

theorem numeric_of_compared? {c : Bool} (h : op.compared? a.toInt b.toInt = some c) :
    Folds (Operator.numeric op a b) (Numeric op a.width a.toInt b.width b.toInt) := by
  have hop : op.isShift = false ∧ op.result? a.toInt b.toInt = none ∧
      ∀ w d, op.shifted? w a.toInt d = none := by
    cases op <;> first | exact ⟨rfl, rfl, fun _ _ => rfl⟩ | cases h
  obtain ⟨hshift, hresult, hshifted⟩ := hop
  refine ⟨some (.bool c), ?_, fun z => ?_⟩
  · unfold Operator.numeric
    rw [hshift, Operator.comparison_eq, IntValue.toInt_toInt64, IntValue.toInt_toInt64, h]
    rfl
  · rw [numeric_iff, h, hresult, hshifted]
    simp [Value.meaning]

/-- The operators that are neither shifts nor comparisons nor logical. -/
theorem numeric_of_arithmetic (hshift : op.isShift = false) (hne : op ≠ .and ∧ op ≠ .or)
    (hcompared : op.compared? a.toInt b.toInt = none) :
    Folds (Operator.numeric op a b) (Numeric op a.width a.toInt b.width b.toInt) := by
  have hshifted : ∀ w d, op.shifted? w a.toInt d = none := by
    cases op <;> first | exact fun _ _ => rfl | cases hshift
  refine ⟨(op.result? a.toInt b.toInt).map fun r => .int (.ofInt (common a.width b.width) r),
    ?_, fun z => ?_⟩
  · unfold Operator.numeric
    rw [hshift, Operator.comparison_eq, IntValue.toInt_toInt64, IntValue.toInt_toInt64, hcompared]
    simp only [Bool.false_eq_true, if_false]
    split
    · exact absurd rfl hne.1
    · exact absurd rfl hne.2
    · rw [Operator.arithmetic_eq]
      cases op.result? a.toInt b.toInt <;> rfl
  · rw [numeric_iff, hshifted, hcompared, Option.map_map]
    simp [Function.comp_def, Value.meaning_ofInt]

theorem numeric_spec (op : BinaryOp) (a b : IntValue) :
    Folds (Operator.numeric op a b) (Numeric op a.width a.toInt b.width b.toInt) := by
  cases op with
  | shl | shr | ushr => exact numeric_of_shifted? rfl
  | eq | ne | lt | le | gt | ge => exact numeric_of_compared? rfl
  | and | or =>
    refine folds_none rfl fun z => ?_
    rw [numeric_iff]
    simp [BinaryOp.result?, BinaryOp.shifted?, BinaryOp.compared?]
  | _ => exact numeric_of_arithmetic rfl (by decide) rfl

theorem isText_of_number? {x : Meaning} {p : IntWidth × Int} (h : x.number? = some p) :
    x.isText = false := by
  cases x with
  | text t => cases h
  | _ => rfl

/-- Text can only be concatenated. -/
theorem binary_text_iff {x y z : Meaning} (h : (x.isText || y.isText) = true) :
    Binary op x y z ↔ op = .add ∧ z = .text (x.conversion ++ y.conversion) := by
  constructor
  · intro hz
    cases hz with
    | concat _ => exact ⟨rfl, rfl⟩
    | numeric hx hy _ =>
      rw [isText_of_number? hx, isText_of_number? hy] at h
      cases h
    | logical _ => cases h
  · rintro ⟨rfl, rfl⟩
    exact .concat h

/-- Numbers are never concatenated and have no logical operators. -/
theorem binary_number_iff {x y z : Meaning} {w w' : IntWidth} {m n : Int}
    (hx : x.number? = some (w, m)) (hy : y.number? = some (w', n)) :
    Binary op x y z ↔ Numeric op w m w' n z := by
  constructor
  · intro hz
    cases hz with
    | concat h =>
      rw [isText_of_number? hx, isText_of_number? hy] at h
      cases h
    | numeric hx' hy' hz =>
      rw [hx] at hx'
      rw [hy] at hy'
      cases hx'
      cases hy'
      exact hz
    | logical _ => cases hx
  · exact .numeric hx hy

theorem binary_bool_iff {p q : Bool} {z : Meaning} :
    Binary op (.bool p) (.bool q) z ↔ (op.connected? p q).map .bool = some z := by
  constructor
  · intro hz
    cases hz with
    | concat h => cases h
    | numeric hx _ _ => cases hx
    | logical h => rw [h]; rfl
  · intro h
    obtain ⟨c, hc, rfl⟩ := Option.map_eq_some_iff.1 h
    exact .logical hc

/-- A truth value and a number have no operator in common. -/
theorem not_binary_mixed {x y z : Meaning} (h : (x.isText || y.isText) = false)
    (hn : x.number?.isSome ≠ y.number?.isSome) : ¬ Binary op x y z := by
  intro hz
  cases hz with
  | concat h' => rw [h] at h'; cases h'
  | numeric hx hy _ => rw [hx, hy] at hn; exact hn rfl
  | logical _ => exact hn rfl

variable {x y : Value}

theorem applyBinary_text (op : BinaryOp) (h : x.text?.isSome = true ∨ y.text?.isSome = true) :
    Folds (Operator.applyBinary op x y) (Binary op x.meaning y.meaning) := by
  have htext : (x.meaning.isText || y.meaning.isText) = true := by
    rw [Value.isText_meaning, Value.isText_meaning, Bool.or_eq_true]
    exact h
  by_cases hop : op = .add
  · refine ⟨some (.text (x.toText ++ y.toText)), if_pos ⟨hop, h⟩, fun z => ?_⟩
    rw [binary_text_iff htext, Value.conversion_meaning, Value.conversion_meaning]
    simp [hop, Value.meaning, eq_comm]
  · refine folds_none ?_ fun z => ?_
    · unfold Operator.applyBinary
      rw [if_neg fun hadd => hop hadd.1]
      cases x <;> cases y <;> first | rfl | simp [Value.text?] at h
    · rw [binary_text_iff htext]
      simp [hop]

theorem applyBinary_number (op : BinaryOp) (hx : x.int? = some a) (hy : y.int? = some b) :
    Folds (Operator.applyBinary op x y) (Binary op x.meaning y.meaning) := by
  have heq : Operator.applyBinary op x y = Operator.numeric op a b := by
    cases x <;> cases hx <;> cases y <;> cases hy <;>
      simp [Operator.applyBinary, Value.text?, Value.int?]
  have hx' : x.meaning.number? = some (a.width, a.toInt) := by
    rw [Value.number?_meaning, hx]
    rfl
  have hy' : y.meaning.number? = some (b.width, b.toInt) := by
    rw [Value.number?_meaning, hy]
    rfl
  obtain ⟨o, ho, hz⟩ := numeric_spec op a b
  refine ⟨o, heq.trans ho, fun z => ?_⟩
  rw [binary_number_iff hx' hy', hz]

theorem applyBinary_bool (op : BinaryOp) (p q : Bool) :
    Folds (Operator.applyBinary op (.bool p) (.bool q)) (Binary op (.bool p) (.bool q)) := by
  have heq : Operator.logical op p q = op.connected? p q := by
    cases op <;> cases p <;> cases q <;> rfl
  refine ⟨(op.connected? p q).map .bool, ?_, fun z => ?_⟩
  · rw [← heq]
    simp [Operator.applyBinary, Value.text?]
  · rw [binary_bool_iff, Option.map_map]
    rfl

theorem applyBinary_mixed (op : BinaryOp) (hx : x.text? = none) (hy : y.text? = none)
    (h : x.int?.isSome ≠ y.int?.isSome) :
    Folds (Operator.applyBinary op x y) (Binary op x.meaning y.meaning) := by
  refine folds_none ?_ fun z => not_binary_mixed ?_ ?_
  · cases x <;> cases hx <;> cases y <;> cases hy <;>
      first | exact absurd rfl h | simp [Operator.applyBinary, Value.text?, Value.int?]
  · rw [Value.isText_meaning, Value.isText_meaning, hx, hy]
    rfl
  · rw [Value.number?_meaning, Value.number?_meaning, Option.isSome_map, Option.isSome_map]
    exact h

/-- Binary operators compute what they denote. -/
theorem applyBinary_spec (op : BinaryOp) (x y : Value) :
    Folds (Operator.applyBinary op x y) (Binary op x.meaning y.meaning) := by
  cases x with
  | text s => exact applyBinary_text op (.inl rfl)
  | bool p =>
    cases y with
    | text t => exact applyBinary_text op (.inr rfl)
    | bool q => exact applyBinary_bool op p q
    | char u => exact applyBinary_mixed op rfl rfl nofun
    | int b => exact applyBinary_mixed op rfl rfl nofun
  | char u =>
    cases y with
    | text t => exact applyBinary_text op (.inr rfl)
    | bool q => exact applyBinary_mixed op rfl rfl nofun
    | char v => exact applyBinary_number op rfl rfl
    | int b => exact applyBinary_number op rfl rfl
  | int a =>
    cases y with
    | text t => exact applyBinary_text op (.inr rfl)
    | bool q => exact applyBinary_mixed op rfl rfl nofun
    | char v => exact applyBinary_number op rfl rfl
    | int b => exact applyBinary_number op rfl rfl

end Binary

/-! ## Unary operators and casts -/

section Unary

open IntWidth (common signed)

theorem unary_number_iff {op : UnaryOp} {x z : Meaning} {w : IntWidth} {n : Int}
    (hx : x.number? = some (w, n)) :
    Unary op x z ↔ (op.result? n).map (fun r => .int (common w w) (signed (common w w) r)) =
      some z := by
  constructor
  · intro hz
    cases hz with
    | arithmetic hx' h =>
      rw [hx] at hx'
      cases hx'
      rw [h]
      rfl
    | not => cases hx
  · intro h
    obtain ⟨r, hr, rfl⟩ := Option.map_eq_some_iff.1 h
    exact .arithmetic hx hr

/-- Unary operators on a number promote it. -/
theorem applyUnary_number {x : Value} {a : IntValue} (op : UnaryOp) (hx : x.int? = some a) :
    Folds (Operator.applyUnary op x) (Unary op x.meaning) := by
  have hx' : x.meaning.number? = some (a.width, a.toInt) := by
    rw [Value.number?_meaning, hx]
    rfl
  have hcast : a.cast a.width.promoted = .ofInt (common a.width a.width) a.toInt := by
    rw [IntWidth.promoted_eq_common, IntValue.cast_eq]
  refine ⟨(op.result? a.toInt).map fun r => .int (.ofInt (common a.width a.width) r), ?_,
    fun z => ?_⟩
  · unfold Operator.applyUnary
    split
    · cases hx
    · rw [hx]
      simp only [hcast, Operator.negate_ofInt (IntWidth.common_cases a.width a.width),
        Operator.complement_ofInt (a.signed_common a.width)]
      cases op <;> rfl
  · rw [unary_number_iff hx', Option.map_map]
    simp [Function.comp_def, Value.meaning_ofInt]

/-- Unary operators compute what they denote. -/
theorem applyUnary_spec (op : UnaryOp) (x : Value) :
    Folds (Operator.applyUnary op x) (Unary op x.meaning) := by
  cases x with
  | text t =>
    refine folds_none (by cases op <;> rfl) fun z hz => ?_
    cases hz with
    | arithmetic hx _ => cases hx
  | bool b =>
    cases op with
    | not =>
      refine ⟨some (.bool !b), rfl, fun z => ?_⟩
      constructor
      · intro hz
        cases hz with
        | arithmetic hx _ => cases hx
        | not => rfl
      · rintro ⟨⟩
        exact .not
    | _ =>
      refine folds_none rfl fun z hz => ?_
      cases hz with
      | arithmetic hx _ => cases hx
  | char u => exact applyUnary_number op rfl
  | int a => exact applyUnary_number op rfl

theorem cast_int_iff {t : CastType} {w : IntWidth} (ht : t.width? = some w) {x z : Meaning} :
    Cast t x z ↔ x.number?.map (fun p => .int w (signed w p.2)) = some z := by
  constructor
  · intro hz
    cases hz with
    | int ht' hx =>
      rw [ht] at ht'
      cases ht'
      rw [hx]
      rfl
    | char _ => cases ht
    | text => cases ht
  · intro h
    obtain ⟨p, hp, rfl⟩ := Option.map_eq_some_iff.1 h
    exact .int ht hp

theorem cast_char_iff {x z : Meaning} :
    Cast .char x z ↔ x.number?.map (fun p => .char (p.2 % 2 ^ 16).toNat) = some z := by
  constructor
  · intro hz
    cases hz with
    | int ht _ => cases ht
    | char hx => rw [hx]; rfl
  · intro h
    obtain ⟨p, hp, rfl⟩ := Option.map_eq_some_iff.1 h
    exact .char hp

/-- A cast to an integer type keeps the low bits. -/
theorem applyCast_int {t : CastType} {w : IntWidth} (ht : t.width? = some w) (x : Value)
    (h : Operator.applyCast t x = x.int?.map fun a => .int (a.cast w)) :
    Folds (.ok (Operator.applyCast t x)) (Cast t x.meaning) := by
  refine ⟨_, rfl, fun z => ?_⟩
  rw [h, cast_int_iff ht, Value.number?_meaning, Option.map_map, Option.map_map]
  simp [Function.comp_def, IntValue.cast_eq, Value.meaning_ofInt]

/-- Casts compute what they denote. -/
theorem applyCast_spec (t : CastType) (x : Value) :
    Folds (.ok (Operator.applyCast t x)) (Cast t x.meaning) := by
  cases t with
  | byte => exact applyCast_int rfl x rfl
  | short => exact applyCast_int rfl x rfl
  | int => exact applyCast_int rfl x rfl
  | long => exact applyCast_int rfl x rfl
  | char =>
    refine ⟨_, rfl, fun z => ?_⟩
    rw [cast_char_iff, Value.number?_meaning, Operator.applyCast, Option.map_map, Option.map_map]
    simp only [Function.comp_def, Value.meaning, Operator.toNat_charCast]
  | string =>
    cases x with
    | text s =>
      refine ⟨some (.text s), rfl, fun z => ?_⟩
      constructor
      · intro hz
        cases hz with
        | int ht _ => cases ht
        | text => rfl
      · rintro ⟨⟩
        exact .text
    | _ =>
      refine folds_none rfl fun z hz => ?_
      cases hz with
      | int ht _ => cases ht
  | other s =>
    refine folds_none rfl fun z hz => ?_
    generalize x.meaning = y at hz
    cases hz with
    | int ht _ => cases ht

end Unary

/-! ## Expressions -/

/-- Goes on with the value of a result, if it has one. -/
def Folded.andThen (r : Folded) (f : Value → Folded) : Folded :=
  r >>= fun o =>
    match o with
    | none => .ok none
    | some v => f v

theorem Folds.andThen {r : Folded} {f : Value → Folded} {P : Meaning → Prop}
    {Q : Meaning → Meaning → Prop} (hr : Folds r P) (hf : ∀ v, Folds (f v) (Q v.meaning)) :
    Folds (r.andThen f) fun z => ∃ m, P m ∧ Q m z := by
  obtain ⟨o, rfl, ho⟩ := hr
  cases o with
  | none =>
    refine folds_none rfl ?_
    rintro z ⟨m, hm, -⟩
    cases (ho m).1 hm
  | some v =>
    obtain ⟨o', hv, ho'⟩ := hf v
    refine ⟨o', hv, fun z => ?_⟩
    rw [← ho']
    constructor
    · rintro ⟨m, hm, hz⟩
      cases (ho m).1 hm
      exact hz
    · intro hz
      exact ⟨v.meaning, (ho _).2 rfl, hz⟩

theorem Folds.congr {r : Folded} {P Q : Meaning → Prop} (h : Folds r P) (hpq : ∀ m, Q m ↔ P m) :
    Folds r Q := by
  obtain ⟨o, ho, hm⟩ := h
  exact ⟨o, ho, fun m => (hpq m).trans (hm m)⟩

section Step

variable {eval : Expr → Folded} {line : Nat} {a b c : Expr}

theorem literal_step (l : Literal) :
    Folds (Handler.literal eval (.literal line l)) (Denotes (.literal line l)) := by
  refine ⟨l.value?, rfl, fun z => ?_⟩
  have hvalue : l.value?.map Value.meaning = l.meaning? := by
    cases l <;> rfl
  rw [hvalue]
  constructor
  · intro hz
    cases hz with
    | literal h => exact h
  · exact .literal

theorem binary_step (op : BinaryOp) (ha : Folds (eval a) (Denotes a))
    (hb : Folds (eval b) (Denotes b)) :
    Folds (Handler.binary eval (.binary line op a b)) (Denotes (.binary line op a b)) := by
  have hstep : Folds ((eval a).andThen fun x => (eval b).andThen (Operator.applyBinary op x))
      fun z => ∃ x, Denotes a x ∧ ∃ y, Denotes b y ∧ Binary op x y z :=
    ha.andThen (Q := fun x z => ∃ y, Denotes b y ∧ Binary op x y z) fun x =>
      hb.andThen (applyBinary_spec op x)
  refine hstep.congr fun z => ?_
  constructor
  · intro hz
    cases hz with
    | binary hx hy h => exact ⟨_, hx, _, hy, h⟩
  · rintro ⟨x, hx, y, hy, h⟩
    exact .binary hx hy h

theorem unary_step (op : UnaryOp) (ha : Folds (eval a) (Denotes a)) :
    Folds (Handler.unary eval (.unary line op a)) (Denotes (.unary line op a)) := by
  have hstep : Folds ((eval a).andThen (Operator.applyUnary op))
      fun z => ∃ x, Denotes a x ∧ Unary op x z := ha.andThen (applyUnary_spec op)
  refine hstep.congr fun z => ?_
  constructor
  · intro hz
    cases hz with
    | unary hx h => exact ⟨_, hx, h⟩
  · rintro ⟨x, hx, h⟩
    exact .unary hx h

theorem cast_step (t : CastType) (ha : Folds (eval a) (Denotes a)) :
    Folds (Handler.cast eval (.cast line t a)) (Denotes (.cast line t a)) := by
  have hstep : Folds ((eval a).andThen fun x => .ok (Operator.applyCast t x))
      fun z => ∃ x, Denotes a x ∧ Cast t x z := ha.andThen (applyCast_spec t)
  refine hstep.congr fun z => ?_
  constructor
  · intro hz
    cases hz with
    | cast hx h => exact ⟨_, hx, h⟩
  · rintro ⟨x, hx, h⟩
    exact .cast hx h

/-- Evaluates the branch that a condition selects. -/
def branch (eval : Expr → Folded) (a b : Expr) : Value → Folded
  | .bool true => eval a
  | .bool false => eval b
  | _ => .ok none

/-- The handler looks at the result and at the value in one match. -/
theorem conditional_eq :
    Handler.conditional eval (.conditional line c a b) = (eval c).andThen (branch eval a b) := by
  show eval c >>= _ = eval c >>= _
  congr 1
  funext o
  rcases o with _ | ⟨t⟩ | ⟨⟨⟩⟩ | u | v <;> rfl

/-- What the branch that a condition selects denotes. -/
def BranchDenotes (a b : Expr) (m z : Meaning) : Prop :=
  (m = .bool true ∧ Denotes a z) ∨ (m = .bool false ∧ Denotes b z)

theorem branch_spec (ha : Folds (eval a) (Denotes a)) (hb : Folds (eval b) (Denotes b))
    (v : Value) : Folds (branch eval a b v) (BranchDenotes a b v.meaning) := by
  cases v with
  | bool p =>
    cases p with
    | true => exact ha.congr fun z => by simp [BranchDenotes, Value.meaning]
    | false => exact hb.congr fun z => by simp [BranchDenotes, Value.meaning]
  | _ => exact folds_none rfl fun z => by simp [BranchDenotes, Value.meaning]

/-- Only the branch that is taken has to denote something. -/
theorem conditional_step (hc : Folds (eval c) (Denotes c)) (ha : Folds (eval a) (Denotes a))
    (hb : Folds (eval b) (Denotes b)) :
    Folds (Handler.conditional eval (.conditional line c a b))
      (Denotes (.conditional line c a b)) := by
  have hstep : Folds ((eval c).andThen (branch eval a b))
      fun z => ∃ m, Denotes c m ∧ BranchDenotes a b m z := hc.andThen (branch_spec ha hb)
  rw [conditional_eq]
  refine hstep.congr fun z => ?_
  constructor
  · intro hz
    cases hz with
    | onTrue hm h => exact ⟨_, hm, .inl ⟨rfl, h⟩⟩
    | onFalse hm h => exact ⟨_, hm, .inr ⟨rfl, h⟩⟩
  · rintro ⟨m, hm, ⟨rfl, h⟩ | ⟨rfl, h⟩⟩
    · exact .onTrue hm h
    · exact .onFalse hm h

end Step

namespace Evaluator

/-- With as many levels as an expression has, evaluation computes what the
    expression denotes. -/
theorem run_spec {n : Nat} {e : Expr} (h : e.depth ≤ n) : Folds (standard.run n e) (Denotes e) := by
  induction n generalizing e with
  | zero =>
    -- every expression has a level
    exact absurd e.depth_pos (by omega)
  | succ n ih =>
    cases e with
    | literal line l =>
      have hstep : Folds (Handler.literal (standard.run n) (.literal line l)) _ := literal_step l
      exact hstep
    | binary line op a b =>
      rw [Expr.depth] at h
      exact binary_step op (ih (by omega)) (ih (by omega))
    | unary line op a =>
      rw [Expr.depth] at h
      exact unary_step op (ih (by omega))
    | conditional line c a b =>
      rw [Expr.depth] at h
      exact conditional_step (ih (by omega)) (ih (by omega)) (ih (by omega))
    | cast line t a =>
      rw [Expr.depth] at h
      exact cast_step t (ih (by omega))
    | _ =>
      refine folds_none rfl ?_
      intro m hm
      cases hm

/-- The evaluator gives a value if and only if the expression denotes it, and
    none if and only if the expression denotes nothing. -/
theorem evaluate_eq_iff (e : Expr) :
    (∀ v, standard.evaluate e = .ok (some v) ↔ Denotes e v.meaning) ∧
      (standard.evaluate e = .ok none ↔ ∀ m, ¬ Denotes e m) := by
  obtain ⟨o, ho, hm⟩ := run_spec (Nat.le_refl e.depth)
  rw [evaluate, ho]
  constructor
  · intro v
    rw [hm]
    constructor
    · intro h
      cases h
      rfl
    · intro h
      obtain ⟨v', rfl, hv⟩ := Option.map_eq_some_iff.1 h
      rw [Value.meaning_inj hv]
  · constructor
    · intro h m hd
      cases h
      cases (hm m).1 hd
    · intro h
      cases o with
      | none => rfl
      | some v => exact absurd ((hm v.meaning).2 rfl) (h v.meaning)

-- the one quotient that overflows, and a distance that is taken modulo 32
example : standard.evaluate
    (.binary 1 .div (.literal 1 (.int (-2147483648))) (.literal 1 (.int (-1)))) =
      .ok (some (.int (.int (-2147483648)))) := by rfl

example : standard.evaluate (.binary 1 .ushr (.literal 1 (.int (-1))) (.literal 1 (.int 33))) =
    .ok (some (.int (.int 2147483647))) := by rfl

end Evaluator

end MessageHarvest
