import Mathlib.Data.Int.ModEq
import MessageHarvest.Proofs.Constant.Evaluation
import MessageHarvest.Proofs.Literal.Digit

/-! # Integer literals

    An integer literal is a mark of its radix, digits with underscores between
    them, and perhaps a suffix that makes it long (`Numeral`).

    * The underscores, the capitals and the suffix are taken off and the
      radix is found again, whatever the digits are (`Numeral.withoutSuffix_chars`,
      `Numeral.radixAndDigits_lowered`).
    * A numeral in the range of its width and radix is the word with the low
      bits of its value, and any other one is refused, for any number of
      digits (`Numeral.decodeInt_text`).
    * So the negation of a decimal numeral is exact: the wrapped word of the
      one value above the greatest is its own negation (`decodeInt_numeral`). -/

namespace MessageHarvest.Literal

/-! ## Spellings -/

/-- The radixes of integer literals. -/
inductive Radix where
  | decimal | octal | hexadecimal | binary
  deriving DecidableEq, Repr

namespace Radix

/-- The number of digits of a radix. -/
def base : Radix → Nat
  | decimal => 10 | octal => 8 | hexadecimal => 16 | binary => 2

/-- What stands before the digits. The mark of octal numerals is itself a
    digit, so it counts as the first one. -/
def mark (capital : Bool) : Radix → List Char
  | decimal | octal => []
  | hexadecimal => ['0', if capital then 'X' else 'x']
  | binary => ['0', if capital then 'B' else 'b']

theorem base_le (r : Radix) : r.base ≤ 16 := by
  cases r <;> decide

instance (r : Radix) : NeZero r.base := ⟨by cases r <;> decide⟩

end Radix

/-- An integer literal as it is written. -/
structure Numeral where
  radix : Radix
  /-- Whether the letter of the mark is a capital. -/
  capital : Bool := false
  first : Digit radix.base
  /-- The later digits, each with the number of underscores before it. -/
  rest : List (Nat × Digit radix.base) := []
  /-- The suffix of a long one, and whether it is a capital. -/
  suffix : Option Bool := none
  decimal_first : radix = .decimal → first.value.val = 0 → rest = []
  octal_first : radix = .octal → first.value.val = 0 ∧ rest ≠ []

namespace Digit

variable {radix : Nat}

/-- A digit in lower case. -/
def lowered (d : Digit radix) : Digit radix := { d with capital := false }

theorem number_map_lowered (ds : List (Digit radix)) : number (ds.map lowered) = number ds := by
  unfold number
  rw [← List.map_reverse, List.map_map]
  rfl

theorem toLower_digitChar : ∀ n < 16, ∀ capital,
    (digitChar n capital).toLower = digitChar n false := by
  decide

theorem toLower_char (hradix : radix ≤ 16) (d : Digit radix) : d.char.toLower = d.lowered.char :=
  toLower_digitChar d.value (Nat.lt_of_lt_of_le d.value.isLt hradix) d.capital

end Digit

namespace Numeral

/-- All digits of a numeral. -/
def digits (n : Numeral) : List (Digit n.radix.base) := n.first :: n.rest.map Prod.snd

/-- The mathematical value of a numeral. -/
def value (n : Numeral) : Nat := Digit.number n.digits

/-- The suffix of a numeral. -/
def ending (n : Numeral) : List Char :=
  n.suffix.toList.map fun capital => if capital then 'L' else 'l'

/-- A digit and the underscores before it. -/
def spaced {radix : Nat} (p : Nat × Digit radix) : List Char :=
  List.replicate p.1 '_' ++ [p.2.char]

/-- The characters of a numeral. -/
def chars (n : Numeral) : List Char :=
  n.radix.mark n.capital ++ n.first.char :: n.rest.flatMap spaced ++ n.ending

/-- The text of a numeral. -/
def text (n : Numeral) : String := String.ofList n.chars

/-- The width that the suffix asks for. -/
def width (n : Numeral) : IntWidth := if n.suffix.isSome then .w64 else .w32

/-- Decimal numerals reach up to the magnitude of the least number of their
    width, all others use every bit. -/
def InRange (n : Numeral) : Prop :=
  if n.radix = .decimal then n.value ≤ 2 ^ (n.width.bits - 1) else n.value < 2 ^ n.width.bits

instance (n : Numeral) : Decidable n.InRange := by
  unfold InRange
  infer_instance

/-- The word with the low bits of a numeral. -/
def word (n : Numeral) : Literal :=
  if n.suffix.isSome then .long (Int64.ofNat n.value) else .int (Int32.ofNat n.value)

/-! ## Taking a numeral apart -/

/-- The digits and the mark without capitals. -/
def lowered (n : Numeral) : List Char :=
  (n.radix.mark false) ++ (n.digits.map Digit.lowered).map Digit.char

variable (n : Numeral)

/-- Characters that are neither underscores nor suffixes. -/
def Inner (c : Char) : Prop := c ≠ '_' ∧ c ≠ 'l' ∧ c ≠ 'L'

instance (c : Char) : Decidable (Inner c) := inferInstanceAs (Decidable (_ ∧ _))

theorem inner_char {radix : Nat} (hradix : radix ≤ 16) (d : Digit radix) : Inner d.char :=
  Digit.char_of_forall hradix (by decide) d

theorem inner_mark : ∀ c ∈ n.radix.mark n.capital, Inner c := by
  cases n.radix <;> cases n.capital <;> simp [Radix.mark, Inner]

theorem ne_underscore_of_mem_ending {c : Char} (hc : c ∈ n.ending) : c ≠ '_' := by
  obtain ⟨capital, -, rfl⟩ := List.mem_map.1 hc
  cases capital <;> decide

theorem filter_spaced {radix : Nat} (hradix : radix ≤ 16) (ps : List (Nat × Digit radix)) :
    (ps.flatMap spaced).filter (· != '_') = (ps.map Prod.snd).map Digit.char := by
  induction ps with
  | nil => rfl
  | cons p ps ih =>
    have hchar : (p.2.char != '_') = true := bne_iff_ne.2 (inner_char hradix p.2).1
    rw [List.flatMap_cons, List.filter_append, ih, spaced, List.filter_append]
    simp [hchar]

/-- Only the underscores are filtered out. -/
theorem filter_chars :
    n.chars.filter (· != '_') =
      n.radix.mark n.capital ++ n.digits.map Digit.char ++ n.ending := by
  have hmark : (n.radix.mark n.capital).filter (· != '_') = n.radix.mark n.capital :=
    List.filter_eq_self.2 fun c hc => bne_iff_ne.2 (n.inner_mark c hc).1
  have hending : n.ending.filter (· != '_') = n.ending :=
    List.filter_eq_self.2 fun c hc => bne_iff_ne.2 (n.ne_underscore_of_mem_ending hc)
  have hfirst : (n.first.char != '_') = true :=
    bne_iff_ne.2 (inner_char n.radix.base_le n.first).1
  rw [chars, List.filter_append, List.filter_append, hmark, hending,
    List.filter_cons_of_pos (p := (· != '_')) hfirst, filter_spaced n.radix.base_le, digits,
    List.map_cons]

theorem map_toLower :
    (n.radix.mark n.capital ++ n.digits.map Digit.char).map Char.toLower = n.lowered := by
  have hmark : (n.radix.mark n.capital).map Char.toLower = n.radix.mark false := by
    cases n.radix <;> cases n.capital <;> decide
  rw [List.map_append, hmark, lowered, List.map_map, List.map_map]
  congr 1
  exact List.map_congr_left fun d _ => Digit.toLower_char n.radix.base_le d

/-- The suffix is found at the end, since no digit looks like it. -/
theorem withoutSuffix_chars : withoutSuffix n.chars = (n.lowered, n.suffix.isSome) := by
  unfold withoutSuffix
  rw [filter_chars]
  cases hsuffix : n.suffix with
  | none =>
    have hending : n.ending = [] := by rw [ending, hsuffix]; rfl
    rw [hending, List.append_nil]
    -- neither a mark nor a digit is taken for a suffix
    have hinner : ∀ c ∈ (n.radix.mark n.capital ++ n.digits.map Digit.char).reverse, Inner c := by
      intro c hc
      rw [List.mem_reverse, List.mem_append] at hc
      rcases hc with hc | hc
      · exact n.inner_mark c hc
      · obtain ⟨d, -, rfl⟩ := List.mem_map.1 hc
        exact inner_char n.radix.base_le d
    simp only
    split
    · next heq => exact absurd rfl (hinner 'l' (by rw [heq]; exact List.mem_cons_self)).2.1
    · next heq => exact absurd rfl (hinner 'L' (by rw [heq]; exact List.mem_cons_self)).2.2
    · rw [map_toLower]
      rfl
  | some capital =>
    have hending : n.ending = [if capital then 'L' else 'l'] := by rw [ending, hsuffix]; rfl
    rw [hending]
    cases capital <;>
      simp only [Bool.false_eq_true, if_true, if_false, List.reverse_append,
        List.reverse_singleton, List.singleton_append, List.reverse_reverse, map_toLower,
        Option.isSome_some]

theorem radixAndDigits_octal {c : Char} (t : List Char) (hx : c ≠ 'x') (hb : c ≠ 'b') :
    radixAndDigits ('0' :: c :: t) = (8, c :: t) := by
  unfold radixAndDigits
  split
  · next heq => cases heq; exact absurd rfl hx
  · next heq => cases heq; exact absurd rfl hb
  · next heq => cases heq; rfl
  · next h => exact absurd rfl (h c t)

theorem radixAndDigits_decimal {c : Char} (t : List Char) (hc : c ≠ '0') :
    radixAndDigits (c :: t) = (10, c :: t) := by
  unfold radixAndDigits
  split
  · next heq => cases heq; exact absurd rfl hc
  · next heq => cases heq; exact absurd rfl hc
  · next heq => cases heq; exact absurd rfl hc
  · rfl

/-- The mark gives the radix, and the other digits give the value. -/
theorem radixAndDigits_lowered : ∃ ds : List (Digit n.radix.base),
    ds ≠ [] ∧ Digit.number ds = n.value ∧
      radixAndDigits n.lowered = (n.radix.base, ds.map Digit.char) := by
  obtain ⟨radix, capital, first, rest, suffix, hdecimal, hoctal⟩ := n
  cases radix with
  | decimal =>
    refine ⟨(first :: rest.map Prod.snd).map Digit.lowered, by simp,
      Digit.number_map_lowered _, ?_⟩
    by_cases hzero : first.value.val = 0
    · -- a zero stands alone, so it is not taken for the mark of an octal one
      cases hdecimal rfl hzero
      show radixAndDigits [digitChar first.value.val false] =
        (10, [digitChar first.value.val false])
      rw [hzero]
      rfl
    · have hne : ∀ v < 16, v ≠ 0 → digitChar v false ≠ '0' := by decide
      exact radixAndDigits_decimal _
        (hne _ (Nat.lt_of_lt_of_le first.value.isLt (by decide)) hzero)
  | octal =>
    obtain ⟨hzero, hrest⟩ := hoctal rfl
    obtain ⟨p, ps, rfl⟩ := List.exists_cons_of_ne_nil hrest
    refine ⟨((p :: ps).map Prod.snd).map Digit.lowered, by simp, ?_, ?_⟩
    · rw [Digit.number_map_lowered, value, digits, Digit.number_cons, hzero, Nat.zero_mul,
        Nat.zero_add]
    · -- the digit behind the zero does not make another mark of it
      have hne : ∀ v < 8, digitChar v false ≠ 'x' ∧ digitChar v false ≠ 'b' := by decide
      have hp := hne p.2.value.val p.2.value.isLt
      show radixAndDigits (digitChar first.value.val false :: p.2.lowered.char :: _) = _
      rw [hzero]
      exact radixAndDigits_octal _ hp.1 hp.2
  | hexadecimal =>
    exact ⟨(first :: rest.map Prod.snd).map Digit.lowered, by simp,
      Digit.number_map_lowered _, rfl⟩
  | binary =>
    exact ⟨(first :: rest.map Prod.snd).map Digit.lowered, by simp,
      Digit.number_map_lowered _, rfl⟩

/-! ## The value and its range -/

theorem le_limit_iff : n.value ≤ limit n.radix.base n.suffix.isSome ↔ n.InRange := by
  unfold InRange width
  cases n.radix <;> cases n.suffix <;>
    simp only [Radix.base, limit, reduceCtorEq, Option.isSome_none, Option.isSome_some,
      Bool.false_eq_true, if_true, if_false, IntWidth.bits] <;> omega

/-- Numerals are read as words, and those out of range are refused. -/
theorem decodeInt_text : decodeInt n.text = if n.InRange then some n.word else none := by
  obtain ⟨ds, hne, hvalue, hradix⟩ := n.radixAndDigits_lowered
  unfold decodeInt
  rw [text, String.toList_ofList, withoutSuffix_chars]
  simp only [hradix, unsigned?_digits n.radix.base_le hne, hvalue, Option.bind_eq_bind,
    Option.bind_some, le_limit_iff, word]

theorem decodeInt_of_inRange (h : n.InRange) : decodeInt n.text = some n.word := by
  rw [decodeInt_text, if_pos h]

/-- The value of a word of 32 bits is congruent to the numeral's. -/
theorem int_modEq (v : Nat) : (Int32.ofNat v).toInt ≡ v [ZMOD 2 ^ 32] := by
  rw [Int32.toInt_ofNat']
  exact Int.bmod_emod

theorem long_modEq (v : Nat) : (Int64.ofNat v).toInt ≡ v [ZMOD 2 ^ 64] := by
  rw [Int64.toInt_ofNat']
  exact Int.bmod_emod

/-! ## Negation -/

/-- Negating a literal negates its number within its width. -/
theorem evaluate_neg {l : Literal} {w : IntWidth} {m : Int} (hl : l.meaning? = some (.int w m))
    (line line' : Nat) :
    Evaluator.standard.evaluate (.unary line .neg (.literal line' l)) =
      .ok (some (.int (.ofInt (w.common w) (-m)))) := by
  obtain ⟨o, ho, hmeaning⟩ :=
    Evaluator.run_spec (Nat.le_refl (Expr.unary line .neg (.literal line' l)).depth)
  have hdenotes : Denotes (.unary line .neg (.literal line' l))
      (.int (w.common w) ((w.common w).signed (-m))) :=
    .unary (.literal hl) (.arithmetic rfl rfl)
  rw [hmeaning, ← Value.meaning_ofInt] at hdenotes
  obtain ⟨v, rfl, hv⟩ := Option.map_eq_some_iff.1 hdenotes
  rw [Evaluator.evaluate, ho, Value.meaning_inj hv]

/-- Up to the magnitude of the least word, negating the word is exact. -/
theorem signed_neg_signed {w : IntWidth} {v : Nat} (h : v ≤ 2 ^ (w.bits - 1)) :
    w.signed (-w.signed v) = -v := by
  unfold IntWidth.signed
  cases w <;> simp only [IntWidth.bits, Int.bmod] at h ⊢ <;> omega

/-- The word of a numeral, as a number of the numeral's width. -/
theorem meaning?_word : n.word.meaning? = some (.int n.width (n.width.signed n.value)) := by
  unfold word width
  cases n.suffix with
  | none => exact congrArg (fun m => some (Meaning.int .w32 m)) Int32.toInt_ofNat'
  | some capital => exact congrArg (fun m => some (Meaning.int .w64 m)) Int64.toInt_ofNat'

theorem common_width : n.width.common n.width = n.width := by
  unfold width
  cases n.suffix <;> rfl

/-- The negation of a decimal numeral is exact. -/
theorem evaluate_neg_word (hdecimal : n.radix = .decimal) (h : n.InRange) (line line' : Nat) :
    ∃ v : IntValue,
      Evaluator.standard.evaluate (.unary line .neg (.literal line' n.word)) =
        .ok (some (.int v)) ∧
      v.width = n.width ∧ v.toInt = -n.value := by
  rw [InRange, if_pos hdecimal] at h
  refine ⟨.ofInt n.width (-n.width.signed n.value), ?_, IntValue.width_ofInt .., ?_⟩
  · rw [evaluate_neg n.meaning?_word, common_width]
  · rw [IntValue.toInt_ofInt, signed_neg_signed h]

end Numeral

/-- Integer literals have the value and the range of their width. A numeral
    in range is the signed word congruent to its value, any other one is
    refused, and the negation of a decimal one that is read is its exact
    negative. -/
theorem decodeInt_numeral (n : Numeral) :
    (n.suffix = none → n.InRange →
      ∃ i : Int32, decodeInt n.text = some (.int i) ∧ i.toInt ≡ n.value [ZMOD 2 ^ 32]) ∧
    (n.suffix ≠ none → n.InRange →
      ∃ i : Int64, decodeInt n.text = some (.long i) ∧ i.toInt ≡ n.value [ZMOD 2 ^ 64]) ∧
    (¬ n.InRange → decodeInt n.text = none) ∧
    (n.radix = .decimal → ∀ l, decodeInt n.text = some l → ∀ line line',
      ∃ v : IntValue,
        Evaluator.standard.evaluate (.unary line .neg (.literal line' l)) =
          .ok (some (.int v)) ∧
        v.width = n.width ∧ v.toInt = -n.value) := by
  refine ⟨?_, ?_, ?_, ?_⟩
  · intro hsuffix h
    refine ⟨Int32.ofNat n.value, ?_, Numeral.int_modEq n.value⟩
    rw [n.decodeInt_of_inRange h, Numeral.word, hsuffix]
    rfl
  · intro hsuffix h
    refine ⟨Int64.ofNat n.value, ?_, Numeral.long_modEq n.value⟩
    rw [n.decodeInt_of_inRange h, Numeral.word, if_pos (Option.isSome_iff_ne_none.2 hsuffix)]
  · intro h
    rw [n.decodeInt_text, if_neg h]
  · intro hdecimal l hl line line'
    rw [n.decodeInt_text, Option.ite_none_right_eq_some, Option.some.injEq] at hl
    obtain ⟨h, rfl⟩ := hl
    exact n.evaluate_neg_word hdecimal h line line'

/-- The decimal whose negation is the least number of 32 bits. -/
def magnitude : Numeral where
  radix := .decimal
  first := ⟨2, false⟩
  rest := [(1, ⟨1, false⟩), (0, ⟨4, false⟩), (0, ⟨7, false⟩), (2, ⟨4, false⟩), (0, ⟨8, false⟩),
    (0, ⟨3, false⟩), (1, ⟨6, false⟩), (0, ⟨4, false⟩), (0, ⟨8, false⟩)]
  decimal_first := by decide
  octal_first := by decide

/-- The hexadecimal that has every bit of 64. -/
def ones : Numeral where
  radix := .hexadecimal
  capital := true
  first := ⟨15, true⟩
  rest := List.replicate 15 (0, ⟨15, false⟩)
  suffix := some true
  decimal_first := by decide
  octal_first := by decide

/-- The octal of 33 bits, without a suffix. -/
def wide : Numeral where
  radix := .octal
  first := ⟨0, false⟩
  rest := (0, ⟨4, false⟩) :: List.replicate 10 (0, ⟨0, false⟩)
  decimal_first := by decide
  octal_first := by decide

theorem decodeInt_numeral_samples :
    (magnitude.text = "2_147__483_648" ∧
      (∃ i : Int32, decodeInt magnitude.text = some (.int i) ∧
        i.toInt ≡ 2147483648 [ZMOD 2 ^ 32]) ∧
      ∃ v : IntValue,
        Evaluator.standard.evaluate (.unary 1 .neg (.literal 1 (.int (-2147483648)))) =
          .ok (some (.int v)) ∧
        v.width = .w32 ∧ v.toInt = -2147483648) ∧
    (ones.text = "0XFfffffffffffffffL" ∧
      ∃ i : Int64, decodeInt ones.text = some (.long i) ∧
        i.toInt ≡ 18446744073709551615 [ZMOD 2 ^ 64]) ∧
    (wide.text = "040000000000" ∧ decodeInt wide.text = none) := by
  have hmagnitude : magnitude.InRange := by decide
  have hones : ones.InRange := by decide
  have hwide : ¬ wide.InRange := by decide
  obtain ⟨hint, -, -, hneg⟩ := decodeInt_numeral magnitude
  obtain ⟨-, hlong, -, -⟩ := decodeInt_numeral ones
  obtain ⟨-, -, hrefused, -⟩ := decodeInt_numeral wide
  have hread : decodeInt magnitude.text = some (.int (-2147483648)) :=
    magnitude.decodeInt_of_inRange hmagnitude
  exact ⟨⟨by decide, hint rfl hmagnitude, hneg rfl _ hread 1 1⟩,
    ⟨by decide, hlong (by decide) hones⟩, ⟨by decide, hrefused hwide⟩⟩

end MessageHarvest.Literal
