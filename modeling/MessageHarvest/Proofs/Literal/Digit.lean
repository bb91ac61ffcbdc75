import Mathlib.Data.Nat.Digits.Defs
import MessageHarvest.Source.Literal

/-! # Digits and the numbers they spell

    A digit is given by its value, and its character follows from it. Reading
    the characters of digits gives their positional value, for any number of
    digits (`number?_digits`, `unsigned?_digits`). -/

namespace MessageHarvest.Literal

/-- The character of a digit below sixteen, `a` to `f` also as a capital. -/
def digitChar (n : Nat) (capital : Bool) : Char :=
  if capital then n.digitChar.toUpper else n.digitChar

/-- A digit as it is written. -/
structure Digit (radix : Nat) where
  value : Fin radix
  capital : Bool := false

variable {radix : Nat}

namespace Digit

/-- The character of a digit. -/
def char (d : Digit radix) : Char := digitChar d.value d.capital

/-- The number that digits stand for, the first one being the most significant. -/
def number (ds : List (Digit radix)) : Nat := Nat.ofDigits radix (ds.reverse.map (·.value.val))

theorem number_nil : number ([] : List (Digit radix)) = 0 := rfl

theorem number_cons (d : Digit radix) (ds : List (Digit radix)) :
    number (d :: ds) = d.value * radix ^ ds.length + number ds := by
  unfold number
  rw [List.reverse_cons, List.map_append, List.map_singleton, Nat.ofDigits_append,
    Nat.ofDigits_singleton, List.length_map, List.length_reverse]
  ring

theorem number_lt (hradix : 1 < radix) (ds : List (Digit radix)) :
    number ds < radix ^ ds.length := by
  have hlt : ∀ n ∈ ds.reverse.map (·.value.val), n < radix := by
    intro n hn
    obtain ⟨d, -, rfl⟩ := List.mem_map.1 hn
    exact d.value.isLt
  have hnumber := Nat.ofDigits_lt_base_pow_length hradix hlt
  rwa [List.length_map, List.length_reverse] at hnumber

/-- What holds of the characters of all digits below sixteen. -/
theorem char_of_forall {P : Char → Prop} (hradix : radix ≤ 16)
    (h : ∀ n < 16, ∀ capital, P (digitChar n capital)) (d : Digit radix) : P d.char :=
  h d.value (Nat.lt_of_lt_of_le d.value.isLt hradix) d.capital

end Digit

/-! ## Reading digits -/

theorem digit?_digitChar : ∀ n < 16, ∀ capital, digit? 16 (digitChar n capital) = some n := by
  decide

/-- All that a digit can be. -/
theorem digit?_cases {c : Char} {n : Nat} (h : digit? radix c = some n) :
    n < radix ∧ ((48 ≤ c.toNat ∧ c.toNat ≤ 57 ∧ n = c.toNat - 48) ∨
      (97 ≤ c.toNat ∧ c.toNat ≤ 102 ∧ n = c.toNat - 87) ∨
      (65 ≤ c.toNat ∧ c.toNat ≤ 70 ∧ n = c.toNat - 55)) := by
  unfold digit? at h
  rw [Option.filter_eq_some_iff, decide_eq_true_eq] at h
  obtain ⟨hvalue, hlt⟩ := h
  refine ⟨hlt, ?_⟩
  split at hvalue
  · next hc =>
    left
    exact ⟨hc.1, hc.2, (Option.some.inj hvalue).symm⟩
  split at hvalue
  · next hc =>
    right; left
    exact ⟨hc.1, hc.2, (Option.some.inj hvalue).symm⟩
  split at hvalue
  · next hc =>
    right; right
    exact ⟨hc.1, hc.2, (Option.some.inj hvalue).symm⟩
  · cases hvalue

/-- A digit of a smaller radix is one of radix sixteen. -/
theorem digit?_of_lt {c : Char} {n : Nat} (h : digit? 16 c = some n) (hn : n < radix) :
    digit? radix c = some n := by
  unfold digit? at h ⊢
  rw [Option.filter_eq_some_iff] at h ⊢
  exact ⟨h.1, decide_eq_true hn⟩

theorem digit?_char (hradix : radix ≤ 16) (d : Digit radix) :
    digit? radix d.char = some d.value.val := by
  have hlt : d.value.val < 16 := Nat.lt_of_lt_of_le d.value.isLt hradix
  exact digit?_of_lt (digit?_digitChar d.value hlt d.capital) d.value.isLt

/-- Digits behind a number already read. -/
theorem number?_digits (hradix : radix ≤ 16) (acc : Nat) (ds : List (Digit radix)) :
    number? radix acc (ds.map Digit.char) =
      some (acc * radix ^ ds.length + Digit.number ds) := by
  induction ds generalizing acc with
  | nil => simp [number?, Digit.number_nil]
  | cons d ds ih =>
    rw [List.map_cons, number?, digit?_char hradix, Option.bind_some, ih, Digit.number_cons,
      List.length_cons]
    congr 1
    ring

/-- Digits without a sign are read as their number. -/
theorem unsigned?_digits (hradix : radix ≤ 16) {ds : List (Digit radix)} (hne : ds ≠ []) :
    unsigned? radix (ds.map Digit.char) = some (Digit.number ds) := by
  have hnumber := number?_digits hradix 0 ds
  rw [Nat.zero_mul, Nat.zero_add] at hnumber
  obtain ⟨d, ds, rfl⟩ := List.exists_cons_of_ne_nil hne
  have hplus : d.char ≠ '+' := Digit.char_of_forall (P := (· ≠ '+')) hradix (by decide) d
  rw [← hnumber, List.map_cons]
  unfold unsigned?
  split
  · next heq => exact absurd (List.cons.inj heq).1 hplus
  · next heq => exact absurd (List.cons.inj heq).1 hplus
  · next heq => cases heq
  · rfl

end MessageHarvest.Literal
