import MessageHarvest.Text.Blank
import MessageHarvest.Text.Number

/-! # Counts as they are written and read

    * `count?_eq_some_iff`: which texts are counts, and of what.
    * `count?_toDigits`: a count is read back from its decimal digits. -/

namespace MessageHarvest.Text

variable {t : List Char} {n : Nat}

/-- A digit is one of ten numbers. -/
theorem toNat_of_isDigit {c : Char} (h : c.isDigit = true) : 48 ≤ c.toNat ∧ c.toNat ≤ 57 := by
  simp only [Char.isDigit, Bool.and_eq_true, decide_eq_true_eq] at h
  exact h

theorem not_isBlank_of_isDigit {c : Char} (h : c.isDigit = true) : isBlank c = false := by
  obtain ⟨h₁, h₂⟩ := toNat_of_isDigit h
  unfold isBlank
  simp
  omega

theorem ne_of_isDigit {c d : Char} (hd : d.isDigit = false) (h : c.isDigit = true) : c ≠ d := by
  rintro rfl
  rw [hd] at h
  cases h

theorem isDigits_iff : isDigits t = true ↔ t ≠ [] ∧ ∀ c ∈ t, c.isDigit = true := by
  simp [isDigits]

theorem digitsCount?_eq_some_iff :
    digitsCount? t = some n ↔
      isDigits t = true ∧ digitsValue t < countLimit ∧ digitsValue t = n := by
  unfold digitsCount?
  split
  · next h =>
    rw [Bool.and_eq_true, decide_eq_true_eq] at h
    simp [h.1, h.2]
  · next h =>
    rw [Bool.and_eq_true, decide_eq_true_eq] at h
    constructor
    · intro e; cases e
    · intro e; exact absurd ⟨e.1, e.2.1⟩ h

/-- Digits are read from the left, with ten for each place. -/
theorem digitsValue_eq_ofDigitChars (t : List Char) : digitsValue t = Nat.ofDigitChars 10 t 0 := by
  unfold digitsValue
  rw [Nat.ofDigitChars_eq_foldl]
  congr
  funext m c
  rw [Nat.mul_comm]
  rfl

/-- A count is digits, or digits behind a plus sign. -/
theorem count?_eq_some_cases (h : count? t = some n) :
    digitsCount? t = some n ∨ ∃ r, t = '+' :: r ∧ digitsCount? r = some n := by
  unfold count? at h
  split at h
  · next r => exact .inr ⟨r, rfl, h⟩
  · exact .inl h

/-- A number as it is written: decimal digits, possibly behind a plus sign. -/
def Decimal (t : List Char) (n : Nat) : Prop :=
  ∃ sign digits, t = sign ++ digits ∧ (sign = [] ∨ sign = ['+']) ∧ digits ≠ [] ∧
    (∀ c ∈ digits, c.isDigit = true) ∧ Nat.ofDigitChars 10 digits 0 = n

theorem count?_eq_some_iff : count? t = some n ↔ Decimal t n ∧ n < countLimit := by
  constructor
  · intro h
    have hdigits : ∀ {r}, digitsCount? r = some n → (r ≠ [] ∧ (∀ c ∈ r, c.isDigit = true) ∧
        Nat.ofDigitChars 10 r 0 = n) ∧ n < countLimit := by
      intro r hr
      obtain ⟨hisDigits, hlt, rfl⟩ := digitsCount?_eq_some_iff.1 hr
      obtain ⟨hne, hall⟩ := isDigits_iff.1 hisDigits
      exact ⟨⟨hne, hall, (digitsValue_eq_ofDigitChars r).symm⟩, hlt⟩
    rcases count?_eq_some_cases h with h | ⟨r, rfl, h⟩
    · exact ⟨⟨[], t, rfl, .inl rfl, (hdigits h).1⟩, (hdigits h).2⟩
    · exact ⟨⟨['+'], r, rfl, .inr rfl, (hdigits h).1⟩, (hdigits h).2⟩
  · rintro ⟨⟨sign, digits, rfl, hsign, hne, hall, hvalue⟩, hlt⟩
    have hcount : digitsCount? digits = some n := by
      rw [← digitsValue_eq_ofDigitChars] at hvalue
      exact digitsCount?_eq_some_iff.2 ⟨isDigits_iff.2 ⟨hne, hall⟩, hvalue ▸ hlt, hvalue⟩
    rcases hsign with rfl | rfl
    · unfold count?
      split
      · next r e =>
        -- a plus sign is no digit
        have hplus := hall '+' (by rw [show digits = '+' :: r from e]; exact List.mem_cons_self)
        exact absurd hplus (by decide)
      · exact hcount
    · exact hcount

theorem lt_of_count?_eq_some (h : count? t = some n) : n < countLimit :=
  (count?_eq_some_iff.1 h).2

/-! ## Decimal digits -/

theorem isDigits_toDigits (n : Nat) : isDigits (Nat.toDigits 10 n) = true :=
  isDigits_iff.2 ⟨Nat.toDigits_ne_nil,
    fun _ hc => Nat.isDigit_of_mem_toDigits (by decide) (by decide) hc⟩

theorem decimal_toDigits (n : Nat) : Decimal (Nat.toDigits 10 n) n := by
  obtain ⟨hne, hall⟩ := isDigits_iff.1 (isDigits_toDigits n)
  exact ⟨[], Nat.toDigits 10 n, rfl, .inl rfl, hne, hall, Nat.ofDigitChars_ten_toDigits⟩

/-- A count is read back from its digits. -/
theorem count?_toDigits (h : n < countLimit) : count? (Nat.toDigits 10 n) = some n :=
  count?_eq_some_iff.2 ⟨decimal_toDigits n, h⟩

end MessageHarvest.Text
