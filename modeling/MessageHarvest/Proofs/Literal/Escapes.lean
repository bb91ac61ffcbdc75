import MessageHarvest.Proofs.Literal.Digit
import MessageHarvest.Proofs.Text.Units

/-! # Literals item by item

    The body of a literal is a sequence of items: a character, or an escape
    with the code units that it stands for. Where an item ends decides how the
    rest is read, so an octal escape that could take another digit must not be
    followed by one. `Spells P t us` says that `t` is such a sequence of items
    from `P`, and that `us` are their code units.

    * `unescape_append`: one item is read as its code units, and the rest after
      it. Every result about whole bodies comes from this step.
    * `unescape_of_spells`: a body is read item by item.
    * `decodeString_items`: a string literal is the text that the code units of
      its items stand for, and every text has a literal. -/

namespace MessageHarvest.Literal

/-! ## Items -/

/-- The one-letter escapes and their code units. -/
def letterEscapes : List (Char × UInt16) :=
  [('b', 0x08), ('s', 0x20), ('t', 0x09), ('n', 0x0A), ('f', 0x0C), ('r', 0x0D), ('"', 0x22),
    ('\'', 0x27), ('\\', 0x5C)]

/-- How many octal digits may follow a first one: an escape is at most `\377`. -/
def octalRoom (first : Digit 8) : Nat := if first.value.val ≤ 3 then 2 else 1

/-- What the body of a literal is made of. -/
inductive Item where
  | plain (c : Char) (h : c ≠ '\\')
  | letter (c : Char) (unit : UInt16) (h : (c, unit) ∈ letterEscapes)
  | octal (first : Digit 8) (more : List (Digit 8)) (h : more.length ≤ octalRoom first)
  /-- One `u` and `extra` more, then four digits. -/
  | unicode (extra : Nat) (digits : List (Digit 16)) (h : digits.length = 4)
  /-- A backslash at the end of a line, which joins it to the next one. -/
  | continued

namespace Item

/-- How an item is written. -/
def spelling : Item → List Char
  | plain c _ => [c]
  | letter c _ _ => ['\\', c]
  | octal first more _ => '\\' :: first.char :: more.map Digit.char
  | unicode extra digits _ => '\\' :: 'u' :: (List.replicate extra 'u' ++ digits.map Digit.char)
  | continued => ['\\', '\n']

/-- Every item but a character starts with a backslash. -/
theorem spelling_cases (i : Item) :
    (∃ c h, i = plain c h) ∨ ∃ r, i.spelling = '\\' :: r := by
  cases i with
  | plain c h => exact .inl ⟨c, h, rfl⟩
  | _ => exact .inr ⟨_, rfl⟩

/-- The code units of an item. -/
def units : Item → List UInt16
  | plain c _ => Text.unitsOf c
  | letter _ unit _ => [unit]
  | octal first more _ => [(Digit.number (first :: more)).toUInt16]
  | unicode _ digits _ => [(Digit.number digits).toUInt16]
  | continued => []

/-- Whether a character is an octal digit. -/
def isOctal (c : Char) : Bool := '0' ≤ c && c ≤ '7'

/-- Whether an item ends where `rest` begins. Only an octal escape may go on: it
    takes as many digits as it has room for. -/
def EndsBefore (rest : List Char) : Item → Prop
  | octal first more _ => more.length = octalRoom first ∨ rest.head?.any isOctal = false
  | _ => True

/-- The items of a string literal: no quote, no end of a line, no line that is
    continued. -/
def InString : Item → Prop
  | plain c _ => c ≠ '"' ∧ c ≠ '\n' ∧ c ≠ '\r'
  | continued => False
  | _ => True

instance : DecidablePred InString
  | plain c _ => inferInstanceAs (Decidable (c ≠ '"' ∧ c ≠ '\n' ∧ c ≠ '\r'))
  | continued => isFalse id
  | letter .. | octal .. | unicode .. => isTrue trivial

end Item

/-- `t` is a sequence of items that satisfy `P`, and `us` are their code units. -/
inductive Spells (P : Item → Prop) : List Char → List UInt16 → Prop where
  | nil : Spells P [] []
  | cons {i : Item} {t : List Char} {us : List UInt16} : P i → i.EndsBefore t → Spells P t us →
      Spells P (i.spelling ++ t) (i.units ++ us)

/-! ## Reading one item -/

section Step

variable {t : List Char}

theorem simpleEscape?_of_mem : ∀ e ∈ letterEscapes, simpleEscape? e.1 = some e.2 := by
  decide

theorem escape_letter {c : Char} {u : UInt16} (h : (c, u) ∈ letterEscapes) :
    escape (c :: t) = ([u], t) := by
  rw [escape, simpleEscape?_of_mem _ h]

/-- A character that is no octal digit ends an octal escape. -/
theorem digit?_eight_eq_none {c : Char} (h : Item.isOctal c = false) : digit? 8 c = none := by
  by_contra hsome
  obtain ⟨n, hn⟩ := Option.ne_none_iff_exists'.1 hsome
  have hrange : 48 ≤ c.toNat ∧ c.toNat ≤ 55 := by
    have hcases := digit?_cases hn
    omega
  have hoctal : Item.isOctal c = true := by
    simp only [Item.isOctal, Bool.and_eq_true, decide_eq_true_eq]
    exact hrange
  rw [h] at hoctal
  cases hoctal

/-- Octal digits are taken while there is room. -/
theorem octalEscape_append {room : Nat} (acc : Nat) {ds : List (Digit 8)}
    (hroom : ds.length ≤ room) (hend : ds.length = room ∨ t.head?.any Item.isOctal = false) :
    octalEscape room acc (ds.map Digit.char ++ t) =
      (acc * 8 ^ ds.length + Digit.number ds, t) := by
  induction ds generalizing room acc with
  | nil =>
    -- without a further digit the escape ends for want of room or at what follows
    have hstop : octalEscape room acc t = (acc, t) := by
      cases room with
      | zero => rw [octalEscape]
      | succ room =>
        cases t with
        | nil => rw [octalEscape]
        | cons c t =>
          have hc : Item.isOctal c = false := by simpa using hend
          rw [octalEscape, digit?_eight_eq_none hc]
    simpa [Digit.number_nil] using hstop
  | cons d ds ih =>
    obtain ⟨room, rfl⟩ : ∃ r, room = r + 1 :=
      Nat.exists_eq_succ_of_ne_zero (by rw [List.length_cons] at hroom; omega)
    rw [List.length_cons, Nat.add_le_add_iff_right] at hroom
    rw [List.length_cons, Nat.add_right_cancel_iff] at hend
    rw [List.map_cons, List.cons_append, octalEscape, digit?_char (by decide)]
    dsimp only
    rw [ih _ hroom hend, Digit.number_cons, List.length_cons]
    congr 1
    ring

theorem escape_octal {first : Digit 8} {more : List (Digit 8)} (h : more.length ≤ octalRoom first)
    (hend : more.length = octalRoom first ∨ t.head?.any Item.isOctal = false) :
    escape (first.char :: (more.map Digit.char ++ t)) =
      ([(Digit.number (first :: more)).toUInt16], t) := by
  -- the decoder looks for every other kind of escape first
  have hdigit : ∀ n < 8, ∀ capital, simpleEscape? (digitChar n capital) = none ∧
      digitChar n capital ≠ '\n' ∧ digitChar n capital ≠ 'u' := by decide
  obtain ⟨hletter, hfeed, hu⟩ : simpleEscape? first.char = none ∧ first.char ≠ '\n' ∧
      first.char ≠ 'u' := hdigit first.value first.value.isLt first.capital
  have hmore := octalEscape_append (t := t) first.value h hend
  rw [escape, hletter]
  dsimp only
  rw [if_neg hfeed, if_neg hu, digit?_char (by decide)]
  dsimp only
  rw [show (if first.value.val ≤ 3 then 2 else 1) = octalRoom first from rfl, hmore,
    Digit.number_cons]

/-- Every further `u` is skipped, and no digit is one. -/
theorem escape_unicode (extra : Nat) {ds : List (Digit 16)} (h : ds.length = 4) :
    escape ('u' :: (List.replicate extra 'u' ++ ds.map Digit.char ++ t)) =
      ([(Digit.number ds).toUInt16], t) := by
  have hne : ds ≠ [] := by
    intro hnil
    rw [hnil] at h
    cases h
  have hlength : (ds.map Digit.char).length = 4 := by rw [List.length_map, h]
  have hskip : (List.replicate extra 'u' ++ ds.map Digit.char ++ t).dropWhile (· == 'u') =
      ds.map Digit.char ++ t := by
    obtain ⟨d, ds, rfl⟩ := List.exists_cons_of_ne_nil hne
    have hd : d.char ≠ 'u' := Digit.char_of_forall (P := (· ≠ 'u')) (by decide) (by decide) d
    rw [List.append_assoc, List.dropWhile_append_of_pos (by simp), List.map_cons, List.cons_append,
      List.dropWhile_cons_of_neg (by simpa using hd)]
  have hescape : escape ('u' :: (List.replicate extra 'u' ++ ds.map Digit.char ++ t)) =
      unicodeEscape (List.replicate extra 'u' ++ ds.map Digit.char ++ t) := by
    rw [escape]
    rfl
  have htake : (ds.map Digit.char ++ t).take 4 = ds.map Digit.char := by
    rw [← hlength]
    exact List.take_left
  have hdrop : (ds.map Digit.char ++ t).drop 4 = t := by
    rw [← hlength]
    exact List.drop_left
  rw [hescape, unicodeEscape, hskip, htake, hdrop, unsigned?_digits (by decide) hne]

/-- An item that ends before the rest is read as its code units. -/
theorem unescape_append (i : Item) (hend : i.EndsBefore t) :
    unescape (i.spelling ++ t) = i.units ++ unescape t := by
  have hescaped : ∀ {r : List Char} {us : List UInt16}, escape r = (us, t) →
      unescape ('\\' :: r) = us ++ unescape t := by
    intro r us h
    rw [unescape, if_pos rfl, h]
  cases i with
  | plain c h =>
    show unescape (c :: t) = Text.unitsOf c ++ unescape t
    rw [unescape, if_neg h]
  | letter c u h => exact hescaped (escape_letter h)
  | octal first more h => exact hescaped (escape_octal h hend)
  | unicode extra ds h => exact hescaped (escape_unicode extra h)
  | continued => exact hescaped rfl

end Step

/-! ## Reading a body -/

variable {P : Item → Prop} {t : List Char} {us : List UInt16}

/-- A body is read item by item. -/
theorem unescape_of_spells (h : Spells P t us) : unescape t = us := by
  induction h with
  | nil => rw [unescape]
  | cons _ hend _ ih => rw [unescape_append _ hend, ih]

/-- A string literal around a body. -/
def quoted (body : List Char) : String := String.ofList ('"' :: (body ++ ['"']))

/-- A body that does not start with a quote is what stands between the quotes. -/
theorem stringBody_quoted {body : List Char} (h : body.head? ≠ some '"') :
    stringBody (quoted body).toList = body := by
  have hblock : Text.dropStart? blockQuote ('"' :: (body ++ ['"'])) = none := by
    cases body with
    | nil => rfl
    | cons c body =>
      have hc : ¬ '"' = c := fun heq => h (by rw [heq]; rfl)
      simp [blockQuote, Text.dropStart?, hc]
  have hend : Text.dropEnd? ['"'] (body ++ ['"']) = some body := by
    simp [Text.dropEnd?, Text.dropStart?]
  rw [quoted, String.toList_ofList, stringBody, hblock]
  simp [Text.dropStart?, hend]

/-- No item of a string literal starts with a quote. -/
theorem head?_of_spells (h : Spells Item.InString t us) : t.head? ≠ some '"' := by
  cases h with
  | nil => simp
  | @cons i t us hi _ _ =>
    rcases i.spelling_cases with ⟨c, hc, rfl⟩ | ⟨r, hr⟩
    · intro hhead
      exact hi.1 (Option.some.inj hhead)
    · rw [hr]
      intro hhead
      exact absurd (Option.some.inj hhead) (by decide)

/-- The text of a string literal is read from the code units of its items. -/
theorem decodeString_quoted (h : Spells Item.InString t us) :
    decodeString (quoted t) = String.ofList (Text.ofUnits us) := by
  rw [decodeString, stringBody_quoted (head?_of_spells h), unescape_of_spells h]

/-! ## Texts spelled unit by unit -/

/-- The Unicode escape of a code unit, with one `u`. -/
def Item.ofUnit (capital : Bool) (u : UInt16) : Item :=
  .unicode 0 ([u.toNat / 4096, u.toNat / 256, u.toNat / 16, u.toNat].map
    fun n => ⟨⟨n % 16, Nat.mod_lt n (by decide)⟩, capital⟩) rfl

theorem Item.units_ofUnit (capital : Bool) (u : UInt16) : (ofUnit capital u).units = [u] := by
  have hlt := u.toNat_lt
  have hnumber : u.toNat / 4096 % 16 * 16 ^ 3 + (u.toNat / 256 % 16 * 16 ^ 2 +
      (u.toNat / 16 % 16 * 16 ^ 1 + (u.toNat % 16 * 16 ^ 0 + 0))) = u.toNat := by omega
  show [(Digit.number _).toUInt16] = [u]
  simp only [List.map_cons, List.map_nil, Digit.number_cons, Digit.number_nil, List.length_cons,
    List.length_nil, hnumber]
  exact congrArg (fun v => [v]) UInt16.ofNat_toNat

/-- Escapes of code units spell these units. -/
theorem spells_ofUnit (capital : Bool) (us : List UInt16) :
    Spells Item.InString (us.flatMap fun u => (Item.ofUnit capital u).spelling) us := by
  induction us with
  | nil => exact .nil
  | cons u us ih =>
    have hcons := Spells.cons (i := Item.ofUnit capital u) trivial trivial ih
    rwa [Item.units_ofUnit] at hcons

/-- A string literal whose body is a sequence of items is the text that their
    code units stand for: halves of a pair join, whatever items they come from,
    and a half without its other half is U+FFFD. Every text is the value of the
    literal that spells its code units as Unicode escapes. -/
theorem decodeString_items :
    (∀ (body : List Char) (us : List UInt16), Spells Item.InString body us →
      ∀ s : String, decodeString (quoted body) = s ↔ Text.Lossy us s.toList) ∧
    ∀ (capital : Bool) (s : String), decodeString (quoted ((Text.units s.toList).flatMap
      fun u => (Item.ofUnit capital u).spelling)) = s := by
  constructor
  · intro body us h s
    rw [decodeString_quoted h, ← Text.ofUnits_eq_iff]
    constructor
    · intro heq
      rw [← heq, String.toList_ofList]
    · intro heq
      rw [heq, String.ofList_toList]
  · intro capital s
    rw [decodeString_quoted (spells_ofUnit capital _), Text.ofUnits_units, String.ofList_toList]

/-- Both halves of a pair with one `u` and with two, a full octal escape before
    a digit, a backslash before `u0`, and half of a pair. -/
theorem decodeString_items_sample :
    ∃ us, Spells Item.InString
        ['\\', 'u', 'D', '8', '3', 'd', '\\', 'u', 'u', 'd', 'e', '0', '0',
          '\\', '1', '0', '1', '7', '\\', '\\', 'u', '0', '\\', 'u', 'd', '8', '3', 'd'] us ∧
      decodeString (quoted
        ['\\', 'u', 'D', '8', '3', 'd', '\\', 'u', 'u', 'd', 'e', '0', '0',
          '\\', '1', '0', '1', '7', '\\', '\\', 'u', '0', '\\', 'u', 'd', '8', '3', 'd']) =
        "😀A7\\u0\uFFFD" := by
  have hspells := Spells.cons (P := Item.InString)
    (i := .unicode 0 [⟨13, true⟩, ⟨8, false⟩, ⟨3, false⟩, ⟨13, false⟩] rfl) trivial trivial
    (.cons (i := .unicode 1 [⟨13, false⟩, ⟨14, false⟩, ⟨0, false⟩, ⟨0, false⟩] rfl) trivial trivial
    (.cons (i := .octal ⟨1, false⟩ [⟨0, false⟩, ⟨1, false⟩] (by decide)) trivial (.inl rfl)
    (.cons (i := .plain '7' (by decide)) (by decide) trivial
    (.cons (i := .letter '\\' 0x5C (by decide)) trivial trivial
    (.cons (i := .plain 'u' (by decide)) (by decide) trivial
    (.cons (i := .plain '0' (by decide)) (by decide) trivial
    (.cons (i := .unicode 0 [⟨13, false⟩, ⟨8, false⟩, ⟨3, false⟩, ⟨13, false⟩] rfl)
      trivial trivial .nil)))))))
  refine ⟨_, hspells, (decodeString_items.1 _ _ hspells _).2 (Text.ofUnits_eq_iff.1 ?_)⟩
  decide

end MessageHarvest.Literal
