import MessageHarvest.Encoding.Label
import MessageHarvest.Proofs.Text.Utf8

/-! # Encodings that read what they write

    Text is read back from the bytes that were written for it, if it starts
    with an ASCII character, so that nothing is taken for a byte order mark, and
    if the encoding writes in its own form (`decode?_encode?`).

    UTF-16 and the replacement encoding do not: they write UTF-8. Of that,
    UTF-16 reads every two bytes as one character (`exists_of_decode?_utf16`),
    and the replacement encoding reads nothing. -/

namespace MessageHarvest.Encoding

/-- Whether text is written in the form in which it is read. -/
def Form.isOwn : Form → Bool
  | .utf16 _ | .replacement => false
  | _ => true

/-- Whether a table has no more characters than there are bytes for them. -/
def Form.fits : Form → Bool
  | .singleByte upper => upper.length ≤ 128
  | _ => true

theorem fits_all : ∀ e ∈ all, e.form.fits = true := by decide +kernel

theorem mem_all_of_resolve {label : String} {e : Encoding} (h : resolve label = .ok e) :
    e ∈ all := by
  unfold resolve at h
  split at h
  · next e' he =>
    cases h
    unfold ofLabel? at he
    exact List.mem_of_find?_eq_some he
  · cases h

/-! ## Characters of one byte -/

section OneByte

variable {upper : List Nat}

/-- The byte of a character is read as that character. -/
theorem upperChar?_of_upperByte? (hupper : upper.length ≤ 128) {c : Char} {b : UInt8}
    (h : upperByte? upper c = some b) : upperChar? upper b = some c := by
  unfold upperByte? at h
  split at h
  · next hc =>
    cases h
    rw [upperChar?, Text.toNat_toUInt8 (by omega), if_pos hc, Char.ofNat_toNat]
  · next hc =>
    obtain ⟨i, hi, rfl⟩ := Option.map_eq_some_iff.1 h
    obtain ⟨hlt, hget, -⟩ := List.idxOf?_eq_some_iff.1 hi
    have hbyte : (i + 0x80).toUInt8.toNat = i + 0x80 := Text.toNat_toUInt8 (by omega)
    have hchar : upper[i]? = some c.toNat := by
      rw [List.getElem?_eq_getElem hlt, hget]
    rw [upperChar?, hbyte, if_neg (by omega), Nat.add_sub_cancel, hchar]
    -- the table has a zero where there is no character, and this is one
    obtain ⟨n, hn⟩ : ∃ n, c.toNat = n + 1 := ⟨c.toNat - 1, by omega⟩
    rw [hn]
    dsimp only
    rw [← hn, Char.ofNat_toNat]

/-- What is written character by character is read byte by byte. -/
theorem mapM_upperChar? (hupper : upper.length ≤ 128) {t : List Char} {bs : Bytes}
    (h : t.mapM (upperByte? upper) = some bs) : bs.mapM (upperChar? upper) = some t := by
  induction t generalizing bs with
  | nil =>
    cases h
    rfl
  | cons c t ih =>
    rw [List.mapM_cons] at h
    obtain ⟨b, hb, h⟩ := Option.bind_eq_some_iff.1 h
    obtain ⟨bs', hbs', h⟩ := Option.bind_eq_some_iff.1 h
    cases h
    rw [List.mapM_cons, upperChar?_of_upperByte? hupper hb, ih hbs']
    rfl

theorem exists_of_mapM_upperByte? {c : Char} {t : List Char} {bytes : Bytes}
    (hc : c.toNat < 0x80) (h : (c :: t).mapM (upperByte? upper) = some bytes) :
    ∃ bs, bytes = c.toNat.toUInt8 :: bs := by
  rw [List.mapM_cons, upperByte?, if_pos hc] at h
  obtain ⟨b, hb, h⟩ := Option.bind_eq_some_iff.1 h
  obtain ⟨bs, -, h⟩ := Option.bind_eq_some_iff.1 h
  cases hb
  cases h
  exact ⟨bs, rfl⟩

end OneByte

/-! ## Whole texts -/

section Texts

variable {c : Char} {t : List Char} {bytes : Bytes}

/-- A text that starts with ASCII starts with the byte of that character in
    every encoding. -/
theorem exists_of_encode? {form : Form} (hc : c.toNat < 0x80)
    (h : form.encode? (c :: t) = some bytes) : ∃ bs, bytes = c.toNat.toUInt8 :: bs := by
  have hutf8 := Text.utf8_cons_of_lt hc t
  cases form with
  | singleByte upper => exact exists_of_mapM_upperByte? hc h
  | userDefined => exact exists_of_mapM_upperByte? hc h
  | ascii => exact exists_of_mapM_upperByte? hc h
  | utf8 =>
    cases h
    exact ⟨_, hutf8⟩
  | utf16 be =>
    cases h
    exact ⟨_, hutf8⟩
  | replacement =>
    cases h
    exact ⟨_, hutf8⟩

/-- Byte order marks start with no ASCII byte. -/
theorem mark?_of_lt {b : UInt8} (hb : b.toNat < 0x80) (bs : Bytes) : mark? (b :: bs) = none := by
  unfold mark?
  split
  · next h =>
    cases h
    simp at hb
  · next h =>
    cases h
    simp at hb
  · next h =>
    cases h
    simp at hb
  · rfl

/-- Text that starts with ASCII is read in the form that was asked for. -/
theorem decode?_of_encode? {e : Encoding} (hc : c.toNat < 0x80)
    (h : e.encode? (c :: t) = some bytes) : e.decode? bytes = e.form.decode? bytes := by
  obtain ⟨bs, rfl⟩ := exists_of_encode? hc h
  have hbyte : c.toNat.toUInt8.toNat < 0x80 := by
    rw [Text.toNat_toUInt8 (by omega)]
    exact hc
  rw [decode?, mark?_of_lt hbyte]

/-- An encoding that writes in its own form reads what it writes. -/
theorem decode?_encode? {e : Encoding} (hfits : e.form.fits = true) (hown : e.form.isOwn = true)
    (hc : c.toNat < 0x80) (h : e.encode? (c :: t) = some bytes) :
    e.decode? bytes = some (c :: t) := by
  rw [decode?_of_encode? hc h]
  unfold encode? at h
  cases hform : e.form with
  | utf8 =>
    rw [hform] at h
    cases h
    exact Text.ofUtf8?_utf8 _
  | singleByte upper =>
    rw [hform] at h hfits
    exact mapM_upperChar? (of_decide_eq_true hfits) h
  | userDefined =>
    rw [hform] at h
    exact mapM_upperChar? (by simp [privateUpper]) h
  | ascii =>
    rw [hform] at h
    exact mapM_upperChar? (by decide) h
  | utf16 be =>
    rw [hform] at hown
    cases hown
  | replacement =>
    rw [hform] at hown
    cases hown

/-- The number of the character that UTF-16 reads in two ASCII characters. -/
def paired (bigEndian : Bool) (a b : Char) : Nat :=
  if bigEndian then a.toNat * 256 + b.toNat else b.toNat * 256 + a.toNat

theorem ofUnits?_cons_of_lt {n : Nat} (hn : n < 0x8000) (us : List UInt16) :
    ofUnits? (n.toUInt16 :: us) = (ofUnits? us).map (Char.ofNat n :: ·) := by
  have hunit : n.toUInt16.toNat = n := UInt16.toNat_ofNat_of_lt' (Nat.lt_trans hn (by decide))
  have hhigh : Text.isHigh n.toUInt16 = false := by
    simp only [Text.isHigh, Bool.and_eq_false_iff, decide_eq_false_iff_not, UInt16.le_iff_toNat_le,
      hunit]
    left
    show ¬ 0xD800 ≤ n
    omega
  have hlow : Text.isLow n.toUInt16 = false := by
    simp only [Text.isLow, Bool.and_eq_false_iff, decide_eq_false_iff_not, UInt16.le_iff_toNat_le,
      hunit]
    left
    show ¬ 0xDC00 ≤ n
    omega
  rw [ofUnits?.eq_def]
  simp only [hhigh, hlow, hunit, Bool.false_eq_true, if_false]

/-- What UTF-16 reads of the two ASCII characters that a text starts with. -/
theorem exists_of_decode?_utf16 {be : Bool} {a b : Char} {text : List Char}
    (ha : a.toNat < 0x80) (hb : b.toNat < 0x80)
    (h : (Form.utf16 be).decode? (Text.utf8 (a :: b :: t)) = some text) :
    ∃ rest, text = Char.ofNat (paired be a b) :: rest := by
  have hlt : paired be a b < 0x8000 := by
    unfold paired
    split <;> omega
  rw [Text.utf8_cons_of_lt ha, Text.utf8_cons_of_lt hb] at h
  obtain ⟨us, hus, h⟩ := Option.bind_eq_some_iff.1 h
  rw [units?, Text.toNat_toUInt8 (by omega), Text.toNat_toUInt8 (by omega)] at hus
  obtain ⟨vs, -, rfl⟩ := Option.map_eq_some_iff.1 hus
  rw [show (if be = true then _ else _ : Nat) = paired be a b from rfl,
    ofUnits?_cons_of_lt hlt] at h
  obtain ⟨rest, -, rfl⟩ := Option.map_eq_some_iff.1 h
  exact ⟨rest, rfl⟩

end Texts

end MessageHarvest.Encoding
