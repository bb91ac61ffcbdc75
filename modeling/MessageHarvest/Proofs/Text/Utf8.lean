import MessageHarvest.Text.Utf8

/-! # UTF-8 is read as it was written

    A character is written as a first byte, which says how many follow, and
    the bytes that follow it. Reading adds up the same bits (`ofUtf8?_utf8`). -/

namespace MessageHarvest.Text

theorem byteLength_append (s t : List Char) :
    byteLength (s ++ t) = byteLength s + byteLength t := by
  have hfold : ∀ (l : List Char) (n : Nat),
      l.foldl (fun n c => n + c.utf8Size) n = n + byteLength l := by
    intro l
    induction l with
    | nil => intro n; rfl
    | cons c l ih =>
      intro n
      rw [byteLength, List.foldl_cons, List.foldl_cons, ih, ih]
      omega
  rw [byteLength, List.foldl_append, hfold t]
  rfl

theorem toNat_toUInt8 {n : Nat} (h : n < 256) : n.toUInt8.toNat = n :=
  UInt8.toNat_ofNat_of_lt' h

theorem char?_toNat (c : Char) : char? c.toNat = some c := by
  have hvalid : c.toNat < 0xD800 ∨ (0xDFFF < c.toNat ∧ c.toNat < 0x110000) := c.valid
  have hrange : c.toNat < 0xD800 ∨ (0xE000 ≤ c.toNat ∧ c.toNat < 0x110000) := by omega
  rw [char?, if_pos hrange, Char.ofNat_toNat]

/-- A byte behind the first one adds six bits. -/
theorem continue?_cons {acc bits : Nat} (h : bits < 64) (bs : List UInt8) :
    continue? acc ((0x80 + bits).toUInt8 :: bs) = continue? (acc * 64 + bits) bs := by
  have hbyte : (0x80 + bits).toUInt8.toNat = 0x80 + bits := toNat_toUInt8 (by omega)
  rw [continue?, hbyte, if_pos (by omega), Nat.add_sub_cancel_left]

theorem utf8Size_eq (c : Char) :
    c.utf8Size = if c.toNat < 0x80 then 1 else if c.toNat < 0x800 then 2
      else if c.toNat < 0x10000 then 3 else 4 := by
  have hle : ∀ n : UInt32, c.val ≤ n ↔ c.toNat < n.toNat + 1 := fun n => by
    rw [UInt32.le_iff_toNat_le, Nat.lt_succ_iff]
    rfl
  simp only [Char.utf8Size, hle]
  rfl

/-- A first byte and the bytes that follow it are a character if they hold its
    bits in as many bytes as it needs. -/
theorem firstChar?_of {c : Char} {b : UInt8} {bs : List UInt8} (bits : Nat)
    (hlead : lead? b = some (bs.length, bits)) (hbits : continue? bits bs = some c.toNat)
    (hsize : c.utf8Size = bs.length + 1) (rest : List UInt8) :
    firstChar? (b :: (bs ++ rest)) = some (c, bs.length) := by
  have hmore : (bs ++ rest).take bs.length = bs := List.take_left
  simp only [firstChar?, hlead, bind, Option.bind, hmore, Nat.lt_irrefl, if_false, hbits,
    char?_toNat, hsize, if_true]
  rfl

/-- The bytes of a character are read as that character. -/
theorem firstChar?_utf8Char (c : Char) (rest : List UInt8) :
    ∃ b bs, utf8Char c = b :: bs ∧ firstChar? (b :: (bs ++ rest)) = some (c, bs.length) := by
  have hvalid : c.toNat < 0xD800 ∨ (0xDFFF < c.toNat ∧ c.toNat < 0x110000) := c.valid
  have hsize := utf8Size_eq c
  unfold utf8Char
  dsimp only
  by_cases h₁ : c.toNat < 0x80
  · rw [if_pos h₁] at hsize ⊢
    refine ⟨_, [], rfl, firstChar?_of c.toNat ?_ rfl hsize rest⟩
    rw [lead?, toNat_toUInt8 (by omega), if_pos h₁]
    rfl
  rw [if_neg h₁] at hsize ⊢
  by_cases h₂ : c.toNat < 0x800
  · rw [if_pos h₂] at hsize ⊢
    refine ⟨_, _, rfl, firstChar?_of (c.toNat / 64) ?_ ?_ hsize rest⟩
    · rw [lead?, toNat_toUInt8 (by omega)]
      simp (disch := omega) only [if_neg, if_pos, Nat.add_sub_cancel_left]
      rfl
    · rw [continue?_cons (by omega), continue?]
      congr 1
      omega
  rw [if_neg h₂] at hsize ⊢
  by_cases h₃ : c.toNat < 0x10000
  · rw [if_pos h₃] at hsize ⊢
    refine ⟨_, _, rfl, firstChar?_of (c.toNat / 4096) ?_ ?_ hsize rest⟩
    · rw [lead?, toNat_toUInt8 (by omega)]
      simp (disch := omega) only [if_neg, if_pos, Nat.add_sub_cancel_left]
      rfl
    · rw [continue?_cons (by omega), continue?_cons (by omega), continue?]
      congr 1
      omega
  · rw [if_neg h₃] at hsize ⊢
    refine ⟨_, _, rfl, firstChar?_of (c.toNat / 262144) ?_ ?_ hsize rest⟩
    · rw [lead?, toNat_toUInt8 (by omega)]
      simp (disch := omega) only [if_neg, if_pos, Nat.add_sub_cancel_left]
      rfl
    · rw [continue?_cons (by omega), continue?_cons (by omega), continue?_cons (by omega),
        continue?]
      congr 1
      omega

theorem utf8_cons_of_lt {c : Char} (hc : c.toNat < 0x80) (t : List Char) :
    utf8 (c :: t) = c.toNat.toUInt8 :: utf8 t := by
  rw [utf8, List.flatMap_cons, utf8Char]
  simp only [if_pos hc]
  rfl

/-- What was written is read. -/
theorem ofUtf8?_utf8 (t : List Char) : ofUtf8? (utf8 t) = some t := by
  induction t with
  | nil => rw [utf8, List.flatMap_nil, ofUtf8?]
  | cons c t ih =>
    obtain ⟨b, bs, hc, hfirst⟩ := firstChar?_utf8Char c (utf8 t)
    have hbytes : utf8 (c :: t) = b :: (bs ++ utf8 t) := by
      rw [utf8, List.flatMap_cons, hc]
      rfl
    rw [hbytes, ofUtf8?, hfirst]
    dsimp only
    rw [List.drop_left, ih]
    rfl

end MessageHarvest.Text
