import MessageHarvest.Text.Units

/-! # Code units as text

    `Lossy us t` says which text the code units `us` stand for, without
    computing it: the one or two units of a character are that character, and
    a surrogate that stands alone is U+FFFD.

    * `ofUnits_eq_iff`: this is the text that is read, and the only one.
    * `ofUnits_units`: a text is read back from its code units.
    * `ofUnits_flatten_iff`: code units may be read piece by piece exactly if no
      boundary between the pieces separates the halves of a pair. -/

namespace MessageHarvest.Text

/-! ## Halves and pairs -/

theorem isHigh_iff {u : UInt16} : isHigh u = true ↔ 0xD800 ≤ u.toNat ∧ u.toNat ≤ 0xDBFF := by
  simp [isHigh, UInt16.le_iff_toNat_le]

theorem isLow_iff {u : UInt16} : isLow u = true ↔ 0xDC00 ≤ u.toNat ∧ u.toNat ≤ 0xDFFF := by
  simp [isLow, UInt16.le_iff_toNat_le]

/-- Whether a code unit is half of a pair. -/
def isSurrogate (u : UInt16) : Bool := isHigh u || isLow u

theorem isSurrogate_iff {u : UInt16} :
    isSurrogate u = true ↔ 0xD800 ≤ u.toNat ∧ u.toNat ≤ 0xDFFF := by
  rw [isSurrogate, Bool.or_eq_true, isHigh_iff, isLow_iff]
  omega

theorem toNat_toUInt16 {n : Nat} (h : n < 0x10000) : n.toUInt16.toNat = n :=
  UInt16.toNat_ofNat_of_lt' h

/-- A number outside the surrogates is that of a character. -/
theorem toNat_ofNat {n : Nat} (h : n < 0xD800 ∨ (0xDFFF < n ∧ n < 0x110000)) :
    (Char.ofNat n).toNat = n := by
  have hvalid : n.isValidChar := h
  rw [Char.ofNat, dif_pos hvalid]
  exact UInt32.toNat_ofNatLT ..

/-- The units of a character below the first pair. -/
theorem unitsOf_of_lt {c : Char} (h : c.toNat < 0x10000) : unitsOf c = [c.toNat.toUInt16] :=
  if_pos h

theorem ofUnit_of_isSurrogate {u : UInt16} (h : isSurrogate u = true) : ofUnit u = replacement :=
  if_pos h

theorem ofUnit_of_not_isSurrogate {u : UInt16} (h : ¬ isSurrogate u = true) :
    ofUnit u = Char.ofNat u.toNat :=
  if_neg h

/-- A code unit that is no half of a pair is a character by itself. -/
theorem unitsOf_ofUnit {u : UInt16} (h : ¬ isSurrogate u = true) : unitsOf (ofUnit u) = [u] := by
  have hout := h
  rw [isSurrogate_iff] at hout
  have hlt := u.toNat_lt
  have hnat : (Char.ofNat u.toNat).toNat = u.toNat := toNat_ofNat (by omega)
  rw [ofUnit_of_not_isSurrogate h, unitsOf_of_lt (by omega), hnat]
  exact congrArg (fun v => [v]) UInt16.ofNat_toNat

/-- Two halves in their order are a character. -/
theorem unitsOf_ofPair {u v : UInt16} (hu : isHigh u = true) (hv : isLow v = true) :
    unitsOf (ofPair u v) = [u, v] := by
  rw [isHigh_iff] at hu
  rw [isLow_iff] at hv
  have hnat : (ofPair u v).toNat =
      0x10000 + (u.toNat - 0xD800) * 0x400 + (v.toNat - 0xDC00) := toNat_ofNat (by omega)
  have hpair : ¬ (ofPair u v).toNat < 0x10000 := by omega
  have hfirst : 0xD800 + ((ofPair u v).toNat - 0x10000) / 0x400 = u.toNat := by omega
  have hsecond : 0xDC00 + ((ofPair u v).toNat - 0x10000) % 0x400 = v.toNat := by omega
  unfold unitsOf
  simp only [if_neg hpair, hfirst, hsecond]
  rw [show u.toNat.toUInt16 = u from UInt16.ofNat_toNat,
    show v.toNat.toUInt16 = v from UInt16.ofNat_toNat]

/-- The two halves of a character that needs them. -/
theorem exists_pair {c : Char} (h : ¬ c.toNat < 0x10000) :
    ∃ u v, unitsOf c = [u, v] ∧ isHigh u = true ∧ isLow v = true ∧ ofPair u v = c := by
  have hvalid : c.toNat < 0xD800 ∨ (0xDFFF < c.toNat ∧ c.toNat < 0x110000) := c.valid
  have hfirst : (0xD800 + (c.toNat - 0x10000) / 0x400).toUInt16.toNat =
      0xD800 + (c.toNat - 0x10000) / 0x400 := toNat_toUInt16 (by omega)
  have hsecond : (0xDC00 + (c.toNat - 0x10000) % 0x400).toUInt16.toNat =
      0xDC00 + (c.toNat - 0x10000) % 0x400 := toNat_toUInt16 (by omega)
  refine ⟨_, _, if_neg h, ?_, ?_, ?_⟩
  · rw [isHigh_iff, hfirst]
    omega
  · rw [isLow_iff, hsecond]
    omega
  · have hnat : 0x10000 + (0xD800 + (c.toNat - 0x10000) / 0x400 - 0xD800) * 0x400 +
        (0xDC00 + (c.toNat - 0x10000) % 0x400 - 0xDC00) = c.toNat := by omega
    rw [ofPair, hfirst, hsecond, hnat, Char.ofNat_toNat]

/-! ## Reading -/

/-- A first unit that does not start a pair is read by itself. -/
theorem ofUnits_cons {u : UInt16} {us : List UInt16}
    (h : ¬ (isHigh u = true ∧ us.head?.any isLow = true)) :
    ofUnits (u :: us) = ofUnit u :: ofUnits us := by
  cases us with
  | nil => rfl
  | cons v us =>
    have hpair : ¬ (isHigh u && isLow v) = true := by simpa using h
    rw [ofUnits, if_neg hpair]

/-- The units of a character are read as that character, whatever follows. -/
theorem ofUnits_unitsOf_append (c : Char) (us : List UInt16) :
    ofUnits (unitsOf c ++ us) = c :: ofUnits us := by
  have hvalid : c.toNat < 0xD800 ∨ (0xDFFF < c.toNat ∧ c.toNat < 0x110000) := c.valid
  by_cases hc : c.toNat < 0x10000
  · -- the one unit is the character's number, which is no surrogate
    have hnat : c.toNat.toUInt16.toNat = c.toNat := toNat_toUInt16 hc
    have hhigh : ¬ isHigh c.toNat.toUInt16 = true := by
      rw [isHigh_iff, hnat]
      omega
    have hsurrogate : ¬ isSurrogate c.toNat.toUInt16 = true := by
      rw [isSurrogate_iff, hnat]
      omega
    rw [unitsOf_of_lt hc, List.singleton_append, ofUnits_cons (fun h => hhigh h.1),
      ofUnit_of_not_isSurrogate hsurrogate, hnat, Char.ofNat_toNat]
  · obtain ⟨u, v, hunits, hu, hv, hself⟩ := exists_pair hc
    have hpair : (isHigh u && isLow v) = true := by rw [hu, hv]; rfl
    rw [hunits, List.cons_append, List.singleton_append, ofUnits, if_pos hpair, hself]

/-- A text is read back from its code units. -/
theorem ofUnits_units (t : List Char) : ofUnits (units t) = t := by
  induction t with
  | nil => rfl
  | cons c t ih =>
    have hcons : units (c :: t) = unitsOf c ++ units t := List.flatMap_cons
    rw [hcons, ofUnits_unitsOf_append, ih]

/-! ## The text that code units stand for -/

/-- The text of code units, by rules. A high surrogate stands alone unless a low
    one follows it; a low one stands alone wherever it is not the second half of
    a character. -/
inductive Lossy : List UInt16 → List Char → Prop where
  | nil : Lossy [] []
  | char (c : Char) {us : List UInt16} {t : List Char} : Lossy us t →
      Lossy (unitsOf c ++ us) (c :: t)
  | lone {u : UInt16} {us : List UInt16} {t : List Char} : isSurrogate u = true →
      ¬ (isHigh u = true ∧ us.head?.any isLow = true) → Lossy us t →
      Lossy (u :: us) (replacement :: t)

theorem lossy_cons {u : UInt16} {us : List UInt16} {t : List Char}
    (h : ¬ (isHigh u = true ∧ us.head?.any isLow = true)) (ht : Lossy us t) :
    Lossy (u :: us) (ofUnit u :: t) := by
  by_cases hu : isSurrogate u = true
  · rw [ofUnit_of_isSurrogate hu]
    exact .lone hu h ht
  · have hchar := Lossy.char (ofUnit u) ht
    rw [unitsOf_ofUnit hu] at hchar
    exact hchar

theorem lossy_ofUnits (us : List UInt16) : Lossy us (ofUnits us) := by
  fun_induction ofUnits us with
  | case1 => exact .nil
  | case2 u => exact lossy_cons (by simp) .nil
  | case3 u v us hpair ih =>
    rw [Bool.and_eq_true] at hpair
    have hchar := Lossy.char (ofPair u v) ih
    rw [unitsOf_ofPair hpair.1 hpair.2] at hchar
    exact hchar
  | case4 u v us hpair ih => exact lossy_cons (by simpa using hpair) ih

/-- The text that is read is the one that the units stand for. -/
theorem ofUnits_eq_iff {us : List UInt16} {t : List Char} : ofUnits us = t ↔ Lossy us t := by
  constructor
  · intro h
    rw [← h]
    exact lossy_ofUnits us
  · intro h
    induction h with
    | nil => rfl
    | char c _ ih => rw [ofUnits_unitsOf_append, ih]
    | lone hu hlone _ ih => rw [ofUnits_cons hlone, ofUnit_of_isSurrogate hu, ih]

/-! ## Reading in pieces -/

/-- The halves of a pair stand on the two sides of a boundary. -/
def Parted (us vs : List UInt16) : Prop :=
  us.getLast?.any isHigh = true ∧ vs.head?.any isLow = true

instance (us vs : List UInt16) : Decidable (Parted us vs) :=
  inferInstanceAs (Decidable (_ ∧ _))

/-- Some boundary between pieces parts the halves of a pair, possibly with empty
    pieces in between. -/
def PartedWithin (uss : List (List UInt16)) : Prop :=
  ∃ before after, uss = before ++ after ∧ Parted before.flatten after.flatten

theorem not_isLow_of_isHigh {u : UInt16} (h : isHigh u = true) : ¬ isLow u = true := by
  rw [isHigh_iff] at h
  rw [isLow_iff]
  omega

theorem ofUnits_append {us vs : List UInt16} (h : ¬ Parted us vs) :
    ofUnits (us ++ vs) = ofUnits us ++ ofUnits vs := by
  fun_induction ofUnits us with
  | case1 => rfl
  | case2 u => exact ofUnits_cons (by simpa [Parted] using h)
  | case3 u v us hpair ih =>
    have hrest : ¬ Parted us vs := by
      rintro ⟨hlast, hhead⟩
      have hne : us ≠ [] := by
        rintro rfl
        cases hlast
      refine h ⟨?_, hhead⟩
      rwa [List.getLast?_cons_cons, List.getLast?_cons_of_ne_nil hne]
    rw [List.cons_append, List.cons_append, ofUnits, if_pos hpair, ih hrest, List.cons_append]
  | case4 u v us hpair ih =>
    have hrest : ¬ Parted (v :: us) vs := by
      rwa [Parted, List.getLast?_cons_cons] at h
    rw [List.cons_append, List.cons_append, ofUnits, if_neg hpair, ← List.cons_append, ih hrest,
      List.cons_append]

/-- Reading in two pieces gives one character more exactly if it parts a pair. -/
theorem length_ofUnits_append (us vs : List UInt16) :
    (ofUnits (us ++ vs)).length + (if Parted us vs then 1 else 0) =
      (ofUnits us).length + (ofUnits vs).length := by
  by_cases h : Parted us vs
  · rw [if_pos h]
    obtain ⟨hlast, hhead⟩ := h
    obtain ⟨us, u, rfl⟩ := (List.eq_nil_or_concat us).resolve_left (by rintro rfl; cases hlast)
    obtain ⟨v, vs, rfl⟩ := List.exists_cons_of_ne_nil (l := vs) (by rintro rfl; cases hhead)
    rw [List.concat_eq_append] at *
    have hu : isHigh u = true := by rwa [List.getLast?_concat] at hlast
    have hv : isLow v = true := hhead
    -- a high half does not end a pair itself, so what stands before it is read alone
    have hfront : ∀ ws, ofUnits (us ++ u :: ws) = ofUnits us ++ ofUnits (u :: ws) := fun ws =>
      ofUnits_append fun hp => not_isLow_of_isHigh hu hp.2
    have hjoined : ofUnits (u :: v :: vs) = ofPair u v :: ofUnits vs := by
      rw [ofUnits, hu, hv]
      rfl
    have hlone : ofUnits (v :: vs) = ofUnit v :: ofUnits vs :=
      ofUnits_cons fun hp => not_isLow_of_isHigh hp.1 hv
    rw [List.append_assoc, List.singleton_append, hfront, hfront, hjoined, hlone, ofUnits]
    simp only [List.length_append, List.length_cons, List.length_nil]
    omega
  · rw [if_neg h, ofUnits_append h, List.length_append, Nat.add_zero]

/-- Reading in pieces never gives fewer characters. -/
theorem length_ofUnits_flatten_le (uss : List (List UInt16)) :
    (ofUnits uss.flatten).length ≤ (uss.flatMap ofUnits).length := by
  induction uss with
  | nil => exact Nat.le_refl _
  | cons us uss ih =>
    have happend := length_ofUnits_append us uss.flatten
    rw [List.flatten_cons, List.flatMap_cons, List.length_append]
    omega

/-- Code units may be read piece by piece exactly if no boundary parts a pair. -/
theorem ofUnits_flatten_iff (uss : List (List UInt16)) :
    ofUnits uss.flatten = uss.flatMap ofUnits ↔ ¬ PartedWithin uss := by
  constructor
  · rintro heq ⟨before, after, rfl, hparted⟩
    -- the boundary costs a character that no other one gives back
    have happend := length_ofUnits_append before.flatten after.flatten
    have hbefore := length_ofUnits_flatten_le before
    have hafter := length_ofUnits_flatten_le after
    have hlength := congrArg List.length heq
    rw [List.flatten_append, List.flatMap_append, List.length_append] at hlength
    rw [if_pos hparted] at happend
    omega
  · intro h
    induction uss with
    | nil => rfl
    | cons us uss ih =>
      have hhead : ¬ Parted us uss.flatten := fun hp => h ⟨[us], uss, rfl, by simpa using hp⟩
      have hrest : ¬ PartedWithin uss := by
        rintro ⟨before, after, rfl, hlast, hfirst⟩
        refine h ⟨us :: before, after, rfl, ?_, hfirst⟩
        rw [List.flatten_cons, List.getLast?_append]
        cases hu : before.flatten.getLast? with
        | none =>
          rw [hu] at hlast
          cases hlast
        | some u =>
          rw [hu] at hlast
          exact hlast
      rw [List.flatten_cons, List.flatMap_cons, ofUnits_append hhead, ih hrest]

end MessageHarvest.Text
