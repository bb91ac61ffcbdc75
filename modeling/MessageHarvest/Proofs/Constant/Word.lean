import Mathlib.Tactic.Positivity
import MessageHarvest.Proofs.Constant.Semantics

/-! # Machine words as integers

    Taking an integer to the word of its low bits respects sums, products,
    quotients, bitwise operators and shifts. So whatever is computed on words
    is the exact result on the integers that they stand for, taken back to a
    word. -/

namespace MessageHarvest

/-! ## Bits -/

section Bits

variable {w : Nat}

/-- The low bits of an integer in two's complement. -/
theorem getLsbD_ofInt (n : Int) (i : Nat) :
    (BitVec.ofInt w n).getLsbD i = (decide (i < w) && n.testBit i) := by
  cases n with
  | ofNat n => exact BitVec.getLsbD_ofNat w n i
  | negSucc n =>
    rw [BitVec.ofInt_negSucc_eq_not_ofNat, BitVec.getLsbD_not, BitVec.getLsbD_ofNat]
    by_cases h : i < w <;> simp [h, Int.testBit]

theorem ofInt_land (m n : Int) :
    BitVec.ofInt w (m.land n) = BitVec.ofInt w m &&& BitVec.ofInt w n := by
  refine BitVec.eq_of_getLsbD_eq fun i hi => ?_
  simp only [BitVec.getLsbD_and, getLsbD_ofInt, Int.testBit_land, hi, decide_true, Bool.true_and]

theorem ofInt_lor (m n : Int) :
    BitVec.ofInt w (m.lor n) = BitVec.ofInt w m ||| BitVec.ofInt w n := by
  refine BitVec.eq_of_getLsbD_eq fun i hi => ?_
  simp only [BitVec.getLsbD_or, getLsbD_ofInt, Int.testBit_lor, hi, decide_true, Bool.true_and]

theorem ofInt_xor (m n : Int) :
    BitVec.ofInt w (m.xor n) = BitVec.ofInt w m ^^^ BitVec.ofInt w n := by
  refine BitVec.eq_of_getLsbD_eq fun i hi => ?_
  simp only [BitVec.getLsbD_xor, getLsbD_ofInt, Int.testBit_lxor, hi, decide_true, Bool.true_and]

/-- The number of a word without its sign. -/
theorem toNat_eq_toInt_emod (x : BitVec w) : (x.toNat : Int) = x.toInt % 2 ^ w := by
  have h := BitVec.toNat_ofInt (n := w) x.toInt
  rw [BitVec.ofInt_toInt] at h
  have hpow : ((2 ^ w : Nat) : Int) = 2 ^ w := by push_cast; rfl
  have hpos : 0 ≤ x.toInt % 2 ^ w := Int.emod_nonneg _ (by positivity)
  rw [h, hpow, Int.toNat_of_nonneg hpos]

theorem ofInt_mul_two_pow (x : BitVec w) (d : Nat) :
    BitVec.ofInt w (x.toInt * 2 ^ d) = x <<< d := by
  have hpow : BitVec.ofInt w (2 ^ d) = BitVec.twoPow w d := by
    have hcast : (2 ^ d : Int) = ((2 ^ d : Nat) : Int) := by push_cast; rfl
    rw [hcast, BitVec.ofInt_natCast]
    exact BitVec.eq_of_toNat_eq (by rw [BitVec.toNat_ofNat, BitVec.toNat_twoPow])
  rw [BitVec.ofInt_mul, BitVec.ofInt_toInt, hpow, BitVec.shiftLeft_eq_mul_twoPow]

theorem ofInt_div_two_pow (x : BitVec w) (d : Nat) :
    BitVec.ofInt w (x.toInt / 2 ^ d) = x.sshiftRight d := by
  have h : (x.sshiftRight d).toInt = x.toInt / 2 ^ d := by
    rw [BitVec.toInt_sshiftRight, Int.shiftRight_eq_div_pow]
    push_cast
    rfl
  rw [← h, BitVec.ofInt_toInt]

theorem ofInt_emod_div_two_pow (x : BitVec w) (d : Nat) :
    BitVec.ofInt w (x.toInt % 2 ^ w / 2 ^ d) = x >>> d := by
  have h : x.toInt % 2 ^ w / 2 ^ d = ((x >>> d).toNat : Int) := by
    rw [BitVec.toNat_ushiftRight, Nat.shiftRight_eq_div_pow, ← toNat_eq_toInt_emod]
    push_cast
    rfl
  rw [h, BitVec.ofInt_natCast, BitVec.ofNat_toNat, BitVec.setWidth_eq]

end Bits

/-! ## Distances -/

/-- Masking a count keeps its remainder modulo a power of two. -/
theorem toNat_mask (count : Int64) {k : Nat} (h : k ≤ 64) :
    (count &&& Int64.ofNat (2 ^ k - 1)).toBitVec.toNat = (count.toInt % 2 ^ k).toNat := by
  have hlt : 2 ^ k - 1 < 2 ^ 64 := by
    have hle : 2 ^ k ≤ 2 ^ 64 := Nat.pow_le_pow_right (by decide) h
    have hpos := Nat.two_pow_pos k
    omega
  have hmod : count.toInt % 2 ^ k = ((count.toBitVec.toNat % 2 ^ k : Nat) : Int) := by
    push_cast
    rw [toNat_eq_toInt_emod, Int64.toInt_toBitVec, Int.emod_emod_of_dvd _ (pow_dvd_pow 2 h)]
  rw [hmod, Int.toNat_natCast, Int64.toBitVec_and, BitVec.toNat_and, Int64.toBitVec_ofNat',
    BitVec.toNat_ofNat, Nat.mod_eq_of_lt hlt, Nat.and_two_pow_sub_one_eq_mod]

theorem toNat_distance_int (count : Int64) :
    (count &&& 31).toInt32.toBitVec.toNat = (count.toInt % 32).toNat := by
  have h : (count &&& 31).toBitVec.toNat = (count.toInt % 32).toNat :=
    toNat_mask count (k := 5) (by decide)
  rw [Int64.toBitVec_toInt32, BitVec.signExtend_eq_setWidth_of_le _ (by decide),
    BitVec.toNat_setWidth, h]
  omega

theorem toNat_distance_long (count : Int64) :
    (count &&& 63).toBitVec.toNat = (count.toInt % 64).toNat :=
  toNat_mask count (k := 6) (by decide)

section Distance

variable {w : Nat} {x y : BitVec w}

theorem umod_eq_self (h : x.toNat < y.toNat) : x % y = x :=
  BitVec.eq_of_toNat_eq (by rw [BitVec.toNat_umod, Nat.mod_eq_of_lt h])

/-- A distance that is small enough is taken as it is. -/
theorem smod_eq_self (hy : y.msb = false) (h : x.toNat < y.toNat) : x.smod y = x := by
  -- with both signs clear this is the unsigned remainder
  have hx : x.msb = false := by
    rw [BitVec.msb_eq_false_iff_two_mul_lt] at hy ⊢
    omega
  rw [BitVec.smod_eq, hx, hy]
  exact umod_eq_self h

end Distance

/-! ## Operators on words of any width -/

section Operators

variable {w : Nat}

/-- Arithmetic and bitwise operators on bits. -/
def BinaryOp.onBits (op : BinaryOp) (x y : BitVec w) : Option (BitVec w) :=
  match op with
  | .add => some (x + y)
  | .sub => some (x - y)
  | .mul => some (x * y)
  | .div => if y = 0#w then none else some (x.sdiv y)
  | .rem => if y = 0#w then none else some (x.srem y)
  | .bitAnd => some (x &&& y)
  | .bitOr => some (x ||| y)
  | .bitXor => some (x ^^^ y)
  | _ => none

/-- Arithmetic on bits is exact arithmetic, reduced. -/
theorem onBits_eq (op : BinaryOp) (x y : BitVec w) :
    op.onBits x y = (op.result? x.toInt y.toInt).map (BitVec.ofInt w) := by
  have hzero : y = 0#w ↔ y.toInt = 0 := by rw [← BitVec.toInt_inj, BitVec.toInt_zero]
  cases op with
  | add => simp [BinaryOp.onBits, BinaryOp.result?, BitVec.ofInt_add]
  | sub =>
    refine congrArg some (BitVec.eq_of_toInt_eq ?_)
    rw [BitVec.toInt_sub, BitVec.toInt_ofInt]
  | mul => simp [BinaryOp.onBits, BinaryOp.result?, BitVec.ofInt_mul]
  | div =>
    simp only [BinaryOp.onBits, BinaryOp.result?, hzero]
    split
    · rfl
    · refine congrArg some (BitVec.eq_of_toInt_eq ?_)
      rw [BitVec.toInt_sdiv, BitVec.toInt_ofInt]
  | rem =>
    simp only [BinaryOp.onBits, BinaryOp.result?, hzero]
    split
    · rfl
    · rw [Option.map_some, ← BitVec.toInt_srem, BitVec.ofInt_toInt]
  | bitAnd => simp [BinaryOp.onBits, BinaryOp.result?, ofInt_land]
  | bitOr => simp [BinaryOp.onBits, BinaryOp.result?, ofInt_lor]
  | bitXor => simp [BinaryOp.onBits, BinaryOp.result?, ofInt_xor]
  | _ => rfl

/-- Shifts of bits. -/
def BinaryOp.shiftBits (op : BinaryOp) (x : BitVec w) (d : Nat) : BitVec w :=
  match op with
  | .shl => x <<< d
  | .shr => x.sshiftRight d
  | _ => x >>> d

/-- Shifting bits is multiplying or dividing, reduced. -/
theorem shiftBits_eq {op : BinaryOp} {w : IntWidth} {x : BitVec w.bits} {d : Nat} {r : Int}
    (h : op.shifted? w x.toInt d = some r) : op.shiftBits x d = BitVec.ofInt w.bits r := by
  cases op with
  | shl => cases h; exact (ofInt_mul_two_pow x d).symm
  | shr => cases h; exact (ofInt_div_two_pow x d).symm
  | ushr => cases h; exact (ofInt_emod_div_two_pow x d).symm
  | _ => cases h

end Operators

/-! ## Words of 32 and 64 bits -/

namespace Operator

theorem onInt_eq {op : BinaryOp} {x y : Int32} (hy : op = .div ∨ op = .rem → y ≠ 0) :
    onInt op x y = (op.result? x.toInt y.toInt).map Int32.ofInt := by
  -- the operators on words are those on their bits
  have hbits : onInt op x y = (op.onBits x.toBitVec y.toBitVec).map Int32.ofBitVec := by
    have hzero : y.toBitVec = 0#32 ↔ y = 0 := Int32.toBitVec_inj (b := 0)
    cases op with
    | div => rw [BinaryOp.onBits, if_neg (hzero.not.2 (hy (.inl rfl)))]; rfl
    | rem => rw [BinaryOp.onBits, if_neg (hzero.not.2 (hy (.inr rfl)))]; rfl
    | _ => rfl
  rw [hbits, onBits_eq, Option.map_map]
  rfl

theorem onLong_eq {op : BinaryOp} {x y : Int64} (hy : op = .div ∨ op = .rem → y ≠ 0) :
    onLong op x y = (op.result? x.toInt y.toInt).map Int64.ofInt := by
  have hbits : onLong op x y = (op.onBits x.toBitVec y.toBitVec).map Int64.ofBitVec := by
    have hzero : y.toBitVec = 0#64 ↔ y = 0 := Int64.toBitVec_inj (b := 0)
    cases op with
    | div => rw [BinaryOp.onBits, if_neg (hzero.not.2 (hy (.inl rfl)))]; rfl
    | rem => rw [BinaryOp.onBits, if_neg (hzero.not.2 (hy (.inr rfl)))]; rfl
    | _ => rfl
  rw [hbits, onBits_eq, Option.map_map]
  rfl

/-- The comparisons of words are those of their numbers. -/
theorem comparison_eq (op : BinaryOp) (a b : Int64) :
    comparison op a b = op.compared? a.toInt b.toInt := by
  cases op with
  | eq => simp only [comparison, BinaryOp.compared?, Int64.toInt_inj]; rfl
  | ne =>
    simp only [comparison, BinaryOp.compared?, ne_eq, Int64.toInt_inj]
    cases h : decide (a = b) <;> simp_all
  | lt => simp only [comparison, BinaryOp.compared?, Int64.lt_iff_toInt_lt]
  | le => simp only [comparison, BinaryOp.compared?, Int64.le_iff_toInt_le]
  | gt => simp only [comparison, BinaryOp.compared?, Int64.lt_iff_toInt_lt]
  | ge => simp only [comparison, BinaryOp.compared?, Int64.le_iff_toInt_le]
  | _ => rfl

end Operator

/-! ## Integers of the four widths -/

namespace IntWidth

theorem widen_eq_common (w w' : IntWidth) : w.widen w' = w.common w' := by
  cases w <;> cases w' <;> rfl

theorem promoted_eq_common (w : IntWidth) : w.promoted = w.common w := by
  cases w <;> rfl

theorem common_comm (w w' : IntWidth) : w.common w' = w'.common w := by
  rw [← widen_eq_common, widen_comm, widen_eq_common]

theorem common_cases (w w' : IntWidth) : w.common w' = .w32 ∨ w.common w' = .w64 := by
  cases w <;> cases w' <;> decide

end IntWidth

namespace IntValue

/-- The integer of a width with the low bits of a number. -/
def ofInt (w : IntWidth) (n : Int) : IntValue :=
  match w with
  | .w8 => byte (.ofInt n)
  | .w16 => short (.ofInt n)
  | .w32 => int (.ofInt n)
  | .w64 => long (.ofInt n)

@[simp] theorem width_ofInt (w : IntWidth) (n : Int) : (ofInt w n).width = w := by
  cases w <;> rfl

@[simp] theorem toInt_ofInt (w : IntWidth) (n : Int) : (ofInt w n).toInt = w.signed n := by
  cases w with
  | w8 => exact Int8.toInt_ofInt
  | w16 => exact Int16.toInt_ofInt
  | w32 => exact Int32.toInt_ofInt
  | w64 => exact Int64.toInt_ofInt

@[simp] theorem toInt_toInt64 (a : IntValue) : a.toInt64.toInt = a.toInt := by
  cases a with
  | byte v => exact Int8.toInt_toInt64 v
  | short v => exact Int16.toInt_toInt64 v
  | int v => exact Int32.toInt_toInt64 v
  | long v => rfl

/-- An integer is determined by its width and its number. -/
theorem eq_of_toInt_eq {a b : IntValue} (hw : a.width = b.width) (h : a.toInt = b.toInt) :
    a = b := by
  cases a <;> cases b <;> cases hw
  · exact congrArg byte (Int8.toInt_inj.1 h)
  · exact congrArg short (Int16.toInt_inj.1 h)
  · exact congrArg int (Int32.toInt_inj.1 h)
  · exact congrArg long (Int64.toInt_inj.1 h)

theorem ofInt64_eq (w : IntWidth) (v : Int64) : ofInt64 w v = ofInt w v.toInt := by
  refine eq_of_toInt_eq (by simp) ?_
  rw [toInt_ofInt]
  cases w with
  | w8 => exact Int64.toInt_toInt8 v
  | w16 => exact Int64.toInt_toInt16 v
  | w32 => exact Int64.toInt_toInt32 v
  | w64 => exact (Int64.toInt_bmod v).symm

theorem cast_eq (a : IntValue) (w : IntWidth) : a.cast w = ofInt w a.toInt := by
  rw [cast, ofInt64_eq, toInt_toInt64]

/-- Promotion does not change a number. -/
theorem signed_common (a : IntValue) (w : IntWidth) :
    (a.width.common w).signed a.toInt = a.toInt := by
  cases a <;> cases w <;> simp [IntWidth.signed, IntWidth.common, IntWidth.bits, width, toInt]

/-- Only the low bits of a number count. -/
theorem ofInt_bmod (w : IntWidth) (n : Int) : ofInt w (n.bmod (2 ^ 64)) = ofInt w n := by
  refine eq_of_toInt_eq (by simp) ?_
  rw [toInt_ofInt, toInt_ofInt, IntWidth.signed, IntWidth.signed]
  exact Int.bmod_bmod_of_dvd (pow_dvd_pow 2 (by cases w <;> decide))

end IntValue

/-! ## Operators on integers of the four widths -/

namespace Operator

open IntWidth (common)

section Promoted

variable {w : IntWidth} {m n : Int}

/-- A number that is in the range of 32 bits is the number of its word. -/
theorem toInt_ofInt_int (h : IntWidth.w32.signed m = m) : (Int32.ofInt m).toInt = m :=
  Int32.toInt_ofInt.trans h

theorem toInt_ofInt_long (h : IntWidth.w64.signed m = m) : (Int64.ofInt m).toInt = m :=
  Int64.toInt_ofInt.trans h

theorem toInt64_ofInt_eq_zero_iff (hn : w.signed n = n) :
    (IntValue.ofInt w n).toInt64 = 0 ↔ n = 0 := by
  rw [← Int64.toInt_inj, IntValue.toInt_toInt64, IntValue.toInt_ofInt, hn]
  rfl

/-- Arithmetic on numbers of a promoted width. -/
theorem arithmetic_ofInt (op : BinaryOp) (hw : w = .w32 ∨ w = .w64) (hm : w.signed m = m)
    (hn : w.signed n = n) :
    arithmetic op (.ofInt w m) (.ofInt w n) = .ok ((op.result? m n).map (IntValue.ofInt w)) := by
  simp only [arithmetic, toInt64_ofInt_eq_zero_iff hn]
  split
  · next hzero =>
    obtain ⟨rfl | rfl, rfl⟩ := hzero <;> rfl
  · next hzero =>
    have hdivisor : op = .div ∨ op = .rem → n ≠ 0 := fun hop h0 => hzero ⟨hop, h0⟩
    rcases hw with rfl | rfl
    · have hy : op = .div ∨ op = .rem → Int32.ofInt n ≠ 0 := fun hop h0 =>
        hdivisor hop (by rw [← toInt_ofInt_int hn, h0]; rfl)
      show Except.ok ((onInt op _ _).map IntValue.int) = _
      rw [onInt_eq hy, toInt_ofInt_int hm, toInt_ofInt_int hn, Option.map_map]
      rfl
    · have hy : op = .div ∨ op = .rem → Int64.ofInt n ≠ 0 := fun hop h0 =>
        hdivisor hop (by rw [← toInt_ofInt_long hn, h0]; rfl)
      show Except.ok ((onLong op _ _).map IntValue.long) = _
      rw [onLong_eq hy, toInt_ofInt_long hm, toInt_ofInt_long hn, Option.map_map]
      rfl

theorem negate_ofInt (hw : w = .w32 ∨ w = .w64) (m : Int) :
    negate (.ofInt w m) = .ok (.ofInt w (-m)) := by
  rcases hw with rfl | rfl
  · exact congrArg (fun v => Except.ok (IntValue.int v)) (Int32.ofInt_neg m).symm
  · exact congrArg (fun v => Except.ok (IntValue.long v)) (Int64.ofInt_neg m).symm

theorem complement_ofInt (hm : w.signed m = m) :
    complement (.ofInt w m) = .ofInt w (-m - 1) := by
  rw [complement, IntValue.ofInt64_eq, IntValue.width_ofInt, Int64.toInt_not,
    IntValue.toInt_toInt64, IntValue.toInt_ofInt, hm, IntValue.ofInt_bmod]

end Promoted

variable {op : BinaryOp} (a b : IntValue)

/-- Arithmetic promotes to the common width. -/
theorem arithmetic_eq (op : BinaryOp) :
    arithmetic op (a.cast (a.width.widen b.width)) (b.cast (a.width.widen b.width)) =
      .ok ((op.result? a.toInt b.toInt).map (IntValue.ofInt (common a.width b.width))) := by
  have hb := b.signed_common a.width
  rw [IntWidth.common_comm] at hb
  rw [IntWidth.widen_eq_common, IntValue.cast_eq, IntValue.cast_eq]
  exact arithmetic_ofInt op (IntWidth.common_cases _ _) (a.signed_common b.width) hb

theorem shift_int {v : Int32} (hv : a.cast a.width.promoted = .int v) :
    shift op a b =
      .ok (.int (.ofBitVec (op.shiftBits v.toBitVec (b.toInt % 32).toNat))) := by
  have hd := toNat_distance_int b.toInt64
  rw [IntValue.toInt_toInt64] at hd
  have hlt : (b.toInt64 &&& 31).toInt32.toBitVec.toNat < (32 : BitVec 32).toNat := by
    rw [hd]
    show _ < 32
    omega
  have hsmod := smod_eq_self (by decide) hlt
  have humod := umod_eq_self hlt
  unfold shift
  rw [hv, ← hd]
  refine congrArg (fun v => Except.ok (IntValue.int v)) (Int32.toBitVec_inj.1 ?_)
  cases op with
  | shl => exact congrArg (fun d => v.toBitVec <<< d.toNat) hsmod
  | shr => exact congrArg (BitVec.sshiftRight' v.toBitVec) hsmod
  | _ => exact congrArg (fun d => v.toBitVec >>> d.toNat) humod

theorem shift_long {v : Int64} (hv : a.cast a.width.promoted = .long v) :
    shift op a b =
      .ok (.long (.ofBitVec (op.shiftBits v.toBitVec (b.toInt % 64).toNat))) := by
  have hd := toNat_distance_long b.toInt64
  rw [IntValue.toInt_toInt64] at hd
  have hlt : (b.toInt64 &&& 63).toBitVec.toNat < (64 : BitVec 64).toNat := by
    rw [hd]
    show _ < 64
    omega
  have hsmod := smod_eq_self (by decide) hlt
  have humod := umod_eq_self hlt
  unfold shift
  rw [hv, ← hd]
  refine congrArg (fun v => Except.ok (IntValue.long v)) (Int64.toBitVec_inj.1 ?_)
  cases op with
  | shl => exact congrArg (fun d => v.toBitVec <<< d.toNat) hsmod
  | shr => exact congrArg (BitVec.sshiftRight' v.toBitVec) hsmod
  | _ => exact congrArg (fun d => v.toBitVec >>> d.toNat) humod

/-- A shift promotes its left operand alone. -/
theorem shift_eq {r : Int}
    (h : op.shifted? (common a.width a.width) a.toInt
      (b.toInt % (common a.width a.width).bits).toNat = some r) :
    shift op a b = .ok (.ofInt (common a.width a.width) r) := by
  have ha := a.signed_common a.width
  have hcast : a.cast a.width.promoted = .ofInt (common a.width a.width) a.toInt := by
    rw [IntWidth.promoted_eq_common, IntValue.cast_eq]
  rcases IntWidth.common_cases a.width a.width with hw | hw
  · rw [hw] at ha hcast h ⊢
    have hx : (Int32.ofInt a.toInt).toBitVec.toInt = a.toInt := toInt_ofInt_int ha
    rw [← hx] at h
    have hbits := shiftBits_eq (w := .w32) h
    rw [shift_int a b hcast]
    exact congrArg (fun v => Except.ok (IntValue.int (.ofBitVec v))) hbits
  · rw [hw] at ha hcast h ⊢
    have hx : (Int64.ofInt a.toInt).toBitVec.toInt = a.toInt := toInt_ofInt_long ha
    rw [← hx] at h
    have hbits := shiftBits_eq (w := .w64) h
    rw [shift_long a b hcast]
    exact congrArg (fun v => Except.ok (IntValue.long (.ofBitVec v))) hbits

/-- A cast to a character keeps the low 16 bits. -/
theorem toNat_charCast : a.toInt64.toUInt64.toUInt16.toNat = (a.toInt % 2 ^ 16).toNat := by
  have h : (a.toInt64.toBitVec.toNat : Int) = a.toInt % 2 ^ 64 := by
    rw [toNat_eq_toInt_emod, Int64.toInt_toBitVec, IntValue.toInt_toInt64]
  have hmod : a.toInt % 2 ^ 16 = ((a.toInt64.toBitVec.toNat % 2 ^ 16 : Nat) : Int) := by
    push_cast
    rw [h, Int.emod_emod_of_dvd _ (by decide)]
  rw [hmod, Int.toNat_natCast, UInt64.toNat_toUInt16]
  rfl

end Operator

end MessageHarvest
