/-! # Reading decimals as doubles

    A decimal is a natural number times a power of ten. `Double.nearest` gives
    the bits of the nearest double: the quotient is scaled to 53 bits, or to
    the last place of the subnormal range, and a tie goes to the even
    neighbour. All arithmetic is exact, on natural numbers. -/

namespace MessageHarvest.Double

/-- The bits of positive infinity. -/
def infinity : Nat := 0x7FF0000000000000

/-- The bits of a quiet NaN. -/
def nan : Nat := 0x7FF8000000000000

/-- A quotient rounded to a natural number, ties to even. -/
def roundDiv (num den : Nat) : Nat :=
  let q := num / den
  let r := num % den
  if den < 2 * r ∨ (2 * r = den ∧ q % 2 = 1) then q + 1 else q

/-- `num / den` in units of `2 ^ e`, rounded. -/
def scaled (num den : Nat) (e : Int) : Nat :=
  if 0 ≤ e then roundDiv num (den <<< e.toNat) else roundDiv (num <<< (-e).toNat) den

/-- Whether `num / den` is at least `2 ^ 53` units of `2 ^ e`. -/
def overflows (num den : Nat) (e : Int) : Bool :=
  if 0 ≤ e then den <<< (e.toNat + 53) ≤ num
  else den <<< 53 ≤ num <<< (-e).toNat

/-- The bits of the double nearest to `num / den`. -/
def nearest (num den : Nat) : Nat :=
  if num = 0 then 0
  else
    let guess : Int := max ((num.log2 : Int) - den.log2 - 53) (-1074)
    let e := if overflows num den guess then guess + 1 else guess
    let e := if overflows num den e then e + 1 else e
    let m := scaled num den e
    -- rounding up may carry into the next power of two
    let (m, e) := if m = 1 <<< 53 then (1 <<< 52, e + 1) else (m, e)
    -- a subnormal number has no exponent of its own
    if m < 1 <<< 52 then m
    else
      let biased := (e + 1075).toNat
      if 2047 ≤ biased then infinity else biased <<< 52 + (m - 1 <<< 52)

/-- The bits of `mantissa * 10 ^ exponent`. Exponents far outside the range of
    doubles are decided without writing the number out. -/
def ofDecimal (mantissa : Nat) (exponent : Int) : Nat :=
  if mantissa = 0 then 0
  else
    let size : Int := mantissa.log2 / 3 + exponent
    if 400 < exponent then infinity
    else if size < -400 then 0
    else if 0 ≤ exponent then nearest (mantissa * Nat.pow 10 exponent.toNat) 1
    else nearest mantissa (Nat.pow 10 (-exponent).toNat)

end MessageHarvest.Double
