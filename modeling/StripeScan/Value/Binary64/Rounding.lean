import StripeScan.Value.Binary64.Basic

/-! # Rounding exact values to doubles

Every conversion goes through `ofFraction`, which rounds a non-negative fraction to the nearest
double, ties to the even significand, with gradual underflow and overflow to infinity.  The
encoding of the rounded value is the sum of exponent and significand, because a carry out of
the significand is the step to the next exponent. -/

namespace StripeScan

/-- `num / den` rounded to the nearest integer, ties to the even one. -/
def roundToEven (num den : Nat) : Nat :=
  let floor := num / den
  let rest := 2 * (num % den)
  if rest < den ∨ (rest = den ∧ floor % 2 = 0) then floor else floor + 1

/-- The largest `e` with `2 ^ e ≤ num / den`, for positive arguments. -/
def floorLog2 (num den : Nat) : Int :=
  let e : Int := (num.log2 : Int) - den.log2
  if den * Nat.pow 2 e.toNat ≤ num * Nat.pow 2 (-e).toNat then e else e - 1

namespace Binary64

/-- The double nearest to `num / den` with the given sign; `den` is positive. -/
def ofFraction (negative : Bool) (num den : Nat) : Binary64 :=
  if num = 0 then ofMagnitude negative 0
  else
    let unit : Int := max (floorLog2 num den - 52) (-1074)
    let m := roundToEven (num * Nat.pow 2 (-unit).toNat) (den * Nat.pow 2 unit.toNat)
    ofMagnitude negative (min ((unit + 1074).toNat * 0x10000000000000 + m) infinityMagnitude)

/-- The double nearest to an integer. -/
def ofInt (i : Int) : Binary64 := ofFraction (i < 0) i.natAbs 1

/-- The double nearest to `digits * 10 ^ exponent`.  Values far outside the range of doubles
are recognised by their number of digits, so no huge power is ever computed. -/
def ofScientific (negative : Bool) (digits : Nat) (exponent : Int) : Binary64 :=
  let places := ((Nat.toDigits 10 digits).length : Int) + exponent
  if digits = 0 ∨ places < -400 then ofMagnitude negative 0
  else if 400 < places then infinity negative
  else ofFraction negative (digits * Nat.pow 10 exponent.toNat) (Nat.pow 10 (-exponent).toNat)

/-- The quotient of two counts, each first taken to the nearest double. -/
def ratio (a b : Nat) : Binary64 :=
  let (p, q) := (ofInt a).absFraction
  let (r, s) := (ofInt b).absFraction
  ofFraction false (p * s) (q * r)

/-- Whether a number differs from zero; what is no number does. -/
def isNonzero (x : Binary64) : Bool := x.magnitude != 0

/-- The nearest integer in `[0, 2^64)`, halves going up; `0` for what is no number. -/
def toCount (x : Binary64) : Nat :=
  if x.isNaN || x.isNegative then 0
  else if x.isInfinite then 0xffffffffffffffff
  else
    let (num, den) := x.absFraction
    min ((2 * num + den) / (2 * den)) 0xffffffffffffffff

end Binary64

end StripeScan
