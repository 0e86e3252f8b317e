/-! # Double-precision numbers by their bits

A double is its 64-bit interchange encoding: a sign bit, 11 exponent bits and 52 fraction bits.
Working on the encoding keeps every operation inside the logic: the sign bit weighs
`0x8000000000000000`, and the exponent counts in steps of `0x10000000000000`.

* `key` maps the numbers onto the integers so that their order is the order of the keys; both
  zeros have the key `0`.
* `compare?` is undecided when either side is not a number. -/

namespace StripeScan

/-- A double-precision number, given by its encoding. -/
structure Binary64 where
  bits : UInt64
deriving DecidableEq, Repr, Inhabited

namespace Binary64

/-- The encoding without the sign bit. -/
def magnitude (x : Binary64) : Nat := x.bits.toNat % 0x8000000000000000

/-- Whether the sign bit is set. -/
def isNegative (x : Binary64) : Bool := 0x8000000000000000 ≤ x.bits.toNat

/-- The magnitude of the infinities; larger magnitudes encode no number. -/
def infinityMagnitude : Nat := 2047 * 0x10000000000000

/-- Whether the encoding stands for no number. -/
def isNaN (x : Binary64) : Bool := infinityMagnitude < x.magnitude

/-- Whether the encoding stands for a positive or negative infinity. -/
def isInfinite (x : Binary64) : Bool := x.magnitude == infinityMagnitude

/-- The encoding with the given sign and magnitude. -/
def ofMagnitude (negative : Bool) (magnitude : Nat) : Binary64 :=
  ⟨UInt64.ofNat (magnitude % 0x8000000000000000 + if negative then 0x8000000000000000 else 0)⟩

/-- The infinity of the given sign. -/
def infinity (negative : Bool) : Binary64 := ofMagnitude negative infinityMagnitude

/-- The quiet encoding that stands for every encoding of no number. -/
def nan : Binary64 := ⟨0x7ff8000000000000⟩

/-- One encoding for all that stand for no number; numbers are kept. -/
def canonical (x : Binary64) : Binary64 := if x.isNaN then nan else x

/-! ### Order -/

/-- The position of a number in the order of all numbers. -/
def key (x : Binary64) : Int := if x.isNegative then -(x.magnitude : Int) else x.magnitude

/-- The order of two numbers; undecided if either is none. -/
def compare? (x y : Binary64) : Option Ordering :=
  if x.isNaN || y.isNaN then none else some (Ord.compare x.key y.key)

/-- Equality of numbers: both zeros are equal, and nothing equals what is no number. -/
def same (x y : Binary64) : Bool := x.compare? y == some .eq

/-! ### Exact value -/

/-- Exponent field and fraction field of the magnitude. -/
def fields (x : Binary64) : Nat × Nat :=
  (x.magnitude / 0x10000000000000, x.magnitude % 0x10000000000000)

/-- The absolute value of a finite number as `(m, q)`, standing for `m * 2 ^ q`. -/
def significand (x : Binary64) : Nat × Int :=
  match x.fields with
  | (0, fraction) => (fraction, -1074)
  | (exponent, fraction) => (0x10000000000000 + fraction, (exponent : Int) - 1075)

/-- The absolute value of a finite number as a fraction `(numerator, denominator)`. -/
def absFraction (x : Binary64) : Nat × Nat :=
  let (m, q) := x.significand
  (m * Nat.pow 2 q.toNat, Nat.pow 2 (-q).toNat)

end Binary64

end StripeScan
