import StripeScan.Value.Int128

/-! # Fixed-point decimals

A decimal is an unscaled integer together with the number of its fraction digits; the value is
`unscaled * 10 ^ (-scale)`, and a negative scale stands for trailing zeros.

* `Decimal.compare` orders by value.  It rescales the operand with fewer fraction digits; when
  that leaves the 128 bits, the magnitude is larger than any other decimal of the finer scale
  can have, so the sign of the rescaled operand decides.
* `Decimal.text` writes every fraction digit of the scale, and no exponent. -/

namespace StripeScan

/-- The decimal `unscaled * 10 ^ (-scale)`. -/
structure Decimal where
  unscaled : Int128
  scale : Int8
deriving DecidableEq, Repr

namespace Decimal

/-- The sign of the value: `-1`, `0` or `1`. -/
def sign (d : Decimal) : Int := d.unscaled.toInt.sign

/-- How many fraction digits `b` has more than `a`; `0` if it has none more. -/
def extraDigits (a b : Decimal) : Nat := (b.scale.toInt - a.scale.toInt).toNat

/-- Order by value, for an `a` with fewer fraction digits than `b`. -/
def compareCoarser (a b : Decimal) : Ordering :=
  (a.unscaled.shift? (a.extraDigits b)).elim (Ord.compare a.sign 0) fun shifted =>
    Ord.compare shifted.toInt b.unscaled.toInt

/-- Order by value.  A zero has no magnitude to rescale, so signs decide where one occurs. -/
def compare (a b : Decimal) : Ordering :=
  if a.sign = 0 ∨ b.sign = 0 then Ord.compare a.sign b.sign
  else if a.scale.toInt = b.scale.toInt then Ord.compare a.unscaled.toInt b.unscaled.toInt
  else if a.scale.toInt < b.scale.toInt then compareCoarser a b
  else (compareCoarser b a).swap

/-! ### Text -/

/-- The digits of `n`, filled up with zeros on the left to at least `width` characters. -/
def paddedDigits (n width : Nat) : List Char :=
  let digits := Nat.toDigits 10 n
  List.replicate (width - digits.length) '0' ++ digits

/-- The value as a sign, digits, and, for a positive scale, a point before the last `scale`
digits. -/
def textChars (d : Decimal) : List Char :=
  let sign := if d.unscaled.toInt < 0 then ['-'] else []
  let scale := d.scale.toInt.toNat
  if 0 < scale then
    let digits := paddedDigits d.unscaled.toInt.natAbs (scale + 1)
    sign ++ digits.take (digits.length - scale) ++ '.' :: digits.drop (digits.length - scale)
  else
    sign ++ Nat.toDigits 10 d.unscaled.toInt.natAbs ++ List.replicate (-d.scale.toInt).toNat '0'

/-- The text of a decimal. -/
def text (d : Decimal) : String := String.ofList d.textChars

end Decimal

end StripeScan
