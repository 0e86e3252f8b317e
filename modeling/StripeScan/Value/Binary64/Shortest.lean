import StripeScan.Value.Binary64.Basic

/-! # The shortest decimal text of a double

Among all decimals that read back as a given double, the text has the fewest digits and, of
those, the value nearest to the double; an exact tie goes away from zero.

For `n = 1, 2, …` significant digits the search tests the two neighbours of the value on the
grid of `n`-digit decimals.  The decimals that read back form an interval around the value, so
if any point of a grid lies in it, so does a neighbour.  Seventeen digits always suffice.

The text is positional: no exponent, and no point in whole numbers. -/

namespace StripeScan

namespace Binary64

/-- The decimals that read back as one double, in units of `2 ^ unit`. -/
structure ReadBack where
  low : Nat
  value : Nat
  high : Nat
  unit : Int
  inclusive : Bool

/-- The interval of a finite positive number.  It reaches half way to both neighbours; the lower
one is half as far away where the exponent steps.  The ends read back if the significand is
even. -/
def readBack (x : Binary64) : ReadBack :=
  let (m, q) := x.significand
  { low := 4 * m - (if m = 0x10000000000000 then 1 else 2)
    value := 4 * m
    high := 4 * m + 2
    unit := q - 2
    inclusive := m % 2 = 0 }

/-- Whether the fraction `num / den` reads back. -/
def ReadBack.contains (r : ReadBack) (num den : Nat) : Bool :=
  let scaled := num * Nat.pow 2 (-r.unit).toNat
  let low := r.low * Nat.pow 2 r.unit.toNat * den
  let high := r.high * Nat.pow 2 r.unit.toNat * den
  if r.inclusive then low ≤ scaled && scaled ≤ high else low < scaled && scaled < high

/-- The largest `e` with `10 ^ e ≤ num / den`, for positive arguments. -/
def floorLog10 (num den : Nat) : Int :=
  let e : Int := ((Nat.toDigits 10 num).length : Int) - (Nat.toDigits 10 den).length
  if den * Nat.pow 10 e.toNat ≤ num * Nat.pow 10 (-e).toNat then e else e - 1

/-- A neighbour of the value on the grid `10 ^ exponent` that reads back, if there is one. -/
def neighbour? (x : Binary64) (exponent : Int) : Option Nat :=
  let (num, den) := x.absFraction
  let up := Nat.pow 10 (-exponent).toNat
  let down := Nat.pow 10 exponent.toNat
  let below := num * up / (den * down)
  let rest := 2 * (num * up % (den * down))
  let reads (d : Nat) : Bool := x.readBack.contains (d * down) up
  match reads below, reads (below + 1) with
  | true, true => some (if rest < den * down then below else below + 1)
  | true, false => some below
  | false, true => some (below + 1)
  | false, false => none

/-- Digits and exponent of the shortest decimal, for a finite number other than zero. -/
def shortest (x : Binary64) : Nat × Int :=
  let (num, den) := x.absFraction
  let top := floorLog10 num den
  let hit := (List.range 17).findSome? fun (n : Nat) =>
    (x.neighbour? (top - n)).map fun digits => (digits, top - (n : Int))
  hit.getD (0, 0)

/-- A decimal written without an exponent and without needless zeros. -/
def positional (digits : Nat) (exponent : Int) : List Char :=
  let chars := Nat.toDigits 10 digits
  if 0 ≤ exponent then chars ++ List.replicate exponent.toNat '0'
  else
    let places := (-exponent).toNat
    let padded := List.replicate (places + 1 - chars.length) '0' ++ chars
    let whole := padded.take (padded.length - places)
    let fraction := padded.drop (padded.length - places)
    match (fraction.reverse.dropWhile (· == '0')).reverse with
    | [] => whole
    | kept => whole ++ '.' :: kept

/-- The text of a double. -/
def text (x : Binary64) : String :=
  if x.isNaN then "NaN"
  else
    let sign := if x.isNegative then "-" else ""
    if x.isInfinite then sign ++ "inf"
    else if x.magnitude = 0 then sign ++ "0"
    else
      let (digits, exponent) := x.shortest
      sign ++ String.ofList (positional digits exponent)

end Binary64

end StripeScan
