import StripeScan.Value.Binary64.Rounding

/-! # Reading doubles

The decimal notation of doubles: an optional sign, digits with at most one point and at least
one digit, and an optional exponent; or a name of an infinity or of what is no number, in any
case.  The double nearest to the exact decimal is read. -/

namespace StripeScan

/-- The number that a list of decimal digits stands for. -/
def digitsToNat (digits : List Char) : Nat :=
  digits.foldl (fun n c => 10 * n + (c.toNat - '0'.toNat)) 0

/-- An optional sign, as whether it is negative, and the characters after it. -/
def splitSign : List Char → Bool × List Char
  | '-' :: rest => (true, rest)
  | '+' :: rest => (false, rest)
  | chars => (false, chars)

/-- The integer of a sign and decimal digits. -/
def readInteger? (chars : List Char) : Option Int :=
  let (negative, digits) := splitSign chars
  if digits ≠ [] ∧ digits.all Char.isDigit then
    some (if negative then -(digitsToNat digits : Int) else digitsToNat digits)
  else none

namespace Binary64

/-- An exponent: nothing, or a mark and an integer. -/
def readExponent? : List Char → Option Int
  | [] => some 0
  | mark :: rest => if mark = 'e' ∨ mark = 'E' then readInteger? rest else none

/-- A double in digits, without a sign. -/
def readDigits? (negative : Bool) (chars : List Char) : Option Binary64 := do
  let whole := chars.takeWhile Char.isDigit
  let rest := chars.dropWhile Char.isDigit
  let (fraction, rest) := match rest with
    | '.' :: rest => (rest.takeWhile Char.isDigit, rest.dropWhile Char.isDigit)
    | rest => ([], rest)
  if whole.isEmpty && fraction.isEmpty then none
  else
    let exponent ← readExponent? rest
    return ofScientific negative (digitsToNat (whole ++ fraction)) (exponent - fraction.length)

/-- A double in decimal notation. -/
def read? (chars : List Char) : Option Binary64 :=
  let (negative, rest) := splitSign chars
  match String.ofList (rest.map Char.toLower) with
  | "nan" => some nan
  | "inf" => some (infinity negative)
  | "infinity" => some (infinity negative)
  | _ => readDigits? negative rest

end Binary64

end StripeScan
