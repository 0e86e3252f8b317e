import StripeScan.Value.Binary64.Basic

/-! # Hexadecimal form of a double

The sixteen hexadecimal digits of the encoding, the sign first.  It is the only form in which
every double can be exchanged without loss. -/

namespace StripeScan.Binary64

/-- The value of a hexadecimal digit, in lower or upper case. -/
def hexDigit? (c : Char) : Option Nat :=
  if '0' ≤ c ∧ c ≤ '9' then some (c.toNat - '0'.toNat)
  else if 'a' ≤ c ∧ c ≤ 'f' then some (c.toNat - 'a'.toNat + 10)
  else if 'A' ≤ c ∧ c ≤ 'F' then some (c.toNat - 'A'.toNat + 10)
  else none

/-- The double of an encoding in hexadecimal digits, perhaps after a plus sign; there may be any
number of digits as long as they fit into 64 bits. -/
def ofHex? (text : String) : Option Binary64 := do
  let chars := match text.toList with
    | '+' :: rest => rest
    | chars => chars
  let digits ← chars.mapM hexDigit?
  let n := digits.foldl (fun n d => 16 * n + d) 0
  if digits ≠ [] ∧ n < 0x10000000000000000 then return ⟨UInt64.ofNat n⟩ else none

/-- The encoding in sixteen hexadecimal digits; all that is no number is written alike. -/
def hex (x : Binary64) : String :=
  let digits := Nat.toDigits 16 x.canonical.bits.toNat
  String.ofList (List.replicate (16 - digits.length) '0' ++ digits)

end StripeScan.Binary64
