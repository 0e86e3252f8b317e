import StripeScan.Value.Date

/-! # Instants

An instant is a count of seconds since 1970-01-01T00:00:00 UTC, rounded down, and a number of
nanoseconds into that second.  A second that ends a minute may be followed by a leap second:
then the nanoseconds run on from `10^9` to `2 * 10^9`.  Instants are ordered by seconds, then
by nanoseconds. -/

namespace StripeScan

/-- Whether the seconds lie in the calendar and the nanoseconds in their second. -/
def Timestamp.Valid (seconds : Int) (nanos : Nat) : Prop :=
  -96465292 ≤ seconds / 86400 ∧ seconds / 86400 ≤ 95026236 ∧
    (nanos < 1000000000 ∨ (nanos < 2000000000 ∧ seconds % 60 = 59))

instance (seconds : Int) (nanos : Nat) : Decidable (Timestamp.Valid seconds nanos) :=
  inferInstanceAs (Decidable (_ ∧ _ ∧ _))

/-- An instant of the calendar. -/
structure Timestamp where
  seconds : Int
  nanos : Nat
  valid : Timestamp.Valid seconds nanos
deriving DecidableEq

namespace Timestamp

@[ext] theorem ext {a b : Timestamp} (hs : a.seconds = b.seconds) (hn : a.nanos = b.nanos) :
    a = b := by
  cases a; cases b; cases hs; cases hn; rfl

/-- The instant of the given seconds and nanoseconds, if there is one. -/
def ofParts? (seconds : Int) (nanos : Nat) : Option Timestamp :=
  if h : Valid seconds nanos then some ⟨seconds, nanos, h⟩ else none

/-- The instant a signed 64-bit number of nanoseconds after the epoch. -/
def ofNanoseconds (n : Int64) : Timestamp where
  seconds := n.toInt / 1000000000
  nanos := (n.toInt % 1000000000).toNat
  valid := by
    have := n.le_toInt
    have := n.toInt_lt
    exact ⟨by omega, by omega, by omega⟩

/-- Order by seconds, then by nanoseconds. -/
def compare (a b : Timestamp) : Ordering :=
  (Ord.compare a.seconds b.seconds).then (Ord.compare a.nanos b.nanos)

/-- The fraction of a second with 3, 6 or 9 digits, the fewest that are exact; none for zero. -/
def fractionText (nanos : Nat) : String :=
  if nanos = 0 then ""
  else if nanos % 1000000 = 0 then "." ++ Date.padded (nanos / 1000000) 3
  else if nanos % 1000 = 0 then "." ++ Date.padded (nanos / 1000) 6
  else "." ++ Date.padded nanos 9

/-- Date and time of day in UTC; a leap second is the second 60 of its minute. -/
def text (t : Timestamp) : String :=
  let time := (t.seconds % 86400).toNat
  let leap := if t.nanos < 1000000000 then 0 else 1
  Date.dayText (t.seconds / 86400) ++ "T" ++ Date.padded (time / 3600) 2
    ++ ":" ++ Date.padded (time / 60 % 60) 2
    ++ ":" ++ Date.padded (time % 60 + leap) 2
    ++ fractionText (t.nanos - leap * 1000000000) ++ "+00:00"

end Timestamp

end StripeScan
