/-! # Calendar dates

A date is a day number, counted from 1970-01-01 in the proleptic Gregorian calendar, inside the
years -262143 to 262142.  A day outside them is no date: `Date.ofDay?` refuses it.

The civil form of a day is found inside its cycle of 400 years (146097 days), with years that
begin in March, so that the leap day is the last day of a year. -/

namespace StripeScan

/-- A day between -262143-01-01 and +262142-12-31. -/
structure Date where
  day : Int
  lower : -96465292 ≤ day
  upper : day ≤ 95026236
deriving DecidableEq, Repr

/-- A date as year, month and day of the month. -/
structure CivilDate where
  year : Int
  month : Nat
  dayOfMonth : Nat
deriving DecidableEq, Repr

namespace Date

@[ext] theorem ext {a b : Date} (h : a.day = b.day) : a = b := by
  cases a; cases b; cases h; rfl

/-- The date of a day number, if the calendar has it. -/
def ofDay? (day : Int) : Option Date :=
  if h : -96465292 ≤ day ∧ day ≤ 95026236 then some ⟨day, h.1, h.2⟩ else none

/-- The civil form of a day number. -/
def civil (day : Int) : CivilDate :=
  let shifted := day + 719468
  let cycle := shifted / 146097
  let dayOfCycle := (shifted % 146097).toNat
  let yearOfCycle :=
    (dayOfCycle - dayOfCycle / 1460 + dayOfCycle / 36524 - dayOfCycle / 146096) / 365
  let dayOfYear := dayOfCycle - (365 * yearOfCycle + yearOfCycle / 4 - yearOfCycle / 100)
  let monthFromMarch := (5 * dayOfYear + 2) / 153
  let month := if monthFromMarch < 10 then monthFromMarch + 3 else monthFromMarch - 9
  { year := yearOfCycle + cycle * 400 + (if month ≤ 2 then 1 else 0)
    month := month
    dayOfMonth := dayOfYear - (153 * monthFromMarch + 2) / 5 + 1 }

/-- A number with at least `width` digits. -/
def padded (n width : Nat) : String :=
  let digits := toString n
  "".pushn '0' (width - digits.length) ++ digits

/-- A year with at least four digits, and with a sign outside 0 to 9999. -/
def yearText (year : Int) : String :=
  let sign := if year < 0 then "-" else if 9999 < year then "+" else ""
  sign ++ padded year.natAbs 4

/-- The date of a day number as year, month and day, joined by hyphens. -/
def dayText (day : Int) : String :=
  let c := civil day
  yearText c.year ++ "-" ++ padded c.month 2 ++ "-" ++ padded c.dayOfMonth 2

/-- The text of a date. -/
def text (d : Date) : String := dayText d.day

end Date

end StripeScan
