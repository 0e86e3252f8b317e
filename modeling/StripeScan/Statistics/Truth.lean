import StripeScan.Logic.Truth
import StripeScan.Predicate.Basic
import StripeScan.Statistics.Basic

/-! # Truth of a predicate over summarised rows

`Predicate.truth` says what a column's statistics allow a predicate to be over the summarised
rows.  Tests of values compare literals with the two bounds; where an order is undecided the
answer is `yesNo`.  Missing bounds leave everything possible. -/

namespace StripeScan

namespace Test

/-- Whether an order is decided and not greater. -/
def atMost (order : Option Ordering) : Bool := order == some .lt || order == some .eq

/-- Whether an order is decided and not less. -/
def atLeast (order : Option Ordering) : Bool := order == some .gt || order == some .eq

/-- Truth of equality with `v` for values between `min` and `max`. -/
def equalsTruth (v min max : Literal) : Except Incomparable Truth := do
  let low ← v.compare? min
  let high ← v.compare? max
  return match low, high with
    | some low, some high =>
      if low = .lt ∨ high = .gt then .no
      else if low = .eq ∧ high = .eq then .yes
      else .yesNo
    | _, _ => .yesNo

/-- Truth of "less than `v`" for values between `min` and `max`. -/
def lessThanTruth (v min max : Literal) : Except Incomparable Truth := do
  let high ← max.compare? v
  let low ← min.compare? v
  return match high, low with
    | some high, some low => if high = .lt then .yes else if low ≠ .lt then .no else .yesNo
    | _, _ => .yesNo

/-- Truth of "at most `v`" for values between `min` and `max`. -/
def lessThanEqualsTruth (v min max : Literal) : Except Incomparable Truth := do
  let high ← max.compare? v
  let low ← min.compare? v
  return match high, low with
    | some high, some low => if high ≠ .gt then .yes else if low = .gt then .no else .yesNo
    | _, _ => .yesNo

/-- Truth of "between `lower` and `upper`" for values between `min` and `max`. -/
def betweenTruth (lower upper min max : Literal) : Except Incomparable Truth := do
  let maxToLower ← max.compare? lower
  let minToUpper ← min.compare? upper
  let minToLower ← min.compare? lower
  let maxToUpper ← max.compare? upper
  return if maxToLower = some .lt ∨ minToUpper = some .gt then .no
    else if atLeast minToLower ∧ atMost maxToUpper then .yes
    else .yesNo

/-- Truth of membership for rows that all hold `value`: decided by the first literal that
equals it or cannot be compared with it. -/
def isInConstant (value : Literal) : List Literal → Except Incomparable Truth
  | [] => .ok .no
  | v :: rest => do
    match ← v.compare? value with
    | some .eq => return .yes
    | some _ => isInConstant value rest
    | none => return .yesNo

/-- Truth of membership for values between `min` and `max`: no if every literal lies outside. -/
def isInRange (min max : Literal) : List Literal → Except Incomparable Truth
  | [] => .ok .no
  | v :: rest => do
    let low ← v.compare? min
    let high ← v.compare? max
    if low = some .lt ∨ high = some .gt then isInRange min max rest else return .yesNo

/-- Truth of membership in a list for values between `min` and `max`. -/
def isInTruth (values : List Literal) (min max : Literal) : Except Incomparable Truth := do
  if (← min.compare? max) = some .eq then isInConstant min values else isInRange min max values

/-- Truth of a null test: certain without nulls, and with nothing but nulls. -/
def isNullTruth (s : Statistics) : Truth :=
  if s.hasNull then (if s.count = 0 then .yes else .yesNo) else .no

/-- Truth of a test of values for rows with values between `min` and `max`.  Equality that
treats nulls as values is false of a null, so nulls only take away certainty; every other test
is unknown there. -/
def boundedTruth (test : Test) (hasNull : Bool) (min max : Literal) : Except Incomparable Truth :=
  match test with
  | .equals v => (equalsTruth v min max).map (·.withNulls hasNull)
  | .nullSafeEquals v =>
    (equalsTruth v min max).map fun t => if t = .yes ∧ hasNull = true then .yesNo else t
  | .lessThan v => (lessThanTruth v min max).map (·.withNulls hasNull)
  | .lessThanEquals v => (lessThanEqualsTruth v min max).map (·.withNulls hasNull)
  | .between lower upper => (betweenTruth lower upper min max).map (·.withNulls hasNull)
  | .isIn first rest => (isInTruth (first :: rest) min max).map (·.withNulls hasNull)
  | .isNull => .ok .yesNoNull

/-- Truth of a test over summarised rows. -/
def truth (test : Test) (s : Statistics) : Except Incomparable Truth :=
  if test = .isNull then .ok (isNullTruth s)
  else if s.count = 0 then .ok .no
  else
    match s.min, s.max with
    | some min, some max => test.boundedTruth s.hasNull min max
    | _, _ => .ok .yesNoNull

end Test

/-- Truth of a predicate over rows of its column. -/
def Predicate.truth (p : Predicate) (s : Statistics) : Except Incomparable Truth := p.test.truth s

/-- Truth where the statistics may be unavailable: then everything is possible. -/
def Predicate.truthOptional (p : Predicate) : Option Statistics → Except Incomparable Truth
  | none => .ok .yesNoNull
  | some s => p.truth s

end StripeScan
