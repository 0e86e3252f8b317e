import StripeScan.Value.Literal
import StripeScan.Word

/-! # Column statistics

A summary of one column over some rows: whether a null occurs, how many values are not null,
and bounds of those values.  A bound that is missing although there are values is unknown.

* `merge` summarises two sets of rows together.  A side without values does not take part; an
  unknown bound on a side with values makes the merged bound unknown, and so do two bounds
  whose order is undecided.
* `observe` adds one row.  A value replaces a bound only if it lies strictly beyond it, so the
  first of several equal values is kept. -/

namespace StripeScan

/-- A summary of one column over some rows; `count` counts the values that are not null, as a
word. -/
structure Statistics where
  hasNull : Bool
  count : Nat
  min : Option Literal
  max : Option Literal
deriving DecidableEq

namespace Statistics

/-- The summary of no rows. -/
def empty : Statistics := ⟨false, 0, none, none⟩

/-- The summary of rows that are all null. -/
def allNull : Statistics := ⟨true, 0, none, none⟩

/-- The summary of `count` values between two bounds, without nulls. -/
def ofRange (min max : Literal) (count : Nat) : Statistics := ⟨false, count, some min, some max⟩

/-- The same rows together with some nulls. -/
def withNulls (s : Statistics) : Statistics := { s with hasNull := true }

/-- The kind of the bounds, if there is one. -/
def kind? (s : Statistics) : Option Kind := (s.min <|> s.max).map Literal.kind

/-! ### Merging -/

/-- The bound of two sides that both have values: the left one if the order of the two is
`side` or they are equal, else the right one; unknown if either is, or if the order is
undecided. -/
def mergeBounds (side : Ordering) :
    Option Literal → Option Literal → Except Incomparable (Option Literal)
  | some l, some r =>
    (l.compare? r).map fun
      | some order => some (if order == side || order == .eq then l else r)
      | none => none
  | _, _ => .ok none

/-- The merged bound: a side without values leaves the bound of the other. -/
def mergeBound (side : Ordering) (bound : Statistics → Option Literal) (s t : Statistics) :
    Except Incomparable (Option Literal) :=
  if s.count = 0 then .ok (bound t)
  else if t.count = 0 then .ok (bound s)
  else mergeBounds side (bound s) (bound t)

/-- The summary of two sets of rows together. -/
def merge (s t : Statistics) : Except Incomparable Statistics := do
  let min ← mergeBound .lt Statistics.min s t
  let max ← mergeBound .gt Statistics.max s t
  return ⟨s.hasNull || t.hasNull, Word.add s.count t.count, min, max⟩

/-- Merging where a summary may be missing: a missing one does not take part. -/
def mergeOptional : Option Statistics → Option Statistics → Except Incomparable (Option Statistics)
  | some s, some t => (s.merge t).map some
  | none, some t => .ok (some t)
  | s, none => .ok s

/-! ### Summarising rows -/

/-- A bound after one more value, which replaces it if it lies strictly on `side` of it. -/
def extendBound (side : Ordering) (bound : Option Literal) (v : Literal) :
    Except Incomparable (Option Literal) :=
  match bound with
  | none => .ok (some v)
  | some b => (v.isOrder side b).map fun beyond => some (if beyond then v else b)

/-- The summary with one more row. -/
def observe (s : Statistics) : Option Literal → Except Incomparable Statistics
  | none => .ok s.withNulls
  | some v => do
    let min ← extendBound .lt s.min v
    let max ← extendBound .gt s.max v
    return { s with count := Word.add s.count 1, min := min, max := max }

/-- The summary of a list of rows. -/
def ofValues (values : List (Option Literal)) : Except Incomparable Statistics :=
  values.foldlM observe empty

end Statistics

end StripeScan
