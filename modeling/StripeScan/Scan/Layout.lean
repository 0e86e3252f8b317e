import StripeScan.Word

/-! # Layout of stripes and row groups

A file is a sequence of stripes, and a stripe a sequence of rows cut into row groups of `stride`
rows each; the last group may be shorter.  A stride of zero means that each stripe is one group.
Rows are numbered from zero over the whole file, by words. -/

namespace StripeScan

/-- The sum of several numbers of rows. -/
def totalOf : List Nat → Nat
  | [] => 0
  | rows :: rest => rows + totalOf rest

/-- The place of a stripe in its file. -/
structure Stripe where
  index : Nat
  firstRow : Nat
  rows : Nat
  groups : Nat
deriving DecidableEq, Repr

namespace Stripe

/-- How many row groups a stripe of so many rows has. -/
def groupCount (stride rows : Nat) : Nat :=
  if rows = 0 then 0 else if stride = 0 then 1 else (rows + stride - 1) / stride

/-- The stripes of a file, from the number of rows of each. -/
def layout (stride : Nat) : (index firstRow : Nat) → List Nat → List Stripe
  | _, _, [] => []
  | index, firstRow, rows :: rest =>
    ⟨index, firstRow, rows, groupCount stride rows⟩ ::
      layout stride (index + 1) (Word.add firstRow rows) rest

/-- The first row after a stripe. -/
def endRow (s : Stripe) : Nat := Word.add s.firstRow s.rows

/-- Where a row group starts and ends, counted from the start of the stripe. -/
def groupBounds (s : Stripe) (stride group : Nat) : Nat × Nat :=
  if stride = 0 then (0, s.rows)
  else
    let start := Word.mul group stride
    (start, min (Word.add start stride) s.rows)

/-- The row group that holds a row of the stripe, and the place of the row in it. -/
def groupOf (s : Stripe) (stride row : Nat) : Nat × Nat :=
  let place := Word.sub row s.firstRow
  if stride = 0 then (0, place) else (place / stride, place % stride)

end Stripe

/-- Consecutive row groups of one stripe, as the rows from `start` up to `stop`. -/
structure RowRange where
  stripe : Nat
  firstGroup : Nat
  start : Nat
  stop : Nat
deriving DecidableEq, Repr

namespace RowRange

/-- The number of rows. -/
def size (r : RowRange) : Nat := Word.sub r.stop r.start

/-- Whether there is no row. -/
def isEmpty (r : RowRange) : Bool := r.start == r.stop

/-- Whether a row lies in the range. -/
def contains (r : RowRange) (row : Nat) : Bool := r.start ≤ row && row < r.stop

end RowRange

/-- The maximal runs of `true` in a list whose first place is `first`, each as its first place
and the place after its last. -/
def runs : (first : Nat) → List Bool → List (Nat × Nat)
  | _, [] => []
  | first, false :: rest => runs (first + 1) rest
  | first, true :: rest =>
    match runs (first + 1) rest with
    | [] => [(first, first + 1)]
    | (next, stop) :: more =>
      if next = first + 1 then (first, stop) :: more else (first, first + 1) :: (next, stop) :: more

/-- The rows of the groups of a stripe that are kept, run by run. -/
def Stripe.keptRanges (s : Stripe) (stride : Nat) (kept : List Bool) : List RowRange :=
  (runs 0 kept).map fun (first, stop) =>
    { stripe := s.index
      firstGroup := first
      start := Word.add s.firstRow (s.groupBounds stride first).1
      stop := Word.add s.firstRow (s.groupBounds stride (stop - 1)).2 }

end StripeScan
