import StripeScan.Scan.Plan

/-! # The position of a scan

A cursor stands before the next row to be read.  As long as rows of the plan remain, that row
lies in the range `rangeIndex`; after the last of them the cursor waits behind it until the next
step finds that nothing is left, and then it stands at the end of the file.

`current` is the first row of the batch produced last; before any batch and after a seek it is
the next row. -/

namespace StripeScan

/-- The life of a scan. -/
inductive ScanState where
  | notStarted
  | scanning
  | exhausted
deriving DecidableEq, Repr

/-- The name of a state. -/
def ScanState.name : ScanState → String
  | notStarted => "NotStarted"
  | scanning => "Scanning"
  | exhausted => "Exhausted"

/-- The position of a scan. -/
structure Cursor where
  state : ScanState
  stripe : Option Nat
  group : Option Nat
  next : Nat
  current : Nat
  rangeIndex : Nat
deriving DecidableEq, Repr

namespace Cursor

/-- Whether the scan has ended. -/
def isExhausted (c : Cursor) : Bool := c.state == .exhausted

/-- The cursor at the end of the file. -/
def exhaust (plan : Plan) : Cursor :=
  { state := .exhausted
    stripe := none
    group := none
    next := plan.totalRows
    current := plan.totalRows
    rangeIndex := plan.ranges.length }

/-- The cursor before the first row of the plan that is not before `row`, if there is one. -/
def settle? (c : Cursor) (plan : Plan) (row : Nat) : Option Cursor := do
  let index ← plan.locate row
  let range ← plan.ranges[index]?
  let next := max row range.start
  return { c with
    rangeIndex := index
    next := next
    stripe := some range.stripe
    group := (plan.stripes[range.stripe]?).map fun s => (s.groupOf plan.stride next).1 }

/-- The cursor before the first row of a plan; at the end of the file if the plan is empty. -/
def start (plan : Plan) : Cursor :=
  match settle? ⟨.notStarted, none, none, 0, 0, 0⟩ plan 0 with
  | some c => { c with current := c.next }
  | none => exhaust plan

/-- The cursor before the first row of the plan from `target` on, or at the end of the file.  A
scan that had ended goes on. -/
def seek (c : Cursor) (plan : Plan) (target : Nat) : Cursor :=
  match c.settle? plan target with
  | some c =>
    { c with
      state := if c.state = .exhausted then .scanning else c.state
      current := c.next }
  | none => exhaust plan

/-- The cursor after a batch of the given rows. -/
def advance (c : Cursor) (plan : Plan) (firstRow rows : Nat) : Cursor :=
  let c := { c with state := .scanning, current := firstRow }
  let next := Word.add firstRow rows
  (c.settle? plan next).getD
    { c with
      next := next
      rangeIndex := plan.ranges.length
      stripe := none
      group := none }

end Cursor

end StripeScan
