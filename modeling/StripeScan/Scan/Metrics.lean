import StripeScan.Value.Binary64.Rounding

/-! # Counters of a scan

Planning counts what it evaluates and keeps, producing counts what it delivers.  The counters are
plain numbers: to overflow a word, a scan would have to deliver as many rows as there are words. -/

namespace StripeScan

/-- What a scan has done so far. -/
structure Metrics where
  filePruned : Bool
  stripesEvaluated : Nat
  stripesSelected : Nat
  rowGroupsEvaluated : Nat
  rowGroupsSelected : Nat
  rowsSelected : Nat
  rowsProduced : Nat
  batchesProduced : Nat
deriving DecidableEq, Repr

namespace Metrics

/-- Nothing done yet. -/
def zero : Metrics := ⟨false, 0, 0, 0, 0, 0, 0, 0⟩

/-- The share of the evaluated row groups that was kept; one if none was evaluated. -/
def selectivity (m : Metrics) : Binary64 :=
  if m.rowGroupsEvaluated = 0 then Binary64.ofInt 1
  else Binary64.ratio m.rowGroupsSelected m.rowGroupsEvaluated

/-- One line about a scan. -/
def text (m : Metrics) : String :=
  s!"stripes {m.stripesSelected}/{m.stripesEvaluated}"
    ++ s!", row groups {m.rowGroupsSelected}/{m.rowGroupsEvaluated}"
    ++ s!", rows {m.rowsSelected} selected {m.rowsProduced} produced"
    ++ s!" in {m.batchesProduced} batches"

end Metrics

end StripeScan
