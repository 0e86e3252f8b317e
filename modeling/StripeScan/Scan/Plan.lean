import StripeScan.Scan.Layout
import StripeScan.Scan.Metrics
import StripeScan.Scan.Source
import StripeScan.SearchArgument.Evaluation

/-! # Scan plans

A plan lists the rows of a file that a scan has to read, as ranges in ascending order.  It is
made from statistics, level by level: the file, then each stripe, then each row group of a
stripe that is kept.  Each level decides from its own statistics alone and can be switched off.
Row groups without statistics are kept.

Planning works on the medium of the source together with the metrics, so the metrics say how far
a failed planning had come. -/

namespace StripeScan

/-- The levels on which statistics are consulted. -/
structure Pruning where
  file : Bool
  stripe : Bool
  rowGroup : Bool
deriving DecidableEq, Repr

/-- Statistics are consulted on every level. -/
def Pruning.full : Pruning := ⟨true, true, true⟩

/-- The rows to read, with the layout of the file. -/
structure Plan where
  stripes : List Stripe
  ranges : List RowRange
  totalRows : Nat
  stride : Nat
deriving DecidableEq, Repr

namespace Plan

variable {σ : Type}

/-- Whether there is nothing to read. -/
def isEmpty (p : Plan) : Bool := p.ranges.isEmpty

/-- The first range that ends after a row. -/
def locate (p : Plan) (row : Nat) : Option Nat := p.ranges.findIdx? fun r => row < r.stop

/-- The number of rows to read. -/
def selectedRows (p : Plan) : Nat := Word.sum (p.ranges.map RowRange.size)

/-! ### Planning -/

/-- Whether a partition is kept: it is, unless a search argument says that no row matches. -/
def keeps (argument : Option BoundSearchArgument)
    (fetch : Nat → Access σ (Option Statistics)) : Access σ Bool :=
  match argument with
  | none => pure true
  | some b => b.isNeeded fetch

/-- Which row groups of a stripe are kept.  The statistics may cover fewer groups than the
stripe has, or more. -/
def keptGroups (source : Source σ) (argument : Option BoundSearchArgument) (stripe : Stripe)
    (stride : Nat) : Access σ (List Bool) :=
  match argument with
  | none => pure (List.replicate stripe.groups true)
  | some b =>
    if stride = 0 then pure (List.replicate stripe.groups true)
    else do
      let indexed ← source.groupCount stripe.index
      let kept ← (List.range (min indexed stripe.groups)).mapM fun group =>
        b.isNeeded (source.groupStatistics stripe.index group)
      return kept ++ List.replicate (stripe.groups - indexed) true

/-- The argument, if its level is switched on. -/
def consulted (argument : Option BoundSearchArgument) (level : Bool) :
    Option BoundSearchArgument :=
  argument.filter fun _ => level

/-- Counts in the metrics. -/
def count (f : Metrics → Metrics) : Access (σ × Metrics) Unit := .modifySecond f

/-- The ranges of one stripe. -/
def planStripe (source : Source σ) (argument : Option BoundSearchArgument) (pruning : Pruning)
    (stride : Nat) (stripe : Stripe) : Access (σ × Metrics) (List RowRange) :=
  if stripe.rows = 0 then pure []
  else do
    count fun m => { m with stripesEvaluated := m.stripesEvaluated + 1 }
    if ← (keeps (consulted argument pruning.stripe) (source.stripeStatistics stripe.index)).onFirst
    then do
      count fun m => { m with stripesSelected := m.stripesSelected + 1 }
      let kept ←
        (keptGroups source (consulted argument pruning.rowGroup) stripe stride).onFirst
      count fun m =>
        { m with
          rowGroupsEvaluated := m.rowGroupsEvaluated + kept.length
          rowGroupsSelected := m.rowGroupsSelected + kept.countP id }
      return stripe.keptRanges stride kept
    else return []

/-- The layout of a source; nothing is to be read yet. -/
def layout (source : Source σ) : Access σ Plan := do
  let rows ← (List.range source.stripeCount).mapM source.stripeRows
  return ⟨Stripe.layout source.stride 0 0 rows, [], Word.sum rows, source.stride⟩

/-- The plan of a scan. -/
def build (source : Source σ) (argument : Option BoundSearchArgument) (pruning : Pruning) :
    Access (σ × Metrics) Plan := do
  let plan ← (layout source).onFirst
  if ← (keeps (consulted argument pruning.file) source.fileStatistics).onFirst then do
    let ranges ← plan.stripes.mapM (planStripe source argument pruning plan.stride)
    let plan := { plan with ranges := ranges.flatten }
    count fun m => { m with rowsSelected := plan.selectedRows }
    return plan
  else do
    count fun m => { m with filePruned := true }
    return plan

end Plan

end StripeScan
