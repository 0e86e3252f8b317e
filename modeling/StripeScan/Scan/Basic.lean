import StripeScan.Scan.Cursor
import StripeScan.Settings.Basic

/-! # Scans

A reader is a file opened for scanning.  A scan of it binds its search argument, makes its plan
once, and then walks the plan with a cursor.

* `produceBatch` refills a batch with the next rows: as many as fit, up to the end of the
  current range.  The rows are read row group by row group, each group at most once.  A step
  that fails leaves scan and batch as they were.
* `seekTo` moves to a row, or to the next row of the plan if that row is not in it.  A row
  beyond the end of the file is refused, and then the scan has ended. -/

namespace StripeScan

variable {σ : Type}

/-- What a scan is asked for. -/
structure ScanOptions where
  argument : Option SearchArgument
  batchSize : Nat
  columns : Option (List ColumnRef)
  pruning : Pruning

/-- All columns of all rows, 1024 rows at a time. -/
def ScanOptions.standard : ScanOptions := ⟨none, 1024, none, .full⟩

/-- All columns of all rows, as settings say. -/
def ScanOptions.ofSettings (s : ScanSettings) : ScanOptions :=
  ⟨none, s.batchSize, none, ⟨s.filePruning, s.stripePruning, s.rowGroupPruning⟩⟩

/-- A file opened for scanning, with its number of rows. -/
structure Reader (σ : Type) where
  source : Source σ
  rows : Nat

/-- A scan under way: the schema of its batches, the columns it keeps (all if `none`), and
where it stands. -/
structure Scan where
  schema : Schema
  columns : Option (List Nat)
  batchSize : Nat
  plan : Plan
  cursor : Cursor
  metrics : Metrics

/-- Opens a file; the number of rows of every stripe is read. -/
def Reader.open (source : Source σ) : Access σ (Reader σ) := do
  let rows ← (List.range source.stripeCount).mapM source.stripeRows
  return ⟨source, Word.sum rows⟩

namespace Scan

/-! ### Starting -/

/-- The position of an included column. -/
def resolveColumn (schema : Schema) (column : ColumnRef) : Except ScanError Nat :=
  match schema.resolve column with
  | some (ordinal, _) => .ok ordinal
  | none => .error (.missingColumn column)

/-- The positions of the included columns and the schema that they make. -/
def outputColumns (schema : Schema) :
    Option (List ColumnRef) → Except ScanError (Option (List Nat) × Schema)
  | none => .ok (none, schema)
  | some columns => do
    let ordinals ← columns.mapM (resolveColumn schema)
    return (some ordinals, ← schema.project ordinals)

/-- Binds a search argument to a schema. -/
def bindArgument (schema : Schema) :
    Option SearchArgument → Except ScanError (Option BoundSearchArgument)
  | none => .ok none
  | some argument => ((argument.bind schema).map some).mapError .argument

/-- Starts a scan: checks the options, binds, resolves the columns and plans, in this order. -/
def start (source : Source σ) (options : ScanOptions) : Access σ Scan := do
  if options.batchSize = 0 then .fail (.invalidBatch .zeroBatchSize)
  let argument ← .ofExcept (bindArgument source.schema options.argument)
  let (columns, schema) ← .ofExcept (outputColumns source.schema options.columns)
  let (plan, metrics) ← planned source argument options.pruning
  return ⟨schema, columns, options.batchSize, plan, .start plan, metrics⟩
where
  /-- The plan and what planning counted. -/
  planned (source : Source σ) (argument : Option BoundSearchArgument) (pruning : Pruning) :
      Access σ (Plan × Metrics) := fun s =>
    let (result, s, metrics) := Plan.build source argument pruning (s, .zero)
    (result.map (·, metrics), s)

/-- An empty batch for this scan. -/
def createBatch (scan : Scan) (capacity : Nat) : Except ScanError Batch :=
  Batch.withCapacity scan.schema capacity

/-! ### Producing -/

/-- Rows to read from one row group. -/
structure Piece where
  group : Nat
  offset : Nat
  count : Nat
deriving DecidableEq, Repr

/-- The pieces that make up the rows `row` to `stop` of a stripe, `limit` pieces at most.  If every
piece has a row, as many as there are rows suffice; in any case a walk over row numbers that ends
meets each word once. -/
def pieces (stripe : Stripe) (stride stop : Nat) : (limit row : Nat) → List Piece
  | 0, _ => []
  | limit + 1, row =>
    if stop ≤ row then []
    else
      let (group, offset) := stripe.groupOf stride row
      let groupEnd := (stripe.groupBounds stride group).2
      let count := Word.sub (min (Word.add stripe.firstRow groupEnd) stop) row
      ⟨group, offset, count⟩ :: pieces stripe stride stop limit (Word.add row count)

/-- Reads one piece and checks that it is complete. -/
def readPiece (source : Source σ) (stripe : Nat) (p : Piece) : Access σ Batch := do
  let part ← source.rows stripe p.group p.offset p.count
  if part.rows = p.count then return part
  else .fail (.access (.shortRead stripe p.group part.rows p.count))

/-- The included columns of some rows. -/
def keepColumns (columns : Option (List Nat)) (rows : Batch) : Except ScanError Batch :=
  match columns with
  | none => .ok rows
  | some ordinals => rows.project ordinals

/-- Reads `count` rows of a stripe from `start` on, in the included columns. -/
def readRows (source : Source σ) (scan : Scan) (stripe : Stripe) (start count : Nat) :
    Access σ Batch := do
  let parts ← (pieces stripe scan.plan.stride (Word.add start count) UInt64.size start).mapM
    (readPiece source stripe.index)
  let rows ← .ofExcept (Batch.concat parts)
  .ofExcept (keepColumns scan.columns rows)

/-- The outcome of a step: whether there were rows, and scan and batch afterwards. -/
structure Step where
  more : Bool
  scan : Scan
  batch : Batch

/-- The step that finds nothing left. -/
def finish (scan : Scan) (batch : Batch) : Step :=
  ⟨false, { scan with cursor := .exhaust scan.plan }, batch.clear⟩

/-- The step that delivers the rows from `start` on that fit into the batch. -/
def deliver (source : Source σ) (scan : Scan) (batch : Batch) (range : RowRange)
    (stripe : Stripe) : Access σ Step := do
  let start := scan.cursor.next
  let count := min batch.capacity (Word.sub range.stop start)
  let rows ← readRows source scan stripe start count
  let batch ← .ofExcept (batch.fillFrom rows)
  let metrics :=
    { scan.metrics with
      rowsProduced := scan.metrics.rowsProduced + count
      batchesProduced := scan.metrics.batchesProduced + 1 }
  let cursor := scan.cursor.advance scan.plan start count
  return ⟨true, { scan with cursor := cursor, metrics := metrics }, batch⟩

/-- One step, as far as it succeeds. -/
def step (source : Source σ) (scan : Scan) (batch : Batch) : Access σ Step :=
  if scan.cursor.isExhausted then pure ⟨false, scan, batch.clear⟩
  else
    match scan.plan.ranges[scan.cursor.rangeIndex]? with
    | none => pure (scan.finish batch)
    | some range =>
      match scan.plan.stripes[range.stripe]? with
      | none => .fail (.invalidBatch (.unknownStripe range.stripe))
      | some stripe => deliver source scan batch range stripe

/-- What is left after a call: its answer, and scan, batch and medium afterwards. -/
structure Outcome (σ α : Type) where
  answer : Except ScanError α
  scan : Scan
  batch : Batch
  medium : σ

/-- Refills a batch with the next rows; answers whether there were any. -/
def produceBatch (source : Source σ) (scan : Scan) (batch : Batch) (medium : σ) :
    Outcome σ Bool :=
  match step source scan batch medium with
  | (.ok s, medium) => ⟨.ok s.more, s.scan, s.batch, medium⟩
  | (.error e, medium) => ⟨.error e, scan, batch, medium⟩

/-! ### Seeking -/

/-- Moves to a row. -/
def seekTo (scan : Scan) (row : Nat) : Except ScanError Unit × Scan :=
  let total := scan.plan.totalRows
  if total < row then
    (.error (.seekBeyondEnd row total), { scan with cursor := .exhaust scan.plan })
  else if row = total then (.ok (), { scan with cursor := .exhaust scan.plan })
  else (.ok (), { scan with cursor := scan.cursor.seek scan.plan row })

/-! ### Draining -/

/-- A batch with the row it starts at and the row after which the scan goes on. -/
structure Produced where
  firstRow : Nat
  nextRow : Nat
  batch : Batch

/-- What draining leaves: the batches, the error that ended it if it was not the end of the
plan, and scan, batch and medium afterwards. -/
structure Drained (σ : Type) where
  batches : List Produced
  failure : Option ScanError
  scan : Scan
  batch : Batch
  medium : σ

/-- Produces at most `limit` batches, until nothing is left or a step fails. -/
def drainWithin (source : Source σ) : (limit : Nat) → Scan → Batch → σ → Drained σ
  | 0, scan, batch, medium => ⟨[], none, scan, batch, medium⟩
  | limit + 1, scan, batch, medium =>
    let o := produceBatch source scan batch medium
    match o.answer with
    | .error e => ⟨[], some e, o.scan, o.batch, o.medium⟩
    | .ok false => ⟨[], none, o.scan, o.batch, o.medium⟩
    | .ok true =>
      let rest := drainWithin source limit o.scan o.batch o.medium
      let first := ⟨o.scan.cursor.current, o.scan.cursor.next, o.batch⟩
      { rest with batches := first :: rest.batches }

/-- Produces batches until nothing is left or a step fails.  Every batch has at least one row
of the plan, so their number is bounded by the number of rows. -/
def drain (source : Source σ) (scan : Scan) (batch : Batch) (medium : σ) : Drained σ :=
  drainWithin source (scan.plan.totalRows + 1) scan batch medium

end Scan

end StripeScan
