import StripeScan.Proofs.Batch
import StripeScan.Proofs.Scan.Position
import StripeScan.Scan.Basic

/-! # The one-position machine

What a caller sees of a scan: the answers of its calls, the rows that they deliver and the two row
numbers that the scan reports after each.  `Scan.runCalls` observes a scan; `Plan.runMachine` gives
the same kind of observations from a single row number, its position, and no other state. -/

namespace StripeScan

/-- A call on a scan. -/
inductive ScanCall where
  | produce (batch : Batch)
  | seek (row : ℕ)

/-- The answer of a call; with that of a step come the rows then in the batch. -/
inductive ScanAnswer where
  | produced (more : Except ScanError Bool) (rows : List (List (Option Literal)))
  | sought (outcome : Except ScanError Unit)

/-- What is seen of a call: its answer, and the current and next row afterwards. -/
structure Observation where
  answer : ScanAnswer
  current : ℕ
  next : ℕ

/-! ### Scans -/

namespace Scan

variable {σ : Type}

/-- Whether a batch is made for a scan. -/
def Fits (scan : Scan) (batch : Batch) : Prop := batch.schema = scan.schema ∧ 0 < batch.capacity

/-- What is seen of one call, and scan and medium afterwards. -/
def observe (source : Source σ) (scan : Scan) (medium : σ) : ScanCall → Observation × Scan × σ
  | .produce batch =>
    let o := produceBatch source scan batch medium
    (⟨.produced o.answer o.batch.contents, o.scan.cursor.current, o.scan.cursor.next⟩, o.scan,
      o.medium)
  | .seek row =>
    let (outcome, scan) := scan.seekTo row
    (⟨.sought outcome, scan.cursor.current, scan.cursor.next⟩, scan, medium)

/-- What is seen of a sequence of calls. -/
def runCalls (source : Source σ) : Scan → σ → List ScanCall → List Observation
  | _, _, [] => []
  | scan, medium, call :: rest =>
    let (seen, scan, medium) := scan.observe source medium call
    seen :: runCalls source scan medium rest

/-- Scan and medium after a sequence of calls. -/
def stateAfter (source : Source σ) : Scan → σ → List ScanCall → Scan × σ
  | scan, medium, [] => (scan, medium)
  | scan, medium, call :: rest =>
    let (_, scan, medium) := scan.observe source medium call
    stateAfter source scan medium rest

theorem createBatch_fits {scan : Scan} {capacity : ℕ} {batch : Batch}
    (h : scan.createBatch capacity = .ok batch) :
    scan.Fits batch ∧ batch.capacity = capacity := by
  unfold createBatch Batch.withCapacity at h
  split at h
  · cases h
  · rename_i hpos
    cases h
    exact ⟨⟨rfl, Nat.pos_of_ne_zero hpos⟩, rfl⟩

/-- In a range of the plan, a step delivers rows of the range. -/
theorem step_of_range {source : Source σ} {scan : Scan} {range : RowRange} {stripe : Stripe}
    (going : scan.cursor.state ≠ .exhausted)
    (hrange : scan.plan.ranges[scan.cursor.rangeIndex]? = some range)
    (hstripe : scan.plan.stripes[range.stripe]? = some stripe) (batch : Batch) :
    step source scan batch = deliver source scan batch range stripe := by
  rw [step, if_neg (going ∘ Cursor.isExhausted_iff.mp), hrange]
  dsimp only
  rw [hstripe]

theorem produceBatch_of_step {source : Source σ} {scan : Scan} {batch : Batch} {step : Step}
    {medium medium' : σ} (h : (Scan.step source scan batch).run medium = (.ok step, medium')) :
    produceBatch source scan batch medium = ⟨.ok step.more, step.scan, step.batch, medium'⟩ := by
  have hstep : Scan.step source scan batch medium = (.ok step, medium') := h
  rw [produceBatch, hstep]

/-- A step that fails leaves scan and batch alone. -/
theorem produceBatch_of_error {source : Source σ} {scan : Scan} {batch : Batch} {e : ScanError}
    {medium medium' : σ} (h : (Scan.step source scan batch).run medium = (.error e, medium')) :
    produceBatch source scan batch medium = ⟨.error e, scan, batch, medium'⟩ := by
  have hstep : Scan.step source scan batch medium = (.error e, medium') := h
  rw [produceBatch, hstep]

/-! ### Starting -/

/-- Starting a scan whose columns are found: what can still fail is binding and planning. -/
theorem run_start {source : Source σ} (options : ScanOptions) {columns : Option (List ℕ)}
    {schema : Schema} (h : outputColumns source.schema options.columns = .ok (columns, schema))
    (s : σ) :
    (start source options).run s =
      if options.batchSize = 0 then (.error (.invalidBatch .zeroBatchSize), s)
      else
        match bindArgument source.schema options.argument with
        | .error e => (.error e, s)
        | .ok argument =>
          let (planned, s) := Access.run (start.planned source argument options.pruning) s
          (planned.map fun (plan, metrics) =>
            ⟨schema, columns, options.batchSize, plan, .start plan, metrics⟩, s) := by
  unfold start
  split
  · rfl
  · cases bindArgument source.schema options.argument with
    | error e => rfl
    | ok argument =>
        rw [h]
        exact Access.run_map _ (start.planned source argument options.pruning) s

theorem run_planned_eq_ok_iff {source : Source σ} {argument : Option BoundSearchArgument}
    {pruning : Pruning} {plan : Plan} {metrics : Metrics} {s s' : σ} :
    Access.run (start.planned source argument pruning) s = (.ok (plan, metrics), s') ↔
      (Plan.build source argument pruning).run (s, .zero) = (.ok plan, s', metrics) := by
  have hrun : Access.run (start.planned source argument pruning) s =
      (((Plan.build source argument pruning).run (s, .zero)).1.map
          (·, ((Plan.build source argument pruning).run (s, .zero)).2.2),
        ((Plan.build source argument pruning).run (s, .zero)).2.1) := rfl
  rw [hrun]
  rcases (Plan.build source argument pruning).run (s, .zero) with ⟨e | p, t, m⟩
  · simp [Except.map]
  · simp only [Except.map, Prod.mk.injEq, Except.ok.injEq]
    tauto

/-- A scan that starts has its argument bound, its columns resolved and its plan made, and its
cursor before the first row. -/
theorem run_start_eq_ok_iff {source : Source σ} {options : ScanOptions} {scan : Scan} {s s' : σ} :
    (start source options).run s = (.ok scan, s') ↔
      options.batchSize ≠ 0 ∧ ∃ argument,
        bindArgument source.schema options.argument = .ok argument ∧
        outputColumns source.schema options.columns = .ok (scan.columns, scan.schema) ∧
        (Plan.build source argument options.pruning).run (s, .zero) =
          (.ok scan.plan, s', scan.metrics) ∧
        scan.batchSize = options.batchSize ∧ scan.cursor = .start scan.plan := by
  unfold start
  split
  · rename_i hzero
    exact ⟨fun h => (nomatch h), fun h => absurd hzero h.1⟩
  · rename_i hsize
    rw [Access.run_bind_eq_ok_iff]
    constructor
    · rintro ⟨argument, t, hargument, h⟩
      rw [Access.run_ofExcept, Prod.mk.injEq] at hargument
      obtain ⟨hargument, rfl⟩ := hargument
      obtain ⟨⟨columns, schema⟩, t, hcolumns, h⟩ := Access.run_bind_eq_ok_iff.mp h
      rw [Access.run_ofExcept, Prod.mk.injEq] at hcolumns
      obtain ⟨hcolumns, rfl⟩ := hcolumns
      obtain ⟨⟨plan, metrics⟩, t, hplan, h⟩ := Access.run_bind_eq_ok_iff.mp h
      obtain ⟨rfl, rfl⟩ := Access.run_pure_eq_ok_iff.mp h
      exact ⟨hsize, argument, hargument, hcolumns, run_planned_eq_ok_iff.mp hplan, rfl, rfl⟩
    · rintro ⟨-, argument, hargument, hcolumns, hplan, hbatch, hcursor⟩
      refine ⟨argument, s, by rw [Access.run_ofExcept, hargument], ?_⟩
      refine Access.run_bind_eq_ok_iff.mpr
        ⟨_, s, by rw [Access.run_ofExcept, hcolumns], ?_⟩
      refine Access.run_bind_eq_ok_iff.mpr ⟨_, s', run_planned_eq_ok_iff.mpr hplan, ?_⟩
      obtain ⟨schema, columns, batchSize, plan, cursor, metrics⟩ := scan
      simp only at hbatch hcursor
      subst hbatch hcursor
      rfl

/-- A scan starts if its options are in order and the survey of its file succeeds. -/
theorem start_succeeds {source : Source σ} {options : ScanOptions}
    {argument : Option BoundSearchArgument} {out : Option (List ℕ) × Schema}
    (batchSize : options.batchSize ≠ 0)
    (hargument : bindArgument source.schema options.argument = .ok argument)
    (hcolumns : outputColumns source.schema options.columns = .ok out)
    (h : (survey source argument options.pruning).Succeeds) : (start source options).Succeeds := by
  intro s
  obtain ⟨v, s', hv⟩ := h s
  obtain ⟨metrics, hplan⟩ := (Plan.build_mirrors source argument options.pruning).run_eq_ok_iff.mpr
    ⟨v, hv, rfl⟩
  obtain ⟨columns, schema⟩ := out
  let plan := v.plan source.stride
  exact ⟨⟨schema, columns, options.batchSize, plan, .start plan, metrics⟩, s',
    run_start_eq_ok_iff.mpr
    ⟨batchSize, argument, hargument, hcolumns, hplan, rfl, rfl⟩⟩

end Scan

/-! ### The machine -/

namespace Plan

/-- One step of the machine at a position, on a file with the given rows: what is seen, and the
position afterwards.  A step delivers the rows from the first one on that fit into the batch, up to
the end of its range, and the position moves behind them. -/
def machine (plan : Plan) (rows : ℕ → List (Option Literal)) (position : ℕ) :
    ScanCall → Observation × ℕ
  | .produce batch =>
    match plan.firstFrom? position with
    | none => (⟨.produced (.ok false) [], plan.totalRows, plan.totalRows⟩, plan.totalRows)
    | some first =>
      let stop := min (first + batch.capacity) (plan.rangeEnd first)
      (⟨.produced (.ok true) ((List.range' first (stop - first)).map rows), first,
        (plan.firstFrom? stop).getD stop⟩, stop)
  | .seek target =>
    if plan.totalRows < target then
      (⟨.sought (.error (.seekBeyondEnd target plan.totalRows)), plan.totalRows, plan.totalRows⟩,
        plan.totalRows)
    else
      let next := (plan.firstFrom? target).getD plan.totalRows
      (⟨.sought (.ok ()), next, next⟩, target)

/-- What is seen of the machine. -/
def runMachine (plan : Plan) (rows : ℕ → List (Option Literal)) :
    (position : ℕ) → List ScanCall → List Observation
  | _, [] => []
  | position, call :: rest =>
    let (seen, position) := plan.machine rows position call
    seen :: runMachine plan rows position rest

end Plan

end StripeScan
