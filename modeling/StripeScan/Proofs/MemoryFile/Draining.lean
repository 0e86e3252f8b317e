import StripeScan.Proofs.MemoryFile.Refinement

/-! # Whole scans

Draining a scan from a position delivers the rows of the plan from there on, each once and in
ascending order, and ends (`drainWithin_rows`): a step delivers the rows up to where the scan goes
on, so what is left gets smaller with every step.  Hence a whole scan delivers exactly the rows of
its plan. -/

namespace StripeScan

/-! ### Rows of a plan -/

namespace Plan

/-- The rows to be read from a position on. -/
def rowsFrom (p : Plan) (position : ℕ) : List ℕ :=
  (List.range' position (p.totalRows - position)).filter p.retains

variable {p : Plan}

theorem rowsFrom_eq_nil (wf : p.WellFormed) {position : ℕ} (h : p.firstFrom? position = none) :
    p.rowsFrom position = [] := by
  rw [rowsFrom, List.filter_eq_nil_iff]
  intro row hrow
  rw [(firstFrom?_eq_none_iff wf).mp h row (List.mem_range'_1.mp hrow).1]
  exact Bool.false_ne_true

/-- The rows from a position on start with the first one, up to any row of its range. -/
theorem rowsFrom_eq_append (wf : p.WellFormed) {position first stop : ℕ}
    (h : p.firstFrom? position = some first) (low : first ≤ stop) (high : stop ≤ p.rangeEnd first) :
    p.rowsFrom position = List.range' first (stop - first) ++ p.rowsFrom stop := by
  obtain ⟨hle, hretains, hbefore⟩ := (firstFrom?_eq_some_iff wf).mp h
  obtain ⟨r, hr, hmem⟩ := List.any_eq_true.mp hretains
  rw [rangeEnd_eq wf hr hmem] at high
  have htotal := (wf.bounds hr).2
  have hsplit : List.range' position (p.totalRows - position) =
      List.range' position (first - position) ++
        (List.range' first (stop - first) ++ List.range' stop (p.totalRows - stop)) := by
    have hfirst := List.range'_append_1 (s := first) (m := stop - first) (n := p.totalRows - stop)
    have hposition := List.range'_append_1 (s := position) (m := first - position)
      (n := p.totalRows - first)
    rw [show first + (stop - first) = stop by omega,
      show stop - first + (p.totalRows - stop) = p.totalRows - first by omega] at hfirst
    rw [show position + (first - position) = first by omega,
      show first - position + (p.totalRows - first) = p.totalRows - position by omega] at hposition
    rw [hfirst, hposition]
  have hskipped : (List.range' position (first - position)).filter p.retains = [] := by
    rw [List.filter_eq_nil_iff]
    intro row hrow
    obtain ⟨hlow, hhigh⟩ := List.mem_range'_1.mp hrow
    rw [hbefore row hlow (by omega)]
    exact Bool.false_ne_true
  have hrange : (List.range' first (stop - first)).filter p.retains =
      List.range' first (stop - first) := by
    rw [List.filter_eq_self]
    intro row hrow
    obtain ⟨hlow, hhigh⟩ := List.mem_range'_1.mp hrow
    rw [RowRange.contains_iff] at hmem
    exact retains_iff.mpr ⟨r, hr, by omega, by omega⟩
  rw [rowsFrom, hsplit, List.filter_append, List.filter_append, hskipped, hrange, List.nil_append]
  rfl

end Plan

/-! ### Draining -/

/-- The rows of the file that a batch holds. -/
def Scan.Produced.rows (b : Scan.Produced) : List ℕ := List.range' b.firstRow b.batch.rows

/-- The rows of the file that draining has delivered, batch by batch. -/
def Scan.Drained.rows {σ : Type} (d : Scan.Drained σ) : List ℕ :=
  d.batches.flatMap Scan.Produced.rows

namespace MemoryFile

variable {f : MemoryFile}

/-- Draining within enough steps ends, and delivers all rows from the position of the scan on. -/
theorem drainWithin_rows (wf : f.WellFormed) (reads : f.failsRows = false) {limit : ℕ} {scan : Scan}
    (serves : scan.Serves f) {position : ℕ} (hat : scan.cursor.At scan.plan position)
    {batch : Batch} (fits : scan.Fits batch) (enough : scan.plan.totalRows - position < limit)
    (readings : ℕ) :
    (Scan.drainWithin f.source limit scan batch readings).failure = none ∧
      (Scan.drainWithin f.source limit scan batch readings).scan.cursor.state = .exhausted ∧
      (Scan.drainWithin f.source limit scan batch readings).rows = scan.plan.rowsFrom position := by
  -- On the limit, which stays above the number of rows left: a step that delivers moves on.
  induction limit generalizing scan position batch readings with
  | zero => omega
  | succ limit ih =>
      have hrefills := produceBatch_refills wf serves hat batch readings
      unfold Scan.drainWithin
      generalize Scan.produceBatch f.source scan batch readings = outcome at hrefills ⊢
      cases hrefills with
      | failed left cause => exact absurd fits (cause reads)
      | ended none_left leaves current next state =>
          rw [Plan.rowsFrom_eq_nil serves.plan none_left]
          exact ⟨rfl, state, rfl⟩
      | @delivered first readings' after filled left schema capacity positive rows contents leaves
          current =>
          have hat' := leaves.at_position
          rw [← leaves.plan] at hat'
          have hfits : after.Fits filled :=
            ⟨schema.trans (fits.1.trans leaves.schema.symm), capacity ▸ fits.2⟩
          have hsplit := Plan.rowsFrom_eq_append serves.plan left
            (Nat.le_add_right first filled.rows) (by omega)
          rw [Nat.add_sub_cancel_left] at hsplit
          have hfirst := ((Plan.firstFrom?_eq_some_iff serves.plan).mp left).1
          have hlt := Plan.lt_of_retains serves.plan
            ((Plan.firstFrom?_eq_some_iff serves.plan).mp left).2.1
          obtain ⟨hfailure, hended, hrest⟩ := ih (leaves.serves serves) hat' hfits
            (by rw [leaves.plan]; omega) readings'
          refine ⟨hfailure, hended, ?_⟩
          rw [hsplit, ← leaves.plan, ← hrest, ← current]
          rfl

/-- A whole scan of a file ends, and delivers the rows of its plan. -/
theorem scanAll_rows (wf : f.WellFormed) (reads : f.failsRows = false) {options : ScanOptions}
    {source : Source ℕ} {scan : Scan} {readings : ℕ}
    (h : (f.startScan options).run 0 = (.ok (source, scan), readings)) {capacity : ℕ}
    (positive : 0 < capacity) :
    ∃ drained, f.scanAll options capacity = .ok drained ∧ drained.failure = none ∧
      drained.scan.cursor.state = .exhausted ∧ drained.rows = scan.plan.rowsFrom 0 := by
  obtain ⟨serves, htotal, hcursor⟩ := serves_of_startScan wf h
  obtain ⟨rfl, -⟩ := run_startScan_eq_ok_iff.mp h
  have hbatch : scan.createBatch capacity = .ok _ := if_neg positive.ne'
  have hat : scan.cursor.At scan.plan 0 := by
    rw [hcursor]
    exact (Cursor.start_at serves.plan).1
  obtain ⟨hfailure, hended, hrows⟩ := drainWithin_rows wf reads serves hat
    (Scan.createBatch_fits hbatch).1
    (show scan.plan.totalRows - 0 < scan.plan.totalRows + 1 by omega) readings
  refine ⟨_, ?_, hfailure, hended, hrows⟩
  rw [scanAll, h]
  show (scan.createBatch capacity >>= fun batch => _) = _
  rw [hbatch, bind_ok, Scan.drain, hfailure]
  rfl

end MemoryFile

end StripeScan
