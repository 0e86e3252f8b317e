import StripeScan.Proofs.MemoryFile.Reading
import StripeScan.Proofs.Scan.Machine

/-! # Scans of files in memory are one-position machines

A scan of a well-formed file serves it from its start on (`serves_of_startScan`).  `Refills` says
what refilling a batch can come to, and `produceBatch_refills` that it comes to that.  Each call
keeps the cursor at the position of the machine and answers as the machine does (`observe_refines`),
and so do all calls in any order. -/

namespace StripeScan

namespace MemoryFile

variable {f : MemoryFile} {scan : Scan}

/-! ### Starting -/

theorem mapM_stripeRows (f : MemoryFile) :
    (List.range f.stripes.length).mapM f.stripeRows = .ok f.lengths := by
  rw [mapM_eq_ok_iff, List.forall₂_iff_get]
  refine ⟨by simp [lengths], fun i hi hi' => ?_⟩
  rw [List.length_range] at hi
  rw [List.get_eq_getElem, List.getElem_range, stripeRows,
    stripe_eq (List.getElem?_eq_getElem hi)]
  simp [lengths]

theorem run_mapM_stripeRows (f : MemoryFile) (readings : ℕ) :
    ((List.range f.stripes.length).mapM f.source.stripeRows).run readings =
      (.ok f.lengths, readings) := by
  show Access.run (List.mapM (fun i => Access.ofExcept (f.stripeRows i)) _) readings = _
  rw [Access.run_mapM_ofExcept, mapM_stripeRows]

theorem survey_rows {argument : Option BoundSearchArgument} {pruning : Pruning} {v : Survey}
    {s s' : ℕ} (h : (survey f.source argument pruning).run s = (.ok v, s')) :
    v.rows = f.lengths := by
  obtain ⟨rows, s₁, hrows, h⟩ := Access.run_bind_eq_ok_iff.mp h
  have heq : (Except.ok f.lengths, s) = (Except.ok rows, s₁) :=
    (run_mapM_stripeRows f s).symm.trans hrows
  cases heq
  obtain ⟨file, s₂, -, h⟩ := Access.run_bind_eq_ok_iff.mp h
  split at h
  · obtain ⟨stripes, s₃, -, h⟩ := Access.run_bind_eq_ok_iff.mp h
    obtain ⟨rfl, -⟩ := Access.run_pure_eq_ok_iff.mp h
    rfl
  · obtain ⟨rfl, -⟩ := Access.run_pure_eq_ok_iff.mp h
    rfl

/-- Opening a file in memory always succeeds, so what can fail is starting the scan. -/
theorem run_startScan (f : MemoryFile) (options : ScanOptions) (s : ℕ) :
    (f.startScan options).run s =
      (((Scan.start f.source options).run s).1.map fun scan => (f.source, scan),
        ((Scan.start f.source options).run s).2) := by
  have hopen : (Reader.open f.source).run s = (.ok ⟨f.source, Word.sum f.lengths⟩, s) :=
    Access.run_bind_of_ok (run_mapM_stripeRows f s)
  rw [startScan, Access.run_bind_of_ok hopen]
  exact Access.run_map _ _ s

/-- What starting a scan of a file amounts to. -/
theorem run_startScan_eq_ok_iff {options : ScanOptions} {source : Source ℕ} {s s' : ℕ} :
    (f.startScan options).run s = (.ok (source, scan), s') ↔
      source = f.source ∧ (Scan.start f.source options).run s = (.ok scan, s') := by
  rw [run_startScan]
  rcases (Scan.start f.source options).run s with ⟨e | started, t⟩
  · simp [Except.map]
  · simp only [Except.map, Prod.mk.injEq, Except.ok.injEq]
    constructor
    · rintro ⟨⟨rfl, rfl⟩, rfl⟩
      exact ⟨rfl, rfl, rfl⟩
    · rintro ⟨rfl, rfl, rfl⟩
      exact ⟨⟨rfl, rfl⟩, rfl⟩

theorem outputColumns_eq_ok {schema out : Schema} {columns : Option (List ColumnRef)}
    {ordinals : Option (List ℕ)}
    (h : Scan.outputColumns schema columns = .ok (ordinals, out)) : schema.Keeps ordinals out := by
  cases columns with
  | none =>
      cases h
      rfl
  | some columns =>
      obtain ⟨ordinals', -, h⟩ := bind_eq_ok_iff.mp h
      obtain ⟨out', hproject, h⟩ := bind_eq_ok_iff.mp h
      cases h
      exact hproject

/-- The plan of a scan of a file has the layout of the file. -/
theorem plan_of_build {argument : Option BoundSearchArgument} {pruning : Pruning} {plan : Plan}
    {s s' : ℕ} {m m' : Metrics}
    (h : (Plan.build f.source argument pruning).run (s, m) = (.ok plan, s', m')) :
    ∃ v, (survey f.source argument pruning).run s = (.ok v, s') ∧ v.rows = f.lengths ∧
      plan = v.plan f.stride := by
  obtain ⟨v, hv, hplan⟩ := (Plan.build_mirrors f.source argument pruning).run_eq_ok_iff.mp ⟨m', h⟩
  exact ⟨v, hv, survey_rows hv, hplan.symm⟩

theorem serves_of_startScan (wf : f.WellFormed) {options : ScanOptions} {source : Source ℕ}
    {s s' : ℕ} (h : (f.startScan options).run s = (.ok (source, scan), s')) :
    scan.Serves f ∧ scan.plan.totalRows = f.totalRows ∧ scan.cursor = .start scan.plan := by
  obtain ⟨-, hstart⟩ := run_startScan_eq_ok_iff.mp h
  obtain ⟨-, argument, -, hcolumns, hplan, -, hcursor⟩ := Scan.run_start_eq_ok_iff.mp hstart
  obtain ⟨v, -, hrows, hplan⟩ := plan_of_build hplan
  have fits := wf.plan_fits hrows
  refine ⟨⟨?_, ?_, fun i s hs => ?_, outputColumns_eq_ok hcolumns⟩, ?_, hcursor⟩
  · exact hplan ▸ v.plan_wellFormed fits
  · rw [hplan]
    rfl
  · rw [hplan] at hs
    obtain ⟨-, -, hlen⟩ := v.plan_stripe hs
    have hfirst := v.plan_firstRow fits hs
    rw [hrows] at hlen hfirst
    obtain ⟨m, hm, hmrows⟩ := Option.map_eq_some_iff.mp (List.getElem?_map ▸ hlen)
    exact ⟨m, hm, hmrows.symm, hfirst⟩
  · rw [hplan, v.plan_totalRows fits]
    exact congrArg totalOf hrows

/-! ### One call -/

/-- What a call leaves: a scan of the same plan and columns, at some position. -/
structure Leaves (scan after : Scan) (position : ℕ) : Prop where
  plan : after.plan = scan.plan
  columns : after.columns = scan.columns
  schema : after.schema = scan.schema
  at_position : after.cursor.At scan.plan position

/-- With no row left a step delivers nothing and the scan has ended. -/
theorem run_step_none {position : ℕ} (hat : scan.cursor.At scan.plan position)
    (h : scan.plan.firstFrom? position = none) (batch : Batch) (readings : ℕ) :
    ∃ after, (Scan.step f.source scan batch).run readings =
        (.ok ⟨false, after, batch.clear⟩, readings) ∧
      Leaves scan after scan.plan.totalRows ∧
      after.cursor.current = scan.plan.totalRows ∧ after.cursor.next = scan.plan.totalRows ∧
      after.cursor.state = .exhausted ∧ after.metrics = scan.metrics := by
  have htotal := Cursor.firstFrom?_total scan.plan
  rw [Cursor.At, h] at hat
  unfold Scan.step
  rcases hat with ⟨hstate, hcurrent, hnext⟩ | ⟨hstate, hrange⟩
  · rw [if_pos (Cursor.isExhausted_iff.mpr hstate)]
    refine ⟨scan, rfl, ⟨rfl, rfl, rfl, ?_⟩, hcurrent, hnext, hstate, rfl⟩
    rw [Cursor.At, htotal]
    exact .inl ⟨hstate, hcurrent, hnext⟩
  · rw [if_neg (hstate ∘ Cursor.isExhausted_iff.mp), hrange]
    exact ⟨{ scan with cursor := .exhaust scan.plan }, rfl,
      ⟨rfl, rfl, rfl, Cursor.exhaust_at htotal⟩, rfl, rfl, rfl, rfl⟩

/-- A batch without room takes no rows: there is nothing to join. -/
theorem run_deliver_of_no_room {batch : Batch} (h : batch.capacity = 0) (range : RowRange)
    (stripe : Stripe) (readings : ℕ) :
    (Scan.deliver f.source scan batch range stripe).run readings =
      (.error (.invalidBatch .nothingToConcatenate), readings) := by
  have hnone : Word.add scan.cursor.next 0 ≤ scan.cursor.next := Nat.mod_le _ _
  rw [Scan.deliver, h, Nat.zero_min, Scan.readRows, Scan.pieces_of_le hnone]
  rfl

/-- Nor does a file that is set to fail deliver any. -/
theorem run_deliver_of_failsRows (fails : f.failsRows = true) {batch : Batch}
    (positive : 0 < batch.capacity) {range : RowRange} (stripe : Stripe)
    (left : scan.cursor.next < range.stop) (stop_lt : range.stop < UInt64.size) (readings : ℕ) :
    (Scan.deliver f.source scan batch range stripe).run readings =
      (.error (.access .readFailure), readings) := by
  have hleft : Word.sub range.stop scan.cursor.next = range.stop - scan.cursor.next :=
    Word.sub_eq left.le stop_lt
  generalize hcount : min batch.capacity (range.stop - scan.cursor.next) = count
  have hrows (stripe group offset count : ℕ) : (f.source.rows stripe group offset count).run
      readings = (.error (.access .readFailure), readings) := by
    show (f.rows stripe group offset count).run readings = _
    rw [rows, fails]
    rfl
  have hread : (Scan.readRows f.source scan stripe scan.cursor.next count).run readings =
      (.error (.access .readFailure), readings) := by
    refine Access.run_bind_of_error ?_
    rw [Word.add_eq (show scan.cursor.next + count < UInt64.size by omega)]
    obtain ⟨p, rest, hpieces⟩ := Scan.exists_piece
      (show scan.cursor.next < scan.cursor.next + count by omega)
    rw [hpieces, List.mapM_cons]
    exact Access.run_bind_of_error (Access.run_bind_of_error (hrows _ _ _ _))
  rw [Scan.deliver, hleft, hcount]
  exact Access.run_bind_of_error hread

/-- A scan before a row reads the rows from there on, and delivers what the batch makes of them. -/
theorem run_deliver_eq (wf : f.WellFormed) (reads : f.failsRows = false) (serves : scan.Serves f)
    {batch : Batch} (positive : 0 < batch.capacity) (readings : ℕ) {first : ℕ}
    {r : RowRange} {s : Stripe} (hr : r ∈ scan.plan.ranges)
    (hs : scan.plan.stripes[r.stripe]? = some s) (hnext : scan.cursor.next = first)
    (hmem : r.contains first = true) :
    ∃ rows readings', rows.schema = scan.schema ∧
      rows.rows = min batch.capacity (r.stop - first) ∧ 0 < rows.rows ∧
      rows.contents = (List.range' first rows.rows).map (f.row scan.columns) ∧
      (Scan.deliver f.source scan batch r s).run readings =
        ((batch.fillFrom rows).map fun filled => ⟨true, { scan with
            cursor := scan.cursor.advance scan.plan first rows.rows
            metrics := { scan.metrics with
              rowsProduced := scan.metrics.rowsProduced + rows.rows
              batchesProduced := scan.metrics.batchesProduced + 1 } }, filled⟩, readings') := by
  rw [RowRange.contains_iff] at hmem
  obtain ⟨last, hspans⟩ := serves.plan.exists_spans hr hs
  have fits := serves.plan.fits s (List.mem_of_getElem? hs)
  have hbounds := hspans.bounds fits
  have hleft : Word.sub r.stop first = r.stop - first :=
    Word.sub_eq hmem.2.le (hbounds.2.2.trans_lt fits.stop_lt)
  generalize hcount : min batch.capacity (r.stop - first) = count
  obtain ⟨rows, readings', hrows, hschema, rfl, hcontents⟩ := run_readRows wf reads serves hs
    (show s.firstRow ≤ first by omega) (show 0 < count by omega)
    (show first + count ≤ s.stop by omega) readings
  refine ⟨rows, readings', hschema, rfl, by omega, hcontents, ?_⟩
  rw [Scan.deliver, hnext, hleft, hcount, Access.run_bind_of_ok hrows, Access.run_bind,
    Access.run_ofExcept]
  cases batch.fillFrom rows <;> rfl

/-- What refilling a batch can come to, in a scan at a position of a file: with no row left the scan
has ended; with rows left they are delivered, unless the file is set to fail or the batch is not
made for the scan. -/
inductive Refills (f : MemoryFile) (scan : Scan) (batch : Batch) (position : ℕ) :
    Scan.Outcome ℕ Bool → Prop where
  | ended {after : Scan} {readings : ℕ} (none_left : scan.plan.firstFrom? position = none)
      (leaves : Leaves scan after scan.plan.totalRows)
      (current : after.cursor.current = scan.plan.totalRows)
      (next : after.cursor.next = scan.plan.totalRows) (state : after.cursor.state = .exhausted)
      (metrics : after.metrics = scan.metrics) :
      Refills f scan batch position ⟨.ok false, after, batch.clear, readings⟩
  | failed {first readings : ℕ} {e : ScanError}
      (left : scan.plan.firstFrom? position = some first)
      (cause : f.failsRows = false → ¬scan.Fits batch) :
      Refills f scan batch position ⟨.error e, scan, batch, readings⟩
  | delivered {first readings : ℕ} {after : Scan} {filled : Batch}
      (left : scan.plan.firstFrom? position = some first)
      (schema : filled.schema = batch.schema) (capacity : filled.capacity = batch.capacity)
      (positive : 0 < filled.rows)
      (rows : filled.rows = min batch.capacity (scan.plan.rangeEnd first - first))
      (contents : filled.contents = (List.range' first filled.rows).map (f.row scan.columns))
      (leaves : Leaves scan after (first + filled.rows)) (current : after.cursor.current = first)
      (next : after.cursor.next =
        (scan.plan.firstFrom? (first + filled.rows)).getD (first + filled.rows))
      (metrics : after.metrics = { scan.metrics with
        rowsProduced := scan.metrics.rowsProduced + filled.rows
        batchesProduced := scan.metrics.batchesProduced + 1 }) :
      Refills f scan batch position ⟨.ok true, after, filled, readings⟩

/-- Refilling comes to one of these. -/
theorem produceBatch_refills (wf : f.WellFormed) (serves : scan.Serves f) {position : ℕ}
    (hat : scan.cursor.At scan.plan position) (batch : Batch) (readings : ℕ) :
    f.Refills scan batch position (Scan.produceBatch f.source scan batch readings) := by
  cases hfirst : scan.plan.firstFrom? position with
  | none =>
      obtain ⟨after, hstep, hleaves, hcurrent, hnext, hstate, hmetrics⟩ :=
        run_step_none hat hfirst batch readings
      rw [Scan.produceBatch_of_step hstep]
      exact .ended hfirst hleaves hcurrent hnext hstate hmetrics
  | some first =>
      rw [Cursor.At, hfirst] at hat
      obtain ⟨hstate, hnext, r, hr, hmem⟩ := hat
      have hrmem := List.mem_of_getElem? hr
      have hend := Plan.rangeEnd_eq serves.plan hrmem hmem
      obtain ⟨s, -, hs, -⟩ := serves.plan.ranges r hrmem
      have hstep : Scan.step f.source scan batch = Scan.deliver f.source scan batch r s :=
        Scan.step_of_range hstate hr hs batch
      have failed {e : ScanError} (hdeliver : (Scan.deliver f.source scan batch r s).run readings =
          (.error e, readings)) (cause : f.failsRows = false → ¬scan.Fits batch) :
          f.Refills scan batch position (Scan.produceBatch f.source scan batch readings) := by
        rw [Scan.produceBatch_of_error (hstep ▸ hdeliver)]
        exact .failed hfirst cause
      rcases Nat.eq_zero_or_pos batch.capacity with hfull | hroom
      · exact failed (run_deliver_of_no_room hfull r s readings)
          fun _ fits => absurd fits.2 (by omega)
      have hmem' := RowRange.contains_iff.mp hmem
      have hstop := serves.plan.stop_lt hrmem
      cases hreads : f.failsRows with
      | true =>
          refine failed (run_deliver_of_failsRows hreads hroom s (hnext ▸ hmem'.2) hstop readings) ?_
          intro h
          rw [hreads] at h
          cases h
      | false =>
          obtain ⟨rows, readings', hschema, hcount, hpositive, hcontents, hdeliver⟩ :=
            run_deliver_eq wf hreads serves hroom readings hrmem hs hnext hmem
          rw [← hstep] at hdeliver
          cases hfill : batch.fillFrom rows with
          | error e =>
              rw [hfill] at hdeliver
              rw [Scan.produceBatch_of_error hdeliver]
              refine .failed hfirst fun _ fits => ?_
              rw [Batch.fillFrom_eq (hschema.trans fits.1.symm) (by omega)] at hfill
              cases hfill
          | ok filled =>
              rw [hfill] at hdeliver
              rw [Scan.produceBatch_of_step hdeliver]
              obtain ⟨-, rfl⟩ := Batch.fillFrom_eq_ok hfill
              obtain ⟨hat', hcurrent, hnext'⟩ := Cursor.advance_at serves.plan scan.cursor
                (show first + rows.rows < UInt64.size by omega)
              exact .delivered hfirst rfl rfl hpositive (hend ▸ hcount) hcontents
                ⟨rfl, rfl, rfl, hat'⟩ hcurrent hnext' rfl

section call

variable (wf : f.WellFormed) (reads : f.failsRows = false) (serves : scan.Serves f)

include wf reads serves

/-- A call answers as the machine does, and leaves the cursor at the position of the machine. -/
theorem observe_refines {position : ℕ} (hat : scan.cursor.At scan.plan position) {call : ScanCall}
    (fits : ∀ batch, call = .produce batch → scan.Fits batch) (readings : ℕ) :
    ∃ after readings', scan.observe f.source readings call =
      ((scan.plan.machine (f.row scan.columns) position call).1, after, readings') ∧
      Leaves scan after (scan.plan.machine (f.row scan.columns) position call).2 := by
  cases call with
  | produce batch =>
      have hrefills := produceBatch_refills wf serves hat batch readings
      simp only [Scan.observe]
      unfold Plan.machine
      generalize Scan.produceBatch f.source scan batch readings = outcome at hrefills ⊢
      cases hrefills with
      | @ended after readings' none_left leaves current next =>
          rw [none_left]
          refine ⟨after, readings', ?_, leaves⟩
          simp only [current, next, Batch.contents_clear]
      | failed left cause => exact absurd (fits batch rfl) (cause reads)
      | @delivered first readings' after filled left schema capacity positive rows contents leaves
          current next =>
          have hstop : min (first + batch.capacity) (scan.plan.rangeEnd first) =
              first + filled.rows := by
            omega
          rw [left]
          simp only [hstop, Nat.add_sub_cancel_left]
          refine ⟨after, readings', ?_, leaves⟩
          simp only [contents, current, next]
  | seek target =>
      unfold Plan.machine Scan.observe Scan.seekTo
      simp only
      split
      · exact ⟨_, readings, rfl, rfl, rfl, rfl, Cursor.exhaust_at (Cursor.firstFrom?_total _)⟩
      · split
        · rename_i htarget
          subst htarget
          rw [Cursor.firstFrom?_total]
          exact ⟨_, readings, rfl, rfl, rfl, rfl, Cursor.exhaust_at (Cursor.firstFrom?_total _)⟩
        · obtain ⟨hat', hcurrent, hnext⟩ := Cursor.seek_at serves.plan scan.cursor target
          refine ⟨{ scan with cursor := scan.cursor.seek scan.plan target }, readings, ?_,
            rfl, rfl, rfl, hat'⟩
          simp only [hcurrent, hnext]

end call

theorem Leaves.serves {after : Scan} {position : ℕ} (h : Leaves scan after position)
    (serves : scan.Serves f) : after.Serves f where
  plan := h.plan ▸ serves.plan
  stride := h.plan ▸ serves.stride
  stripes := h.plan ▸ serves.stripes
  output := h.schema ▸ h.columns ▸ serves.output

/-- Any calls answer as the machine does. -/
theorem runCalls_refines (wf : f.WellFormed) (reads : f.failsRows = false) {calls : List ScanCall}
    (serves : scan.Serves f) {position : ℕ} (hat : scan.cursor.At scan.plan position)
    (fits : ∀ batch, .produce batch ∈ calls → scan.Fits batch) (readings : ℕ) :
    scan.runCalls f.source readings calls =
      scan.plan.runMachine (f.row scan.columns) position calls := by
  -- On the calls, for any scan at the position of the machine: a call keeps it there.
  induction calls generalizing scan position readings with
  | nil => rfl
  | cons call rest ih =>
      obtain ⟨after, readings', hseen, hleaves⟩ := observe_refines wf reads serves hat
        (fun batch h => fits batch (h ▸ List.mem_cons_self)) readings
      rw [Scan.runCalls, hseen, Plan.runMachine]
      simp only
      have hat' := hleaves.at_position
      rw [← hleaves.plan] at hat'
      have hfits : ∀ batch, .produce batch ∈ rest → after.Fits batch := by
        intro batch hb
        obtain ⟨hschema, hcapacity⟩ := fits batch (List.mem_cons_of_mem _ hb)
        exact ⟨hschema.trans hleaves.schema.symm, hcapacity⟩
      rw [ih (hleaves.serves serves) hat' hfits, hleaves.plan, hleaves.columns]

/-- A scan of a file whose rows can be read is a one-position machine: at its start and after any
calls, in any order and with batches of any capacities, its answers, the rows that it delivers and
the rows that it reports as current and next are those of the machine started at row zero. -/
theorem startScan_refines (wf : f.WellFormed) (reads : f.failsRows = false) {options : ScanOptions}
    {source : Source ℕ} {readings readings' : ℕ}
    (h : (f.startScan options).run readings = (.ok (source, scan), readings'))
    {calls : List ScanCall} (fits : ∀ batch, .produce batch ∈ calls → scan.Fits batch) :
    scan.plan.totalRows = f.totalRows ∧
      scan.cursor.current = (scan.plan.firstFrom? 0).getD f.totalRows ∧
      scan.cursor.next = (scan.plan.firstFrom? 0).getD f.totalRows ∧
      scan.runCalls source readings' calls =
        scan.plan.runMachine (f.row scan.columns) 0 calls := by
  obtain ⟨serves, htotal, hcursor⟩ := serves_of_startScan wf h
  obtain ⟨rfl, -⟩ := run_startScan_eq_ok_iff.mp h
  obtain ⟨hat, hcurrent, hnext⟩ := Cursor.start_at serves.plan
  rw [htotal] at hcurrent hnext
  rw [hcursor]
  refine ⟨htotal, hcurrent, hnext, runCalls_refines wf reads serves ?_ fits readings'⟩
  rw [hcursor]
  exact hat

/-- A file of one stripe with three numbers, in row groups of two rows. -/
def threeNumbers : MemoryFile where
  schema := .ofTyped [⟨"x", .long, true⟩]
  stride := 2
  stripes := [{
    rows := ⟨.ofTyped [⟨"x", .long, true⟩], [⟨.long, #[some 1, some 2, some 3]⟩], 3, 3⟩
    statistics := [some (.ofRange (.long 1) (.long 3) 3)]
    groups := [[some (.ofRange (.long 1) (.long 2) 2)], [some (.ofRange (.long 3) (.long 3) 1)]] }]
  statistics := [some (.ofRange (.long 1) (.long 3) 3)]
  groupCounts := []
  failsRows := false
  failsStatistics := false

theorem threeNumbers_wellFormed : threeNumbers.WellFormed where
  made rows hrows := by
    obtain rfl := List.mem_singleton.mp hrows
    exact ⟨[⟨.long, #[some 1, some 2, some 3]⟩], rfl⟩
  held := by decide
  stride_lt := by decide

theorem startScan_refines_threeNumbers :
    ∃ (scan : Scan) (batch : Batch), scan.createBatch 2 = .ok batch ∧
      (threeNumbers.startScan .standard).run 0 = (.ok (threeNumbers.source, scan), 0) ∧
      scan.runCalls threeNumbers.source 0 [.produce batch, .seek 1, .produce batch, .seek 9] =
        scan.plan.runMachine (threeNumbers.row none) 0
          [.produce batch, .seek 1, .produce batch, .seek 9] := by
  have h : (threeNumbers.startScan .standard).run 0 = (.ok (threeNumbers.source, _), 0) := rfl
  refine ⟨_, ⟨.ofTyped [⟨"x", .long, true⟩], [Column.empty .long], 0, 2⟩, rfl, h, ?_⟩
  refine (startScan_refines threeNumbers_wellFormed rfl h fun batch hb => ?_).2.2.2
  have hbatch : batch = ⟨.ofTyped [⟨"x", .long, true⟩], [Column.empty .long], 0, 2⟩ := by
    simpa using hb
  rw [hbatch]
  exact ⟨rfl, by decide⟩

end MemoryFile

end StripeScan
