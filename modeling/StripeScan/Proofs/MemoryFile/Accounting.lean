import StripeScan.Proofs.MemoryFile.Draining
import StripeScan.Proofs.MemoryFile.Integrity
import StripeScan.Proofs.Scan.Accounting

/-! # What scans count, and that they end

The counters of production are the rows and the number of the batches that came back refilled
(`stateAfter_counts`), and a scan answers at most as often that there were rows as rows are left
(`answers_bounded`).  A whole scan with batches of one capacity counts what planning selected
(`drainWithin_counts`): what is left of each range gets smaller batch by batch (`Plan.left_split`).
-/

namespace StripeScan

/-! ### Rows left -/

namespace Plan

/-- How many rows are left of each range from a position on. -/
def left (p : Plan) (position : ℕ) : List ℕ := p.ranges.map fun r => r.stop - max position r.start

variable {p : Plan}

theorem left_zero (p : Plan) : p.left 0 = p.ranges.map fun r => r.stop - r.start := by
  simp only [left, Nat.zero_max]

section wellFormed

variable (wf : p.WellFormed)

include wf

theorem left_eq_zero {position : ℕ} (h : p.firstFrom? position = none) :
    ∀ n ∈ p.left position, n = 0 := by
  intro n hn
  obtain ⟨r, hr, rfl⟩ := List.mem_map.mp hn
  by_contra hne
  have hretains := (firstFrom?_eq_none_iff wf).mp h (max position r.start) (le_max_left _ _)
  rw [retains_iff.mpr ⟨r, hr, le_max_right _ _, by omega⟩] at hretains
  cases hretains

/-- Up to the end of its range, moving on takes rows of one range only. -/
theorem left_split {position first stop : ℕ} (h : p.firstFrom? position = some first)
    (low : first ≤ stop) (high : stop ≤ p.rangeEnd first) :
    ∃ before after, p.left position = before ++ (p.rangeEnd first - first) :: after ∧
      p.left stop = before ++ (p.rangeEnd first - stop) :: after := by
  obtain ⟨hle, hretains, hbefore⟩ := (firstFrom?_eq_some_iff wf).mp h
  obtain ⟨r, hr, hmem⟩ := List.any_eq_true.mp hretains
  rw [rangeEnd_eq wf hr hmem] at high ⊢
  rw [RowRange.contains_iff] at hmem
  obtain ⟨rs, ts, hsplit⟩ := List.append_of_mem hr
  have hascending := wf.ascending
  rw [hsplit, List.pairwise_append, List.pairwise_cons] at hascending
  obtain ⟨-, ⟨hafter, -⟩, hcross⟩ := hascending
  refine ⟨(rs.map fun t => t.stop - max position t.start),
    (ts.map fun t => t.stop - max position t.start), ?_, ?_⟩
  · have hfirst : max position r.start = first := by
      by_contra hne
      have hskipped := hbefore (max position r.start) (le_max_left _ _) (by omega)
      rw [retains_iff.mpr ⟨r, hr, le_max_right _ _, by omega⟩] at hskipped
      cases hskipped
    rw [left, hsplit, List.map_append, List.map_cons, hfirst]
  · have hold : ∀ t ∈ rs, t.stop - max stop t.start = t.stop - max position t.start := by
      intro t ht
      have hstop := hcross t ht r List.mem_cons_self
      -- A range before this one ends before the position: its rows would come first.
      by_cases hpassed : t.stop ≤ position
      · omega
      · have hbounds := (wf.bounds (hsplit ▸ List.mem_append_left _ ht)).1
        have hskipped := hbefore (max position t.start) (le_max_left _ _) (by omega)
        rw [retains_iff.mpr ⟨t, hsplit ▸ List.mem_append_left _ ht, le_max_right _ _, by omega⟩]
          at hskipped
        cases hskipped
    have hnew : ∀ t ∈ ts, t.stop - max stop t.start = t.stop - max position t.start := by
      intro t ht
      have hstart := hafter t ht
      omega
    rw [left, hsplit, List.map_append, List.map_cons, List.map_congr_left hold,
      List.map_congr_left hnew, max_eq_left (hmem.1.trans low)]

end wellFormed

end Plan

/-! ### What is seen of calls -/

/-- The number of rows that a call delivered, if it refilled a batch. -/
def Observation.delivered? (o : Observation) : Option ℕ :=
  match o.answer with
  | .produced (.ok true) rows => some rows.length
  | _ => none

namespace Scan

variable {σ : Type}

/-- The numbers of rows of the batches that calls refilled. -/
def deliveries (source : Source σ) (scan : Scan) (medium : σ) (calls : List ScanCall) : List ℕ :=
  (scan.runCalls source medium calls).filterMap Observation.delivered?

/-- The answers to refilling one batch after the other. -/
def answers (source : Source σ) : Scan → σ → List Batch → List (Except ScanError Bool)
  | _, _, [] => []
  | scan, medium, batch :: rest =>
    let o := scan.produceBatch source batch medium
    o.answer :: answers source o.scan o.medium rest

theorem deliveries_cons (source : Source σ) (scan : Scan) (medium : σ) (call : ScanCall)
    (rest : List ScanCall) :
    scan.deliveries source medium (call :: rest) =
      (scan.observe source medium call).1.delivered?.toList ++
        (scan.observe source medium call).2.1.deliveries source
          (scan.observe source medium call).2.2 rest := by
  rw [deliveries, runCalls, List.filterMap_cons]
  cases (scan.observe source medium call).1.delivered? <;> rfl

end Scan

/-- The counters after some more deliveries. -/
def Metrics.delivered (m : Metrics) (deliveries : List ℕ) : Metrics :=
  { m with
    rowsProduced := m.rowsProduced + deliveries.sum
    batchesProduced := m.batchesProduced + deliveries.length }

theorem Metrics.delivered_append (m : Metrics) (ks ls : List ℕ) :
    m.delivered (ks ++ ls) = (m.delivered ks).delivered ls := by
  unfold delivered
  rw [List.sum_append, List.length_append, ← Nat.add_assoc, ← Nat.add_assoc]

namespace MemoryFile

variable {f : MemoryFile} {scan : Scan}

/-! ### Counters -/

/-- A seek changes neither plan nor counters. -/
theorem seekTo_leaves (serves : scan.Serves f) (row : ℕ) :
    (∃ position, Leaves scan (scan.seekTo row).2 position) ∧
      (scan.seekTo row).2.metrics = scan.metrics := by
  have hexhaust := Cursor.exhaust_at (Cursor.firstFrom?_total scan.plan)
  unfold Scan.seekTo
  simp only
  split
  · exact ⟨⟨_, rfl, rfl, rfl, hexhaust⟩, rfl⟩
  · split
    · exact ⟨⟨_, rfl, rfl, rfl, hexhaust⟩, rfl⟩
    · exact ⟨⟨_, rfl, rfl, rfl, (Cursor.seek_at serves.plan scan.cursor row).1⟩, rfl⟩

section calls

variable (wf : f.WellFormed)

include wf

/-- A call counts what it delivers, and nothing else. -/
theorem observe_counts (serves : scan.Serves f) {position : ℕ}
    (hat : scan.cursor.At scan.plan position) (readings : ℕ) (call : ScanCall) :
    (∃ position', Leaves scan (scan.observe f.source readings call).2.1 position') ∧
      (scan.observe f.source readings call).2.1.metrics =
        scan.metrics.delivered (scan.observe f.source readings call).1.delivered?.toList := by
  cases call with
  | produce batch =>
      have hrefills := produceBatch_refills wf serves hat batch readings
      simp only [Scan.observe]
      generalize Scan.produceBatch f.source scan batch readings = outcome at hrefills ⊢
      cases hrefills with
      | ended none_left leaves current next state metrics => exact ⟨⟨_, leaves⟩, metrics⟩
      | failed => exact ⟨⟨position, rfl, rfl, rfl, hat⟩, rfl⟩
      | delivered left schema capacity positive rows contents leaves current next metrics =>
          refine ⟨⟨_, leaves⟩, metrics.trans ?_⟩
          simp only [Observation.delivered?, Batch.contents_length]
          rfl
  | seek row => exact seekTo_leaves serves row

/-- Any calls count what they deliver, and nothing else. -/
theorem stateAfter_counts (calls : List ScanCall) (serves : scan.Serves f) {position : ℕ}
    (hat : scan.cursor.At scan.plan position) (readings : ℕ) :
    (∃ position', Leaves scan (scan.stateAfter f.source readings calls).1 position') ∧
      (scan.stateAfter f.source readings calls).1.metrics =
        scan.metrics.delivered (scan.deliveries f.source readings calls) := by
  induction calls generalizing scan position readings with
  | nil => exact ⟨⟨position, rfl, rfl, rfl, hat⟩, rfl⟩
  | cons call rest ih =>
      obtain ⟨⟨next, hleaves⟩, hmetrics⟩ := observe_counts wf serves hat readings call
      have hat' := hleaves.at_position
      rw [← hleaves.plan] at hat'
      obtain ⟨⟨last, hrest⟩, hcounted⟩ :=
        ih (hleaves.serves serves) hat' (scan.observe f.source readings call).2.2
      refine ⟨⟨last, hrest.plan.trans hleaves.plan, hrest.columns.trans hleaves.columns,
        hrest.schema.trans hleaves.schema, hleaves.plan ▸ hrest.at_position⟩, ?_⟩
      rw [Scan.deliveries_cons, Metrics.delivered_append, ← hmetrics]
      exact hcounted

/-! ### The end of a scan -/

/-- With no row left, all answers are that there are no rows. -/
theorem answers_of_ended (batches : List Batch) (serves : scan.Serves f) {position : ℕ}
    (hat : scan.cursor.At scan.plan position) (h : scan.plan.firstFrom? position = none)
    (readings : ℕ) :
    scan.answers f.source readings batches = List.replicate batches.length (.ok false) := by
  induction batches generalizing scan position readings with
  | nil => rfl
  | cons batch rest ih =>
      have hrefills := produceBatch_refills wf serves hat batch readings
      unfold Scan.answers
      generalize Scan.produceBatch f.source scan batch readings = outcome at hrefills ⊢
      cases hrefills with
      | failed left | delivered left => cases h.symm.trans left
      | ended none_left leaves =>
          have hat' := leaves.at_position
          rw [← leaves.plan] at hat'
          have hnone := Cursor.firstFrom?_total scan.plan
          rw [← leaves.plan] at hnone
          rw [List.length_cons, List.replicate_succ]
          exact congrArg (_ :: ·) (ih (leaves.serves serves) hat' hnone _)

/-- Until no row is left a scan delivers at least one by each batch that comes back refilled, and
then it ends; if the file can be read, each batch that is made for the scan comes back refilled. -/
theorem answers_bounded (batches : List Batch) (serves : scan.Serves f) {position : ℕ}
    (hat : scan.cursor.At scan.plan position) (readings : ℕ) :
    ∃ before ended,
      scan.answers f.source readings batches = before ++ List.replicate ended (.ok false) ∧
      .ok false ∉ before ∧ before.count (.ok true) ≤ (scan.plan.rowsFrom position).length ∧
      (f.failsRows = false → (∀ b ∈ batches, scan.Fits b) → ∀ a ∈ before, a = .ok true) := by
  induction batches generalizing scan position readings with
  | nil => exact ⟨[], 0, rfl, List.not_mem_nil, Nat.zero_le _, fun _ _ a ha => (nomatch ha)⟩
  | cons batch rest ih =>
      have hrefills := produceBatch_refills wf serves hat batch readings
      cases hfirst : scan.plan.firstFrom? position with
      | none =>
          refine ⟨[], (batch :: rest).length, ?_, List.not_mem_nil, Nat.zero_le _,
            fun _ _ a ha => (nomatch ha)⟩
          rw [List.nil_append]
          exact answers_of_ended wf (batch :: rest) serves hat hfirst readings
      | some first =>
          unfold Scan.answers
          generalize Scan.produceBatch f.source scan batch readings = outcome at hrefills ⊢
          cases hrefills with
          | ended none_left => cases hfirst.symm.trans none_left
          | @failed _ readings' e left cause =>
              obtain ⟨before, ended, hanswers, hfalse, hcount, hall⟩ := ih serves hat readings'
              refine ⟨.error e :: before, ended, congrArg (_ :: ·) hanswers, ?_, ?_, ?_⟩
              · simpa using hfalse
              · rwa [List.count_cons_of_ne (by simp)]
              · exact fun reads fits => absurd (fits batch List.mem_cons_self) (cause reads)
          | @delivered _ readings' after filled left schema capacity positive rows contents
              leaves =>
              have hat' := leaves.at_position
              rw [← leaves.plan] at hat'
              cases hfirst.symm.trans left
              have hsplit := Plan.rowsFrom_eq_append serves.plan hfirst
                (Nat.le_add_right first filled.rows) (by omega)
              obtain ⟨before, ended, hanswers, hfalse, hcount, hall⟩ :=
                ih (leaves.serves serves) hat' readings'
              rw [leaves.plan] at hcount
              refine ⟨.ok true :: before, ended, congrArg (_ :: ·) hanswers, ?_, ?_, ?_⟩
              · simpa using hfalse
              · rw [List.count_cons_self, hsplit, List.length_append, List.length_range']
                omega
              · intro reads fits a ha
                rcases List.mem_cons.mp ha with rfl | ha
                · rfl
                · refine hall reads (fun b hb => ?_) a ha
                  obtain ⟨hschema, hcapacity⟩ := fits b (List.mem_cons_of_mem _ hb)
                  exact ⟨hschema.trans leaves.schema.symm, hcapacity⟩

end calls

/-! ### Whole scans -/

/-- One batch takes as many rows of those left as it has room for. -/
theorem ceilDiv_eq_succ {n capacity : ℕ} (hn : 0 < n) (hcapacity : 0 < capacity) :
    n ⌈/⌉ capacity = (n - min capacity n) ⌈/⌉ capacity + 1 := by
  rw [Nat.ceilDiv_eq_add_pred_div, Nat.ceilDiv_eq_add_pred_div]
  rcases Nat.le_total capacity n with hle | hle
  · rw [min_eq_left hle, ← Nat.add_div_right _ hcapacity]
    congr 1
    omega
  · have hfew : (n + capacity - 1) / capacity = 1 :=
      Nat.div_eq_of_lt_le (by omega) (by omega)
    have hnone : (n - n + capacity - 1) / capacity = 0 := Nat.div_eq_of_lt (by omega)
    rw [min_eq_right hle, hfew, hnone]

/-- Draining within enough steps counts the rows that are left, and of each range as many batches as
its rows fill. -/
theorem drainWithin_counts (wf : f.WellFormed) (reads : f.failsRows = false) {limit : ℕ}
    (serves : scan.Serves f) {position : ℕ} (hat : scan.cursor.At scan.plan position)
    {batch : Batch} (fits : scan.Fits batch) (enough : scan.plan.totalRows - position < limit)
    (readings : ℕ) :
    (Scan.drainWithin f.source limit scan batch readings).scan.metrics =
      { scan.metrics with
        rowsProduced := scan.metrics.rowsProduced + (scan.plan.left position).sum
        batchesProduced := scan.metrics.batchesProduced +
          ((scan.plan.left position).map (· ⌈/⌉ batch.capacity)).sum } := by
  -- On the limit, which stays above the number of rows left: a step that delivers moves on.
  induction limit generalizing scan position batch readings with
  | zero => omega
  | succ limit ih =>
      have hrefills := produceBatch_refills wf serves hat batch readings
      unfold Scan.drainWithin
      generalize Scan.produceBatch f.source scan batch readings = outcome at hrefills ⊢
      cases hrefills with
      | failed left cause => exact absurd fits (cause reads)
      | ended none_left leaves current next state metrics =>
          have hzero := Plan.left_eq_zero serves.plan none_left
          have hrows : (scan.plan.left position).sum = 0 := List.sum_eq_zero hzero
          have hbatches : ((scan.plan.left position).map (· ⌈/⌉ batch.capacity)).sum = 0 := by
            refine List.sum_eq_zero fun k hk => ?_
            obtain ⟨n, hn, rfl⟩ := List.mem_map.mp hk
            rw [hzero n hn, zero_ceilDiv]
          rw [hrows, hbatches]
          exact metrics
      | @delivered first readings' after filled left schema capacity positive rows contents
          leaves current next metrics =>
          have hat' := leaves.at_position
          rw [← leaves.plan] at hat'
          have hfits : after.Fits filled :=
            ⟨schema.trans (fits.1.trans leaves.schema.symm), capacity ▸ fits.2⟩
          have hstop : first + filled.rows ≤ scan.plan.rangeEnd first := by omega
          obtain ⟨ks, ls, hbefore, hafter⟩ := Plan.left_split serves.plan left
            (Nat.le_add_right first filled.rows) hstop
          have hfirst := ((Plan.firstFrom?_eq_some_iff serves.plan).mp left).1
          have hlt := Plan.lt_of_retains serves.plan
            ((Plan.firstFrom?_eq_some_iff serves.plan).mp left).2.1
          have hcounted := ih (leaves.serves serves) hat' hfits (by rw [leaves.plan]; omega)
            readings'
          refine hcounted.trans ?_
          have hsplit : scan.plan.rangeEnd first - (first + filled.rows) =
              scan.plan.rangeEnd first - first -
                min batch.capacity (scan.plan.rangeEnd first - first) := by
            omega
          have hbatches := ceilDiv_eq_succ
            (show 0 < scan.plan.rangeEnd first - first by omega) fits.2
          rw [← hsplit] at hbatches
          rw [metrics, leaves.plan, capacity, hbefore, hafter]
          simp only [List.map_append, List.map_cons, List.sum_append, List.sum_cons, hbatches]
          congr 1 <;> omega

/-- A scan at a position has at least the rows from its next row on left. -/
theorem rowsFrom_le_next (serves : scan.Serves f) {position : ℕ}
    (hat : scan.cursor.At scan.plan position) :
    (scan.plan.rowsFrom position).length ≤ (scan.plan.rowsFrom scan.cursor.next).length := by
  cases hfirst : scan.plan.firstFrom? position with
  | none =>
      rw [Plan.rowsFrom_eq_nil serves.plan hfirst]
      exact Nat.zero_le _
  | some first =>
      rw [Cursor.At, hfirst] at hat
      obtain ⟨-, hnext, r, hr, hmem⟩ := hat
      have hend := Plan.rangeEnd_eq serves.plan (List.mem_of_getElem? hr) hmem
      rw [RowRange.contains_iff] at hmem
      have hsplit := Plan.rowsFrom_eq_append serves.plan hfirst le_rfl (by omega)
      rw [hnext, hsplit, Nat.sub_self]
      exact le_rfl

/-- The three numbers, set to fail when they are read. -/
def unreadableNumbers : MemoryFile := { threeNumbers with failsRows := true }

end MemoryFile

end StripeScan
