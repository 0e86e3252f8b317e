import StripeScan.Proofs.Scan.Machine

/-! # What calls on a scan do

`Scan.Steps` says all that a step that succeeds can do: the scan had ended, nothing was left, or the
rows that come next in the range of the cursor were read.  What holds after every step is proved
from these three cases, and with seeking so is what holds after every call, whatever the source
answers and however the call ends (`Scan.Kept`).

`Scan.OnPlan` is kept: the plan is well formed, and the cursor stands at a position of it. -/

namespace StripeScan

namespace Scan

variable {σ : Type} {source : Source σ} {scan : Scan} {batch : Batch} {medium medium' : σ}

/-- The scan after a batch of so many rows. -/
def past (scan : Scan) (count : ℕ) : Scan :=
  { scan with
    cursor := scan.cursor.advance scan.plan scan.cursor.next count
    metrics :=
      { scan.metrics with
        rowsProduced := scan.metrics.rowsProduced + count
        batchesProduced := scan.metrics.batchesProduced + 1 } }

/-- What a step that succeeds leaves, and why. -/
inductive Steps (source : Source σ) (scan : Scan) (batch : Batch) (medium : σ) : Step → σ → Prop
  | ended (exhausted : scan.cursor.state = .exhausted) :
      Steps source scan batch medium ⟨false, scan, batch.clear⟩ medium
  | finished (going : scan.cursor.state ≠ .exhausted)
      (beyond : scan.plan.ranges[scan.cursor.rangeIndex]? = none) :
      Steps source scan batch medium (scan.finish batch) medium
  | delivered {range : RowRange} {stripe : Stripe} {rows filled : Batch} {count : ℕ} {medium' : σ}
      (going : scan.cursor.state ≠ .exhausted)
      (range_eq : scan.plan.ranges[scan.cursor.rangeIndex]? = some range)
      (stripe_eq : scan.plan.stripes[range.stripe]? = some stripe)
      (count_eq : count = min batch.capacity (Word.sub range.stop scan.cursor.next))
      (read : (readRows source scan stripe scan.cursor.next count).run medium = (.ok rows, medium'))
      (fill : batch.fillFrom rows = .ok filled) :
      Steps source scan batch medium ⟨true, scan.past count, filled⟩ medium'

theorem steps_of_run {after : Step}
    (h : (step source scan batch).run medium = (.ok after, medium')) :
    Steps source scan batch medium after medium' := by
  unfold step at h
  split at h
  · rename_i hexhausted
    obtain ⟨rfl, rfl⟩ := Access.run_pure_eq_ok_iff.mp h
    exact .ended (Cursor.isExhausted_iff.mp hexhausted)
  · rename_i hgoing
    rw [Cursor.isExhausted_iff] at hgoing
    split at h
    · rename_i hnone
      obtain ⟨rfl, rfl⟩ := Access.run_pure_eq_ok_iff.mp h
      exact .finished hgoing hnone
    · rename_i hrange
      split at h
      · cases h
      · rename_i hstripe
        obtain ⟨rows, t, hrows, h⟩ := Access.run_bind_eq_ok_iff.mp h
        obtain ⟨filled, t', hfill, h⟩ := Access.run_bind_eq_ok_iff.mp h
        obtain ⟨rfl, rfl⟩ := Access.run_pure_eq_ok_iff.mp h
        rw [Access.run_ofExcept, Prod.mk.injEq] at hfill
        obtain ⟨hfill, rfl⟩ := hfill
        exact .delivered hgoing hrange hstripe rfl hrows hfill

/-! ### What calls keep -/

/-- Whether something that holds of a scan holds after every call: it is kept by ending the scan, by
passing rows of the range of the cursor, and by seeking. -/
structure Kept (P : Scan → Prop) : Prop where
  exhaust {scan : Scan} : P scan → P { scan with cursor := .exhaust scan.plan }
  past {scan : Scan} {range : RowRange} {count : ℕ} : P scan → scan.cursor.state ≠ .exhausted →
    scan.plan.ranges[scan.cursor.rangeIndex]? = some range →
    count ≤ Word.sub range.stop scan.cursor.next → P (scan.past count)
  seek {scan : Scan} (row : ℕ) : P scan →
    P { scan with cursor := scan.cursor.seek scan.plan row }

namespace Kept

variable {P : Scan → Prop} (kept : Kept P)

include kept

theorem step (h : P scan) {after : Step} (steps : Steps source scan batch medium after medium') :
    P after.scan := by
  cases steps with
  | ended => exact h
  | finished => exact kept.exhaust h
  | delivered going range_eq _ count_eq =>
      exact kept.past h going range_eq (count_eq.trans_le (min_le_right _ _))

theorem produceBatch (h : P scan) (source : Source σ) (batch : Batch) (medium : σ) :
    P (produceBatch source scan batch medium).scan := by
  rcases hstep : (Scan.step source scan batch).run medium with ⟨e | after, medium'⟩
  · rw [produceBatch_of_error hstep]
    exact h
  · rw [produceBatch_of_step hstep]
    exact kept.step h (steps_of_run hstep)

theorem seekTo (h : P scan) (row : ℕ) : P (scan.seekTo row).2 := by
  unfold Scan.seekTo
  simp only
  split
  · exact kept.exhaust h
  · split
    · exact kept.exhaust h
    · exact kept.seek row h

theorem observe (h : P scan) (source : Source σ) (medium : σ) (call : ScanCall) :
    P (scan.observe source medium call).2.1 := by
  cases call with
  | produce batch => exact kept.produceBatch h source batch medium
  | seek row => exact kept.seekTo h row

theorem stateAfter (h : P scan) (source : Source σ) (medium : σ) (calls : List ScanCall) :
    P (stateAfter source scan medium calls).1 := by
  induction calls generalizing scan medium with
  | nil => exact h
  | cons call rest ih => exact ih (kept.observe h source medium call) _

end Kept

/-- Whether a scan has a plan like those that are made, and stands at a position of it. -/
structure OnPlan (scan : Scan) : Prop where
  plan : scan.plan.WellFormed
  position : ∃ position, scan.cursor.At scan.plan position

theorem start_onPlan {options : ScanOptions}
    (h : (start source options).run medium = (.ok scan, medium')) (fits : scan.plan.Fits) :
    scan.OnPlan := by
  obtain ⟨-, argument, -, -, hplan, -, hcursor⟩ := run_start_eq_ok_iff.mp h
  have wf := Plan.wellFormed_of_build hplan fits
  exact ⟨wf, 0, hcursor ▸ (Cursor.start_at wf).1⟩

namespace OnPlan

/-- The row that comes next lies in the range of the cursor, as long as there is one. -/
theorem contains (h : scan.OnPlan) {range : RowRange} (going : scan.cursor.state ≠ .exhausted)
    (hrange : scan.plan.ranges[scan.cursor.rangeIndex]? = some range) :
    range.contains scan.cursor.next = true := by
  obtain ⟨position, hat⟩ := h.position
  unfold Cursor.At at hat
  split at hat
  · obtain ⟨-, rfl, r, hr, hcontains⟩ := hat
    rw [hrange, Option.some.injEq] at hr
    exact hr ▸ hcontains
  · rcases hat with ⟨hexhausted, -⟩ | ⟨-, hnone⟩
    · exact absurd hexhausted going
    · rw [hrange] at hnone
      cases hnone

/-- The rows that are left in the range of the cursor are counted without overflow. -/
theorem left_eq (h : scan.OnPlan) {range : RowRange} (going : scan.cursor.state ≠ .exhausted)
    (hrange : scan.plan.ranges[scan.cursor.rangeIndex]? = some range) :
    scan.cursor.next < range.stop ∧ range.stop < UInt64.size ∧
      Word.sub range.stop scan.cursor.next = range.stop - scan.cursor.next := by
  have hcontains := RowRange.contains_iff.mp (h.contains going hrange)
  have hstop := h.plan.stop_lt (List.mem_of_getElem? hrange)
  exact ⟨hcontains.2, hstop, Word.sub_eq hcontains.2.le hstop⟩

theorem kept : Kept OnPlan where
  exhaust h := ⟨h.plan, _, Cursor.exhaust_at (Cursor.firstFrom?_total _)⟩
  past h going hrange hcount := by
    obtain ⟨hlt, hstop, hleft⟩ := h.left_eq going hrange
    rw [hleft] at hcount
    exact ⟨h.plan, _, (Cursor.advance_at h.plan _ (by omega)).1⟩
  seek row h := ⟨h.plan, row, (Cursor.seek_at h.plan _ row).1⟩

theorem stateAfter (h : scan.OnPlan) (source : Source σ) (medium : σ) (calls : List ScanCall) :
    (stateAfter source scan medium calls).1.OnPlan :=
  kept.stateAfter h source medium calls

end OnPlan

end Scan

end StripeScan
