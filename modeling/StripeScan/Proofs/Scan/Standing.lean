import StripeScan.Proofs.Batch.Joining
import StripeScan.Proofs.Scan.Reading

/-! # Where cursors stand

A cursor stands at the end of the file, before a row of a range, or behind the last range
(`Cursor.Stands`).  Starting, advancing and seeking maintain its fields one by one; together they
always put it in exactly one of these places, whatever is called and however the calls end
(`Scan.stateAfter_standing`).

Counting rows adds and subtracts row numbers without a check.  Before a row of a range of a plan
that does not overflow this is sound: rows are left in the range, and no row comes before its stripe
or behind its piece, so nothing wraps around (`Scan.Sound`). -/

namespace StripeScan

/-- Places where a cursor stands. -/
inductive Standing where
  | ended
  | inside (range : RowRange) (stripe : Stripe)
  | behind

namespace Cursor

/-- A cursor at the end of the file. -/
structure Ended (c : Cursor) (plan : Plan) : Prop where
  state : c.state = .exhausted
  current : c.current = plan.totalRows
  next : c.next = plan.totalRows
  stripe : c.stripe = none
  group : c.group = none

/-- A cursor before a row of a range. -/
structure Inside (c : Cursor) (plan : Plan) (range : RowRange) (s : Stripe) : Prop where
  going : c.state ≠ .exhausted
  range_eq : plan.ranges[c.rangeIndex]? = some range
  stripe_eq : plan.stripes[range.stripe]? = some s
  firstRow_le : s.firstRow ≤ range.start
  start_le : range.start ≤ c.next
  lt_stop : c.next < range.stop
  stripe : c.stripe = some range.stripe
  group : c.group = some (s.groupOf plan.stride c.next).1

/-- A cursor behind the last range. -/
structure Behind (c : Cursor) (plan : Plan) : Prop where
  state : c.state = .scanning
  rangeIndex : c.rangeIndex = plan.ranges.length
  next : plan.ranges.getLast?.map RowRange.stop = some c.next
  stripe : c.stripe = none
  group : c.group = none

/-- Whether a cursor stands at a place. -/
def Stands (c : Cursor) (plan : Plan) : Standing → Prop
  | .ended => c.Ended plan
  | .inside range s => c.Inside plan range s
  | .behind => c.Behind plan

variable {c d : Cursor} {plan : Plan}

/-- No cursor stands at two places. -/
theorem Stands.unique {a b : Standing} (ha : c.Stands plan a) (hb : c.Stands plan b) : a = b := by
  cases a with
  | ended =>
      cases b with
      | ended => rfl
      | inside range s => exact absurd ha.state hb.going
      | behind => exact absurd (ha.state.symm.trans hb.state) (by decide)
  | inside range s =>
      cases b with
      | ended => exact absurd hb.state ha.going
      | inside range' s' =>
          obtain rfl : range = range' := Option.some.inj (ha.range_eq.symm.trans hb.range_eq)
          obtain rfl : s = s' := Option.some.inj (ha.stripe_eq.symm.trans hb.stripe_eq)
          rfl
      | behind =>
          have hrange := ha.range_eq
          rw [hb.rangeIndex, List.getElem?_eq_none le_rfl] at hrange
          cases hrange
  | behind =>
      cases b with
      | ended => exact absurd (ha.state.symm.trans hb.state) (by decide)
      | inside range s =>
          have hrange := hb.range_eq
          rw [ha.rangeIndex, List.getElem?_eq_none le_rfl] at hrange
          cases hrange
      | behind => rfl

/-! ### What puts a cursor where -/

theorem exhaust_ended (plan : Plan) : (exhaust plan).Ended plan := ⟨rfl, rfl, rfl, rfl, rfl⟩

section wellFormed

variable (wf : plan.WellFormed)

include wf

/-- Settling keeps the state of a cursor and puts it before a row of a range, in whatever state it
goes on. -/
theorem settle?_inside {row : ℕ} (h : c.settle? plan row = some d) :
    d.state = c.state ∧ ∃ range s, ∀ state current, state ≠ .exhausted →
      Inside { d with state := state, current := current } plan range s := by
  obtain ⟨i, hlocate, h⟩ := Option.bind_eq_some_iff.mp h
  obtain ⟨range, hrange, h⟩ := Option.bind_eq_some_iff.mp h
  cases h
  obtain ⟨_, hr, hcontains, -⟩ := Plan.firstFrom?_of_locate wf hlocate
  rw [hrange, Option.some.injEq] at hr
  subst hr
  rw [RowRange.contains_iff] at hcontains
  obtain ⟨s, last, hs, hspans⟩ := wf.ranges range (List.mem_of_getElem? hrange)
  have hbounds := hspans.bounds (wf.fits s (List.mem_of_getElem? hs))
  refine ⟨rfl, range, s, fun state current going => ?_⟩
  exact ⟨going, hrange, hs, hbounds.1, hcontains.1, hcontains.2, rfl, congrArg (Option.map _) hs⟩

theorem locate_of_settle?_none {row : ℕ} (h : c.settle? plan row = none) :
    plan.locate row = none := by
  cases hlocate : plan.locate row with
  | none => rfl
  | some i =>
      obtain ⟨range, hrange, -⟩ := Plan.firstFrom?_of_locate wf hlocate
      rw [settle?, hlocate, Option.bind_eq_bind, Option.bind_some, hrange] at h
      cases h

/-- No range ends after the last one. -/
theorem stop_le_getLast {range last : RowRange} (hrange : range ∈ plan.ranges)
    (hlast : plan.ranges.getLast? = some last) : range.stop ≤ last.stop := by
  obtain ⟨front, hfront⟩ := List.getLast?_eq_some_iff.mp hlast
  rw [hfront, List.mem_append, List.mem_singleton] at hrange
  rcases hrange with hrange | rfl
  · have hpairs := hfront ▸ wf.ascending
    have hle := (List.pairwise_append.mp hpairs).2.2 range hrange last (List.mem_singleton.mpr rfl)
    have hlt := (wf.bounds (List.mem_of_getLast? hlast)).1
    omega
  · exact le_rfl

/-- Where no range ends after a row and one ends there or later, the last range ends there. -/
theorem getLast_of_locate_none {range : RowRange} (hrange : range ∈ plan.ranges) {row : ℕ}
    (hle : row ≤ range.stop) (h : plan.locate row = none) :
    plan.ranges.getLast?.map RowRange.stop = some row := by
  have hlast := List.getLast?_eq_some_getLast (List.ne_nil_of_mem hrange)
  generalize plan.ranges.getLast _ = last at hlast
  have hstop := of_decide_eq_false
    (List.findIdx?_eq_none_iff.mp h last (List.mem_of_getLast? hlast))
  have hrow := stop_le_getLast wf hrange hlast
  rw [hlast, Option.map_some, Option.some.injEq]
  omega

theorem start_stands : ∃ standing, (start plan).Stands plan standing := by
  unfold start
  split
  · rename_i d hsettle
    obtain ⟨hstate, range, s, inside⟩ := settle?_inside wf hsettle
    refine ⟨.inside range s, inside d.state d.next ?_⟩
    rw [hstate]
    decide
  · exact ⟨.ended, exhaust_ended plan⟩

theorem seek_stands (c : Cursor) (target : ℕ) :
    ∃ standing, (c.seek plan target).Stands plan standing := by
  unfold seek
  split
  · rename_i d hsettle
    obtain ⟨-, range, s, inside⟩ := settle?_inside wf hsettle
    refine ⟨.inside range s, inside (if d.state = .exhausted then .scanning else d.state) d.next ?_⟩
    split
    · decide
    · assumption
  · exact ⟨.ended, exhaust_ended plan⟩

/-- Rows of the range of a cursor lead to a later row of a range, or behind the last range. -/
theorem advance_stands {range : RowRange} (hrange : range ∈ plan.ranges) (c : Cursor)
    {first rows : ℕ} (hle : first + rows ≤ range.stop) :
    ∃ standing, (c.advance plan first rows).Stands plan standing := by
  unfold advance
  rw [Word.add_eq (hle.trans_lt (wf.stop_lt hrange))]
  simp only
  cases hsettle : settle? { c with state := .scanning, current := first } plan (first + rows) with
  | some d =>
      obtain ⟨hstate, range, s, inside⟩ := settle?_inside wf hsettle
      refine ⟨.inside range s, inside d.state d.current ?_⟩
      rw [hstate]
      exact ScanState.noConfusion
  | none =>
      have hlast := getLast_of_locate_none wf hrange hle (locate_of_settle?_none wf hsettle)
      exact ⟨.behind, rfl, rfl, hlast, rfl, rfl⟩

end wellFormed

end Cursor

/-! ### Joined rows -/

/-- Joining never adds rows. -/
theorem Batch.rows_le_of_concat {parts : List Batch} {whole : Batch}
    (consistent : ∀ d ∈ parts, d.Consistent) (h : concat parts = .ok whole) :
    whole.rows ≤ (parts.map rows).sum := by
  by_cases hcolumns : whole.columns = []
  · by_cases hone : parts.length = 1
    · obtain ⟨d, rfl⟩ := List.length_eq_one_iff.mp hone
      cases h
      exact le_of_eq List.sum_singleton.symm
    · rw [rows_of_no_columns h hone hcolumns]
      exact Nat.zero_le _
  · exact (rows_of_columns consistent h hcolumns).le

namespace Scan

variable {σ : Type} {source : Source σ} {scan : Scan}

theorem keepColumns_rows {columns : Option (List ℕ)} {whole rows : Batch}
    (h : keepColumns columns whole = .ok rows) : rows.rows = whole.rows := by
  cases columns with
  | none =>
      cases h
      rfl
  | some ordinals => exact (Batch.project_eq_ok h).2.2.1

/-- Rows that are read are not more than are asked for. -/
theorem rows_le_of_readRows (delivers : ∀ stripe group offset count s part s',
      (source.rows stripe group offset count).run s = (.ok part, s') → part.Consistent)
    {stripe : Stripe} (fits : stripe.Fits scan.plan.stride) {start count : ℕ}
    (low : stripe.firstRow ≤ start) (high : start + count ≤ stripe.stop) {rows : Batch}
    {s s' : σ} (h : (readRows source scan stripe start count).run s = (.ok rows, s')) :
    rows.rows ≤ count := by
  obtain ⟨parts, whole, hparts, hwhole, hkeep⟩ := run_readRows_eq_ok h
  have consistent : ∀ d ∈ parts, d.Consistent := Access.run_mapM_forall hparts
    fun _ _ _ _ hpart => delivers _ _ _ _ _ _ _ (run_readPiece_eq_ok hpart).1
  have hcounts : (pieces stripe scan.plan.stride (Word.add start count) UInt64.size start).map
      Piece.count = parts.map Batch.rows := by
    rw [← List.forall₂_eq_eq_eq, List.forall₂_map_left_iff, List.forall₂_map_right_iff]
    exact Access.run_mapM_forall₂ hparts fun _ _ _ _ hpart => (run_readPiece_eq_ok hpart).2.symm
  have hsum := sum_counts fits high low (fits.le_limit high)
  rw [Word.add_eq (high.trans_lt fits.stop_lt)] at hcounts
  rw [hcounts, Nat.add_sub_cancel_left] at hsum
  rw [keepColumns_rows hkeep, ← hsum]
  exact Batch.rows_le_of_concat consistent hwhole

/-! ### Steps -/

/-- Whether the rows that a step reads are counted soundly: the stripe of the range is there, rows
are left in the range and fit into the batch, and each row where a piece may begin lies in the
stripe and before the end of the piece.  None of the numbers wraps around.  Whatever is read from
batches of some origin fits. -/
structure Sound (source : Source σ) (scan : Scan) (batch : Batch) (range : RowRange)
    (stripe : Stripe) (count : ℕ) : Prop where
  step_eq : step source scan batch = deliver source scan batch range stripe
  left : scan.cursor.next < range.stop
  left_eq : Word.sub range.stop scan.cursor.next = range.stop - scan.cursor.next
  count_eq : count = min batch.capacity (range.stop - scan.cursor.next)
  positive : 0 < count
  stop_eq : Word.add scan.cursor.next count = scan.cursor.next + count
  low : ∀ row, scan.cursor.next ≤ row → row < scan.cursor.next + count →
    stripe.firstRow ≤ row ∧ Word.sub row stripe.firstRow = row - stripe.firstRow
  piece : ∀ row, scan.cursor.next ≤ row → row < scan.cursor.next + count →
    let piece := pieceAt stripe scan.plan.stride (scan.cursor.next + count) row
    0 < piece.count ∧ Word.sub (min (Word.add stripe.firstRow
      (stripe.groupBounds scan.plan.stride piece.group).2) (scan.cursor.next + count)) row =
        piece.count ∧ Word.add row piece.count = row + piece.count
  fits : (∀ stripe group offset count s part s',
      (source.rows stripe group offset count).run s = (.ok part, s') → part.Made) →
    ∀ s rows s', (readRows source scan stripe scan.cursor.next count).run s = (.ok rows, s') →
      rows.rows ≤ batch.capacity

theorem sound_of_inside (wf : scan.plan.WellFormed) {range : RowRange} {stripe : Stripe}
    (inside : scan.cursor.Inside scan.plan range stripe) (source : Source σ) {batch : Batch}
    (made : batch.Made) : ∃ count, Sound source scan batch range stripe count := by
  have hroom := made.consistent.room
  have hfirst := inside.firstRow_le
  have hstart := inside.start_le
  have hlt := inside.lt_stop
  have fits := wf.fits stripe (List.mem_of_getElem? inside.stripe_eq)
  have hword := fits.stop_lt
  obtain ⟨last, hspans⟩ :=
    wf.exists_spans (List.mem_of_getElem? inside.range_eq) inside.stripe_eq
  have hbounds := hspans.bounds fits
  generalize hcount : min batch.capacity (range.stop - scan.cursor.next) = count
  have low : stripe.firstRow ≤ scan.cursor.next := by omega
  have high : scan.cursor.next + count ≤ stripe.stop := by omega
  refine ⟨count, ?_⟩
  constructor
  case step_eq => exact step_of_range inside.going inside.range_eq inside.stripe_eq batch
  case left => exact hlt
  case left_eq => exact Word.sub_eq hlt.le (by omega)
  case count_eq => exact hcount.symm
  case positive => omega
  case stop_eq => exact Word.add_eq (by omega)
  case low => exact fun row hrow hstop => ⟨by omega, Word.sub_eq (by omega) (by omega)⟩
  case piece =>
    intro row hrow hstop
    obtain ⟨hpositive, hle⟩ := pieceAt_count fits high (low.trans hrow) hstop
    exact ⟨hpositive, pieceAt_count_eq fits high (low.trans hrow) hstop, Word.add_eq (by omega)⟩
  case fits =>
    intro delivers s rows s' hrows
    have hmade : rows.rows ≤ count := rows_le_of_readRows
      (fun _ _ _ _ _ _ _ h => (delivers _ _ _ _ _ _ _ h).consistent) fits low high hrows
    omega

/-! ### Scans -/

/-- Whether a scan has a plan and its cursor stands somewhere in it. -/
structure Placed (plan : Plan) (scan : Scan) : Prop where
  plan_eq : scan.plan = plan
  stands : ∃ standing, scan.cursor.Stands plan standing

/-- All calls put the cursor where it may stand. -/
theorem placed_kept {plan : Plan} (wf : plan.WellFormed) : Kept (Placed plan) where
  exhaust h := ⟨h.plan_eq, .ended, h.plan_eq ▸ Cursor.exhaust_ended _⟩
  seek row h := ⟨h.plan_eq, h.plan_eq ▸ Cursor.seek_stands (h.plan_eq ▸ wf) _ row⟩
  past h going hrange hcount := by
    obtain ⟨rfl, standing, hstands⟩ := h
    cases standing with
    | ended => exact absurd hstands.state going
    | inside range' s =>
        rw [hstands.range_eq, Option.some.injEq] at hrange
        subst hrange
        have hlt := hstands.lt_stop
        have hmem := List.mem_of_getElem? hstands.range_eq
        rw [Word.sub_eq hlt.le (wf.stop_lt hmem)] at hcount
        exact ⟨rfl, Cursor.advance_stands wf hmem _ (by omega)⟩
    | behind =>
        rw [hstands.rangeIndex, List.getElem?_eq_none le_rfl] at hrange
        cases hrange

open Batch (threeLongs threeLongsSource threeLongsScan fourEmpty)

end Scan

end StripeScan
