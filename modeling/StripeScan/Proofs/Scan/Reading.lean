import StripeScan.Proofs.Batch
import StripeScan.Proofs.Scan.Layout
import StripeScan.Scan.Basic

/-! # Cutting rows into pieces

A step reads its rows row group by row group.  The pieces lie in consecutive places of the stripe,
none is empty, and together they make up the rows that are wanted (`Scan.pieces_rows`).  Each lies
in one row group, and the row groups ascend (`Scan.pieces_ascend`). -/

namespace StripeScan

namespace Stripe.Fits

variable {s : Stripe} {stride : ℕ} (fits : s.Fits stride)

include fits

theorem groupBounds_fst {group : ℕ} (h : group < s.groups) :
    (s.groupBounds stride group).1 = group * stride := by
  rw [fits.groupBounds_eq h]

theorem groupBounds_mono {a b : ℕ} (h : a ≤ b) (hb : b < s.groups) :
    (s.groupBounds stride a).1 ≤ (s.groupBounds stride b).1 ∧
      (s.groupBounds stride a).2 ≤ (s.groupBounds stride b).2 := by
  have := Nat.mul_le_mul_right stride h
  rw [fits.groupBounds_eq (h.trans_lt hb), fits.groupBounds_eq hb]
  split
  · exact ⟨this, le_rfl⟩
  · simp only
    omega

/-- As many pieces as there are words suffice, wherever they begin. -/
theorem le_limit {stop row : ℕ} (high : stop ≤ s.stop) : stop ≤ row + UInt64.size :=
  (high.trans fits.stop_lt.le).trans (Nat.le_add_left _ _)

variable {row : ℕ} (low : s.firstRow ≤ row) (high : row < s.stop)

include low high

/-- The place of a row's group and the offset in it make up the place of the row. -/
theorem groupOf_place :
    (s.groupOf stride row).1 * stride + (s.groupOf stride row).2 = row - s.firstRow := by
  rw [fits.groupOf_eq low high]
  split
  · rename_i hzero
    rw [hzero, Nat.mul_zero, Nat.zero_add]
  · exact Nat.div_add_mod' _ _

/-- A row lies before the end of its group. -/
theorem lt_groupEnd : row < s.firstRow + (s.groupBounds stride (s.groupOf stride row).1).2 :=
  ((fits.groupOf_mem_iff (fits.groupOf_lt low high) le_rfl low high).mpr ⟨le_rfl, le_rfl⟩).2

end Stripe.Fits

namespace Scan

/-- Where the rows of a piece lie in their stripe. -/
def Piece.place (p : Piece) (stride : ℕ) : ℕ × ℕ := (p.group * stride + p.offset, p.count)

/-- The piece that begins at a row: what is left of its row group, up to `stop`. -/
def pieceAt (s : Stripe) (stride stop row : ℕ) : Piece :=
  ⟨(s.groupOf stride row).1, (s.groupOf stride row).2,
    min (s.firstRow + (s.groupBounds stride (s.groupOf stride row).1).2) stop - row⟩

section fits

variable {s : Stripe} {stride stop : ℕ} (fits : s.Fits stride) (high : stop ≤ s.stop)

theorem pieces_of_le {limit row : ℕ} (h : stop ≤ row) : pieces s stride stop limit row = [] := by
  cases limit with
  | zero => rfl
  | succ limit => rw [pieces, if_pos h]

theorem exists_piece {row : ℕ} (h : row < stop) :
    ∃ p rest, pieces s stride stop UInt64.size row = p :: rest := by
  rw [show UInt64.size = 18446744073709551615 + 1 from rfl, pieces, if_neg (not_le.mpr h)]
  exact ⟨_, _, rfl⟩

include fits high

/-- A piece that begins before `stop` has rows, and ends no later. -/
theorem pieceAt_count {row : ℕ} (low : s.firstRow ≤ row) (h : row < stop) :
    0 < (pieceAt s stride stop row).count ∧ row + (pieceAt s stride stop row).count ≤ stop := by
  have hend := fits.lt_groupEnd low (h.trans_le high)
  simp only [pieceAt]
  omega

/-- Counting the rows of a piece does not overflow. -/
theorem pieceAt_count_eq {row : ℕ} (low : s.firstRow ≤ row) (h : row < stop) :
    Word.sub (min (Word.add s.firstRow (s.groupBounds stride (s.groupOf stride row).1).2) stop)
      row = (pieceAt s stride stop row).count := by
  have hrow := h.trans_le high
  have hgroup := (fits.groupBounds_lt (fits.groupOf_lt low hrow) le_rfl).2
  have hend := fits.lt_groupEnd low hrow
  have hstop := fits.stop_lt
  rw [fits.add_eq hgroup, Word.sub_eq (by omega) (by omega)]
  rfl

theorem pieces_succ {limit row : ℕ} (low : s.firstRow ≤ row) (h : row < stop) :
    pieces s stride stop (limit + 1) row = pieceAt s stride stop row ::
      pieces s stride stop limit (row + (pieceAt s stride stop row).count) := by
  have hstop := fits.stop_lt
  have hcount := (pieceAt_count fits high low h).2
  rw [pieces, if_neg (not_le.mpr h)]
  simp only
  rw [pieceAt_count_eq fits high low h, Word.add_eq (by omega)]
  rfl

theorem mem_pieces {limit row : ℕ} (low : s.firstRow ≤ row) {p : Piece}
    (h : p ∈ pieces s stride stop limit row) :
    ∃ start, row ≤ start ∧ start < stop ∧ p = pieceAt s stride stop start := by
  induction limit generalizing row with
  | zero => cases h
  | succ limit ih =>
      rcases Nat.lt_or_ge row stop with hlt | hge
      · rw [pieces_succ fits high low hlt] at h
        rcases List.mem_cons.mp h with rfl | h
        · exact ⟨row, le_rfl, hlt, rfl⟩
        · obtain ⟨start, hle, hstart, rfl⟩ := ih (by omega) h
          exact ⟨start, by omega, hstart, rfl⟩
      · rw [pieces_of_le hge] at h
        cases h

theorem pieces_spans {limit row : ℕ} (low : s.firstRow ≤ row) (enough : stop ≤ row + limit) :
    ∃ lengths : List ℕ, lengths.sum = stop - row ∧ (∀ n ∈ lengths, 0 < n) ∧
      (pieces s stride stop limit row).map (·.place stride) = spans (row - s.firstRow) lengths := by
  induction limit generalizing row with
  | zero => exact ⟨[], by rw [List.sum_nil]; omega, by simp, rfl⟩
  | succ limit ih =>
      rcases Nat.lt_or_ge row stop with hlt | hge
      · have hplace := fits.groupOf_place low (hlt.trans_le high)
        obtain ⟨hpos, hle⟩ := pieceAt_count fits high low hlt
        rw [pieces_succ fits high low hlt]
        generalize hcount : (pieceAt s stride stop row).count = count at hpos hle
        obtain ⟨lengths, hsum, hall, hspans⟩ := @ih (row + count) (by omega) (by omega)
        refine ⟨count :: lengths, ?_, ?_, ?_⟩
        · rw [List.sum_cons]
          omega
        · intro n hn
          rcases List.mem_cons.mp hn with rfl | hn
          · exact hpos
          · exact hall n hn
        · rw [List.map_cons, hspans, spans, Piece.place, hcount]
          simp only [pieceAt]
          rw [hplace]
          congr 2
          omega
      · rw [pieces_of_le hge]
        exact ⟨[], by rw [List.sum_nil]; omega, by simp, rfl⟩

/-- No row group is read twice. -/
theorem pieces_ascend {limit row : ℕ} (low : s.firstRow ≤ row) :
    (pieces s stride stop limit row).Pairwise fun p q => p.group < q.group := by
  induction limit generalizing row with
  | zero => exact .nil
  | succ limit ih =>
      rcases Nat.lt_or_ge row stop with hlt | hge
      · rw [pieces_succ fits high low hlt]
        refine .cons (fun q hq => ?_) (ih (by omega))
        obtain ⟨start, hle, hstart, rfl⟩ := mem_pieces fits high (by omega) hq
        -- What begins later begins behind the row group of this row.
        have hbehind : s.firstRow + (s.groupBounds stride (s.groupOf stride row).1).2 ≤ start := by
          simp only [pieceAt] at hle
          omega
        by_contra hgroup
        have hbefore := (fits.groupOf_mem_iff (fits.groupOf_lt low (by omega))
          (Nat.zero_le _) (show s.firstRow ≤ start by omega) (show start < s.stop by omega)).mpr
          ⟨Nat.zero_le _, not_lt.mp hgroup⟩
        omega
      · rw [pieces_of_le hge]
        exact .nil

theorem sum_counts {limit row : ℕ} (low : s.firstRow ≤ row) (enough : stop ≤ row + limit) :
    ((pieces s stride stop limit row).map Piece.count).sum = stop - row := by
  obtain ⟨lengths, hsum, -, hspans⟩ := pieces_spans fits high low enough
  have hcounts := congrArg (List.map Prod.snd) hspans
  rw [List.map_map, map_snd_spans] at hcounts
  rw [← hsum, ← hcounts]
  rfl

/-- The rows of the pieces are those that are wanted, in ascending order. -/
theorem pieces_rows {limit row : ℕ} (low : s.firstRow ≤ row) (enough : stop ≤ row + limit) :
    (pieces s stride stop limit row).flatMap (fun p =>
        List.range' (s.firstRow + ((s.groupBounds stride p.group).1 + p.offset)) p.count) =
      List.range' row (stop - row) := by
  obtain ⟨lengths, hsum, -, hspans⟩ := pieces_spans fits high low enough
  have hrows := flatMap_spans s.firstRow (row - s.firstRow) lengths
  rw [← hspans, List.flatMap_map, hsum, Nat.add_sub_cancel' low] at hrows
  rw [← hrows]
  refine List.flatMap_congr fun p hp => ?_
  obtain ⟨start, hle, hlt, rfl⟩ := mem_pieces fits high low hp
  have hfirst : (s.groupBounds stride (pieceAt s stride stop start).group).1 = _ :=
    fits.groupBounds_fst (fits.groupOf_lt (low.trans hle) (hlt.trans_le high))
  rw [hfirst]
  rfl

end fits

/-- A piece of a range has rows, and it lies in a row group that lies in the range. -/
theorem pieceAt_bounds {s : Stripe} {stride stop row last : ℕ} {r : RowRange} (fits : s.Fits stride)
    (spans : r.Spans s stride last) (low : r.start ≤ row) (hrow : row < stop)
    (high : stop ≤ r.stop) :
    let p := pieceAt s stride stop row
    let bounds := s.groupBounds stride p.group
    p.group < s.groups ∧ r.start ≤ s.firstRow + bounds.1 ∧ s.firstRow + bounds.2 ≤ r.stop ∧
      0 < p.count ∧ p.offset + p.count ≤ bounds.2 - bounds.1 := by
  obtain ⟨hfirst, -, hend⟩ := spans.bounds fits
  have hstart := spans.start
  have hstop := spans.stop
  have low' : s.firstRow ≤ row := by omega
  have high' : row < s.stop := by omega
  obtain ⟨hgroup, hgroup'⟩ := (fits.groupOf_mem_iff spans.last_lt spans.first_le low' high').mp
    ⟨by omega, by omega⟩
  have hlt := fits.groupOf_lt low' high'
  have hplace := fits.groupOf_place low' high'
  rw [← fits.groupBounds_fst hlt] at hplace
  have hbehind := fits.lt_groupEnd low' high'
  have hmono := (fits.groupBounds_mono hgroup hlt).1
  have hmono' := (fits.groupBounds_mono hgroup' spans.last_lt).2
  simp only [pieceAt]
  exact ⟨hlt, by omega, by omega, by omega, by omega⟩

end Scan

end StripeScan
