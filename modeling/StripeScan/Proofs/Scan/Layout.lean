import Mathlib
import StripeScan.Scan.Layout

/-! # Layout of stripes, row groups and kept ranges

The stripes of a layout follow each other without gap or overlap (`Stripe.layout_tiles`).  Within a
stripe the bounds of the row groups agree with the group that holds a row, so the range made from a
run of groups holds exactly the rows of those groups (`Stripe.mem_keptRanges_iff`).  Runs of kept
groups are maximal: between two of them lies a group that is not kept. -/

namespace StripeScan

/-! ### Runs -/

theorem runs_bounds (flags : List Bool) (first : ℕ) :
    ∀ r ∈ runs first flags, first ≤ r.1 ∧ r.1 < r.2 ∧ r.2 ≤ first + flags.length := by
  induction flags generalizing first with
  | nil => intro r hr; cases hr
  | cons flag rest ih =>
      intro r hr
      rw [List.length_cons]
      cases flag with
      | false =>
          have := ih (first + 1) r hr
          omega
      | true =>
          unfold runs at hr
          split at hr
          · cases List.mem_singleton.mp hr
            omega
          · rename_i next stop more hruns
            have hbounds : ∀ r ∈ (next, stop) :: more, _ := hruns ▸ ih (first + 1)
            have hhead := hbounds _ List.mem_cons_self
            split at hr
            · rcases List.mem_cons.mp hr with rfl | hr
              · simp only at hhead ⊢
                omega
              · have := hbounds r (List.mem_cons_of_mem _ hr)
                omega
            · rcases List.mem_cons.mp hr with rfl | hr
              · simp only at hhead ⊢
                omega
              · have := hbounds r hr
                omega

/-- Two runs do not even touch. -/
theorem runs_pairwise (flags : List Bool) (first : ℕ) :
    (runs first flags).Pairwise fun a b => a.2 < b.1 := by
  induction flags generalizing first with
  | nil => exact .nil
  | cons flag rest ih =>
      cases flag with
      | false => exact ih (first + 1)
      | true =>
          unfold runs
          split
          · exact List.pairwise_singleton _ _
          · rename_i next stop more hruns
            have hpair := hruns ▸ ih (first + 1)
            have hbounds : ∀ r ∈ (next, stop) :: more, _ :=
              hruns ▸ runs_bounds rest (first + 1)
            have hmore := List.pairwise_cons.mp hpair
            split
            · exact List.pairwise_cons.mpr hmore
            · refine List.pairwise_cons.mpr ⟨fun r hr => ?_, hpair⟩
              have hhead := hbounds _ List.mem_cons_self
              rcases List.mem_cons.mp hr with rfl | hr
              · simp only at hhead ⊢
                omega
              · have := hmore.1 r hr
                simp only at this hhead ⊢
                omega

/-- One more place of `true` in front is a run of its own or extends the first run. -/
theorem exists_mem_runs_true {rest : List Bool} {first i : ℕ} :
    (∃ r ∈ runs first (true :: rest), r.1 ≤ i ∧ i < r.2) ↔
      i = first ∨ ∃ r ∈ runs (first + 1) rest, r.1 ≤ i ∧ i < r.2 := by
  have hsingle : first ≤ i ∧ i < first + 1 ↔ i = first := by omega
  cases hruns : runs (first + 1) rest with
  | nil =>
      rw [runs, hruns]
      simp only [List.mem_singleton, exists_eq_left, List.not_mem_nil, false_and, exists_const,
        or_false, hsingle]
  | cons r more =>
      have hhead := runs_bounds rest (first + 1) r (hruns ▸ List.mem_cons_self)
      rw [runs, hruns]
      simp only
      split
      · simp only [List.mem_cons, exists_eq_or_imp]
        rw [← or_assoc]
        refine or_congr_left ?_
        omega
      · simp only [List.mem_cons, exists_eq_or_imp, hsingle]

/-- The runs hold exactly the places of `true`. -/
theorem mem_runs_iff (flags : List Bool) {first i : ℕ} (hi : first ≤ i) :
    (∃ r ∈ runs first flags, r.1 ≤ i ∧ i < r.2) ↔ flags[i - first]? = some true := by
  induction flags generalizing first with
  | nil => simp [runs]
  | cons flag rest ih =>
      have hcons : (∃ r ∈ runs first (flag :: rest), r.1 ≤ i ∧ i < r.2) ↔
          (flag = true ∧ i = first) ∨ ∃ r ∈ runs (first + 1) rest, r.1 ≤ i ∧ i < r.2 := by
        cases flag with
        | false => simp [runs]
        | true => rw [exists_mem_runs_true, eq_self, true_and]
      rw [hcons]
      rcases Nat.eq_or_lt_of_le hi with rfl | hlt
      · have hnone : ¬∃ r ∈ runs (first + 1) rest, r.1 ≤ first ∧ first < r.2 := by
          rintro ⟨r, hr, hle, -⟩
          have := runs_bounds rest (first + 1) r hr
          omega
        rw [Nat.sub_self, List.getElem?_cons_zero, or_iff_left hnone]
        simp
      · have hsub : i - first = (i - (first + 1)) + 1 := by omega
        rw [hsub, List.getElem?_cons_succ, ← ih hlt]
        refine or_iff_right ?_
        omega

/-- The place after a run is not flagged. -/
theorem not_flagged_after_run {flags : List Bool} {r : ℕ × ℕ} (hr : r ∈ runs 0 flags) :
    flags[r.2]? ≠ some true := by
  intro h
  obtain ⟨q, hq, hle, hlt⟩ := (mem_runs_iff flags (i := r.2) (Nat.zero_le _)).mpr h
  have hbounds := runs_bounds flags 0 r hr
  have hcases : r = q ∨ r.2 < q.1 ∨ q.2 < r.1 := by
    obtain ⟨i, hi, rfl⟩ := List.getElem_of_mem hr
    obtain ⟨j, hj, rfl⟩ := List.getElem_of_mem hq
    have hpair := List.pairwise_iff_getElem.mp (runs_pairwise flags 0)
    rcases lt_trichotomy i j with hij | hij | hij
    · exact .inr (.inl (hpair i j hi hj hij))
    · subst hij
      exact .inl rfl
    · exact .inr (.inr (hpair j i hj hi hij))
  rcases hcases with rfl | h | h
  · omega
  · omega
  · omega

/-! ### Sums of rows -/

theorem totalOf_eq_sum (ns : List ℕ) : totalOf ns = ns.sum := by
  induction ns with
  | nil => rfl
  | cons n rest ih => rw [totalOf, ih, List.sum_cons]

theorem totalOf_take_le (rows : List ℕ) (i : ℕ) : totalOf (rows.take i) ≤ totalOf rows := by
  induction rows generalizing i with
  | nil => rw [List.take_nil]
  | cons n rest ih =>
      cases i with
      | zero => exact Nat.zero_le _
      | succ i => exact Nat.add_le_add_left (ih i) n

theorem totalOf_take_add_le {rows : List ℕ} {i n : ℕ} (h : rows[i]? = some n) :
    totalOf (rows.take i) + n ≤ totalOf rows := by
  induction rows generalizing i with
  | nil => cases h
  | cons m rest ih =>
      cases i with
      | zero =>
          cases h
          rw [List.take_zero, totalOf, totalOf]
          omega
      | succ i =>
          have := ih h
          rw [List.take_succ_cons, totalOf, totalOf]
          omega

theorem le_totalOf {rows : List ℕ} {n : ℕ} (h : n ∈ rows) : n ≤ totalOf rows := by
  obtain ⟨i, hi⟩ := List.mem_iff_getElem?.mp h
  exact (Nat.le_add_left _ _).trans (totalOf_take_add_le hi)

/-- Each row lies in one of the parts. -/
theorem exists_of_lt_totalOf {rows : List ℕ} {row : ℕ} (h : row < totalOf rows) :
    ∃ i n k, rows[i]? = some n ∧ k < n ∧ row = totalOf (rows.take i) + k := by
  induction rows generalizing row with
  | nil => cases h
  | cons m rest ih =>
      rw [totalOf] at h
      rcases Nat.lt_or_ge row m with hlt | hge
      · exact ⟨0, m, row, rfl, hlt, (Nat.zero_add row).symm⟩
      · have hrest : row - m < totalOf rest := by omega
        obtain ⟨i, n, k, hn, hk, hrow⟩ := ih hrest
        refine ⟨i + 1, n, k, hn, hk, ?_⟩
        rw [List.take_succ_cons, totalOf]
        omega

namespace Word

/-- A running sum that stays in the words does not overflow on the way. -/
theorem foldl_add_eq {first : ℕ} {words : List ℕ} (h : first + totalOf words < UInt64.size) :
    words.foldl add first = first + totalOf words := by
  induction words generalizing first with
  | nil => rfl
  | cons n rest ih =>
      rw [totalOf, ← Nat.add_assoc] at h
      rw [List.foldl_cons, add_eq (by omega), ih h, totalOf, Nat.add_assoc]

theorem sum_eq {words : List ℕ} (h : totalOf words < UInt64.size) : sum words = totalOf words := by
  rw [sum, foldl_add_eq (by rwa [Nat.zero_add]), Nat.zero_add]

end Word

namespace Stripe

/-! ### Stripes of a file -/

/-- The first row after a stripe, as a plain number. -/
def stop (s : Stripe) : ℕ := s.firstRow + s.rows

/-- Stripes that follow each other from the row `first` up to the row `last`. -/
def Tile : (first last : ℕ) → List Stripe → Prop
  | first, last, [] => first = last
  | first, last, s :: rest => s.firstRow = first ∧ Tile s.stop last rest

theorem layout_tiles (stride index : ℕ) {first : ℕ} {rows : List ℕ}
    (h : first + totalOf rows < UInt64.size) :
    Tile first (first + totalOf rows) (layout stride index first rows) := by
  induction rows generalizing index first with
  | nil => rfl
  | cons n rest ih =>
      rw [totalOf, ← Nat.add_assoc] at h ⊢
      refine ⟨rfl, ?_⟩
      rw [Word.add_eq (by omega)]
      exact ih (index + 1) h

theorem layout_length (stride index first : ℕ) (rows : List ℕ) :
    (layout stride index first rows).length = rows.length := by
  induction rows generalizing index first with
  | nil => rfl
  | cons n rest ih => rw [layout, List.length_cons, List.length_cons, ih]

theorem layout_getElem? (stride index first i : ℕ) (rows : List ℕ) :
    (layout stride index first rows)[i]? =
      (rows[i]?).map fun n =>
        ⟨index + i, (rows.take i).foldl Word.add first, n, groupCount stride n⟩ := by
  induction rows generalizing index first i with
  | nil => rfl
  | cons n rest ih =>
      cases i with
      | zero => rfl
      | succ i =>
          rw [layout, List.getElem?_cons_succ, ih, List.getElem?_cons_succ, List.take_succ_cons,
            List.foldl_cons]
          congr 1
          funext n
          congr 1
          omega

theorem layout_map_rows (stride index first : ℕ) (rows : List ℕ) :
    (layout stride index first rows).map Stripe.rows = rows := by
  induction rows generalizing index first with
  | nil => rfl
  | cons n rest ih => rw [layout, List.map_cons, ih]

theorem bounds_of_tile {first last : ℕ} {stripes : List Stripe} (h : Tile first last stripes) :
    first ≤ last ∧ ∀ s ∈ stripes, first ≤ s.firstRow ∧ s.stop ≤ last := by
  induction stripes generalizing first with
  | nil =>
      cases h
      exact ⟨le_rfl, fun s hs => (nomatch hs)⟩
  | cons s rest ih =>
      obtain ⟨rfl, h⟩ := h
      obtain ⟨hle, hrest⟩ := ih h
      have hend : s.firstRow ≤ s.stop := Nat.le_add_right _ _
      refine ⟨hend.trans hle, fun s' hs' => ?_⟩
      rcases List.mem_cons.mp hs' with rfl | hs'
      · exact ⟨le_rfl, hle⟩
      · exact ⟨hend.trans (hrest s' hs').1, (hrest s' hs').2⟩

theorem pairwise_of_tile {first last : ℕ} {stripes : List Stripe} (h : Tile first last stripes) :
    stripes.Pairwise fun a b => a.stop ≤ b.firstRow := by
  induction stripes generalizing first with
  | nil => exact .nil
  | cons s rest ih =>
      obtain ⟨rfl, h⟩ := h
      exact List.pairwise_cons.mpr ⟨fun b hb => ((bounds_of_tile h).2 b hb).1, ih h⟩

/-! ### Row groups of a stripe -/

theorem lt_groupCount_iff {stride rows group : ℕ} (h : 0 < stride) :
    group < groupCount stride rows ↔ group * stride < rows := by
  unfold groupCount
  split
  · omega
  · rw [if_neg h.ne', Nat.lt_iff_add_one_le, Nat.le_div_iff_mul_le h, Nat.add_mul]
    omega

/-- Without a stride a stripe is one row group, if it has rows. -/
theorem groupCount_zero_le (rows : ℕ) : groupCount 0 rows ≤ 1 := by
  unfold groupCount
  split <;> simp

/-- Before it is cut off, the last row group ends less than a stride after the rows. -/
theorem groupCount_mul_lt {stride rows : ℕ} (hstride : 0 < stride) (hrows : 0 < rows) :
    groupCount stride rows * stride < rows + stride := by
  cases hcount : groupCount stride rows with
  | zero => omega
  | succ last =>
      have hlast := (lt_groupCount_iff hstride).mp (show last < groupCount stride rows by omega)
      rw [Nat.succ_mul]
      omega

/-- With half of the words to count rows, the last row group does not overflow, whatever the stride:
either it is the only one, or the stride is less than the rows. -/
theorem groupCount_mul_lt_size {stride rows : ℕ} (hstride : stride < UInt64.size)
    (hrows : rows ≤ 2 ^ 63) : groupCount stride rows * stride < UInt64.size := by
  have hsize : UInt64.size = 2 ^ 63 + 2 ^ 63 := rfl
  rcases Nat.eq_zero_or_pos stride with rfl | hpos
  · rw [Nat.mul_zero]
    omega
  rcases Nat.lt_or_ge stride rows with hlt | hge
  · have := groupCount_mul_lt hpos (Nat.zero_lt_of_lt hlt)
    omega
  · have hone : groupCount stride rows ≤ 1 := by
      refine not_lt.mp fun h => ?_
      rw [lt_groupCount_iff hpos] at h
      omega
    have := Nat.mul_le_mul_right stride hone
    omega

/-- Whether a stripe has as many row groups as its rows need. -/
def Cut (s : Stripe) (stride : ℕ) : Prop := s.groups = groupCount stride s.rows

theorem layout_cut {stride index first : ℕ} {rows : List ℕ} :
    ∀ s ∈ layout stride index first rows, s.Cut stride := by
  intro s hs
  obtain ⟨i, hi⟩ := List.mem_iff_getElem?.mp hs
  rw [layout_getElem?, Option.map_eq_some_iff] at hi
  obtain ⟨n, -, rfl⟩ := hi
  exact rfl

/-- Whether a stripe that is cut into row groups is counted without overflow: the row after it is a
word, and so is the end of the last row group before it is cut off. -/
structure Fits (s : Stripe) (stride : ℕ) : Prop where
  cut : s.Cut stride
  stop_lt : s.stop < UInt64.size
  groups_lt : s.groups * stride < UInt64.size

namespace Fits

variable {s : Stripe} {stride : ℕ} (fits : s.Fits stride)

include fits

/-- The row at a place of the stripe. -/
theorem add_eq {place : ℕ} (h : place ≤ s.rows) :
    Word.add s.firstRow place = s.firstRow + place := by
  have hstop := fits.stop_lt
  unfold stop at hstop
  exact Word.add_eq (by omega)

theorem groupBounds_eq {group : ℕ} (h : group < s.groups) : s.groupBounds stride group =
    (group * stride, if stride = 0 then s.rows else min (group * stride + stride) s.rows) := by
  have hgroups := fits.groups_lt
  have hle := Nat.mul_le_mul_right stride (Nat.succ_le_of_lt h)
  rw [Nat.succ_mul] at hle
  unfold groupBounds
  split
  · rename_i hzero
    rw [hzero, Nat.mul_zero]
  · simp only
    rw [Word.mul_eq (by omega), Word.add_eq (by omega)]

theorem groupOf_eq {row : ℕ} (low : s.firstRow ≤ row) (high : row < s.stop) :
    s.groupOf stride row = if stride = 0 then (0, row - s.firstRow)
      else ((row - s.firstRow) / stride, (row - s.firstRow) % stride) := by
  unfold groupOf
  rw [Word.sub_eq low (high.trans fits.stop_lt)]

theorem groupOf_lt {row : ℕ} (low : s.firstRow ≤ row) (high : row < s.stop) :
    (s.groupOf stride row).1 < s.groups := by
  rw [fits.groupOf_eq low high, fits.cut]
  unfold stop at high
  split
  · rename_i hzero
    unfold groupCount
    rw [if_neg (by omega), if_pos hzero]
    exact Nat.zero_lt_one
  · rename_i hpos
    rw [lt_groupCount_iff (Nat.pos_of_ne_zero hpos)]
    have := Nat.div_mul_le_self (row - s.firstRow) stride
    simp only
    omega

/-- The groups `first` to `last` start and end where the rows of these groups do. -/
theorem groupOf_mem_iff {first last row : ℕ} (hlast : last < s.groups) (hfirst : first ≤ last)
    (low : s.firstRow ≤ row) (high : row < s.stop) :
    s.firstRow + (s.groupBounds stride first).1 ≤ row ∧
        row < s.firstRow + (s.groupBounds stride last).2 ↔
      first ≤ (s.groupOf stride row).1 ∧ (s.groupOf stride row).1 ≤ last := by
  rw [fits.groupBounds_eq (hfirst.trans_lt hlast), fits.groupBounds_eq hlast,
    fits.groupOf_eq low high]
  unfold stop at high
  rw [fits.cut] at hlast
  split
  · rename_i hzero
    have hone : groupCount stride s.rows ≤ 1 := hzero ▸ groupCount_zero_le s.rows
    rw [hzero, Nat.mul_zero]
    simp only
    omega
  · rename_i hpos
    replace hpos := Nat.pos_of_ne_zero hpos
    have hlow : first ≤ (row - s.firstRow) / stride ↔ first * stride ≤ row - s.firstRow :=
      Nat.le_div_iff_mul_le hpos
    have hhigh : (row - s.firstRow) / stride ≤ last ↔
        row - s.firstRow < last * stride + stride := by
      rw [← Nat.lt_succ_iff, Nat.div_lt_iff_lt_mul hpos, Nat.succ_mul]
    simp only
    omega

theorem groupBounds_lt {first last : ℕ} (hlast : last < s.groups) (hfirst : first ≤ last) :
    (s.groupBounds stride first).1 < (s.groupBounds stride last).2 ∧
      (s.groupBounds stride last).2 ≤ s.rows := by
  rw [fits.groupBounds_eq (hfirst.trans_lt hlast), fits.groupBounds_eq hlast]
  rw [fits.cut] at hlast
  have hrows : s.rows ≠ 0 := by
    intro h
    rw [h] at hlast
    exact absurd hlast (Nat.not_lt_zero _)
  split
  · rename_i hzero
    rw [hzero, Nat.mul_zero]
    simp only
    omega
  · rename_i hpos
    replace hpos := Nat.pos_of_ne_zero hpos
    rw [lt_groupCount_iff hpos] at hlast
    have := Nat.mul_le_mul_right stride hfirst
    simp only
    omega

/-- A row group ends before any later one starts. -/
theorem groupBounds_le {a b : ℕ} (h : a < b) (hb : b < s.groups) :
    (s.groupBounds stride a).2 ≤ (s.groupBounds stride b).1 := by
  rw [fits.groupBounds_eq (h.trans hb), fits.groupBounds_eq hb]
  rw [fits.cut] at hb
  split
  · rename_i hzero
    have hone : groupCount stride s.rows ≤ 1 := hzero ▸ groupCount_zero_le s.rows
    omega
  · have := Nat.mul_le_mul_right stride (Nat.succ_le_of_lt h)
    rw [Nat.succ_mul] at this
    simp only
    omega

end Fits

end Stripe

/-! ### Ranges of kept groups -/

theorem RowRange.contains_iff {r : RowRange} {row : ℕ} :
    r.contains row = true ↔ r.start ≤ row ∧ row < r.stop := by
  rw [RowRange.contains, Bool.and_eq_true, decide_eq_true_iff, decide_eq_true_iff]

/-- A range made of the groups `firstGroup` to `last` of a stripe. -/
structure RowRange.Spans (r : RowRange) (s : Stripe) (stride last : ℕ) : Prop where
  stripe : r.stripe = s.index
  first_le : r.firstGroup ≤ last
  last_lt : last < s.groups
  start : r.start = s.firstRow + (s.groupBounds stride r.firstGroup).1
  stop : r.stop = s.firstRow + (s.groupBounds stride last).2

section kept

variable {s : Stripe} {stride last : ℕ} {r : RowRange} {kept : List Bool}

/-- A range made of groups is not empty and lies in its stripe. -/
theorem RowRange.Spans.bounds (h : r.Spans s stride last) (fits : s.Fits stride) :
    s.firstRow ≤ r.start ∧ r.start < r.stop ∧ r.stop ≤ s.stop := by
  obtain ⟨hlt, hle⟩ := fits.groupBounds_lt h.last_lt h.first_le
  have hstart := h.start
  have hstop := h.stop
  unfold Stripe.stop
  omega

/-- The rows of a range made of groups are counted without overflow. -/
theorem RowRange.Spans.size_eq (h : r.Spans s stride last) (fits : s.Fits stride) :
    r.size = r.stop - r.start := by
  obtain ⟨-, hlt, hle⟩ := h.bounds fits
  exact Word.sub_eq hlt.le (hle.trans_lt fits.stop_lt)

variable (fits : s.Fits stride) (hlen : kept.length ≤ s.groups)

include fits hlen

/-- No sum overflows where the ranges of a stripe are made. -/
theorem Stripe.keptRanges_eq : s.keptRanges stride kept = (runs 0 kept).map fun q =>
    ⟨s.index, q.1, s.firstRow + (s.groupBounds stride q.1).1,
      s.firstRow + (s.groupBounds stride (q.2 - 1)).2⟩ := by
  refine List.map_congr_left fun q hq => ?_
  have hbounds := runs_bounds kept 0 q hq
  obtain ⟨hlt, hle⟩ := fits.groupBounds_lt (show q.2 - 1 < s.groups by omega)
    (show q.1 ≤ q.2 - 1 by omega)
  simp only
  rw [fits.add_eq (hlt.le.trans hle), fits.add_eq hle]

theorem Stripe.mem_keptRanges (hr : r ∈ s.keptRanges stride kept) :
    ∃ q ∈ runs 0 kept, r = ⟨s.index, q.1, s.firstRow + (s.groupBounds stride q.1).1,
      s.firstRow + (s.groupBounds stride (q.2 - 1)).2⟩ := by
  rw [Stripe.keptRanges_eq fits hlen] at hr
  obtain ⟨q, hq, rfl⟩ := List.mem_map.mp hr
  exact ⟨q, hq, rfl⟩

theorem Stripe.keptRanges_spans (hr : r ∈ s.keptRanges stride kept) :
    ∃ last, r.Spans s stride last ∧ kept[last + 1]? ≠ some true := by
  obtain ⟨q, hq, rfl⟩ := Stripe.mem_keptRanges fits hlen hr
  have hbounds := runs_bounds kept 0 q hq
  refine ⟨q.2 - 1, ⟨rfl, ?_, ?_, rfl, rfl⟩, ?_⟩
  · simp only
    omega
  · omega
  · have := not_flagged_after_run hq
    rwa [Nat.sub_add_cancel (by omega)]

/-- The ranges of a stripe hold the rows of the groups that are kept, and no others. -/
theorem Stripe.mem_keptRanges_iff {row : ℕ} (low : s.firstRow ≤ row) (high : row < s.stop) :
    (∃ r ∈ s.keptRanges stride kept, r.contains row = true) ↔
      kept[(s.groupOf stride row).1]? = some true := by
  have hrun (q : ℕ × ℕ) (hq : q ∈ runs 0 kept) :
      s.firstRow + (s.groupBounds stride q.1).1 ≤ row ∧
          row < s.firstRow + (s.groupBounds stride (q.2 - 1)).2 ↔
        q.1 ≤ (s.groupOf stride row).1 ∧ (s.groupOf stride row).1 < q.2 := by
    have hbounds := runs_bounds kept 0 q hq
    rw [fits.groupOf_mem_iff (by omega) (by omega) low high]
    omega
  have hplace := mem_runs_iff kept (i := (s.groupOf stride row).1) (Nat.zero_le _)
  rw [Nat.sub_zero] at hplace
  rw [← hplace]
  constructor
  · rintro ⟨r, hr, hmem⟩
    obtain ⟨q, hq, rfl⟩ := Stripe.mem_keptRanges fits hlen hr
    rw [RowRange.contains_iff] at hmem
    exact ⟨q, hq, (hrun q hq).mp hmem⟩
  · rintro ⟨q, hq, hmem⟩
    rw [Stripe.keptRanges_eq fits hlen]
    refine ⟨_, List.mem_map_of_mem hq, ?_⟩
    rw [RowRange.contains_iff]
    exact (hrun q hq).mpr hmem

/-- Two ranges with a whole group of the stripe between them that no range holds. -/
def RowRange.Apart (s : Stripe) (stride : ℕ) (kept : List Bool) (a b : RowRange) : Prop :=
  ∃ g < s.groups, kept[g]? ≠ some true ∧
    a.stop ≤ s.firstRow + (s.groupBounds stride g).1 ∧
    s.firstRow + (s.groupBounds stride g).2 ≤ b.start

/-- The ranges of a stripe ascend, and a group that is not kept lies between any two. -/
theorem Stripe.keptRanges_pairwise :
    (s.keptRanges stride kept).Pairwise (RowRange.Apart s stride kept) := by
  rw [Stripe.keptRanges_eq fits hlen, List.pairwise_map]
  refine List.Pairwise.imp_of_mem (fun {a b} ha hb hab => ?_) (runs_pairwise kept 0)
  have hbounds := runs_bounds kept 0 a ha
  have hbounds' := runs_bounds kept 0 b hb
  refine ⟨a.2, by omega, not_flagged_after_run ha, Nat.add_le_add_left ?_ _,
    Nat.add_le_add_left ?_ _⟩
  · exact fits.groupBounds_le (by omega) (by omega)
  · exact fits.groupBounds_le hab (by omega)

end kept

end StripeScan
