import StripeScan.Proofs.MemoryFile.Totals

/-! # Row groups as planned and as built

A stripe is cut into row groups twice: planning computes the bounds of a group from its number, and
building walks through the rows and derives statistics chunk by chunk.  Both find the same groups
(`groupChunks_eq`), so the statistics of a group describe the rows that are read for it
(`build_rowGroups`).  A scan finds the group of a row in a third way, by division; that is the one
group whose bounds hold the row (`Stripe.Grouped`).

The end of a row group is computed before it is cut off at the end of the stripe.  If that
overflows, which only the last row group can, this row group is empty or ends before it starts; so
planning cuts a stripe into its rows exactly if it does not overflow (`Stripe.grouped_iff`). -/

namespace StripeScan

open Statistics

namespace Stripe

/-- The rows of a row group, counted from the start of the stripe. -/
def groupRows (s : Stripe) (stride group : ℕ) : List ℕ :=
  List.range' (s.groupBounds stride group).1
    ((s.groupBounds stride group).2 - (s.groupBounds stride group).1)

/-- Whether the row groups of a stripe cut its rows: no group is empty, each ends where the next
begins, together they are all rows, and each row is found in the one group that holds it, as far
from its start as the row is.  The row at a place of the stripe is a word, even where the stripe
reaches beyond the words. -/
structure Grouped (s : Stripe) (stride : ℕ) : Prop where
  nonempty : ∀ g < s.groups, (s.groupBounds stride g).1 < (s.groupBounds stride g).2
  consecutive : ∀ g, g + 1 < s.groups →
    (s.groupBounds stride g).2 = (s.groupBounds stride (g + 1)).1
  tile : (List.range s.groups).flatMap (s.groupRows stride) = List.range s.rows
  groupOf_lt : ∀ place < s.rows, (s.groupOf stride (Word.add s.firstRow place)).1 < s.groups
  holds_iff : ∀ place < s.rows, ∀ g < s.groups,
    ((s.groupBounds stride g).1 ≤ place ∧ place < (s.groupBounds stride g).2 ↔
      g = (s.groupOf stride (Word.add s.firstRow place)).1)
  offset : ∀ place < s.rows,
    (s.groupBounds stride (s.groupOf stride (Word.add s.firstRow place)).1).1 +
      (s.groupOf stride (Word.add s.firstRow place)).2 = place

end Stripe

namespace MemoryFile

/-! ### The same groups -/

section fits

variable {s : Stripe} {stride : ℕ} (fits : s.Fits stride)

include fits

/-- Planning and building cut a stripe alike. -/
theorem groupChunks_eq : groupChunks stride s.rows = (List.range s.groups).map fun g =>
    ((s.groupBounds stride g).1, (s.groupBounds stride g).2 - (s.groupBounds stride g).1) := by
  refine List.ext_getElem? fun g => ?_
  rw [List.getElem?_map, groupChunks, fits.cut]
  rcases Nat.eq_zero_or_pos s.rows with hrows | hrows
  · rw [hrows]
    rfl
  rcases Nat.eq_zero_or_pos stride with rfl | hstride
  · rw [if_pos rfl, chunks_getElem? hrows (by omega), Stripe.groupCount, if_neg hrows.ne',
      if_pos rfl]
    cases g with
    | zero => simp [Stripe.groupBounds, hrows]
    | succ g =>
        rw [if_neg (by
          rw [Nat.zero_add, not_lt]
          exact Nat.le_mul_of_pos_left s.rows g.succ_pos)]
        rfl
  · rw [if_neg hstride.ne', chunks_getElem? hstride (by omega), Nat.zero_add]
    split
    · have hg := (Stripe.lt_groupCount_iff hstride).mpr ‹_›
      rw [List.getElem?_range hg, Option.map_some, fits.groupBounds_eq (fits.cut ▸ hg),
        if_neg hstride.ne']
      congr 2
      omega
    · rw [List.getElem?_eq_none (by
        rw [List.length_range]
        exact not_lt.mp (mt (Stripe.lt_groupCount_iff hstride).mp ‹_›)), Option.map_none]

/-- The row groups together are all rows. -/
theorem flatMap_groupRows : (List.range s.groups).flatMap (s.groupRows stride) =
    List.range s.rows := by
  have hchunks := flatMap_groupChunks stride s.rows
  rw [groupChunks_eq fits, List.flatMap_map, ← List.range_eq_range'] at hchunks
  exact hchunks

/-- A row group ends where the next begins. -/
theorem groupBounds_consecutive {g : ℕ} (hg : g + 1 < s.groups) :
    (s.groupBounds stride g).2 = (s.groupBounds stride (g + 1)).1 := by
  rw [fits.groupBounds_eq (Nat.lt_of_succ_lt hg), fits.groupBounds_eq hg]
  rw [fits.cut] at hg
  rcases Nat.eq_zero_or_pos stride with rfl | hstride
  · have hone := Stripe.groupCount_zero_le s.rows
    omega
  · rw [Stripe.lt_groupCount_iff hstride, Nat.succ_mul] at hg
    rw [if_neg hstride.ne', Nat.succ_mul]
    exact min_eq_left hg.le

end fits

end MemoryFile

/-! ### Stripes anywhere -/

namespace Stripe

/-- The stripe as if it were the first of its file. -/
def alone (s : Stripe) : Stripe := { s with firstRow := 0 }

section anywhere

variable {s : Stripe} {stride : ℕ}

theorem alone_fits (cut : s.Cut stride) (hrows : s.rows < UInt64.size)
    (hgroups : s.groups * stride < UInt64.size) : s.alone.Fits stride where
  cut := cut
  stop_lt := (Nat.zero_add s.rows).trans_lt hrows
  groups_lt := hgroups

/-- The row group of a row depends on the place of the row in its stripe only. -/
theorem groupOf_alone (hfirst : s.firstRow < UInt64.size) {place : ℕ}
    (h : place < UInt64.size) :
    s.groupOf stride (Word.add s.firstRow place) = s.alone.groupOf stride place := by
  have hplace : Word.sub place s.alone.firstRow = place := Word.sub_eq (Nat.zero_le _) h
  rw [groupOf, groupOf, Word.sub_add_self hfirst h, hplace]

/-- Row groups that do not overflow cut the rows, wherever their stripe begins. -/
theorem grouped_of_fits (hfirst : s.firstRow < UInt64.size) (fits : s.alone.Fits stride) :
    s.Grouped stride := by
  have hstop : s.alone.stop = s.rows := Nat.zero_add s.rows
  have hplace {place : ℕ} (h : place < s.rows) : place < s.alone.stop ∧
      s.groupOf stride (Word.add s.firstRow place) = s.alone.groupOf stride place :=
    ⟨h.trans_eq hstop.symm,
      groupOf_alone hfirst (h.trans (hstop.symm.trans_lt fits.stop_lt))⟩
  constructor
  case nonempty => exact fun g hg => (fits.groupBounds_lt hg le_rfl).1
  case consecutive => exact fun g hg => MemoryFile.groupBounds_consecutive fits hg
  case tile => exact MemoryFile.flatMap_groupRows (s := s.alone) fits
  case groupOf_lt =>
    intro place h
    obtain ⟨high, hgroup⟩ := hplace h
    rw [hgroup]
    exact fits.groupOf_lt (Nat.zero_le place) high
  case holds_iff =>
    intro place h g hg
    obtain ⟨high, hgroup⟩ := hplace h
    have hmem := fits.groupOf_mem_iff hg le_rfl (Nat.zero_le place) high
    rw [show s.alone.firstRow = 0 from rfl, Nat.zero_add, Nat.zero_add] at hmem
    rw [hgroup]
    exact hmem.trans le_antisymm_iff.symm
  case offset =>
    intro place h
    obtain ⟨high, hgroup⟩ := hplace h
    have hlt := fits.groupOf_lt (Nat.zero_le place) high
    rw [hgroup, show s.groupBounds stride = s.alone.groupBounds stride from rfl,
      fits.groupBounds_fst hlt, fits.groupOf_place (Nat.zero_le place) high]
    rfl

/-- A row group whose end overflows before it is cut off does not end behind its start. -/
theorem groupBounds_overflow {g : ℕ} (hstride : stride < UInt64.size)
    (hstart : g * stride < UInt64.size) (hover : UInt64.size ≤ g * stride + stride) :
    (s.groupBounds stride g).2 ≤ (s.groupBounds stride g).1 := by
  have hpos : stride ≠ 0 := by
    rintro rfl
    omega
  have hwrap : Word.add (g * stride) stride = g * stride + stride - UInt64.size := by
    rw [Word.add, Nat.mod_eq_sub_mod hover]
    exact Nat.mod_eq_of_lt (by omega)
  rw [groupBounds, if_neg hpos, Word.mul_eq hstart]
  simp only
  omega

/-- The row groups of a stripe cut its rows exactly if the end of the last one does not overflow
before it is cut off. -/
theorem grouped_iff (cut : s.Cut stride) (hfirst : s.firstRow < UInt64.size)
    (hrows : s.rows < UInt64.size) (hstride : stride < UInt64.size) :
    s.Grouped stride ↔ s.groups * stride < UInt64.size := by
  constructor
  · intro grouped
    by_contra hover
    rw [not_lt] at hover
    have hpos : 0 < stride := Nat.pos_of_ne_zero (by
      rintro rfl
      omega)
    obtain ⟨last, hlast⟩ : ∃ last, s.groups = last + 1 :=
      Nat.exists_eq_succ_of_ne_zero (by
        intro hzero
        rw [hzero, Nat.zero_mul] at hover
        omega)
    have hlt : last < groupCount stride s.rows := by
      rw [← cut, hlast]
      exact Nat.lt_succ_self last
    rw [lt_groupCount_iff hpos] at hlt
    rw [hlast, Nat.succ_mul] at hover
    have hends := groupBounds_overflow (s := s) hstride (hlt.trans hrows) hover
    have hempty := grouped.nonempty last (hlast ▸ Nat.lt_succ_self last)
    omega
  · intro hgroups
    exact grouped_of_fits hfirst (alone_fits cut hrows hgroups)

end anywhere

theorem layout_lt {stride index first : ℕ} {lengths : List ℕ} (hfirst : first < UInt64.size)
    (hlengths : ∀ n ∈ lengths, n < UInt64.size) :
    ∀ s ∈ layout stride index first lengths, s.firstRow < UInt64.size ∧ s.rows < UInt64.size := by
  induction lengths generalizing index first with
  | nil => exact fun s hs => (nomatch hs)
  | cons n rest ih =>
      intro s hs
      rcases List.mem_cons.mp hs with rfl | hs
      · exact ⟨hfirst, hlengths n List.mem_cons_self⟩
      · exact ih (Word.add_lt first n) (fun k hk => hlengths k (List.mem_cons_of_mem n hk)) s hs

/-- The row groups of a stripe that is laid out cut its rows exactly if none overflows. -/
theorem layout_grouped_iff {stride index first : ℕ} {lengths : List ℕ}
    (hstride : stride < UInt64.size) (hfirst : first < UInt64.size)
    (hlengths : ∀ n ∈ lengths, n < UInt64.size) :
    ∀ s ∈ layout stride index first lengths,
      (s.Grouped stride ↔ s.groups * stride < UInt64.size) := by
  intro s hs
  obtain ⟨hfirst, hrows⟩ := layout_lt hfirst hlengths s hs
  exact grouped_iff (layout_cut s hs) hfirst hrows hstride

end Stripe

namespace MemoryFile

/-! ### The entries of a stripe -/

/-- Whether a stripe has one entry for each of its row groups, derived from the rows of the
group. -/
structure Indexed (stride : ℕ) (m : MemoryStripe) (s : Stripe) : Prop where
  rows : m.rows.rows = s.rows
  count : m.groups.length = s.groups
  derived : ∀ (g : ℕ) (entries : List (Option Statistics)), m.groups[g]? = some entries →
    List.Forall₂ (fun c entry => ∃ t, entry = some t ∧
      ofValues ((s.groupRows stride g).map c.literalAt?) = .ok t) m.rows.columns entries

theorem deriveStripe_indexed {schema : Schema} {stride : ℕ} {rows : Batch} {m : MemoryStripe}
    (h : deriveStripe schema stride rows = .ok m) {s : Stripe} (fits : s.alone.Fits stride)
    (hrows : s.rows = rows.rows) : Indexed stride m s := by
  obtain ⟨groups, hgroups, h⟩ := bind_eq_ok_iff.mp h
  obtain ⟨statistics, -, h⟩ := bind_eq_ok_iff.mp h
  cases h
  have hall : List.Forall₂ (fun chunk entries => deriveColumns rows chunk.1 chunk.2 = .ok entries)
      (groupChunks stride rows.rows) groups := mapM_eq_ok_iff.mp hgroups
  rw [← hrows, show s.rows = s.alone.rows from rfl, groupChunks_eq fits,
    List.forall₂_map_left_iff] at hall
  refine ⟨hrows.symm, ?_, fun g entries hentries => ?_⟩
  · exact hall.length_eq.symm.trans List.length_range
  · obtain ⟨hg, rfl⟩ := List.getElem?_eq_some_iff.mp hentries
    have hderived := hall.get (hall.length_eq ▸ hg) hg
    rw [List.get_eq_getElem, List.getElem_range] at hderived
    refine (mapM_eq_ok_iff.mp hderived).imp fun c entry hentry => ?_
    obtain ⟨t, ht, rfl⟩ := map_eq_ok_iff.mp hentry
    exact ⟨t, rfl, ht⟩

/-- The stripes of a file that is built are indexed by their row groups. -/
theorem deriveAll_indexed {schema : Schema} {stride : ℕ} {stripes : List Batch}
    {ms : List MemoryStripe} {file : List (Option Statistics)} (index first : ℕ)
    (follow : Follow schema stride stripes)
    (h : deriveAll schema stride stripes = .ok (ms, file)) :
    List.Forall₂ (Indexed stride) ms
      (Stripe.layout stride index first (ms.map (·.rows.rows))) := by
  obtain ⟨hall, -⟩ := deriveAll_merged h
  have hstride := follow.stride_lt
  have hheld : ∀ rows ∈ stripes, rows.rows ≤ 2 ^ 63 := fun rows hrows =>
    (le_totalOf (List.mem_map_of_mem hrows)).trans follow.held
  clear h follow
  induction hall generalizing index first with
  | nil => exact .nil
  | @cons rows m stripes ms hderived _ ih =>
      obtain ⟨hrows, hrest⟩ := List.forall_mem_cons.mp hheld
      have hsame : m.rows.rows = rows.rows := congrArg Batch.rows (deriveStripe_rows hderived)
      refine .cons (deriveStripe_indexed hderived (Stripe.alone_fits rfl ?_ ?_) hsame) ?_
      · show m.rows.rows < UInt64.size
        exact (hsame.trans_le hrows).trans_lt (by decide)
      · exact Stripe.groupCount_mul_lt_size hstride (hsame.trans_le hrows)
      · exact ih _ _ hrest

theorem groupCount_eq_ok {f : MemoryFile} (hcounts : f.groupCounts = []) {stripes : List Stripe}
    (indexed : List.Forall₂ (Indexed f.stride) f.stripes stripes) {i : ℕ} {s : Stripe}
    (hs : stripes[i]? = some s) : f.groupCount i = .ok s.groups := by
  obtain ⟨hi, rfl⟩ := List.getElem?_eq_some_iff.mp hs
  have hi' : i < f.stripes.length := indexed.length_eq ▸ hi
  rw [groupCount, hcounts, List.lookup_nil, stripe_eq (List.getElem?_eq_getElem hi')]
  exact congrArg Except.ok (indexed.get hi' hi).count

end MemoryFile

end StripeScan
