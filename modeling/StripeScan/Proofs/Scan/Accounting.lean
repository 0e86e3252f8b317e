import StripeScan.Proofs.Scan.Position

/-! # What planning counts

The counters that planning leaves say what the plan says.  They are those of its survey
(`Plan.build_tallies`), and a sum over the surveyed stripes (`foldl_counted`) is a sum over the
stripes and row groups of the plan (`Plan.build_counts`). -/

namespace StripeScan

variable {σ : Type}

/-! ### Counting a plan -/

namespace Plan

/-- Whether all rows of a row group are to be read. -/
def covers (p : Plan) (s : Stripe) (group : ℕ) : Bool :=
  (List.range' (s.firstRow + (s.groupBounds p.stride group).1)
    ((s.groupBounds p.stride group).2 - (s.groupBounds p.stride group).1)).all p.retains

/-- How many row groups of a stripe the ranges cover. -/
def coveredGroups (p : Plan) (s : Stripe) : ℕ := (List.range s.groups).countP (p.covers s)

/-- What the counters of planning say of a plan, some stripes of which are selected. -/
structure Counted (p : Plan) (selected : List Stripe) (m : Metrics) : Prop where
  selected_le : m.stripesSelected ≤ m.stripesEvaluated
  evaluated_le : m.stripesEvaluated ≤ (p.stripes.map Stripe.rows).countP (· ≠ 0)
  stripes : m.stripesSelected = selected.length
  groupsEvaluated : m.rowGroupsEvaluated = (selected.map Stripe.groups).sum
  groupsSelected : m.rowGroupsSelected = (p.stripes.map p.coveredGroups).sum
  rows : m.rowsSelected = (p.ranges.map fun r => r.stop - r.start).sum
  pruned : m.filePruned = true → m.stripesEvaluated = 0 ∧ m.stripesSelected = 0 ∧
    m.rowGroupsEvaluated = 0 ∧ m.rowGroupsSelected = 0 ∧ m.rowsSelected = 0
  produced : m.rowsProduced = 0 ∧ m.batchesProduced = 0

end Plan

/-- Ranges that ascend have no more rows than there are from the start of the first to the end of
the last. -/
theorem sum_ranges_le {first last : ℕ} {ranges : List RowRange} (hle : first ≤ last)
    (within : ∀ r ∈ ranges, first ≤ r.start ∧ r.start < r.stop ∧ r.stop ≤ last)
    (ascending : ranges.Pairwise fun a b => a.stop ≤ b.start) :
    (ranges.map fun r => r.stop - r.start).sum ≤ last - first := by
  induction ranges generalizing first with
  | nil => exact Nat.zero_le _
  | cons r rest ih =>
      obtain ⟨hbehind, hrest⟩ := List.pairwise_cons.mp ascending
      obtain ⟨hfirst, hlt, hlast⟩ := within r List.mem_cons_self
      have := ih hlast (fun t ht => ⟨hbehind t ht, (within t (List.mem_cons_of_mem r ht)).2⟩) hrest
      rw [List.map_cons, List.sum_cons]
      omega

/-- The rows to read are counted without overflow. -/
theorem Plan.WellFormed.selectedRows_eq {p : Plan} (wf : p.WellFormed) :
    p.selectedRows = (p.ranges.map fun r => r.stop - r.start).sum := by
  have hsize : p.ranges.map RowRange.size = p.ranges.map fun r => r.stop - r.start := by
    refine List.map_congr_left fun r hr => ?_
    exact Word.sub_eq (wf.bounds hr).1.le (wf.stop_lt hr)
  have hsum := sum_ranges_le (Nat.zero_le p.totalRows)
    (fun r hr => ⟨Nat.zero_le r.start, wf.bounds hr⟩) wf.ascending
  have htotal := wf.total_lt
  rw [selectedRows, hsize, Word.sum_eq (by rw [totalOf_eq_sum]; omega), totalOf_eq_sum]

/-! ### Surveyed stripes -/

/-- Whether a stripe has rows and is kept. -/
def StripeSurvey.isSelected (stripe : Stripe) (f : StripeSurvey) : Bool :=
  stripe.rows ≠ 0 && keptBy f.truth

/-- The stripes that have rows and are kept. -/
def Survey.selected (stride : ℕ) (v : Survey) : List Stripe :=
  (((Stripe.layout stride 0 0 v.rows).zip v.stripes).filter fun p => p.2.isSelected p.1).map (·.1)

/-- A stripe without rows has no row groups to keep, nor has one that is dropped. -/
theorem StripeSurvey.kept_of_not_selected {stride : ℕ} {stripe : Stripe} {f : StripeSurvey}
    (cut : stripe.Cut stride) (h : f.isSelected stripe = false) : f.kept stripe.groups = [] := by
  unfold kept
  split
  · rename_i hkept
    have hrows : stripe.rows = 0 := by simpa [isSelected, hkept] using h
    rw [cut, Stripe.groupCount, if_pos hrows]
    rfl
  · rfl

/-- Counting stripe by stripe adds up. -/
theorem foldl_counted {stride : ℕ} {pairs : List (Stripe × StripeSurvey)}
    (cut : ∀ p ∈ pairs, p.1.Cut stride) (m : Metrics) :
    pairs.foldl (fun m p => p.2.counted p.1 m) m =
      { m with
        stripesEvaluated := m.stripesEvaluated + pairs.countP fun p => p.1.rows ≠ 0
        stripesSelected := m.stripesSelected + pairs.countP fun p => p.2.isSelected p.1
        rowGroupsEvaluated := m.rowGroupsEvaluated +
          ((pairs.filter fun p => p.2.isSelected p.1).map fun p => p.1.groups).sum
        rowGroupsSelected := m.rowGroupsSelected +
          (pairs.map fun p => (p.2.kept p.1.groups).countP id).sum } := by
  induction pairs generalizing m with
  | nil => rfl
  | cons p rest ih =>
      rw [List.foldl_cons, ih fun q hq => cut q (List.mem_cons_of_mem _ hq)]
      have hcut := cut p List.mem_cons_self
      unfold StripeSurvey.counted
      by_cases hrows : p.1.rows = 0
      · have hselected : p.2.isSelected p.1 = false := by simp [StripeSurvey.isSelected, hrows]
        simp [hrows, hselected, StripeSurvey.kept_of_not_selected hcut hselected]
      · cases htruth : keptBy p.2.truth with
        | false =>
            have hselected : p.2.isSelected p.1 = false := by
              simp [StripeSurvey.isSelected, htruth]
            simp [hrows, hselected, StripeSurvey.kept_of_not_selected hcut hselected]
            omega
        | true =>
            have hselected : p.2.isSelected p.1 = true := by
              simp [StripeSurvey.isSelected, hrows, htruth]
            simp [hrows, hselected]
            omega

namespace Survey

variable {v : Survey} {source : Source σ} {argument : Option BoundSearchArgument}
variable {pruning : Pruning} {stride i : ℕ} {s : Stripe}

/-! ### Covered row groups -/

section covers

variable (fits : (v.plan stride).Fits) (hs : (v.plan stride).stripes[i]? = some s)

include fits hs

/-- The ranges cover a row group exactly if it is kept, since they are made of whole groups. -/
theorem covers_iff {g : ℕ} (hg : g < s.groups) :
    (v.plan stride).covers s g = true ↔ ∃ f ∈ v.stripes[i]?, (f.kept s.groups)[g]? = some true := by
  have hfits := plan_stripe_fits fits hs
  obtain ⟨hlt, hle⟩ := hfits.groupBounds_lt hg le_rfl
  have hrow {row : ℕ} (low : s.firstRow + (s.groupBounds stride g).1 ≤ row)
      (high : row < s.firstRow + (s.groupBounds stride g).2) :
      (v.plan stride).retains row = true ↔
        ∃ f ∈ v.stripes[i]?, (f.kept s.groups)[g]? = some true := by
    have hstart : s.firstRow ≤ row := by omega
    have hend : row < s.stop := by
      unfold Stripe.stop
      omega
    have hgroup : (s.groupOf stride row).1 = g := by
      have := (hfits.groupOf_mem_iff hg le_rfl hstart hend).mp ⟨low, high⟩
      omega
    rw [Plan.retains, List.any_eq_true, contains_iff_kept fits hs hstart hend, hgroup]
  have hcovers : (v.plan stride).covers s g =
      (List.range' (s.firstRow + (s.groupBounds stride g).1)
        ((s.groupBounds stride g).2 - (s.groupBounds stride g).1)).all
          (v.plan stride).retains := rfl
  rw [hcovers, List.all_eq_true]
  constructor
  · intro h
    exact (hrow le_rfl (by omega)).mp (h _ (List.mem_range'_1.mpr ⟨le_rfl, by omega⟩))
  · intro h row hmem
    obtain ⟨low, high⟩ := List.mem_range'_1.mp hmem
    exact (hrow low (by omega)).mpr h

theorem coveredGroups_of_surveyed {f : StripeSurvey} (hf : v.stripes[i]? = some f) :
    (v.plan stride).coveredGroups s = (f.kept s.groups).countP id := by
  have hcovers : ∀ g < s.groups,
      ((v.plan stride).covers s g = true ↔ (f.kept s.groups)[g]? = some true) := by
    intro g hg
    rw [covers_iff fits hs hg, hf]
    simp
  rw [Plan.coveredGroups]
  unfold StripeSurvey.kept at hcovers ⊢
  split at hcovers
  · rw [if_pos ‹_›, List.countP_map]
    refine List.countP_congr fun g hg => ?_
    rw [List.mem_range] at hg
    rw [hcovers g hg, List.getElem?_map, List.getElem?_range hg]
    simp
  · rw [if_neg ‹_›, List.countP_nil, List.countP_eq_zero]
    intro g hg
    rw [hcovers g (List.mem_range.mp hg)]
    simp

theorem coveredGroups_of_not_surveyed (hf : v.stripes[i]? = none) :
    (v.plan stride).coveredGroups s = 0 := by
  rw [Plan.coveredGroups, List.countP_eq_zero]
  intro g hg
  rw [covers_iff fits hs (List.mem_range.mp hg), hf]
  simp

end covers

/-! ### Selected stripes -/

/-- Whether stripes of a plan, in order, are those that have rows and that no level above the row
groups drops. -/
structure Selects (v : Survey) (argument : Option BoundSearchArgument) (pruning : Pruning)
    (p : Plan) (stripes : List Stripe) : Prop where
  sublist : stripes.Sublist p.stripes
  mem_iff : ∀ (i : ℕ) (s : Stripe), p.stripes[i]? = some s →
    (s ∈ stripes ↔ s.rows ≠ 0 ∧ v.KeepsFile argument pruning ∧ v.KeepsStripe argument pruning i)

theorem selects_of_complete (complete : v.Complete source argument pruning) :
    v.Selects argument pruning (v.plan source.stride) (v.selected source.stride) where
  sublist := by
    show List.Sublist _ (Stripe.layout source.stride 0 0 v.rows)
    cases hfile : keptBy v.file with
    | false =>
        rw [selected, complete.skipped hfile, List.zip_nil_right]
        exact List.nil_sublist _
    | true =>
        conv_rhs => rw [← List.map_fst_zip (complete.stripes hfile).length_eq.le]
        exact List.filter_sublist.map _
  mem_iff i s hs := by
    rw [selected, List.mem_map, keepsFile_iff complete]
    constructor
    · rintro ⟨⟨t, f⟩, hp, rfl⟩
      obtain ⟨hp, hselected⟩ := List.mem_filter.mp hp
      obtain ⟨hrows, hkept⟩ := Bool.and_eq_true_iff.mp hselected
      obtain ⟨j, hj⟩ := List.mem_iff_getElem?.mp hp
      obtain ⟨ht, hf⟩ := List.getElem?_zip_eq_some.mp hj
      -- Stripes know their places, so this is the survey of the stripe.
      obtain rfl : j = i := (plan_stripe ht).1.symm.trans (plan_stripe hs).1
      have hcomplete := complete.stripe_complete hs hf
      have hrows : t.rows ≠ 0 := of_decide_eq_true hrows
      refine ⟨hrows, ?_, (keepsStripe_iff hf hcomplete hrows).mpr hkept⟩
      by_contra hskip
      rw [complete.skipped (Bool.not_eq_true _ ▸ hskip)] at hf
      cases hf
    · rintro ⟨hrows, hfile, hkeeps⟩
      obtain ⟨f, hf⟩ := complete.exists_survey hs hfile
      have hkept := (keepsStripe_iff hf (complete.stripe_complete hs hf) hrows).mp hkeeps
      refine ⟨(s, f), List.mem_filter.mpr ⟨List.mem_iff_getElem?.mpr
        ⟨i, List.getElem?_zip_eq_some.mpr ⟨hs, hf⟩⟩, ?_⟩, rfl⟩
      exact Bool.and_eq_true_iff.mpr ⟨decide_eq_true hrows, hkept⟩

/-! ### Counters of a survey -/

section fits

variable (fits : (v.plan stride).Fits)

include fits

theorem sum_coveredGroups_of_skipped (hskipped : v.stripes = []) :
    ((v.plan stride).stripes.map (v.plan stride).coveredGroups).sum = 0 := by
  rw [List.sum_eq_zero_iff]
  intro n hn
  obtain ⟨s, hs, rfl⟩ := List.mem_map.mp hn
  obtain ⟨i, hi⟩ := List.mem_iff_getElem?.mp hs
  exact coveredGroups_of_not_surveyed fits hi (by rw [hskipped]; rfl)

section surveyed

variable (hlength : (Stripe.layout stride 0 0 v.rows).length = v.stripes.length)

include hlength

/-- Stripe by stripe, the ranges cover the groups that are kept. -/
theorem map_coveredGroups :
    (v.plan stride).stripes.map (v.plan stride).coveredGroups =
      ((Stripe.layout stride 0 0 v.rows).zip v.stripes).map
        fun p => (p.2.kept p.1.groups).countP id := by
  have hstripes : (v.plan stride).stripes = Stripe.layout stride 0 0 v.rows := rfl
  refine List.ext_getElem (by simp [hstripes, hlength]) fun i hi hi' => ?_
  rw [List.length_map] at hi
  have hf : i < v.stripes.length := by
    rw [← hlength]
    exact hi
  rw [List.getElem_map, List.getElem_map, List.getElem_zip]
  exact coveredGroups_of_surveyed fits (List.getElem?_eq_getElem hi) (List.getElem?_eq_getElem hf)

omit fits in
theorem countP_rows :
    ((v.plan stride).stripes.map Stripe.rows).countP (· ≠ 0) =
      ((Stripe.layout stride 0 0 v.rows).zip v.stripes).countP fun p => p.1.rows ≠ 0 := by
  show ((Stripe.layout stride 0 0 v.rows).map Stripe.rows).countP (· ≠ 0) = _
  conv_lhs => rw [← List.map_fst_zip hlength.le]
  rw [List.countP_map, List.countP_map]
  rfl

end surveyed

end fits

/-- The counters of a survey are those of its plan. -/
theorem counted_of_complete (complete : v.Complete source argument pruning)
    (fits : (v.plan source.stride).Fits) :
    (v.plan source.stride).Counted (v.selected source.stride) (v.counted source.stride .zero) ∧
      ((v.counted source.stride .zero).filePruned = true ↔ ¬v.KeepsFile argument pruning) := by
  rw [keepsFile_iff complete]
  cases hfile : keptBy v.file with
  | false =>
      have hskipped := complete.skipped hfile
      have hranges : (v.plan source.stride).ranges = [] := by
        rw [plan, hskipped, List.zipWith_nil_right]
        rfl
      have hselected : v.selected source.stride = [] := by
        rw [selected, hskipped, List.zip_nil_right]
        rfl
      have hcounted : v.counted source.stride .zero = { Metrics.zero with filePruned := true } := by
        rw [counted, hfile]
        rfl
      rw [hcounted, hselected]
      refine ⟨⟨le_rfl, Nat.zero_le _, rfl, rfl, ?_, ?_, fun _ => ?_, rfl, rfl⟩, ?_⟩
      · exact (sum_coveredGroups_of_skipped fits hskipped).symm
      · rw [hranges]
        rfl
      · exact ⟨rfl, rfl, rfl, rfl, rfl⟩
      · show true = true ↔ ¬false = true
        decide
  | true =>
      have hlength := (complete.stripes hfile).length_eq
      have cut : ∀ p ∈ (Stripe.layout source.stride 0 0 v.rows).zip v.stripes,
          p.1.Cut source.stride := fun p hp => Stripe.layout_cut p.1 (List.of_mem_zip hp).1
      have hcounted : v.counted source.stride .zero = _ := if_pos hfile
      rw [foldl_counted cut] at hcounted
      rw [hcounted]
      refine ⟨⟨?_, ?_, ?_, ?_, ?_, ?_, fun h => absurd h Bool.false_ne_true, rfl, rfl⟩, ?_⟩
      · show 0 + _ ≤ 0 + _
        refine Nat.add_le_add_left (List.countP_mono_left fun p _ h => ?_) 0
        exact (Bool.and_eq_true_iff.mp h).1
      · show 0 + _ ≤ _
        rw [countP_rows hlength, Nat.zero_add]
      · show 0 + _ = _
        rw [selected, List.length_map, List.countP_eq_length_filter, Nat.zero_add]
      · show 0 + _ = _
        rw [selected, List.map_map, Nat.zero_add]
        rfl
      · show 0 + _ = _
        rw [map_coveredGroups fits hlength, Nat.zero_add]
      · exact (plan_wellFormed fits).selectedRows_eq
      · show false = true ↔ ¬true = true
        decide

end Survey

/-- What planning counts is what the plan says, if nothing overflows: the stripes that are selected
and their row groups, the row groups that the ranges cover and the rows in them; and nothing if the
file is pruned. -/
theorem Plan.build_counts {source : Source σ} {argument : Option BoundSearchArgument}
    {pruning : Pruning} {plan : Plan} {s s' : σ} {m : Metrics}
    (h : (Plan.build source argument pruning).run (s, .zero) = (.ok plan, s', m))
    (fits : plan.Fits) :
    ∃ (v : Survey) (selected : List Stripe),
      (survey source argument pruning).run s = (.ok v, s') ∧
      v.Selects argument pruning plan selected ∧ plan.Counted selected m ∧
      (m.filePruned = true ↔ ¬v.KeepsFile argument pruning) := by
  obtain ⟨v, hv, rfl, rfl⟩ := (build_tallies source argument pruning .zero).eq_of_run h
  have complete := (run_survey hv).1
  exact ⟨v, v.selected source.stride, hv, v.selects_of_complete complete,
    v.counted_of_complete complete fits⟩

end StripeScan
