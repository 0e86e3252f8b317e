import StripeScan.Proofs.Scan.Survey

/-! # Plans, exactly

Nothing checks the row numbers of a plan for overflow.  A plan whose numbers fit into words
(`Plan.Fits`) is well formed (`Plan.WellFormed`): its stripes tile the rows of the file, and its
ranges ascend, each within the stripe it names and made of whole row groups.  A row is in a range
exactly if each level keeps its partition (`Survey.contains_iff_keeps`), where a level keeps what it
does not consult. -/

namespace StripeScan

variable {σ : Type}

/-- Whether the rows of a plan are counted without overflow: their number is a word, and in each
stripe so is the end of the last row group before it is cut off. -/
structure Plan.Fits (p : Plan) : Prop where
  total_lt : totalOf (p.stripes.map Stripe.rows) < UInt64.size
  groups_lt : ∀ s ∈ p.stripes, s.groups * p.stride < UInt64.size

/-- A plan whose stripes tile the file in order and whose ranges ascend, made of row groups of the
stripes they name; nothing in it overflows. -/
structure Plan.WellFormed (p : Plan) : Prop where
  tile : Stripe.Tile 0 p.totalRows p.stripes
  index : ∀ (i : ℕ) (s : Stripe), p.stripes[i]? = some s → s.index = i
  total_lt : p.totalRows < UInt64.size
  fits : ∀ s ∈ p.stripes, s.Fits p.stride
  ranges : ∀ r ∈ p.ranges, ∃ s last, p.stripes[r.stripe]? = some s ∧ r.Spans s p.stride last
  ascending : p.ranges.Pairwise fun a b => a.stop ≤ b.start

theorem Plan.WellFormed.bounds {p : Plan} (h : p.WellFormed) {r : RowRange} (hr : r ∈ p.ranges) :
    r.start < r.stop ∧ r.stop ≤ p.totalRows := by
  obtain ⟨s, last, hs, hspans⟩ := h.ranges r hr
  have hmem := List.mem_of_getElem? hs
  have hbounds := hspans.bounds (h.fits s hmem)
  have hstripe := (Stripe.bounds_of_tile h.tile).2 s hmem
  omega

/-- The end of a range is a word. -/
theorem Plan.WellFormed.stop_lt {p : Plan} (h : p.WellFormed) {r : RowRange} (hr : r ∈ p.ranges) :
    r.stop < UInt64.size :=
  (h.bounds hr).2.trans_lt h.total_lt

/-- A range is made of row groups of the stripe that it names. -/
theorem Plan.WellFormed.exists_spans {p : Plan} (h : p.WellFormed) {r : RowRange}
    (hr : r ∈ p.ranges) {s : Stripe} (hs : p.stripes[r.stripe]? = some s) :
    ∃ last, r.Spans s p.stride last := by
  obtain ⟨t, last, ht, hspans⟩ := h.ranges r hr
  obtain rfl : s = t := Option.some.inj (hs.symm.trans ht)
  exact ⟨last, hspans⟩

/-- No row of a row group is in a range. -/
def Plan.Drops (p : Plan) (s : Stripe) (group : ℕ) : Prop :=
  ∀ row, s.firstRow ≤ row → row < s.stop → (s.groupOf p.stride row).1 = group →
    ∀ r ∈ p.ranges, r.contains row = false

/-- How a range lies before another: they ascend, and if they are of one stripe, a whole row group
that is dropped lies between them. -/
def Plan.Separated (p : Plan) (a b : RowRange) : Prop :=
  a.stop ≤ b.start ∧ (a.stripe = b.stripe → ∃ s g, p.stripes[a.stripe]? = some s ∧
    g < s.groups ∧ p.Drops s g ∧ a.stop ≤ s.firstRow + (s.groupBounds p.stride g).1 ∧
    s.firstRow + (s.groupBounds p.stride g).2 ≤ b.start)

theorem StripeSurvey.kept_length_le (f : StripeSurvey) (groups : ℕ) :
    (f.kept groups).length ≤ groups := by
  unfold kept
  split
  · rw [List.length_map, List.length_range]
  · exact Nat.zero_le _

theorem StripeSurvey.kept_getElem?_iff (f : StripeSurvey) {groups g : ℕ} (hg : g < groups) :
    (f.kept groups)[g]? = some true ↔ keptBy f.truth = true ∧ keptBy f.groups[g]? = true := by
  unfold kept
  split
  · rename_i h
    rw [List.getElem?_map, List.getElem?_range hg]
    simp [h]
  · rename_i h
    simp [h]

/-! ### Levels -/

namespace Survey

section levels

variable (v : Survey) (argument : Option BoundSearchArgument) (pruning : Pruning)

/-- The file is not consulted, or its statistics say that rows may match. -/
def KeepsFile : Prop :=
  argument = none ∨ pruning.file = false ∨ ∃ t ∈ v.file, t.isNeeded = true

/-- The stripe is not consulted, or its statistics say that rows may match. -/
def KeepsStripe (stripe : ℕ) : Prop :=
  argument = none ∨ pruning.stripe = false ∨
    ∃ f ∈ v.stripes[stripe]?, ∃ t ∈ f.truth, t.isNeeded = true

/-- The row group is not consulted, or not indexed, or its statistics say that rows may match. -/
def KeepsGroup (stride stripe group : ℕ) : Prop :=
  argument = none ∨ pruning.rowGroup = false ∨ stride = 0 ∨
    ∃ f ∈ v.stripes[stripe]?, (∃ n ∈ f.indexed, n ≤ group) ∨
      ∃ t ∈ f.groups[group]?, t.isNeeded = true

end levels

variable {v : Survey} {source : Source σ} {argument : Option BoundSearchArgument}
variable {pruning : Pruning} {stride : ℕ}

theorem keptBy_iff {truth : Option Truth} {skipped : Prop} (h : truth = none ↔ skipped) :
    keptBy truth = true ↔ skipped ∨ ∃ t ∈ truth, t.isNeeded = true := by
  rw [← h]
  cases truth with
  | none => simp [keptBy]
  | some t => simp [keptBy]

theorem keepsFile_iff (complete : v.Complete source argument pruning) :
    v.KeepsFile argument pruning ↔ keptBy v.file = true := by
  rw [keptBy_iff complete.file, KeepsFile, or_assoc]

theorem keepsStripe_iff {i : ℕ} {s : Stripe} {f : StripeSurvey} (hf : v.stripes[i]? = some f)
    (complete : f.Complete source argument pruning s) (hrows : s.rows ≠ 0) :
    v.KeepsStripe argument pruning i ↔ keptBy f.truth = true := by
  rw [keptBy_iff (complete.truth hrows), KeepsStripe, hf, or_assoc]
  simp

theorem keepsGroup_iff {i g : ℕ} {s : Stripe} {f : StripeSurvey} (hf : v.stripes[i]? = some f)
    (complete : f.Complete source argument pruning s) (hrows : s.rows ≠ 0)
    (hkept : keptBy f.truth = true) (hg : g < s.groups) :
    v.KeepsGroup argument pruning source.stride i g ↔ keptBy f.groups[g]? = true := by
  have hlen := complete.groups
  have hasked := complete.indexed hrows hkept
  have hunfold : v.KeepsGroup argument pruning source.stride i g ↔ f.indexed = none ∨
      (∃ n ∈ f.indexed, n ≤ g) ∨ ∃ t ∈ f.groups[g]?, t.isNeeded = true := by
    rw [KeepsGroup, hf, hasked]
    simp [or_assoc]
  have hmissing : f.groups[g]? = none ↔ f.indexed = none ∨ ∃ n ∈ f.indexed, n ≤ g := by
    rw [List.getElem?_eq_none_iff, hlen]
    cases f.indexed with
    | none => simp
    | some n =>
        simp only [Option.elim_some, reduceCtorEq, Option.mem_def, Option.some.injEq,
          exists_eq_left', false_or]
        omega
  rw [hunfold, keptBy_iff hmissing, or_assoc]

/-! ### Ranges -/

theorem mem_plan_ranges {r : RowRange} :
    r ∈ (v.plan stride).ranges ↔ ∃ (i : ℕ) (s : Stripe) (f : StripeSurvey),
      (v.plan stride).stripes[i]? = some s ∧ v.stripes[i]? = some f ∧ r ∈ f.ranges stride s := by
  show r ∈ (List.zipWith _ _ _).flatten ↔ _
  rw [List.mem_flatten]
  constructor
  · rintro ⟨l, hl, hr⟩
    obtain ⟨i, hi⟩ := List.mem_iff_getElem?.mp hl
    obtain ⟨s, f, hs, hf, rfl⟩ := List.getElem?_zipWith_eq_some.mp hi
    exact ⟨i, s, f, hs, hf, hr⟩
  · rintro ⟨i, s, f, hs, hf, hr⟩
    refine ⟨_, List.mem_iff_getElem?.mpr ⟨i, ?_⟩, hr⟩
    exact List.getElem?_zipWith_eq_some.mpr ⟨s, f, hs, hf, rfl⟩

section plan

/-- What a stripe of a plan is, whether or not anything overflows. -/
theorem plan_stripe {i : ℕ} {s : Stripe} (hs : (v.plan stride).stripes[i]? = some s) :
    s.index = i ∧ s.Cut stride ∧ v.rows[i]? = some s.rows := by
  have hs' := hs
  simp only [plan, Stripe.layout_getElem?, Option.map_eq_some_iff, Nat.zero_add] at hs'
  obtain ⟨n, hn, rfl⟩ := hs'
  exact ⟨rfl, rfl, hn⟩

variable (fits : (v.plan stride).Fits)

include fits

theorem rows_lt : totalOf v.rows < UInt64.size := by
  have htotal := fits.total_lt
  rwa [plan, Stripe.layout_map_rows] at htotal

theorem plan_totalRows : (v.plan stride).totalRows = totalOf v.rows := Word.sum_eq (rows_lt fits)

theorem plan_tiles : Stripe.Tile 0 (v.plan stride).totalRows (v.plan stride).stripes := by
  have hrows := rows_lt fits
  have h := Stripe.layout_tiles stride 0 (show 0 + totalOf v.rows < UInt64.size by omega)
  rwa [Nat.zero_add, ← plan_totalRows fits] at h

theorem plan_firstRow {i : ℕ} {s : Stripe} (hs : (v.plan stride).stripes[i]? = some s) :
    s.firstRow = totalOf (v.rows.take i) := by
  simp only [plan, Stripe.layout_getElem?, Option.map_eq_some_iff, Nat.zero_add] at hs
  obtain ⟨n, -, rfl⟩ := hs
  exact Word.sum_eq ((totalOf_take_le v.rows i).trans_lt (rows_lt fits))

theorem plan_stripe_fits {i : ℕ} {s : Stripe} (hs : (v.plan stride).stripes[i]? = some s) :
    s.Fits stride := by
  have hmem := List.mem_of_getElem? hs
  have hstop := ((Stripe.bounds_of_tile (plan_tiles fits)).2 s hmem).2
  rw [plan_totalRows fits] at hstop
  exact ⟨(plan_stripe hs).2.1, hstop.trans_lt (rows_lt fits), fits.groups_lt s hmem⟩

/-- Stripes at different places have no row in common. -/
theorem plan_stripe_le {i j : ℕ} {s t : Stripe} (hs : (v.plan stride).stripes[i]? = some s)
    (ht : (v.plan stride).stripes[j]? = some t) (h : i < j) : s.stop ≤ t.firstRow := by
  obtain ⟨hi, rfl⟩ := List.getElem?_eq_some_iff.mp hs
  obtain ⟨hj, rfl⟩ := List.getElem?_eq_some_iff.mp ht
  exact List.pairwise_iff_getElem.mp (Stripe.pairwise_of_tile (plan_tiles fits)) i j hi hj h

omit fits in
theorem mem_ranges_spans {s : Stripe} {f : StripeSurvey} {r : RowRange} (fits : s.Fits stride)
    (hr : r ∈ f.ranges stride s) : ∃ last, r.Spans s stride last := by
  obtain ⟨last, hspans, -⟩ := Stripe.keptRanges_spans fits (f.kept_length_le s.groups) hr
  exact ⟨last, hspans⟩

omit fits in
theorem mem_ranges_bounds {s : Stripe} {f : StripeSurvey} {r : RowRange} (fits : s.Fits stride)
    (hr : r ∈ f.ranges stride s) : s.firstRow ≤ r.start ∧ r.start < r.stop ∧ r.stop ≤ s.stop := by
  obtain ⟨last, hspans⟩ := mem_ranges_spans fits hr
  exact hspans.bounds fits

/-- A row is in a range exactly if its group is kept. -/
theorem contains_iff_kept {i row : ℕ} {s : Stripe} (hs : (v.plan stride).stripes[i]? = some s)
    (low : s.firstRow ≤ row) (high : row < s.stop) :
    (∃ r ∈ (v.plan stride).ranges, r.contains row = true) ↔
      ∃ f ∈ v.stripes[i]?, (f.kept s.groups)[(s.groupOf stride row).1]? = some true := by
  have hfits := plan_stripe_fits fits hs
  constructor
  · rintro ⟨r, hr, hrow⟩
    obtain ⟨j, t, f, ht, hf, hr⟩ := mem_plan_ranges.mp hr
    have hbounds := mem_ranges_bounds (plan_stripe_fits fits ht) hr
    have hrow' := hrow
    rw [RowRange.contains_iff] at hrow'
    -- A range of another stripe lies wholly before or wholly after the stripe of the row.
    have hij : j = i := by
      rcases lt_trichotomy i j with hij | rfl | hij
      · have := plan_stripe_le fits hs ht hij
        omega
      · rfl
      · have := plan_stripe_le fits ht hs hij
        omega
    subst hij
    rw [hs] at ht
    cases ht
    exact ⟨f, hf,
      (Stripe.mem_keptRanges_iff hfits (f.kept_length_le _) low high).mp ⟨r, hr, hrow⟩⟩
  · rintro ⟨f, hf, hkept⟩
    obtain ⟨r, hr, hrow⟩ :=
      (Stripe.mem_keptRanges_iff hfits (f.kept_length_le _) low high).mpr hkept
    exact ⟨r, mem_plan_ranges.mpr ⟨i, s, f, hs, hf, hr⟩, hrow⟩

theorem separated_of_apart {i : ℕ} {s : Stripe} {f : StripeSurvey} {a b : RowRange}
    (hs : (v.plan stride).stripes[i]? = some s) (hf : v.stripes[i]? = some f)
    (ha : a ∈ f.ranges stride s) (h : RowRange.Apart s stride (f.kept s.groups) a b) :
    (v.plan stride).Separated a b := by
  obtain ⟨g, hg, hdropped, hstop, hstart⟩ := h
  have hfits := plan_stripe_fits fits hs
  obtain ⟨last, hspans⟩ := mem_ranges_spans hfits ha
  have hstripe : a.stripe = i := hspans.stripe.trans (plan_stripe hs).1
  have hlt := (hfits.groupBounds_lt hg le_rfl).1
  refine ⟨by omega, fun _ => ⟨s, g, hstripe ▸ hs, hg, ?_, hstop, hstart⟩⟩
  intro row low high hgroup r hr
  by_contra hrow
  rw [Bool.not_eq_false] at hrow
  obtain ⟨f', hf', hkept⟩ := (contains_iff_kept fits hs low high).mp ⟨r, hr, hrow⟩
  rw [hf] at hf'
  cases hf'
  have hgroup : (s.groupOf stride row).1 = g := hgroup
  rw [hgroup] at hkept
  exact hdropped hkept

theorem plan_ranges_pairwise : (v.plan stride).ranges.Pairwise (v.plan stride).Separated := by
  refine List.pairwise_flatten.mpr ⟨fun l hl => ?_, List.pairwise_iff_getElem.mpr ?_⟩
  · obtain ⟨i, hi⟩ := List.mem_iff_getElem?.mp hl
    obtain ⟨s, f, hs, hf, rfl⟩ := List.getElem?_zipWith_eq_some.mp hi
    have hfits := plan_stripe_fits fits hs
    refine (Stripe.keptRanges_pairwise hfits (f.kept_length_le _)).imp_of_mem fun ha _ hab => ?_
    exact separated_of_apart fits hs hf ha hab
  · intro i j hi hj hij a ha b hb
    obtain ⟨s, f, hs, -, hl⟩ := List.getElem?_zipWith_eq_some.mp (List.getElem?_eq_getElem hi)
    obtain ⟨t, g, ht, -, hl'⟩ := List.getElem?_zipWith_eq_some.mp (List.getElem?_eq_getElem hj)
    rw [← hl] at ha
    rw [← hl'] at hb
    have hle := plan_stripe_le fits hs ht hij
    have hbounds := mem_ranges_bounds (plan_stripe_fits fits hs) ha
    have hbounds' := mem_ranges_bounds (plan_stripe_fits fits ht) hb
    refine ⟨by omega, fun hsame => ?_⟩
    obtain ⟨_, hspans⟩ := mem_ranges_spans (plan_stripe_fits fits hs) ha
    obtain ⟨_, hspans'⟩ := mem_ranges_spans (plan_stripe_fits fits ht) hb
    rw [hspans.stripe, hspans'.stripe, (plan_stripe hs).1, (plan_stripe ht).1] at hsame
    omega

theorem plan_wellFormed : (v.plan stride).WellFormed where
  tile := plan_tiles fits
  index i s hs := (plan_stripe hs).1
  total_lt := plan_totalRows fits ▸ rows_lt fits
  fits s hs := by
    obtain ⟨i, hi⟩ := List.mem_iff_getElem?.mp hs
    exact plan_stripe_fits fits hi
  ranges r hr := by
    obtain ⟨i, s, f, hs, -, hr⟩ := mem_plan_ranges.mp hr
    obtain ⟨last, hspans⟩ := mem_ranges_spans (plan_stripe_fits fits hs) hr
    refine ⟨s, last, ?_, hspans⟩
    rw [hspans.stripe, (plan_stripe hs).1]
    exact hs
  ascending := (plan_ranges_pairwise fits).imp fun h => h.1

omit fits in
/-- A row is in a range exactly if each level keeps its partition. -/
theorem contains_iff_keeps (fits : (v.plan source.stride).Fits)
    (complete : v.Complete source argument pruning) {i row : ℕ} {s : Stripe}
    (hs : (v.plan source.stride).stripes[i]? = some s) (low : s.firstRow ≤ row)
    (high : row < s.stop) :
    (∃ r ∈ (v.plan source.stride).ranges, r.contains row = true) ↔
      v.KeepsFile argument pruning ∧ v.KeepsStripe argument pruning i ∧
        v.KeepsGroup argument pruning source.stride i (s.groupOf source.stride row).1 := by
  have hg := (plan_stripe_fits fits hs).groupOf_lt low high
  have hne : s.rows ≠ 0 := by
    unfold Stripe.stop at high
    omega
  rw [contains_iff_kept fits hs low high, keepsFile_iff complete]
  cases hfile : keptBy v.file with
  | false =>
      -- A file that is not kept has no surveyed stripes, so the plan has no ranges.
      rw [complete.skipped hfile]
      simp
  | true =>
      obtain ⟨found, hf⟩ := complete.exists_survey hs hfile
      have hcomplete := complete.stripe_complete hs hf
      rw [keepsStripe_iff hf hcomplete hne, hf]
      simp only [Option.mem_def, Option.some.injEq, exists_eq_left', true_and]
      rw [StripeSurvey.kept_getElem?_iff _ hg]
      refine and_congr_right fun hkept => ?_
      rw [keepsGroup_iff hf hcomplete hne hkept hg]

end plan

end Survey

/-! ### Planning -/

/-- Every plan that is made without overflow is well formed. -/
theorem Plan.wellFormed_of_build {source : Source σ} {argument : Option BoundSearchArgument}
    {pruning : Pruning} {plan : Plan} {s s' : σ} {m m' : Metrics}
    (h : (build source argument pruning).run (s, m) = (.ok plan, s', m')) (fits : plan.Fits) :
    plan.WellFormed := by
  obtain ⟨v, -, hv⟩ := (build_mirrors source argument pruning).run_eq_ok_iff.mp ⟨m', h⟩
  subst hv
  exact Survey.plan_wellFormed fits

/-- One stripe of five rows in three row groups, of which the first two have statistics. -/
def partlyIndexed : Source Unit where
  schema := .ofTyped [⟨"x", .long, true⟩]
  stride := 2
  stripeCount := 1
  stripeRows _ := pure 5
  fileStatistics _ := pure none
  stripeStatistics _ _ := pure none
  groupCount _ := pure 2
  groupStatistics _ group _ := pure (some (.ofRange (.long group.toInt64) (.long group.toInt64) 2))
  rows _ _ _ _ := .fail (.access .readFailure)

/-- The argument that the values of the column are less than one. -/
def lessThanOne : BoundSearchArgument :=
  ⟨[⟨⟨.ordinal 0, .long, .lessThan (.long 1), by simp [Test.literals, Literal.kind]⟩, 0⟩], .atom 0⟩

/-- In a stripe of more rows than half of the words, cut into two row groups, the end of the second
one wraps around: of the rows, which are all to be kept, the plan keeps the first two. -/
example :
    (Plan.build
      { partlyIndexed with stride := 2 ^ 63 + 1, stripeRows := fun _ => pure (2 ^ 63 + 2) }
      none .full).run ((), .zero) =
        (.ok ⟨[⟨0, 0, 2 ^ 63 + 2, 2⟩], [⟨0, 0, 0, 2⟩], 2 ^ 63 + 2, 2 ^ 63 + 1⟩, (),
          ⟨false, 1, 1, 2, 2, 2, 0, 0⟩) := rfl

end StripeScan
