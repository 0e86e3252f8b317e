import StripeScan.Proofs.Outcome
import StripeScan.Proofs.Scan.Layout
import StripeScan.Scan.Plan

/-! # What planning finds out

`survey` makes the requests of planning and keeps what they say: the number of rows of each stripe,
the truths that are evaluated and the numbers of indexed row groups.  A plan is a plain function of
its survey (`Plan.build_mirrors`), so everything about plans can be read off surveys; and so are the
counters that planning leaves (`Plan.build_tallies`).

A finer level is surveyed only where the coarser ones are kept, and only if it is to be consulted;
`Survey.Complete` says what is found where. -/

namespace StripeScan

variable {σ : Type}

/-- Whether a partition is kept: its truth says that rows may match, or it was not evaluated. -/
def keptBy (truth : Option Truth) : Bool := truth.all Truth.isNeeded

theorem keptBy_eq_true {truth : Option Truth} (h : ∀ t ∈ truth, t.isNeeded = true) :
    keptBy truth = true := by
  cases truth with
  | none => rfl
  | some t => exact h t rfl

/-- What planning finds out about a stripe: its truth, the number of its indexed row groups, and
their truths, as far as they are asked for. -/
structure StripeSurvey where
  truth : Option Truth
  indexed : Option ℕ
  groups : List Truth

/-- What planning finds out about a file. -/
structure Survey where
  rows : List ℕ
  file : Option Truth
  stripes : List StripeSurvey

/-- The truth over a partition, if there is an argument to consult. -/
def assess (argument : Option BoundSearchArgument) (fetch : ℕ → Access σ (Option Statistics)) :
    Access σ (Option Truth) :=
  match argument with
  | none => pure none
  | some b => some <$> b.evaluate fetch

/-- The number of indexed row groups of a stripe and their truths. -/
def surveyGroups (source : Source σ) (argument : Option BoundSearchArgument) (stripe : Stripe) :
    Access σ (Option ℕ × List Truth) :=
  match argument with
  | none => pure (none, [])
  | some b =>
    if source.stride = 0 then pure (none, [])
    else do
      let indexed ← source.groupCount stripe.index
      let groups ← (List.range (min indexed stripe.groups)).mapM fun group =>
        b.evaluate (source.groupStatistics stripe.index group)
      return (some indexed, groups)

/-- Surveys a stripe; one without rows is passed over. -/
def surveyStripe (source : Source σ) (argument : Option BoundSearchArgument) (pruning : Pruning)
    (stripe : Stripe) : Access σ StripeSurvey :=
  if stripe.rows = 0 then pure ⟨none, none, []⟩
  else do
    let truth ← assess (Plan.consulted argument pruning.stripe)
      (source.stripeStatistics stripe.index)
    if keptBy truth then
      let (indexed, groups) ←
        surveyGroups source (Plan.consulted argument pruning.rowGroup) stripe
      return ⟨truth, indexed, groups⟩
    else return ⟨truth, none, []⟩

/-- Surveys a file; its stripes are passed over if the file is not kept. -/
def survey (source : Source σ) (argument : Option BoundSearchArgument) (pruning : Pruning) :
    Access σ Survey := do
  let rows ← (List.range source.stripeCount).mapM source.stripeRows
  let file ← assess (Plan.consulted argument pruning.file) source.fileStatistics
  if keptBy file then
    let stripes ← (Stripe.layout source.stride 0 0 rows).mapM (surveyStripe source argument pruning)
    return ⟨rows, file, stripes⟩
  else return ⟨rows, file, []⟩

/-! ### The plan of a survey -/

/-- Which row groups of a stripe are kept. -/
def StripeSurvey.kept (f : StripeSurvey) (groups : ℕ) : List Bool :=
  if keptBy f.truth then (List.range groups).map fun g => keptBy f.groups[g]? else []

/-- The ranges to read of a stripe. -/
def StripeSurvey.ranges (stride : ℕ) (stripe : Stripe) (f : StripeSurvey) : List RowRange :=
  stripe.keptRanges stride (f.kept stripe.groups)

/-- The plan of a survey. -/
def Survey.plan (stride : ℕ) (v : Survey) : Plan :=
  let stripes := Stripe.layout stride 0 0 v.rows
  ⟨stripes, (List.zipWith (StripeSurvey.ranges stride) stripes v.stripes).flatten, Word.sum v.rows,
    stride⟩

/-! ### The counters of a survey -/

/-- What is counted for a stripe. -/
def StripeSurvey.counted (stripe : Stripe) (f : StripeSurvey) (m : Metrics) : Metrics :=
  if stripe.rows = 0 then m
  else if keptBy f.truth then
    { m with
      stripesEvaluated := m.stripesEvaluated + 1
      stripesSelected := m.stripesSelected + 1
      rowGroupsEvaluated := m.rowGroupsEvaluated + stripe.groups
      rowGroupsSelected := m.rowGroupsSelected + (f.kept stripe.groups).countP id }
  else { m with stripesEvaluated := m.stripesEvaluated + 1 }

/-- What is counted for a file. -/
def Survey.counted (stride : ℕ) (v : Survey) (m : Metrics) : Metrics :=
  if keptBy v.file then
    { ((Stripe.layout stride 0 0 v.rows).zip v.stripes).foldl (fun m p => p.2.counted p.1 m) m with
      rowsSelected := (v.plan stride).selectedRows }
  else { m with filePruned := true }

/-! ### Planning is surveying -/

theorem keeps_eq (argument : Option BoundSearchArgument)
    (fetch : ℕ → Access σ (Option Statistics)) :
    Plan.keeps argument fetch = keptBy <$> assess argument fetch := by
  cases argument with
  | none => rfl
  | some b =>
      rw [assess, ← LawfulFunctor.comp_map]
      rfl

theorem mapM_isNeeded {ι : Type} {b : BoundSearchArgument}
    {fetch : ι → ℕ → Access σ (Option Statistics)} (xs : List ι) :
    (xs.mapM fun x => b.isNeeded (fetch x)) =
      List.map Truth.isNeeded <$> xs.mapM fun x => b.evaluate (fetch x) := by
  induction xs with
  | nil => rfl
  | cons x xs ih =>
      rw [List.mapM_cons, List.mapM_cons, ih, BoundSearchArgument.isNeeded]
      simp only [map_bind, bind_map_left, map_pure, List.map_cons]

theorem replicate_eq_kept (groups : ℕ) :
    List.replicate groups true =
      (List.range groups).map fun g => keptBy ([] : List Truth)[g]? := by
  refine List.ext_getElem (by simp) fun i _ _ => ?_
  simp [keptBy]

/-- Groups without a truth are kept. -/
theorem append_replicate_eq_kept {truths : List Truth} {indexed groups : ℕ}
    (h : truths.length = min indexed groups) :
    truths.map Truth.isNeeded ++ List.replicate (groups - indexed) true =
      (List.range groups).map fun g => keptBy truths[g]? := by
  refine List.ext_getElem ?_ fun i hi hi' => ?_
  · simp only [List.length_append, List.length_map, List.length_replicate, List.length_range]
    omega
  · rw [List.getElem_map, List.getElem_range]
    by_cases hlt : i < truths.length
    · rw [List.getElem_append_left (by simpa using hlt), List.getElem_map,
        List.getElem?_eq_getElem hlt]
      rfl
    · rw [List.getElem_append_right (by simpa using hlt), List.getElem_replicate,
        List.getElem?_eq_none (not_lt.mp hlt)]
      rfl

theorem run_keptGroups (source : Source σ) (argument : Option BoundSearchArgument)
    (stripe : Stripe) (s : σ) :
    (Plan.keptGroups source argument stripe source.stride).run s =
      ((fun found : Option ℕ × List Truth =>
        (List.range stripe.groups).map fun g => keptBy found.2[g]?) <$>
          surveyGroups source argument stripe).run s := by
  cases argument with
  | none =>
      rw [Plan.keptGroups, replicate_eq_kept]
      rfl
  | some b =>
      unfold Plan.keptGroups surveyGroups
      simp only
      split
      · rw [replicate_eq_kept]
        rfl
      · simp only [mapM_isNeeded, map_bind, bind_map_left, map_pure]
        rw [Access.run_bind, Access.run_bind]
        rcases (source.groupCount stripe.index).run s with ⟨e | indexed, s₁⟩
        · rfl
        · simp only
          rw [Access.run_bind, Access.run_bind]
          rcases htruths : Access.run _ s₁ with ⟨e | truths, s₂⟩
          · rfl
          · have hlen := Access.run_mapM_length htruths
            rw [List.length_range] at hlen
            simp only [Access.run_pure, append_replicate_eq_kept hlen]

theorem planStripe_tallies (source : Source σ) (argument : Option BoundSearchArgument)
    (pruning : Pruning) {stripe : Stripe} (cut : stripe.Cut source.stride) (m : Metrics) :
    (Plan.planStripe source argument pruning source.stride stripe).Tallies m
      (surveyStripe source argument pruning stripe) (StripeSurvey.ranges source.stride stripe)
      fun f => f.counted stripe m := by
  unfold Plan.planStripe surveyStripe
  split
  · rename_i hrows
    have hgroups : stripe.groups = 0 := by
      rw [cut, Stripe.groupCount, if_pos hrows]
    have hranges : StripeSurvey.ranges source.stride stripe ⟨none, none, []⟩ = [] := by
      rw [StripeSurvey.ranges, hgroups]
      rfl
    rw [← hranges]
    exact .pure _ (if_pos hrows)
  · rename_i hrows
    refine .modifySecond _ (.bind (.onFirst fun s => by rw [keeps_eq]) fun truth => ?_)
    cases htruth : keptBy truth with
    | false =>
        have hranges : StripeSurvey.ranges source.stride stripe ⟨truth, none, []⟩ = [] := by
          rw [StripeSurvey.ranges, StripeSurvey.kept, htruth]
          rfl
        rw [← hranges]
        refine .pure _ ?_
        rw [StripeSurvey.counted, if_neg hrows, htruth]
        rfl
    | true =>
        refine .modifySecond _ (.bind (.onFirst (run_keptGroups _ _ _)) fun found => ?_)
        have hkept : ((List.range stripe.groups).map fun g => keptBy found.2[g]?) =
            StripeSurvey.kept ⟨truth, found.1, found.2⟩ stripe.groups := by
          rw [StripeSurvey.kept, htruth]
          rfl
        have hlength : (StripeSurvey.kept ⟨truth, found.1, found.2⟩ stripe.groups).length =
            stripe.groups := by
          rw [← hkept, List.length_map, List.length_range]
        rw [hkept]
        refine .modifySecond _ (.pure (a := (⟨truth, found.1, found.2⟩ : StripeSurvey))
          (StripeSurvey.ranges source.stride stripe) ?_)
        rw [StripeSurvey.counted, if_neg hrows, htruth, hlength]
        rfl

/-- A plan is that of the survey, made with the same requests, and so are the counters. -/
theorem Plan.build_tallies (source : Source σ) (argument : Option BoundSearchArgument)
    (pruning : Pruning) (m : Metrics) :
    (Plan.build source argument pruning).Tallies m (survey source argument pruning)
      (Survey.plan source.stride) fun v => v.counted source.stride m := by
  unfold Plan.build survey
  refine .bind (k := fun rows =>
    ⟨Stripe.layout source.stride 0 0 rows, [], Word.sum rows, source.stride⟩)
    (.onFirst fun s => rfl) fun rows => ?_
  refine .bind (.onFirst fun s => by rw [keeps_eq]) fun file => ?_
  cases hfile : keptBy file with
  | false =>
      have hplan : Survey.plan source.stride ⟨rows, file, []⟩ =
          ⟨Stripe.layout source.stride 0 0 rows, [], Word.sum rows, source.stride⟩ := by
        rw [Survey.plan, List.zipWith_nil_right]
        rfl
      rw [← hplan]
      refine .modifySecond _ (.pure _ ?_)
      rw [Survey.counted, hfile]
      rfl
  | true =>
      refine .bind (.mapM fun stripe hstripe => planStripe_tallies source argument pruning
        (Stripe.layout_cut stripe hstripe)) fun found => ?_
      refine .modifySecond _ (.pure (a := (⟨rows, file, found⟩ : Survey))
        (Survey.plan source.stride) ?_)
      rw [Survey.counted, hfile]
      rfl

/-- A plan is that of the survey, made with the same requests. -/
theorem Plan.build_mirrors (source : Source σ) (argument : Option BoundSearchArgument)
    (pruning : Pruning) :
    (Plan.build source argument pruning).Mirrors (survey source argument pruning)
      (Survey.plan source.stride) :=
  Access.Tallies.mirrors (build_tallies source argument pruning)

/-! ### What a survey holds -/

theorem run_assess {argument : Option BoundSearchArgument}
    {fetch : ℕ → Access σ (Option Statistics)} {truth : Option Truth} {s s' : σ}
    (h : (assess argument fetch).run s = (.ok truth, s')) :
    (truth = none ↔ argument = none) ∧
      ∀ b ∈ argument, ∀ t ∈ truth, (b.evaluate fetch).run s = (.ok t, s') := by
  cases argument with
  | none =>
      obtain ⟨rfl, rfl⟩ := Access.run_pure_eq_ok_iff.mp h
      exact ⟨by simp, fun b hb => (nomatch hb)⟩
  | some b =>
      obtain ⟨t, ht, rfl⟩ := Access.run_map_eq_ok_iff.mp h
      refine ⟨by simp, fun b' hb t' ht' => ?_⟩
      cases hb
      cases ht'
      exact ht

theorem consulted_eq_none_iff {argument : Option BoundSearchArgument} {level : Bool} :
    Plan.consulted argument level = none ↔ argument = none ∨ level = false := by
  rw [Plan.consulted, Option.filter_eq_none_iff]
  cases argument <;> simp

/-- What the survey of a stripe holds: its evaluated truth exactly if the level is consulted, and
the evaluated truths of the indexed groups exactly if the stripe is kept and their level is
consulted. -/
structure StripeSurvey.Complete (source : Source σ) (argument : Option BoundSearchArgument)
    (pruning : Pruning) (stripe : Stripe) (f : StripeSurvey) : Prop where
  truth : stripe.rows ≠ 0 → (f.truth = none ↔ argument = none ∨ pruning.stripe = false)
  evaluated : ∀ b ∈ argument, ∀ t ∈ f.truth, ∃ s s',
    (b.evaluate (source.stripeStatistics stripe.index)).run s = (.ok t, s')
  indexed : stripe.rows ≠ 0 → keptBy f.truth = true →
    (f.indexed = none ↔ argument = none ∨ pruning.rowGroup = false ∨ source.stride = 0)
  counted : ∀ n ∈ f.indexed, ∃ s s', (source.groupCount stripe.index).run s = (.ok n, s')
  groups : f.groups.length = f.indexed.elim 0 fun n => min n stripe.groups
  evaluatedGroups : ∀ b ∈ argument, ∀ (g : ℕ), ∀ t ∈ f.groups[g]?, ∃ s s',
    (b.evaluate (source.groupStatistics stripe.index g)).run s = (.ok t, s')
  skipped : stripe.rows = 0 ∨ keptBy f.truth = false → f.indexed = none

theorem run_surveyGroups {source : Source σ} {argument : Option BoundSearchArgument}
    {stripe : Stripe} {found : Option ℕ × List Truth} {s s' : σ}
    (h : (surveyGroups source argument stripe).run s = (.ok found, s')) :
    (found.1 = none ↔ argument = none ∨ source.stride = 0) ∧
      (∀ n ∈ found.1, ∃ s s', (source.groupCount stripe.index).run s = (.ok n, s')) ∧
      found.2.length = (found.1.elim 0 fun n => min n stripe.groups) ∧
      ∀ b ∈ argument, ∀ (g : ℕ), ∀ t ∈ found.2[g]?, ∃ s s',
        (b.evaluate (source.groupStatistics stripe.index g)).run s = (.ok t, s') := by
  unfold surveyGroups at h
  split at h
  · obtain ⟨rfl, -⟩ := Access.run_pure_eq_ok_iff.mp h
    simp
  · split at h
    · rename_i hzero
      obtain ⟨rfl, -⟩ := Access.run_pure_eq_ok_iff.mp h
      simp [hzero]
    · rename_i b₀ hpos
      obtain ⟨indexed, s₁, hindexed, h⟩ := Access.run_bind_eq_ok_iff.mp h
      obtain ⟨groups, s₂, hgroups, h⟩ := Access.run_bind_eq_ok_iff.mp h
      obtain ⟨rfl, -⟩ := Access.run_pure_eq_ok_iff.mp h
      refine ⟨by simp [hpos], fun n hn => ?_, ?_, fun b hb g t ht => ?_⟩
      · cases hn
        exact ⟨s, s₁, hindexed⟩
      · rw [Access.run_mapM_length hgroups, List.length_range]
        rfl
      · cases hb
        have hall := Access.run_mapM_forall₂ (R := fun g t => ∃ s s',
          (b₀.evaluate (source.groupStatistics stripe.index g)).run s = (.ok t, s'))
          hgroups fun g t u u' h => ⟨u, u', h⟩
        obtain ⟨hg, rfl⟩ := List.getElem?_eq_some_iff.mp ht
        have hevaluated := hall.get (hall.length_eq ▸ hg) hg
        rwa [List.get_eq_getElem, List.getElem_range] at hevaluated

theorem consulted_true (argument : Option BoundSearchArgument) :
    Plan.consulted argument true = argument := by
  cases argument <;> rfl

theorem mem_of_mem_consulted {argument : Option BoundSearchArgument} {level : Bool}
    {truth : Option Truth} (h : truth = none ↔ Plan.consulted argument level = none)
    {b : BoundSearchArgument} (hb : b ∈ argument) {t : Truth} (ht : t ∈ truth) :
    b ∈ Plan.consulted argument level := by
  cases level with
  | true =>
      rw [consulted_true]
      exact hb
  | false =>
      rw [h.mpr (consulted_eq_none_iff.mpr (.inr rfl))] at ht
      cases ht

theorem run_surveyStripe {source : Source σ} {argument : Option BoundSearchArgument}
    {pruning : Pruning} {stripe : Stripe} {f : StripeSurvey} {s s' : σ}
    (h : (surveyStripe source argument pruning stripe).run s = (.ok f, s')) :
    f.Complete source argument pruning stripe := by
  unfold surveyStripe at h
  split at h
  · rename_i hrows
    obtain ⟨rfl, -⟩ := Access.run_pure_eq_ok_iff.mp h
    exact ⟨absurd hrows, by simp, absurd hrows, by simp, rfl, by simp, fun _ => rfl⟩
  · rename_i hrows
    obtain ⟨truth, s₁, htruth, h⟩ := Access.run_bind_eq_ok_iff.mp h
    obtain ⟨hasked, hevaluated⟩ := run_assess htruth
    have hconsulted := hasked.trans consulted_eq_none_iff
    replace hevaluated : ∀ b ∈ argument, ∀ t ∈ truth, ∃ s s',
        (b.evaluate (source.stripeStatistics stripe.index)).run s = (.ok t, s') :=
      fun b hb t ht => ⟨s, s₁, hevaluated b (mem_of_mem_consulted hasked hb ht) t ht⟩
    split at h
    · rename_i hkept
      obtain ⟨found, s₂, hfound, h⟩ := Access.run_bind_eq_ok_iff.mp h
      obtain ⟨rfl, -⟩ := Access.run_pure_eq_ok_iff.mp h
      obtain ⟨hindexed, hcounted, hlen, hgroups⟩ := run_surveyGroups hfound
      rw [consulted_eq_none_iff, or_assoc] at hindexed
      refine ⟨fun _ => hconsulted, hevaluated, fun _ _ => hindexed, hcounted, hlen,
        fun b hb g t ht => ?_, fun hskip => ?_⟩
      · refine hgroups b ?_ g t ht
        cases hlevel : pruning.rowGroup with
        | true =>
            rw [consulted_true]
            exact hb
        | false =>
            rw [hindexed.mpr (.inr (.inl hlevel))] at hlen
            rw [List.eq_nil_of_length_eq_zero hlen] at ht
            cases ht
      · rcases hskip with hskip | hskip
        · exact absurd hskip hrows
        · rw [hkept] at hskip
          cases hskip
    · rename_i hkept
      obtain ⟨rfl, -⟩ := Access.run_pure_eq_ok_iff.mp h
      exact ⟨fun _ => hconsulted, hevaluated, fun _ hk => absurd hk hkept, by simp, rfl, by simp,
        fun _ => rfl⟩

/-- What the survey of a file holds: the evaluated truth of the file exactly if its level is
consulted, and the surveys of the stripes exactly if the file is kept. -/
structure Survey.Complete (source : Source σ) (argument : Option BoundSearchArgument)
    (pruning : Pruning) (v : Survey) : Prop where
  file : v.file = none ↔ argument = none ∨ pruning.file = false
  evaluated : ∀ b ∈ argument, ∀ t ∈ v.file, ∃ s s',
    (b.evaluate source.fileStatistics).run s = (.ok t, s')
  skipped : keptBy v.file = false → v.stripes = []
  stripes : keptBy v.file = true →
    List.Forall₂ (StripeSurvey.Complete source argument pruning)
      (Stripe.layout source.stride 0 0 v.rows) v.stripes

section complete

variable {source : Source σ} {argument : Option BoundSearchArgument} {pruning : Pruning}
variable {v : Survey}
variable (complete : v.Complete source argument pruning) {i : ℕ} {stripe : Stripe}
variable (hs : (Stripe.layout source.stride 0 0 v.rows)[i]? = some stripe)

include complete hs

/-- Where the file is kept, each stripe is surveyed. -/
theorem Survey.Complete.exists_survey (kept : keptBy v.file = true) :
    ∃ found, v.stripes[i]? = some found := by
  have hlt := (List.getElem?_eq_some_iff.mp hs).1
  rw [(complete.stripes kept).length_eq] at hlt
  exact ⟨_, List.getElem?_eq_getElem hlt⟩

theorem Survey.Complete.stripe_complete {found : StripeSurvey}
    (hfound : v.stripes[i]? = some found) :
    found.Complete source argument pruning stripe := by
  have kept : keptBy v.file = true := by
    by_contra hskip
    rw [complete.skipped (Bool.not_eq_true _ ▸ hskip)] at hfound
    cases hfound
  obtain ⟨hi, rfl⟩ := List.getElem?_eq_some_iff.mp hs
  obtain ⟨hi', rfl⟩ := List.getElem?_eq_some_iff.mp hfound
  exact (complete.stripes kept).get hi hi'

end complete

theorem run_survey {source : Source σ} {argument : Option BoundSearchArgument}
    {pruning : Pruning} {v : Survey} {s s' : σ}
    (h : (survey source argument pruning).run s = (.ok v, s')) :
    v.Complete source argument pruning ∧ v.rows.length = source.stripeCount := by
  obtain ⟨rows, s₁, hrows, h⟩ := Access.run_bind_eq_ok_iff.mp h
  obtain ⟨file, s₂, hfile, h⟩ := Access.run_bind_eq_ok_iff.mp h
  have hlen := Access.run_mapM_length hrows
  rw [List.length_range] at hlen
  obtain ⟨hasked, hevaluated⟩ := run_assess hfile
  have hconsulted := hasked.trans consulted_eq_none_iff
  replace hevaluated : ∀ b ∈ argument, ∀ t ∈ file, ∃ s s',
      (b.evaluate source.fileStatistics).run s = (.ok t, s') :=
    fun b hb t ht => ⟨s₁, s₂, hevaluated b (mem_of_mem_consulted hasked hb ht) t ht⟩
  split at h
  · rename_i hkept
    obtain ⟨stripes, s₃, hstripes, h⟩ := Access.run_bind_eq_ok_iff.mp h
    obtain ⟨rfl, -⟩ := Access.run_pure_eq_ok_iff.mp h
    refine ⟨⟨hconsulted, hevaluated, fun hskip => ?_, fun _ => ?_⟩, hlen⟩
    · rw [hkept] at hskip
      cases hskip
    · exact Access.run_mapM_forall₂ hstripes fun _ _ _ _ h => run_surveyStripe h
  · rename_i hskip
    obtain ⟨rfl, -⟩ := Access.run_pure_eq_ok_iff.mp h
    exact ⟨⟨hconsulted, hevaluated, fun _ => rfl, fun hkept => absurd hkept hskip⟩, hlen⟩

/-! ### Surveys that succeed -/

section succeeds

variable {source : Source σ} {argument : Option BoundSearchArgument} {pruning : Pruning}

theorem assess_succeeds {level : Bool} {fetch : ℕ → Access σ (Option Statistics)}
    (evaluates : ∀ b ∈ argument, (b.evaluate fetch).Succeeds) :
    (assess (Plan.consulted argument level) fetch).Succeeds := by
  cases h : Plan.consulted argument level with
  | none => exact .pure _
  | some b =>
      have hb : b ∈ argument := (Option.filter_eq_some_iff.mp h).1
      exact .map some (evaluates b hb)

theorem surveyStripe_succeeds {stripe : Stripe}
    (statistics : ∀ b ∈ argument, (b.evaluate (source.stripeStatistics stripe.index)).Succeeds)
    (counts : (source.groupCount stripe.index).Succeeds)
    (groups : ∀ b ∈ argument, ∀ g, (b.evaluate (source.groupStatistics stripe.index g)).Succeeds) :
    (surveyStripe source argument pruning stripe).Succeeds := by
  unfold surveyStripe
  split
  · exact .pure _
  · refine .bind (assess_succeeds statistics) fun truth _ _ _ => ?_
    split
    · refine .bind ?_ fun _ _ _ _ => .pure _
      unfold surveyGroups
      split
      · exact .pure _
      · rename_i b hb
        split
        · exact .pure _
        · refine .bind counts fun indexed _ _ _ => ?_
          refine .bind (.mapM fun g _ => ?_) fun _ _ _ _ => .pure _
          exact groups b (Option.filter_eq_some_iff.mp hb).1 g
    · exact .pure _

/-- A survey succeeds where all its requests do and the argument can be evaluated everywhere. -/
theorem survey_succeeds (rows : ∀ i < source.stripeCount, (source.stripeRows i).Succeeds)
    (file : ∀ b ∈ argument, (b.evaluate source.fileStatistics).Succeeds)
    (statistics : ∀ b ∈ argument, ∀ i < source.stripeCount,
      (b.evaluate (source.stripeStatistics i)).Succeeds)
    (counts : ∀ i < source.stripeCount, (source.groupCount i).Succeeds)
    (groups : ∀ b ∈ argument, ∀ i < source.stripeCount, ∀ g,
      (b.evaluate (source.groupStatistics i g)).Succeeds) :
    (survey source argument pruning).Succeeds := by
  refine .bind (.mapM fun i hi => rows i (List.mem_range.mp hi)) fun lengths s s' hlengths => ?_
  have hcount := Access.run_mapM_length hlengths
  rw [List.length_range] at hcount
  refine .bind (assess_succeeds file) fun truth _ _ _ => ?_
  split
  · refine .bind (.mapM fun stripe hstripe => ?_) fun _ _ _ _ => .pure _
    obtain ⟨i, hi⟩ := List.mem_iff_getElem?.mp hstripe
    rw [Stripe.layout_getElem?, Option.map_eq_some_iff] at hi
    obtain ⟨n, hn, rfl⟩ := hi
    have hlt : 0 + i < source.stripeCount := by
      have := (List.getElem?_eq_some_iff.mp hn).1
      omega
    exact surveyStripe_succeeds (fun b hb => statistics b hb _ hlt) (counts _ hlt)
      fun b hb g => groups b hb _ hlt g
  · exact .pure _

end succeeds

end StripeScan
