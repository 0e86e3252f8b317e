import StripeScan.MemoryFile.Matching
import StripeScan.Proofs.MemoryFile.Draining
import StripeScan.Proofs.SearchArgument.Evaluation

/-! # Pruning loses no matching row

A file is described by its statistics if every entry that it reports holds what it claims of each
row of its partition (`MemoryFile.Describes`).  Then each level that is consulted keeps the
partition of a matching row, so the row is in the plan (`retains_of_matches`), and a whole scan
delivers it.

Row by row evaluation of a bound search argument never fails on a well-formed file
(`matchingRows_eq`). -/

namespace StripeScan

/-- The value of a column at a row of a stripe. -/
def MemoryStripe.value (s : MemoryStripe) (column row : ℕ) : Option Literal :=
  (s.rows.columns[column]?).bind (·.literalAt? row)

namespace MemoryFile

/-- The row group that holds a row of a stripe. -/
def groupOf (f : MemoryFile) (row : ℕ) : ℕ := if f.stride = 0 then 0 else row / f.stride

/-- Whether every statistics entry that a file reports makes a claim that holds of each row of its
partition. -/
structure Describes (claim : Statistics → Option Literal → Prop) (f : MemoryFile) : Prop where
  file : ∀ column < f.schema.size, ∀ s ∈ (f.statistics[column]?).join, ∀ row < f.totalRows,
    claim s (f.value column row)
  stripes : ∀ m ∈ f.stripes, ∀ column < f.schema.size, ∀ s ∈ (m.statistics[column]?).join,
    ∀ row < m.rows.rows, claim s (m.value column row)
  groups : ∀ m ∈ f.stripes, ∀ (group : ℕ), ∀ columns ∈ m.groups[group]?,
    ∀ column < f.schema.size, ∀ s ∈ (columns[column]?).join,
    ∀ row < m.rows.rows, f.groupOf row = group → claim s (m.value column row)

theorem Describes.imp {claim claim' : Statistics → Option Literal → Prop} {f : MemoryFile}
    (h : f.Describes claim) (weaker : ∀ s v, claim s v → claim' s v) : f.Describes claim' where
  file c hc s hs row hrow := weaker _ _ (h.file c hc s hs row hrow)
  stripes m hm c hc s hs row hrow := weaker _ _ (h.stripes m hm c hc s hs row hrow)
  groups m hm g columns hg c hc s hs row hrow hrg :=
    weaker _ _ (h.groups m hm g columns hg c hc s hs row hrow hrg)

/-- Whether every statistics entry that a file reports of a column makes a claim that holds of each
row of its partition. -/
structure DescribesColumn (claim : Statistics → Option Literal → Prop) (f : MemoryFile)
    (column : ℕ) : Prop where
  file : ∀ s ∈ (f.statistics[column]?).join, ∀ row < f.totalRows, claim s (f.value column row)
  stripes : ∀ m ∈ f.stripes, ∀ s ∈ (m.statistics[column]?).join, ∀ row < m.rows.rows,
    claim s (m.value column row)
  groups : ∀ m ∈ f.stripes, ∀ (group : ℕ), ∀ columns ∈ m.groups[group]?,
    ∀ s ∈ (columns[column]?).join, ∀ row < m.rows.rows, f.groupOf row = group →
      claim s (m.value column row)

theorem describes_iff {claim : Statistics → Option Literal → Prop} {f : MemoryFile} :
    f.Describes claim ↔ ∀ column < f.schema.size, f.DescribesColumn claim column := by
  constructor
  · intro h column hcolumn
    exact ⟨h.file column hcolumn, fun m hm => h.stripes m hm column hcolumn,
      fun m hm g columns hcolumns => h.groups m hm g columns hcolumns column hcolumn⟩
  · intro h
    exact ⟨fun column hcolumn => (h column hcolumn).file,
      fun m hm column hcolumn => (h column hcolumn).stripes m hm,
      fun m hm g columns hcolumns column hcolumn => (h column hcolumn).groups m hm g columns
        hcolumns⟩

variable {f : MemoryFile}

/-! ### Values and matching rows -/

/-- Every row lies in a stripe. -/
theorem value_eq {i : ℕ} {m : MemoryStripe} (hm : f.stripes[i]? = some m) {row : ℕ}
    (hrow : row < m.rows.rows) (column : ℕ) :
    f.value column (totalOf (f.lengths.take i) + row) = m.value column row :=
  valueIn_eq hm hrow

theorem exists_stripe {row : ℕ} (h : row < f.totalRows) :
    ∃ (i : ℕ) (m : MemoryStripe) (k : ℕ), f.stripes[i]? = some m ∧ k < m.rows.rows ∧
      row = totalOf (f.lengths.take i) + k := by
  have hlt : row < totalOf f.lengths := h
  obtain ⟨i, n, k, hn, hk, hrow⟩ := exists_of_lt_totalOf hlt
  obtain ⟨m, hm, rfl⟩ := Option.map_eq_some_iff.mp (List.getElem?_map ▸ hn)
  exact ⟨i, m, k, hm, hk, hrow⟩

theorem lt_totalRows {i : ℕ} {m : MemoryStripe} (hm : f.stripes[i]? = some m) {row : ℕ}
    (hrow : row < m.rows.rows) : totalOf (f.lengths.take i) + row < f.totalRows := by
  have hlength : f.lengths[i]? = some m.rows.rows := by
    rw [lengths, List.getElem?_map, hm]
    rfl
  have hle := totalOf_take_add_le hlength
  show _ < totalOf f.lengths
  omega

theorem kind_of_value (wf : f.WellFormed) {m : MemoryStripe} (hm : m ∈ f.stripes) {column row : ℕ}
    {v : Literal} (hv : m.value column row = some v) : f.schema.kind? column = some v.kind := by
  obtain ⟨regular, schema⟩ := wf.regular hm
  obtain ⟨c, hc, hcell⟩ := Option.bind_eq_some_iff.mp hv
  obtain ⟨cell, -, hliteral⟩ := Option.bind_eq_some_iff.mp hcell
  obtain ⟨field, hfield, hkind⟩ := regular.exists_field hc
  rw [← schema, Schema.kind?_eq, hfield, ColumnType.kind_of_literal? hliteral]
  exact congrArg some hkind

/-- The rows of a file are of the kinds that a bound search argument declares. -/
theorem fits_row (wf : f.WellFormed) {b : BoundSearchArgument}
    (kinds : ∀ p ∈ b.predicates, f.schema.kind? p.column = some p.predicate.kind) {row : ℕ}
    (hrow : row < f.totalRows) : b.Fits fun column => f.value column row := by
  obtain ⟨i, m, k, hm, hk, rfl⟩ := exists_stripe hrow
  intro p hp v hv
  simp only [value_eq hm hk, Option.mem_def] at hv
  have hkind := kind_of_value wf (List.mem_of_getElem? hm) hv
  rw [kinds p hp, Option.some.injEq] at hkind
  exact hkind.symm

/-- The rows that match are found without failure. -/
theorem matchingRows_eq (wf : f.WellFormed) {argument : SearchArgument} {b : BoundSearchArgument}
    (h : argument.bind f.schema = .ok b) :
    f.matchingRows argument = .ok ((List.range f.totalRows).filter fun row =>
      b.answer (fun column => f.value column row) == some true) := by
  have hrows : ∀ row ∈ List.range f.totalRows, f.rowMatches b row =
      .ok (b.answer (fun column => f.value column row) == some true) := by
    intro row hrow
    rw [rowMatches, BoundSearchArgument.verdict_eq
      (fits_row wf (SearchArgument.bind_kinds h) (List.mem_range.mp hrow))]
    rfl
  rw [matchingRows, h, bind_ok, filterM_eq_ok hrows]
  rfl

/-! ### Fetching -/

theorem run_fileStatistics {c s s' : ℕ} {x : Option Statistics}
    (h : (f.source.fileStatistics c).run s = (.ok x, s')) : x = (f.statistics[c]?).join := by
  have hrun : Access.run (Access.ofExcept (f.fileStatistics c)) s = (.ok x, s') := h
  rw [Access.run_ofExcept, Prod.mk.injEq] at hrun
  obtain ⟨_, -, hx⟩ := bind_eq_ok_iff.mp hrun.1
  cases hx
  rfl

theorem run_stripeStatistics {i c s s' : ℕ} {x : Option Statistics} {m : MemoryStripe}
    (hm : f.stripes[i]? = some m) (h : (f.source.stripeStatistics i c).run s = (.ok x, s')) :
    x = (m.statistics[c]?).join := by
  have hrun : Access.run (Access.ofExcept (f.stripeStatistics i c)) s = (.ok x, s') := h
  rw [Access.run_ofExcept, Prod.mk.injEq] at hrun
  obtain ⟨_, -, hx⟩ := bind_eq_ok_iff.mp hrun.1
  rw [stripe_eq hm, bind_ok] at hx
  cases hx
  rfl

theorem run_groupStatistics {i g c s s' : ℕ} {x : Option Statistics} {m : MemoryStripe}
    (hm : f.stripes[i]? = some m) (h : (f.source.groupStatistics i g c).run s = (.ok x, s')) :
    x = ((m.groups[g]?).bind (·[c]?)).join := by
  have hrun : Access.run (Access.ofExcept (f.groupStatistics i g c)) s = (.ok x, s') := h
  rw [Access.run_ofExcept, Prod.mk.injEq] at hrun
  obtain ⟨_, -, hx⟩ := bind_eq_ok_iff.mp hrun.1
  rw [stripe_eq hm, bind_ok] at hx
  cases hx
  rfl

/-! ### Plans -/

section plan

variable {argument : Option BoundSearchArgument} {pruning : Pruning} {v : Survey} {s s' i row : ℕ}
variable {m : MemoryStripe} (wf : f.WellFormed)
variable (hv : (survey f.source argument pruning).run s = (.ok v, s'))
variable (hm : f.stripes[i]? = some m) (hrow : row < m.rows.rows)

include wf hv hm

/-- Where the stripes of a file lie in a plan. -/
theorem plan_stripe : ∃ stripe : Stripe, (v.plan f.stride).stripes[i]? = some stripe ∧
    stripe.index = i ∧ stripe.firstRow = totalOf (f.lengths.take i) ∧
    stripe.rows = m.rows.rows := by
  have hrows := survey_rows hv
  have hlengths : v.rows[i]? = some m.rows.rows := by
    rw [hrows, lengths, List.getElem?_map, hm]
    rfl
  have hstripe := (Stripe.layout_getElem? f.stride 0 0 i v.rows).trans
    (Option.map_eq_some_iff.mpr ⟨_, hlengths, rfl⟩)
  exact ⟨_, hstripe, (v.plan_stripe hstripe).1,
    hrows ▸ v.plan_firstRow (wf.plan_fits hrows) hstripe, rfl⟩

include hrow

/-- Where the rows of a file lie in a plan. -/
theorem plan_row {stripe : Stripe} (hs : (v.plan f.stride).stripes[i]? = some stripe) :
    stripe.firstRow ≤ totalOf (f.lengths.take i) + row ∧
      totalOf (f.lengths.take i) + row < stripe.stop ∧
      (stripe.groupOf f.stride (totalOf (f.lengths.take i) + row)).1 = f.groupOf row ∧
      f.groupOf row < stripe.groups := by
  obtain ⟨stripe', hs', -, hfirst, hlen⟩ := plan_stripe wf hv hm
  rw [hs] at hs'
  cases hs'
  have low : stripe.firstRow ≤ totalOf (f.lengths.take i) + row := by omega
  have high : totalOf (f.lengths.take i) + row < stripe.stop := by
    unfold Stripe.stop
    omega
  have fits := v.plan_stripe_fits (wf.plan_fits (survey_rows hv)) hs
  have hgroup : (stripe.groupOf f.stride (totalOf (f.lengths.take i) + row)).1 = f.groupOf row := by
    rw [fits.groupOf_eq low high, hfirst, Nat.add_sub_cancel_left, groupOf]
    split <;> rfl
  exact ⟨low, high, hgroup, hgroup ▸ fits.groupOf_lt low high⟩

/-- A row is in the plan exactly if its stripe is surveyed and both stripe and row group are kept.
-/
theorem retains_iff : (v.plan f.stride).retains (totalOf (f.lengths.take i) + row) = true ↔
    ∃ found, v.stripes[i]? = some found ∧ keptBy found.truth = true ∧
      keptBy found.groups[f.groupOf row]? = true := by
  obtain ⟨stripe, hs, -⟩ := plan_stripe wf hv hm
  obtain ⟨low, high, hgroup, hlt⟩ := plan_row wf hv hm hrow hs
  have fits := wf.plan_fits (survey_rows hv)
  rw [Plan.retains, List.any_eq_true, v.contains_iff_kept fits hs low high, hgroup]
  refine exists_congr fun found => and_congr_right fun _ => ?_
  exact StripeSurvey.kept_getElem?_iff found hlt

end plan

/-! ### Soundness -/

section sound

variable {b : BoundSearchArgument} {pruning : Pruning} {v : Survey} {s s' i row : ℕ}
variable {m : MemoryStripe} {found : StripeSurvey} (wf : f.WellFormed)
variable (describes : ∀ p ∈ b.predicates, f.DescribesColumn Statistics.Admits p.column)
variable (hv : (survey f.source (some b) pruning).run s = (.ok v, s'))
variable (hm : f.stripes[i]? = some m) (hrow : row < m.rows.rows)
variable (matching : b.answer (fun column => m.value column row) = some true)

include describes hv hm hrow matching

/-- The file of a matching row is kept. -/
theorem keepsFile_of_matches : keptBy v.file = true := by
  obtain ⟨complete, -⟩ := run_survey hv
  have hvalue : (fun column => f.value column (totalOf (f.lengths.take i) + row)) =
      fun column => m.value column row := funext (value_eq hm hrow)
  have htotal : totalOf (f.lengths.take i) + row < f.totalRows := lt_totalRows hm hrow
  refine keptBy_eq_true fun t ht => ?_
  obtain ⟨u, u', hrun⟩ := complete.evaluated b rfl t ht
  refine BoundSearchArgument.isNeeded_of_matches (fun p hp x w w' hfetch st hst => ?_)
    (hvalue ▸ matching) hrun
  rw [run_fileStatistics hfetch] at hst
  exact (describes p hp).file st hst _ htotal

include wf

/-- The stripe of a matching row is kept. -/
theorem keepsStripe_of_matches (hfound : v.stripes[i]? = some found) :
    keptBy found.truth = true := by
  obtain ⟨complete, -⟩ := run_survey hv
  obtain ⟨stripe, hs, hindex, -, -⟩ := plan_stripe wf hv hm
  refine keptBy_eq_true fun t ht => ?_
  obtain ⟨u, u', hrun⟩ := (complete.stripe_complete hs hfound).evaluated b rfl t ht
  rw [hindex] at hrun
  refine BoundSearchArgument.isNeeded_of_matches (fun p hp x w w' hfetch st hst => ?_) matching hrun
  rw [run_stripeStatistics hm hfetch] at hst
  exact (describes p hp).stripes m (List.mem_of_getElem? hm) st hst row hrow

/-- The row group of a matching row is kept. -/
theorem keepsGroup_of_matches (hfound : v.stripes[i]? = some found) :
    keptBy found.groups[f.groupOf row]? = true := by
  obtain ⟨complete, -⟩ := run_survey hv
  obtain ⟨stripe, hs, hindex, -, -⟩ := plan_stripe wf hv hm
  refine keptBy_eq_true fun t ht => ?_
  obtain ⟨u, u', hrun⟩ := (complete.stripe_complete hs hfound).evaluatedGroups b rfl _ t ht
  rw [hindex] at hrun
  refine BoundSearchArgument.isNeeded_of_matches (fun p hp x w w' hfetch st hst => ?_) matching hrun
  rw [run_groupStatistics hm hfetch] at hst
  obtain ⟨entries, hentries, hst⟩ := Option.bind_eq_some_iff.mp (Option.join_eq_some_iff.mp hst)
  exact (describes p hp).groups m (List.mem_of_getElem? hm) _ entries hentries st
    (Option.join_eq_some_iff.mpr hst) row hrow rfl

/-- A matching row is in the plan. -/
theorem retains_of_matches :
    (v.plan f.stride).retains (totalOf (f.lengths.take i) + row) = true := by
  obtain ⟨complete, -⟩ := run_survey hv
  obtain ⟨stripe, hs, -, -, -⟩ := plan_stripe wf hv hm
  have hfile := keepsFile_of_matches describes hv hm hrow matching
  obtain ⟨found, hfound⟩ := complete.exists_survey hs hfile
  refine (retains_iff wf hv hm hrow).mpr ⟨found, hfound, ?_, ?_⟩
  · exact keepsStripe_of_matches wf describes hv hm hrow matching hfound
  · exact keepsGroup_of_matches wf describes hv hm hrow matching hfound

end sound

theorem lt_size_of_kind? {schema : Schema} {i : ℕ} {kind : Kind} (h : schema.kind? i = some kind) :
    i < schema.size := by
  exact (List.getElem?_eq_some_iff.mp h).1

/-- The plan of a scan with a search argument. -/
theorem plan_of_startScan {argument : SearchArgument} {options : ScanOptions}
    (hargument : options.argument = some argument) {source : Source ℕ} {scan : Scan} {readings : ℕ}
    (h : (f.startScan options).run 0 = (.ok (source, scan), readings)) :
    ∃ b v, argument.bind f.schema = .ok b ∧
      (survey f.source (some b) options.pruning).run 0 = (.ok v, readings) ∧
      scan.plan = v.plan f.stride := by
  obtain ⟨-, hstart⟩ := run_startScan_eq_ok_iff.mp h
  obtain ⟨-, bound, hbound, -, hbuild, -, -⟩ := Scan.run_start_eq_ok_iff.mp hstart
  rw [hargument] at hbound
  obtain ⟨b, hb, rfl⟩ := map_eq_ok_iff.mp (mapError_eq_ok_iff.mp hbound)
  obtain ⟨v, hv, -, hplan⟩ := plan_of_build hbuild
  exact ⟨b, v, hb, hv, hplan⟩

/-- What is drained of a scan with a search argument, where the statistics of the file admit its
rows: the rows that match are among the rows of the plan. -/
theorem matchingRows_drained (wf : f.WellFormed) (reads : f.failsRows = false)
    (describes : f.Describes Statistics.Admits) {argument : SearchArgument} {options : ScanOptions}
    (hargument : options.argument = some argument) {source : Source ℕ} {scan : Scan} {readings : ℕ}
    (h : (f.startScan options).run 0 = (.ok (source, scan), readings)) {capacity : ℕ}
    (positive : 0 < capacity) :
    ∃ matching drained, f.matchingRows argument = .ok matching ∧
      f.scanAll options capacity = .ok drained ∧ drained.failure = none ∧
      drained.scan.cursor.state = .exhausted ∧ drained.rows.Nodup ∧
      ∀ row ∈ matching, row ∈ drained.rows := by
  obtain ⟨drained, hdrained, hfailure, hended, hrows⟩ := scanAll_rows wf reads h positive
  obtain ⟨serves, htotal, -⟩ := serves_of_startScan wf h
  obtain ⟨b, v, hb, hv, hplan⟩ := plan_of_startScan hargument h
  have kinds := SearchArgument.bind_kinds hb
  refine ⟨_, drained, matchingRows_eq wf hb, hdrained, hfailure, hended, ?_, fun row hrow => ?_⟩
  · rw [hrows]
    exact List.Nodup.filter _ List.nodup_range'
  · obtain ⟨hlt, hmatch⟩ := List.mem_filter.mp hrow
    rw [List.mem_range] at hlt
    obtain ⟨i, m, k, hm, hk, rfl⟩ := exists_stripe hlt
    rw [funext (value_eq hm hk)] at hmatch
    have hcolumns : ∀ p ∈ b.predicates, f.DescribesColumn Statistics.Admits p.column :=
      fun p hp => describes_iff.mp describes p.column (lt_size_of_kind? (kinds p hp))
    have hretains := retains_of_matches wf hcolumns hv hm hk (beq_iff_eq.mp hmatch)
    rw [hrows, Plan.rowsFrom, List.mem_filter, List.mem_range'_1, htotal, hplan]
    exact ⟨⟨Nat.zero_le _, by omega⟩, hretains⟩

/-- Pruning is sound over whole scans.  Where every statistics entry that a file reports covers the
rows of its partition, a scan with a search argument, whatever levels it consults, whatever columns
it keeps and however large its batches are, ends and delivers each row that matches exactly once. -/
theorem scanAll_sound (wf : f.WellFormed) (reads : f.failsRows = false)
    (covered : f.Describes Statistics.Covers) {argument : SearchArgument} {options : ScanOptions}
    (hargument : options.argument = some argument) {source : Source ℕ} {scan : Scan} {readings : ℕ}
    (h : (f.startScan options).run 0 = (.ok (source, scan), readings)) {capacity : ℕ}
    (positive : 0 < capacity) :
    ∃ matching drained, f.matchingRows argument = .ok matching ∧
      f.scanAll options capacity = .ok drained ∧ drained.failure = none ∧
      drained.scan.cursor.state = .exhausted ∧ ∀ row ∈ matching, drained.rows.count row = 1 := by
  obtain ⟨matching, drained, hmatching, hdrained, hfailure, hended, hnodup, hmem⟩ :=
    matchingRows_drained wf reads (covered.imp fun _ _ => Statistics.Covers.admits) hargument h
      positive
  refine ⟨matching, drained, hmatching, hdrained, hfailure, hended, fun row hrow => ?_⟩
  exact List.count_eq_one_of_mem hnodup (hmem row hrow)

theorem threeNumbers_covered : threeNumbers.Describes Statistics.Covers where
  file := by decide
  stripes := by decide
  groups := by
    intro m hm group columns hcolumns
    obtain rfl := List.mem_singleton.mp hm
    match group with
    | 0 =>
        cases hcolumns
        decide
    | 1 =>
        cases hcolumns
        decide
    | _ + 2 => cases hcolumns

/-- The argument that the values of the column are less than three. -/
def lessThanThree : SearchArgument :=
  ⟨[⟨.ordinal 0, .long, .lessThan (.long 3), by simp [Test.literals, Literal.kind]⟩], .atom 0⟩

theorem scanAll_sound_threeNumbers :
    ∃ matching drained, threeNumbers.matchingRows lessThanThree = .ok matching ∧
      threeNumbers.scanAll ⟨some lessThanThree, 8, none, .full⟩ 1 = .ok drained ∧
      drained.failure = none ∧ drained.scan.cursor.state = .exhausted ∧
      ∀ row ∈ matching, drained.rows.count row = 1 := by
  have h : (threeNumbers.startScan ⟨some lessThanThree, 8, none, .full⟩).run 0 =
      (.ok (threeNumbers.source, _), 0) := rfl
  exact scanAll_sound threeNumbers_wellFormed rfl threeNumbers_covered rfl h (by decide)

end MemoryFile

end StripeScan
