import StripeScan.Proofs.MemoryFile.Deriving
import StripeScan.Proofs.MemoryFile.Pruning
import StripeScan.Proofs.SearchArgument.Outermost

/-! # Scans of files with derived statistics

A scan of a file whose statistics were derived always starts (`Derived.startScan_succeeds`).  It
delivers every row that matches, whatever is asked for, exactly if the values of each column are
boundable in each row group (`build_delivers_iff`).  Where they are not, a value that is no number
follows a number and left no trace in the bounds: a condition that the value satisfies, but no
number within the bounds does, drops its row group. -/

namespace StripeScan

namespace MemoryFile

/-- Whether the values of each column are boundable in each row group of a stripe. -/
def BoundableRows (stride : ℕ) (rows : Batch) : Prop :=
  ∀ chunk ∈ groupChunks stride rows.rows, ∀ c ∈ rows.columns, Statistics.Boundable (c.values chunk)

/-- Whether the values of a column are boundable in each row group of a stripe. -/
def BoundableColumn (stride : ℕ) (rows : Batch) (column : ℕ) : Prop :=
  ∀ chunk ∈ groupChunks stride rows.rows, ∀ c ∈ rows.columns[column]?,
    Statistics.Boundable (c.values chunk)

theorem BoundableRows.column {stride : ℕ} {rows : Batch} (h : BoundableRows stride rows)
    (column : ℕ) : BoundableColumn stride rows column :=
  fun chunk hchunk c hc => h chunk hchunk c (List.mem_of_getElem? hc)

variable {schema : Schema} {stride : ℕ} {stripes : List Batch} {f : MemoryFile}

section derived

variable (derived : Derived schema stride stripes f) (follow : Follow schema stride stripes)

include derived

theorem Derived.exists_rows {m : MemoryStripe} (hm : m ∈ f.stripes) :
    ∃ rows ∈ stripes, DerivedStripe schema stride rows m := by
  obtain ⟨i, hi⟩ := List.mem_iff_getElem?.mp hm
  obtain ⟨hlt, rfl⟩ := List.getElem?_eq_some_iff.mp hi
  have hlt' : i < stripes.length := derived.stripes.length_eq ▸ hlt
  exact ⟨stripes[i], List.getElem_mem hlt', derived.stripes.get hlt' hlt⟩

theorem Derived.exists_stripe {rows : Batch} (hrows : rows ∈ stripes) :
    ∃ (i : ℕ) (m : MemoryStripe), f.stripes[i]? = some m ∧ DerivedStripe schema stride rows m := by
  obtain ⟨i, hi⟩ := List.mem_iff_getElem?.mp hrows
  obtain ⟨hlt, rfl⟩ := List.getElem?_eq_some_iff.mp hi
  have hlt' : i < f.stripes.length := derived.stripes.length_eq ▸ hlt
  exact ⟨i, f.stripes[i], List.getElem?_eq_getElem hlt', derived.stripes.get hlt hlt'⟩

include follow

theorem Derived.wellFormed : f.WellFormed := build_wellFormed follow derived.built

/-! ### What derived statistics describe -/

/-- The statistics of its row group admit each row. -/
theorem Derived.group_admits {rows : Batch} {m : MemoryStripe}
    (hderived : DerivedStripe schema stride rows m) (hrows : rows ∈ stripes)
    {column : ℕ} (boundable : BoundableColumn stride rows column) (hcolumn : column < schema.size)
    {row : ℕ} (hrow : row < m.rows.rows) :
    ∃ entries, m.groups[f.groupOf row]? = some entries ∧
      EntryAdmits entries column (m.value column row) := by
  obtain ⟨columns, hcolumns⟩ := follow.made rows hrows
  obtain ⟨regular, hschema, -⟩ := Batch.regular_of_ofColumns hcolumns
  have hlt : column < rows.columns.length := by
    rw [regular.count, hschema]
    exact hcolumn
  have hc := List.getElem?_eq_getElem hlt
  rw [hderived.rows_eq] at hrow
  obtain ⟨chunk, hchunk, low, high⟩ := exists_groupChunk stride hrow
  have hgroup : f.groupOf row = if stride = 0 then 0 else row / stride := by
    rw [groupOf, derived.stride_eq]
  obtain ⟨hg, rfl⟩ := List.getElem?_eq_some_iff.mp hchunk
  have hg' := hderived.groups.length_eq ▸ hg
  obtain ⟨-, hsummaries⟩ := hderived.groups.get hg hg'
  obtain ⟨s, hs, hsummary⟩ := hsummaries column _ hc
  rw [hgroup]
  refine ⟨_, List.getElem?_eq_getElem hg', s, hs, ?_⟩
  rw [MemoryStripe.value, hderived.rows_eq, hc]
  exact hsummary.admits (fun v => Column.kind_of_values)
    (boundable _ (List.getElem_mem hg) _ hc) (Column.mem_values low high)

/-- The derived statistics of a column whose values are boundable admit them on every level. -/
theorem Derived.describesColumn {column : ℕ} (hcolumn : column < schema.size)
    (boundable : ∀ rows ∈ stripes, BoundableColumn stride rows column) :
    f.DescribesColumn Statistics.Admits column := by
  have hentry {entries : List (Option Statistics)} {v : Option Literal}
      (h : EntryAdmits entries column v) : ∀ s ∈ (entries[column]?).join, s.Admits v := by
    intro s hs
    obtain ⟨s', hs', hadmits⟩ := h
    rw [hs'] at hs
    cases hs
    exact hadmits
  have hgroup {m : MemoryStripe} (hm : m ∈ f.stripes) {row : ℕ} (hrow : row < m.rows.rows) :
      ∃ entries, m.groups[f.groupOf row]? = some entries ∧
        EntryAdmits entries column (m.value column row) := by
    obtain ⟨rows, hrows, hderived⟩ := derived.exists_rows hm
    exact derived.group_admits follow hderived hrows (boundable rows hrows) hcolumn hrow
  have hstripe {m : MemoryStripe} (hm : m ∈ f.stripes) {row : ℕ} (hrow : row < m.rows.rows) :
      EntryAdmits m.statistics column (m.value column row) := by
    obtain ⟨rows, -, hderived⟩ := derived.exists_rows hm
    obtain ⟨entries, hentries, hadmits⟩ := hgroup hm hrow
    exact hderived.admits entries (List.mem_of_getElem? hentries) column _ hadmits
  -- Each row is admitted by its row group, hence by its stripe, hence by the file.
  refine ⟨fun s hs row hrow => ?_, fun m hm s hs row hrow => ?_,
    fun m hm group entries hentries s hs row hrow hplace => ?_⟩
  · obtain ⟨i, m, k, hm, hk, rfl⟩ := MemoryFile.exists_stripe hrow
    have hmem := List.mem_of_getElem? hm
    rw [value_eq hm hk]
    exact hentry (derived.admits m hmem column _ (hstripe hmem hk)) s hs
  · exact hentry (hstripe hm hrow) s hs
  · obtain ⟨entries', hentries', hadmits⟩ := hgroup hm hrow
    rw [hplace, hentries] at hentries'
    cases hentries'
    exact hentry hadmits s hs

/-- The derived statistics of boundable rows admit them on every level. -/
theorem Derived.describes (boundable : ∀ rows ∈ stripes, BoundableRows stride rows) :
    f.Describes Statistics.Admits := by
  apply describes_iff.mpr
  intro column hcolumn
  exact derived.describesColumn follow (derived.schema_eq ▸ hcolumn)
    fun rows hrows => (boundable rows hrows).column column

/-! ### Scans that start -/

omit follow in
/-- Requests for derived statistics succeed. -/
theorem Derived.statistics_eq :
    (∀ column, f.fileStatistics column = .ok (f.statistics[column]?).join) ∧
      ∀ (i : ℕ) (m : MemoryStripe), f.stripes[i]? = some m →
        (∀ column, f.stripeStatistics i column = .ok (m.statistics[column]?).join) ∧
        f.groupCount i = .ok m.groups.length ∧
        ∀ group column, f.groupStatistics i group column =
          .ok ((m.groups[group]?).bind (·[column]?)).join := by
  have hcheck : f.checkStatistics = .ok () := by
    rw [checkStatistics, derived.realizes.failsStatistics_eq]
    rfl
  refine ⟨fun column => ?_, fun i m hm => ⟨fun column => ?_, ?_, fun group column => ?_⟩⟩
  · rw [fileStatistics, hcheck]
    rfl
  · rw [stripeStatistics, hcheck, bind_ok, stripe_eq hm]
    rfl
  · rw [groupCount, derived.realizes.groupCounts_eq, stripe_eq hm]
    rfl
  · rw [groupStatistics, hcheck, bind_ok, stripe_eq hm]
    rfl

omit derived follow in
/-- A bound argument can be evaluated over entries that fit its schema. -/
theorem evaluate_succeeds {b : BoundSearchArgument}
    (kinds : ∀ p ∈ b.predicates, schema.kind? p.column = some p.predicate.kind)
    {read : ℕ → Except ScanError (Option Statistics)} {entry : ℕ → Option Statistics}
    (hread : ∀ column, read column = .ok (entry column))
    (fits : ∀ {column kind}, schema.kind? column = some kind → ∀ s ∈ entry column, s.OfKind kind) :
    (b.evaluate fun column => (.ofExcept (read column) : Access ℕ _)).Succeeds := by
  refine BoundSearchArgument.evaluate_succeeds (P := fun column x => x = entry column)
    (fun p _ => .ofExcept (hread p.column)) (fun p _ x s s' h => ?_) fun p hp x hx => ?_
  · rw [hread, Access.run_ofExcept] at h
    cases h
    rfl
  · rw [hx]
    exact Predicate.truthOptional_eq_ok (fits (kinds p hp))

omit follow in
theorem Derived.survey_succeeds {argument : Option BoundSearchArgument} {pruning : Pruning}
    (kinds : ∀ b ∈ argument, ∀ p ∈ b.predicates, schema.kind? p.column = some p.predicate.kind) :
    (survey f.source argument pruning).Succeeds := by
  obtain ⟨hfile, hstripes⟩ := derived.statistics_eq
  have hentry {n : ℕ} {entries : List (Option Statistics)} (fits : EntriesFit schema n entries)
      {column : ℕ} {kind : Kind} (hkind : schema.kind? column = some kind) :
      ∀ s ∈ (entries[column]?).join, s.OfKind kind := by
    intro s hs
    exact fits.kinds hkind (Option.join_eq_some_iff.mp hs) s rfl
  have hget {i : ℕ} (hi : i < f.stripes.length) : f.stripes[i]? = some f.stripes[i] :=
    List.getElem?_eq_getElem hi
  refine StripeScan.survey_succeeds (fun i hi => ?_) (fun b hb => ?_) (fun b hb i hi => ?_)
    (fun i hi => ?_) fun b hb i hi g => ?_
  · refine .ofExcept (a := f.stripes[i].rows.rows) ?_
    rw [stripeRows, stripe_eq (hget hi)]
    rfl
  · exact evaluate_succeeds (kinds b hb) hfile (hentry derived.fits)
  · obtain ⟨rows, -, hderived⟩ := derived.exists_rows (List.getElem_mem hi)
    exact evaluate_succeeds (kinds b hb) (hstripes i _ (hget hi)).1 (hentry hderived.fits)
  · exact .ofExcept (hstripes i _ (hget hi)).2.1
  · obtain ⟨rows, -, hderived⟩ := derived.exists_rows (List.getElem_mem hi)
    refine evaluate_succeeds (kinds b hb) ((hstripes i _ (hget hi)).2.2 g) fun hkind s hs => ?_
    obtain ⟨entries, hentries, hs⟩ := Option.bind_eq_some_iff.mp (Option.join_eq_some_iff.mp hs)
    obtain ⟨hg, rfl⟩ := List.getElem?_eq_some_iff.mp hentries
    exact ((hderived.groups.get (hderived.groups.length_eq.symm ▸ hg) hg).1).kinds hkind hs s rfl

end derived

end MemoryFile

/-- Whether a scan is asked for with a search argument that binds to the schema, in batches that
hold rows, of columns that exist. -/
structure ScanOptions.Asks (options : ScanOptions) (schema : Schema) (argument : SearchArgument) :
    Prop where
  asked : options.argument = some argument
  binds : ∃ b, argument.bind schema = .ok b
  batchSize : options.batchSize ≠ 0
  columns : ∃ out, Scan.outputColumns schema options.columns = .ok out

namespace MemoryFile

variable {schema : Schema} {stride : ℕ} {stripes : List Batch} {f : MemoryFile}

/-- A scan of a file with derived statistics starts. -/
theorem Derived.startScan_succeeds (derived : Derived schema stride stripes f)
    {options : ScanOptions} {argument : SearchArgument} (asks : options.Asks schema argument) :
    ∃ scan readings, (f.startScan options).run 0 = (.ok (f.source, scan), readings) := by
  obtain ⟨b, hb⟩ := asks.binds
  obtain ⟨out, hout⟩ := asks.columns
  have hschema : f.source.schema = schema := derived.schema_eq
  have hargument : Scan.bindArgument f.source.schema options.argument = .ok (some b) := by
    rw [hschema, asks.asked, Scan.bindArgument, hb]
    rfl
  rw [← hschema] at hout
  obtain ⟨scan, readings, hstart⟩ := Scan.start_succeeds asks.batchSize hargument hout
    (derived.survey_succeeds fun b' hb' => by
      cases hb'
      exact SearchArgument.bind_kinds hb) 0
  exact ⟨scan, readings, run_startScan_eq_ok_iff.mpr ⟨rfl, hstart⟩⟩

/-- A row group that is consulted has the truth over its statistics. -/
theorem exists_groupTruth {b : BoundSearchArgument} {pruning : Pruning} {i row u u' : ℕ}
    {m : MemoryStripe} {entries : List (Option Statistics)} {v : Survey} {found : StripeSurvey}
    (wf : f.WellFormed) (hm : f.stripes[i]? = some m) (hrow : row < m.rows.rows)
    (hv : (survey f.source (some b) pruning).run u = (.ok v, u'))
    (hfound : v.stripes[i]? = some found) (consulted : pruning.rowGroup = true)
    (stride : f.stride ≠ 0) (hcount : f.groupCount i = .ok m.groups.length)
    (hentries : m.groups[f.groupOf row]? = some entries) (hkept : keptBy found.truth = true) :
    ∃ t w w', found.groups[f.groupOf row]? = some t ∧
      (b.evaluate (f.source.groupStatistics i (f.groupOf row))).run w = (.ok t, w') := by
  obtain ⟨complete, -⟩ := run_survey hv
  obtain ⟨stripe, hstripe, hindex, -, hlen⟩ := plan_stripe wf hv hm
  obtain ⟨-, -, -, hlt⟩ := plan_row wf hv hm hrow hstripe
  have hcomplete := complete.stripe_complete hstripe hfound
  have hasked : found.indexed ≠ none := fun hnone => by
    have hskip := (hcomplete.indexed (by omega) hkept).mp hnone
    simp only [consulted, reduceCtorEq, Bool.true_eq_false, false_or] at hskip
    exact stride hskip
  obtain ⟨n, hn⟩ := Option.ne_none_iff_exists'.mp hasked
  obtain ⟨w, w', hcounted⟩ := hcomplete.counted n hn
  have hlength : n = m.groups.length := by
    have hrun : Access.run (Access.ofExcept (f.groupCount stripe.index)) w = (.ok n, w') := hcounted
    rw [hindex, hcount, Access.run_ofExcept] at hrun
    cases hrun
    rfl
  have hindexed := hcomplete.groups
  rw [hn, Option.elim_some, hlength] at hindexed
  have hg : f.groupOf row < found.groups.length := by
    have := (List.getElem?_eq_some_iff.mp hentries).1
    omega
  have ht := List.getElem?_eq_getElem hg
  obtain ⟨w, w', hrun⟩ := hcomplete.evaluatedGroups _ rfl _ _ ht
  rw [hindex] at hrun
  exact ⟨_, w, w', ht, hrun⟩

/-! ### Rows that are dropped -/

section dropped

variable {i column row u u' : ℕ} {negative : Bool} {m : MemoryStripe} {s : Statistics}
variable {entries : List (Option Statistics)} {v : Survey} {found : StripeSurvey}
variable (wf : f.WellFormed)
variable (hm : f.stripes[i]? = some m) (hs : entries[column]? = some (some s))
variable (leavesOut : s.LeavesOut negative) (hrow : row < m.rows.rows)
variable (hv : (survey f.source (some (.outermost column negative)) .full).run u = (.ok v, u'))
variable (hfound : v.stripes[i]? = some found)

include wf hm hs leavesOut hrow hv hfound

/-- The statistics of a stripe that leave out an infinity drop the stripe. -/
theorem not_keepsStripe (hstatistics : m.statistics = entries) : keptBy found.truth = false := by
  obtain ⟨complete, -⟩ := run_survey hv
  obtain ⟨stripe, hstripe, hindex, -, hlen⟩ := plan_stripe wf hv hm
  have hcomplete := complete.stripe_complete hstripe hfound
  have hasked : found.truth ≠ none := fun hnone => by
    have hskip := (hcomplete.truth (by omega)).mp hnone
    simp [Pruning.full] at hskip
  obtain ⟨t, ht⟩ := Option.ne_none_iff_exists'.mp hasked
  obtain ⟨w, w', hrun⟩ := hcomplete.evaluated _ rfl t ht
  rw [hindex] at hrun
  rw [ht]
  refine BoundSearchArgument.evaluate_outermost leavesOut (fun x z z' hfetch => ?_) hrun
  rw [run_stripeStatistics hm hfetch, hstatistics, hs]
  rfl

/-- The statistics of a row group that leave out an infinity drop the row group. -/
theorem not_keepsGroup (stride : f.stride ≠ 0) (hcount : f.groupCount i = .ok m.groups.length)
    (hentries : m.groups[f.groupOf row]? = some entries) (hkept : keptBy found.truth = true) :
    keptBy found.groups[f.groupOf row]? = false := by
  obtain ⟨t, w, w', ht, hrun⟩ :=
    exists_groupTruth wf hm hrow hv hfound rfl stride hcount hentries hkept
  rw [ht]
  refine BoundSearchArgument.evaluate_outermost leavesOut (fun x z z' hfetch => ?_) hrun
  rw [run_groupStatistics hm hfetch, hentries, Option.bind_some, hs]
  rfl

end dropped

/-- Where rows are not boundable, one holds a float that is no number and that the statistics of its
row group took no notice of. -/
theorem Derived.exists_missed (derived : Derived schema stride stripes f)
    (follow : Follow schema stride stripes) {rows : Batch} (hrows : rows ∈ stripes)
    (missed : ¬BoundableRows stride rows) :
    ∃ (i column row : ℕ) (m : MemoryStripe) (v : Literal) (entries : List (Option Statistics))
      (s : Statistics) (negative : Bool), f.stripes[i]? = some m ∧
      DerivedStripe schema stride rows m ∧ schema.kind? column = some .float ∧
      row < m.rows.rows ∧ m.value column row = some v ∧ v.isNaN = true ∧
      m.groups[f.groupOf row]? = some entries ∧ entries[column]? = some (some s) ∧
      s.LeavesOut negative := by
  simp only [BoundableRows, not_forall] at missed
  obtain ⟨chunk, hchunk, c, hc, missed⟩ := missed
  obtain ⟨g, hg⟩ := List.mem_iff_getElem?.mp hchunk
  obtain ⟨column, hcolumn⟩ := List.mem_iff_getElem?.mp hc
  obtain ⟨i, m, hm, hderived⟩ := derived.exists_stripe hrows
  obtain ⟨columns, hcolumns⟩ := follow.made rows hrows
  obtain ⟨regular, hschema, -⟩ := Batch.regular_of_ofColumns hcolumns
  obtain ⟨field, hfield, hkind⟩ := regular.exists_field hcolumn
  obtain ⟨hlt, rfl⟩ := List.getElem?_eq_some_iff.mp hg
  have hlt' := hderived.groups.length_eq ▸ hlt
  obtain ⟨-, hsummaries⟩ := hderived.groups.get hlt hlt'
  obtain ⟨s, hs, hsummary⟩ := hsummaries column c hcolumn
  obtain ⟨v, hv, hnan, hfloat, negative, leavesOut⟩ :=
    hsummary.exists_missed (fun v => Column.kind_of_values) missed
  obtain ⟨row, hmem, hvalue⟩ := List.mem_map.mp (List.reduceOption_mem_iff.mp hv)
  obtain ⟨low, high⟩ := List.mem_range'_1.mp hmem
  obtain ⟨hrow, hplace⟩ := mem_groupChunk hg low high
  have hgroup : f.groupOf row = g := by
    rw [groupOf, derived.stride_eq]
    exact hplace
  refine ⟨i, column, row, m, v, m.groups[g], s, negative, hm, hderived, ?_, ?_, ?_, hnan, ?_, hs,
    leavesOut⟩
  · rw [← hschema, Schema.kind?_eq, hfield, ← hfloat]
    exact congrArg some hkind
  · rwa [hderived.rows_eq]
  · rw [MemoryStripe.value, hderived.rows_eq, hcolumn]
    exact hvalue
  · rw [hgroup]
    exact List.getElem?_eq_getElem hlt'

/-- Where rows are not boundable, an argument is true of a row that its plan leaves out. -/
theorem Derived.exists_dropped (derived : Derived schema stride stripes f)
    (follow : Follow schema stride stripes) {rows : Batch} (hrows : rows ∈ stripes)
    (missed : ¬BoundableRows stride rows) :
    ∃ column negative row, schema.kind? column = some .float ∧ row < f.totalRows ∧
      (BoundSearchArgument.outermost column negative).answer (fun c => f.value c row) = some true ∧
      ∀ v u u', (survey f.source (some (.outermost column negative)) .full).run u = (.ok v, u') →
        (v.plan f.stride).retains row = false := by
  obtain ⟨i, column, row, m, v, entries, s, negative, hm, hderived, hkind, hrow, hvalue, hnan,
    hentries, hs, leavesOut⟩ := derived.exists_missed follow hrows missed
  refine ⟨column, negative, totalOf (f.lengths.take i) + row, hkind, lt_totalRows hm hrow, ?_, ?_⟩
  · exact BoundSearchArgument.outermost_answer ((value_eq hm hrow column).trans hvalue) hnan
  · intro w u u' hw
    by_contra hretains
    rw [Bool.not_eq_false] at hretains
    have wf := derived.wellFormed follow
    obtain ⟨found, hfound, hstripe, hkept⟩ := (retains_iff wf hw hm hrow).mp hretains
    -- Without a stride row groups are not consulted, but the stripe has the statistics of its
    -- only one.
    by_cases hstride : f.stride = 0
    · have hsingle :=
        hderived.single (derived.stride_eq ▸ hstride) _ (List.mem_of_getElem? hentries)
      rw [not_keepsStripe wf hm hs leavesOut hrow hw hfound hsingle] at hstripe
      cases hstripe
    · obtain ⟨-, hcount, -⟩ := derived.statistics_eq.2 i m hm
      rw [not_keepsGroup wf hm hs leavesOut hrow hw hfound hstride hcount hentries hstripe]
        at hkept
      cases hkept

/-! ### Exactly when every matching row is delivered -/

/-- Whether scans with a search argument deliver every row that matches, whatever columns they keep,
whatever levels they consult and however large their batches are. -/
def DeliversMatches (f : MemoryFile) : Prop :=
  ∀ options argument, options.Asks f.schema argument → ∀ capacity, 0 < capacity →
    ∃ matching drained, f.matchingRows argument = .ok matching ∧
      f.scanAll options capacity = .ok drained ∧ drained.failure = none ∧
      ∀ row ∈ matching, row ∈ drained.rows

theorem Derived.delivers (derived : Derived schema stride stripes f)
    (follow : Follow schema stride stripes)
    (boundable : ∀ rows ∈ stripes, BoundableRows stride rows) : f.DeliversMatches := by
  intro options argument asks capacity positive
  have wf := derived.wellFormed follow
  have describes := derived.describes follow boundable
  have asks' : options.Asks schema argument := derived.schema_eq ▸ asks
  obtain ⟨scan, readings, hstart⟩ := derived.startScan_succeeds asks'
  obtain ⟨matching, drained, hmatching, hdrained, hfailure, -, -, hmem⟩ :=
    matchingRows_drained wf derived.realizes.failsRows_eq describes asks.asked hstart positive
  exact ⟨matching, drained, hmatching, hdrained, hfailure, hmem⟩

theorem Derived.boundable_of_delivers (derived : Derived schema stride stripes f)
    (follow : Follow schema stride stripes) (delivers : f.DeliversMatches) :
    ∀ rows ∈ stripes, BoundableRows stride rows := by
  intro rows hrows
  by_contra missed
  have wf := derived.wellFormed follow
  obtain ⟨column, negative, row, hkind, hrow, hanswer, hdropped⟩ :=
    derived.exists_dropped follow hrows missed
  rw [← derived.schema_eq] at hkind
  have hbind := BoundSearchArgument.bind_outermost negative hkind
  have asks : ScanOptions.Asks ⟨some (.outermost column negative), 1, none, .full⟩ f.schema
      (.outermost column negative) := ⟨rfl, ⟨_, hbind⟩, Nat.one_ne_zero, ⟨_, rfl⟩⟩
  obtain ⟨matching, drained, hmatching, hdrained, -, hmem⟩ := delivers _ _ asks 1 Nat.one_pos
  obtain ⟨scan, readings, hstart⟩ := derived.startScan_succeeds (derived.schema_eq ▸ asks)
  obtain ⟨drained', hdrained', -, -, hdelivered⟩ :=
    scanAll_rows wf derived.realizes.failsRows_eq hstart Nat.one_pos
  obtain ⟨b, v, hb, hv, hplan⟩ := plan_of_startScan rfl hstart
  rw [hbind] at hb
  cases hb
  have hmatches : row ∈ matching := by
    rw [matchingRows_eq wf hbind] at hmatching
    cases hmatching
    exact List.mem_filter.mpr ⟨List.mem_range.mpr hrow, beq_iff_eq.mpr hanswer⟩
  have hread := hmem row hmatches
  rw [hdrained] at hdrained'
  cases hdrained'
  rw [hdelivered, Plan.rowsFrom, List.mem_filter, hplan, hdropped v 0 readings hv] at hread
  cases hread.2

/-- Files are good enough to prune exactly if their rows can be bounded.  Building a file of stripes
that follow a schema, with nothing replaced, succeeds, and so does starting any scan of it with a
search argument that binds to the schema.  Every row that matches is delivered by every such scan
exactly if in each row group the values of each column are all numbers, or their first one is none,
or both infinities are among them. -/
theorem build_delivers_iff (follow : Follow schema stride stripes) :
    ∃ f, build (.ofStripes schema stride stripes) = .ok f ∧ f.schema = schema ∧
      (∀ options argument, options.Asks schema argument →
        ∃ scan readings, (f.startScan options).run 0 = (.ok (f.source, scan), readings)) ∧
      (f.DeliversMatches ↔ ∀ rows ∈ stripes, BoundableRows stride rows) := by
  obtain ⟨f, hbuild, derived⟩ := build_ofStripes follow
  exact ⟨f, hbuild, derived.schema_eq, fun options argument asks => derived.startScan_succeeds asks,
    derived.boundable_of_delivers follow, derived.delivers follow⟩

/-- Two rows of floats, the number one and after it what is no number. -/
def oneThenNone : Batch :=
  ⟨.ofTyped [⟨"x", .float, true⟩], [⟨.float, #[some ⟨0x3ff0000000000000⟩, some .nan]⟩], 2, 2⟩

theorem build_delivers_iff_oneThenNone :
    ∃ f, build (.ofStripes oneThenNone.schema 2 [oneThenNone]) = .ok f ∧ ¬f.DeliversMatches := by
  have follow : Follow oneThenNone.schema 2 [oneThenNone] := by
    refine ⟨fun rows hrows => ?_, by decide, by decide⟩
    rw [List.mem_singleton.mp hrows]
    exact ⟨oneThenNone.columns, rfl⟩
  obtain ⟨f, hbuild, -, -, hiff⟩ := build_delivers_iff follow
  refine ⟨f, hbuild, fun delivers => ?_⟩
  have hbounded := hiff.mp delivers oneThenNone (List.mem_singleton_self _) (0, 2) (by decide)
    ⟨.float, #[some ⟨0x3ff0000000000000⟩, some .nan]⟩ (List.mem_singleton_self _)
  revert hbounded
  decide

end MemoryFile

end StripeScan
