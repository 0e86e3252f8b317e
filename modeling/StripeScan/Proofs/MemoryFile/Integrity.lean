import StripeScan.Proofs.MemoryFile.Refinement

/-! # Integrity of batches

Whatever has been called before, and whatever batches were handed in, a scan of a file stands at
some position of its plan (`Stands`): each call keeps it there, and one that fails leaves it alone.
A batch that comes back refilled therefore holds the rows of the file from the current row on, in
the columns that were asked for (`produceBatch_integrity`). -/

namespace StripeScan

/-! ### Columns of a scan -/

namespace Schema

/-- Whether column `j` of the batches is a given column of the file, in a scan that is asked for
these columns or for all. -/
def Shows (schema : Schema) : Option (List ColumnRef) → (j ordinal : ℕ) → Prop
  | none, j, ordinal => j < schema.size ∧ ordinal = j
  | some columns, j, ordinal =>
    ∃ column kind, columns[j]? = some column ∧ schema.resolve column = some (ordinal, kind)

/-- The columns that a scan keeps are those that it shows. -/
theorem Shows.getElem?_eq {schema out : Schema} {columns : Option (List ColumnRef)}
    {ordinals : Option (List ℕ)} {j ordinal : ℕ} (h : schema.Shows columns j ordinal)
    (hcolumns : Scan.outputColumns schema columns = .ok (ordinals, out)) :
    (ordinals.getD (List.range schema.size))[j]? = some ordinal := by
  cases columns with
  | none =>
      cases hcolumns
      obtain ⟨hj, rfl⟩ := h
      simp [hj]
  | some columns =>
      obtain ⟨column, kind, hcolumn, hresolve⟩ := h
      obtain ⟨kept, hkept, hrest⟩ := bind_eq_ok_iff.mp hcolumns
      obtain ⟨_, -, hrest⟩ := bind_eq_ok_iff.mp hrest
      cases hrest
      have hall := mapM_eq_ok_iff.mp hkept
      obtain ⟨hj, rfl⟩ := List.getElem?_eq_some_iff.mp hcolumn
      have hj' : j < kept.length := hall.length_eq ▸ hj
      have hresolved := hall.get hj hj'
      rw [List.get_eq_getElem, List.get_eq_getElem, Scan.resolveColumn, hresolve] at hresolved
      rw [Option.getD_some, List.getElem?_eq_getElem hj']
      exact congrArg some (Except.ok.inj hresolved).symm

/-- A scan keeps as many columns as it is asked for. -/
theorem length_outputColumns {schema out : Schema} {columns : Option (List ColumnRef)}
    {ordinals : Option (List ℕ)}
    (hcolumns : Scan.outputColumns schema columns = .ok (ordinals, out)) :
    (ordinals.getD (List.range schema.size)).length = columns.elim schema.size List.length := by
  cases columns with
  | none =>
      cases hcolumns
      simp
  | some columns =>
      obtain ⟨kept, hkept, hrest⟩ := bind_eq_ok_iff.mp hcolumns
      obtain ⟨_, -, hrest⟩ := bind_eq_ok_iff.mp hrest
      cases hrest
      exact (mapM_eq_ok_iff.mp hkept).length_eq.symm

end Schema

/-! ### Reachable states -/

namespace MemoryFile

variable {f : MemoryFile} {scan : Scan}

/-- Whether a scan serves a file, keeps these columns and stands at some position of its plan. -/
structure Stands (f : MemoryFile) (columns : Option (List ℕ)) (scan : Scan) : Prop where
  serves : scan.Serves f
  columns_eq : scan.columns = columns
  position : ∃ position, scan.cursor.At scan.plan position

/-- Whether a batch holds rows of the file, from a first row on and as many as it says. -/
structure Holds (f : MemoryFile) (columns : Option (List ℕ)) (first : ℕ) (batch : Batch) :
    Prop where
  positive : 0 < batch.rows
  fits : batch.rows ≤ batch.capacity
  contents : batch.contents = (List.range' first batch.rows).map (f.row columns)

theorem Leaves.stands {after : Scan} {position : ℕ} {columns : Option (List ℕ)}
    (h : Leaves scan after position) (stands : f.Stands columns scan) : f.Stands columns after where
  serves := h.serves stands.serves
  columns_eq := h.columns.trans stands.columns_eq
  position := ⟨position, h.plan.symm ▸ h.at_position⟩

section calls

variable (wf : f.WellFormed)

include wf

/-- Refilling any batch keeps a scan on its plan; a batch that comes back refilled holds the rows of
the file from the current row on. -/
theorem produceBatch_stands {columns : Option (List ℕ)} (stands : f.Stands columns scan)
    (batch : Batch) (readings : ℕ) :
    f.Stands columns (Scan.produceBatch f.source scan batch readings).scan ∧
      ((Scan.produceBatch f.source scan batch readings).answer = .ok true →
        (Scan.produceBatch f.source scan batch readings).batch.capacity = batch.capacity ∧
        f.Holds columns (Scan.produceBatch f.source scan batch readings).scan.cursor.current
          (Scan.produceBatch f.source scan batch readings).batch) := by
  obtain ⟨position, hat⟩ := stands.position
  have hrefills := produceBatch_refills wf stands.serves hat batch readings
  generalize Scan.produceBatch f.source scan batch readings = outcome at hrefills ⊢
  cases hrefills with
  | ended none_left leaves => exact ⟨leaves.stands stands, fun h => by cases h⟩
  | failed left => exact ⟨stands, fun h => by cases h⟩
  | delivered left schema capacity positive rows contents leaves current =>
      have hfits := (rows.trans_le (min_le_left _ _)).trans_eq capacity.symm
      refine ⟨leaves.stands stands, fun _ => ⟨capacity, positive, hfits, ?_⟩⟩
      rw [current, ← stands.columns_eq]
      exact contents

variable (reads : f.failsRows = false)

include reads

/-- One call keeps a scan on its plan. -/
theorem observe_stands {columns : Option (List ℕ)} (stands : f.Stands columns scan)
    (readings : ℕ) (call : ScanCall) :
    f.Stands columns (scan.observe f.source readings call).2.1 := by
  cases call with
  | produce batch => exact (produceBatch_stands wf stands batch readings).1
  | seek row =>
      obtain ⟨position, hat⟩ := stands.position
      have fits : ∀ batch, ScanCall.seek row = .produce batch → scan.Fits batch :=
        fun batch h => (nomatch h)
      obtain ⟨after, readings', hseen, hleaves⟩ :=
        observe_refines wf reads stands.serves hat fits readings
      rw [hseen]
      exact hleaves.stands stands

/-- Any calls keep a scan on its plan. -/
theorem stateAfter_stands {columns : Option (List ℕ)} (stands : f.Stands columns scan)
    (readings : ℕ) (calls : List ScanCall) :
    f.Stands columns (scan.stateAfter f.source readings calls).1 := by
  induction calls generalizing scan readings with
  | nil => exact stands
  | cons call rest ih => exact ih (observe_stands wf reads stands readings call) _

end calls

theorem stands_of_startScan (wf : f.WellFormed) {options : ScanOptions} {source : Source ℕ}
    {readings readings' : ℕ}
    (h : (f.startScan options).run readings = (.ok (source, scan), readings')) :
    f.Stands scan.columns scan := by
  obtain ⟨serves, -, hcursor⟩ := serves_of_startScan wf h
  exact ⟨serves, rfl, 0, hcursor ▸ (Cursor.start_at serves.plan).1⟩

/-! ### Values of a batch -/

/-- Each value of a batch that holds rows of the file is the value of its column in the file. -/
theorem Holds.values {columns : Option (List ℕ)} {first : ℕ} {batch : Batch}
    (h : f.Holds columns first batch) :
    batch.columns.length = (columns.getD (List.range f.schema.size)).length ∧
      ∀ j ordinal : ℕ, (columns.getD (List.range f.schema.size))[j]? = some ordinal →
        ∃ c : Column, batch.columns[j]? = some c ∧
          ∀ i < batch.rows, c.literalAt? i = f.value ordinal (first + i) := by
  have hrow : ∀ i < batch.rows, batch.columns.map (·.literalAt? i) = f.row columns (first + i) := by
    intro i hi
    have hread := Batch.contents_getElem? hi
    rw [h.contents, List.getElem?_map, List.getElem?_range' hi, Nat.one_mul] at hread
    exact (Option.some.inj hread).symm
  have hlength : batch.columns.length = (columns.getD (List.range f.schema.size)).length := by
    have := congrArg List.length (hrow 0 h.positive)
    rwa [List.length_map, row, List.length_map] at this
  refine ⟨hlength, fun j ordinal hj => ?_⟩
  have hlt : j < batch.columns.length := hlength ▸ (List.getElem?_eq_some_iff.mp hj).1
  refine ⟨batch.columns[j], List.getElem?_eq_getElem hlt, fun i hi => ?_⟩
  have hcell := congrArg (·[j]?) (hrow i hi)
  simp only [row, List.getElem?_map, hj, List.getElem?_eq_getElem hlt, Option.map_some] at hcell
  exact Option.some.inj hcell

/-- A batch that comes back refilled is never empty and never too full, and each of its values is
that of the file: row `i` of column `j` is the value, or the null, of that column of the file at the
`i`-th row from the current one on.  This holds of every scan of a file whose rows can be read,
after any calls, whether they succeeded or not, and for any batch that is handed in. -/
theorem produceBatch_integrity (wf : f.WellFormed) (reads : f.failsRows = false)
    {options : ScanOptions} {source : Source ℕ} {started : Scan} {readings readings' : ℕ}
    (h : (f.startScan options).run readings = (.ok (source, started), readings'))
    {calls : List ScanCall} {medium : ℕ}
    (reached : started.stateAfter source readings' calls = (scan, medium)) {batch : Batch}
    {after : Scan.Outcome ℕ Bool} (produced : scan.produceBatch source batch medium = after)
    (more : after.answer = .ok true) :
    0 < after.batch.rows ∧ after.batch.rows ≤ after.batch.capacity ∧
      after.batch.capacity = batch.capacity ∧
      after.batch.columns.length = options.columns.elim f.schema.size List.length ∧
      ∀ j ordinal, f.schema.Shows options.columns j ordinal →
        ∃ c : Column, after.batch.columns[j]? = some c ∧
          ∀ i < after.batch.rows,
            c.literalAt? i = f.value ordinal (after.scan.cursor.current + i) := by
  have hstarted := stands_of_startScan wf h
  obtain ⟨rfl, hstart⟩ := run_startScan_eq_ok_iff.mp h
  obtain ⟨-, _, -, hcolumns, -⟩ := Scan.run_start_eq_ok_iff.mp hstart
  have hstands := stateAfter_stands wf reads hstarted readings' calls
  rw [reached] at hstands
  subst produced
  obtain ⟨hcapacity, hholds⟩ := (produceBatch_stands wf hstands batch medium).2 more
  obtain ⟨hlength, hvalues⟩ := hholds.values
  refine ⟨hholds.positive, hholds.fits, hcapacity, ?_, fun j ordinal hshows => ?_⟩
  · rw [hlength]
    exact Schema.length_outputColumns hcolumns
  · exact hvalues j ordinal (hshows.getElem?_eq hcolumns)

/-- A scan of the three numbers that shows them twice, at its start. -/
def numbersTwice : Scan where
  schema := .ofTyped [⟨"x", .long, true⟩, ⟨"x", .long, true⟩]
  columns := some [0, 0]
  batchSize := 8
  plan := ⟨[⟨0, 0, 3, 2⟩], [⟨0, 0, 0, 3⟩], 3, 2⟩
  cursor := ⟨.notStarted, some 0, some 0, 0, 0, 0⟩
  metrics := ⟨false, 1, 1, 2, 2, 3, 0, 0⟩

/-- After a seek into the first row group, a batch of two rows reads on into the second one. -/
theorem produceBatch_integrity_numbersTwice :
    ∃ (after : Scan.Outcome ℕ Bool) (c : Column),
      (threeNumbers.startScan ⟨none, 8, some [.name "x", .ordinal 0], .full⟩).run 0 =
        (.ok (threeNumbers.source, numbersTwice), 0) ∧
      (numbersTwice.seekTo 1).2.produceBatch threeNumbers.source
        ⟨numbersTwice.schema, [], 0, 2⟩ 0 = after ∧
      after.answer = .ok true ∧ after.batch.columns.length = 2 ∧
      after.batch.columns[1]? = some c ∧ after.batch.rows = 2 ∧
      c.literalAt? 0 = threeNumbers.value 0 1 ∧ c.literalAt? 1 = threeNumbers.value 0 2 := by
  have h : (threeNumbers.startScan ⟨none, 8, some [.name "x", .ordinal 0], .full⟩).run 0 =
      (.ok (threeNumbers.source, numbersTwice), 0) := rfl
  have hreached : numbersTwice.stateAfter threeNumbers.source 0 [.seek 1] =
      ((numbersTwice.seekTo 1).2, 0) := rfl
  have hmore : ((numbersTwice.seekTo 1).2.produceBatch threeNumbers.source
      ⟨numbersTwice.schema, [], 0, 2⟩ 0).answer = .ok true := rfl
  obtain ⟨-, -, -, hlength, hvalues⟩ :=
    produceBatch_integrity threeNumbers_wellFormed rfl h hreached rfl hmore
  obtain ⟨c, hc, hcells⟩ := hvalues 1 0 ⟨.ordinal 0, .long, rfl, rfl⟩
  have hrows : ((numbersTwice.seekTo 1).2.produceBatch threeNumbers.source
      ⟨numbersTwice.schema, [], 0, 2⟩ 0).batch.rows = 2 := rfl
  rw [hrows] at hcells
  exact ⟨_, c, h, rfl, rfl, hlength, hc, hrows, hcells 0 (by decide), hcells 1 (by decide)⟩

end MemoryFile

end StripeScan
