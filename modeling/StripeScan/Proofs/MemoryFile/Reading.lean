import StripeScan.MemoryFile.Scanning
import StripeScan.Proofs.Scan.Planning
import StripeScan.Proofs.Scan.Reading

/-! # Reading rows of a file in memory

The stripes of a file are batches that follow its schema, and memory holds them
(`MemoryFile.WellFormed`).  So no row number of a scan overflows
(`MemoryFile.WellFormed.plan_fits`), and reading any rows of one stripe succeeds and delivers the
rows of the file, whatever row groups they lie in. -/

namespace StripeScan

namespace MemoryFile

/-- Whether every stripe is made of columns that follow the schema of the file. -/
def FollowsSchema (f : MemoryFile) : Prop :=
  ∀ s ∈ f.stripes, ∃ columns, Batch.ofColumns f.schema columns = .ok s.rows

/-- Whether stripes are made of columns that follow a schema and are held in memory: altogether they
have no more rows than any memory can hold, and the stride is a word. -/
structure Follow (schema : Schema) (stride : ℕ) (stripes : List Batch) : Prop where
  made : ∀ rows ∈ stripes, ∃ columns, Batch.ofColumns schema columns = .ok rows
  held : totalOf (stripes.map Batch.rows) ≤ 2 ^ 63
  stride_lt : stride < UInt64.size

/-- Whether the stripes of a file follow its schema and are held in memory. -/
def WellFormed (f : MemoryFile) : Prop := Follow f.schema f.stride (f.stripes.map (·.rows))

/-- The numbers of rows of the stripes. -/
def lengths (f : MemoryFile) : List ℕ := f.stripes.map (·.rows.rows)

/-- A row of the file, as the values of the given columns or of all. -/
def row (f : MemoryFile) (columns : Option (List ℕ)) (row : ℕ) : List (Option Literal) :=
  (columns.getD (List.range f.schema.size)).map fun column => f.value column row

theorem FollowsSchema.regular {f : MemoryFile} (follows : f.FollowsSchema) {s : MemoryStripe}
    (hs : s ∈ f.stripes) : s.rows.Regular ∧ s.rows.schema = f.schema := by
  obtain ⟨columns, h⟩ := follows s hs
  obtain ⟨regular, schema, -⟩ := Batch.regular_of_ofColumns h
  exact ⟨regular, schema⟩

/-- Some of the stripes have no more rows than any memory can hold either. -/
theorem Follow.totalOf_le_of_prefix {schema : Schema} {stride : ℕ} {stripes done : List Batch}
    (follow : Follow schema stride stripes) (h : done <+: stripes) :
    totalOf (done.map Batch.rows) ≤ 2 ^ 63 := by
  rw [List.prefix_iff_eq_take.mp h, List.map_take]
  exact (totalOf_take_le _ _).trans follow.held

theorem WellFormed.followsSchema {f : MemoryFile} (wf : f.WellFormed) : f.FollowsSchema :=
  fun s hs => wf.made s.rows (List.mem_map_of_mem hs)

theorem WellFormed.regular {f : MemoryFile} (wf : f.WellFormed) {s : MemoryStripe}
    (hs : s ∈ f.stripes) : s.rows.Regular ∧ s.rows.schema = f.schema :=
  wf.followsSchema.regular hs

theorem WellFormed.lengths_le {f : MemoryFile} (wf : f.WellFormed) :
    totalOf f.lengths ≤ 2 ^ 63 := by
  have held := wf.held
  rwa [List.map_map] at held

/-- No row number overflows in a plan with the layout of the file. -/
theorem WellFormed.plan_fits {f : MemoryFile} (wf : f.WellFormed) {v : Survey}
    (hrows : v.rows = f.lengths) : (v.plan f.stride).Fits where
  total_lt := by
    rw [Survey.plan, Stripe.layout_map_rows, hrows]
    exact wf.lengths_le.trans_lt (by decide)
  groups_lt s hs := by
    obtain ⟨i, hi⟩ := List.mem_iff_getElem?.mp hs
    obtain ⟨-, cut, hlength⟩ := v.plan_stripe hi
    rw [hrows] at hlength
    have hle := le_totalOf (List.mem_of_getElem? hlength)
    rw [cut]
    exact Stripe.groupCount_mul_lt_size wf.stride_lt (hle.trans wf.lengths_le)

/-- The value at a row of a stripe. -/
theorem valueIn_eq {stripes : List MemoryStripe} {column i row : ℕ} {s : MemoryStripe}
    (hs : stripes[i]? = some s) (hrow : row < s.rows.rows) :
    valueIn column stripes (totalOf ((stripes.map (·.rows.rows)).take i) + row) =
      (s.rows.columns[column]?).bind (·.literalAt? row) := by
  induction stripes generalizing i with
  | nil => cases hs
  | cons t rest ih =>
      cases i with
      | zero =>
          cases hs
          rw [List.take_zero, totalOf, Nat.zero_add, valueIn, if_pos hrow]
      | succ i =>
          rw [List.getElem?_cons_succ] at hs
          rw [List.map_cons, List.take_succ_cons, totalOf, Nat.add_assoc, valueIn,
            if_neg (by omega), Nat.add_sub_cancel_left]
          exact ih hs

theorem stripe_eq {f : MemoryFile} {i : ℕ} {s : MemoryStripe} (hs : f.stripes[i]? = some s) :
    f.stripe i = .ok s := by
  rw [stripe, hs]

theorem run_rows {f : MemoryFile} (wf : f.WellFormed) (reads : f.failsRows = false) {i : ℕ}
    {s : MemoryStripe} (hs : f.stripes[i]? = some s) {group offset count readings : ℕ}
    (h : group * f.stride + offset + count ≤ s.rows.rows) :
    (f.source.rows i group offset count).run readings =
      (.ok (s.rows.cutRows (group * f.stride + offset) count), readings + 1) := by
  have hslice := Batch.slice_eq (wf.regular (List.mem_of_getElem? hs)).1 h
  have hle := le_totalOf (List.mem_map_of_mem (f := fun m : MemoryStripe => m.rows.rows)
    (List.mem_of_getElem? hs))
  have hsize : (2 : ℕ) ^ 63 < UInt64.size := by decide
  have hheld := wf.lengths_le
  have hstart : Word.add (Word.mul group f.stride) offset = group * f.stride + offset := by
    unfold lengths at hheld
    rw [Word.mul_eq (by omega), Word.add_eq (by omega)]
  show (f.rows i group offset count).run readings = _
  rw [rows, reads, if_neg Bool.false_ne_true, Access.run_bind, Access.run_modify]
  simp only
  rw [Access.run_ofExcept, stripe_eq hs, bind_ok, hstart, hslice]

/-- Pieces of a stripe are delivered as they are. -/
theorem run_mapM_readPiece {f : MemoryFile} (wf : f.WellFormed) (reads : f.failsRows = false)
    {i : ℕ} {s : MemoryStripe} (hs : f.stripes[i]? = some s) {ps : List Scan.Piece} {readings : ℕ}
    (h : ∀ p ∈ ps, (p.place f.stride).1 + (p.place f.stride).2 ≤ s.rows.rows) :
    (ps.mapM (Scan.readPiece f.source i)).run readings =
      (.ok (ps.map fun p => s.rows.cutRows (p.place f.stride).1 (p.place f.stride).2),
        readings + ps.length) := by
  induction ps generalizing readings with
  | nil => rfl
  | cons p ps ih =>
      have hp : p.group * f.stride + p.offset + p.count ≤ s.rows.rows := h p List.mem_cons_self
      have hpiece : (Scan.readPiece f.source i p).run readings =
          (.ok (s.rows.cutRows (p.place f.stride).1 (p.place f.stride).2), readings + 1) := by
        rw [Scan.readPiece, Access.run_bind, run_rows wf reads hs hp]
        have hcount : (s.rows.cutRows (p.group * f.stride + p.offset) p.count).rows = p.count := rfl
        simp only
        rw [if_pos hcount]
        rfl
      rw [List.mapM_cons, Access.run_bind_of_ok hpiece,
        Access.run_bind_of_ok (ih fun q hq => h q (List.mem_cons_of_mem _ hq))]
      rw [Access.run_pure, List.map_cons, List.length_cons]
      congr 1
      omega

end MemoryFile

/-! ### Scans over a file -/

/-- Whether the columns that are kept, all or those at some positions, make up another schema. -/
def Schema.Keeps (schema : Schema) : (columns : Option (List ℕ)) → (out : Schema) → Prop
  | none, out => out = schema
  | some ordinals, out => schema.project ordinals = .ok out

/-- A scan over a file: its plan has the layout of the file, and its batches follow the columns that
it keeps. -/
structure Scan.Serves (scan : Scan) (f : MemoryFile) : Prop where
  plan : scan.plan.WellFormed
  stride : scan.plan.stride = f.stride
  stripes : ∀ (i : ℕ) (s : Stripe), scan.plan.stripes[i]? = some s → ∃ m, f.stripes[i]? = some m ∧
    s.rows = m.rows.rows ∧ s.firstRow = totalOf (f.lengths.take i)
  output : f.schema.Keeps scan.columns scan.schema

namespace MemoryFile

/-- The columns that a scan keeps of some rows. -/
theorem keepColumns_eq {f : MemoryFile} {scan : Scan} (serves : scan.Serves f) {rows : Batch}
    (count : rows.columns.length = rows.schema.size) (schema : rows.schema = f.schema) :
    ∃ out, Scan.keepColumns scan.columns rows = .ok out ∧ out.schema = scan.schema ∧
      out.rows = rows.rows ∧
      List.Forall₂ (fun j c => rows.columns[j]? = some c)
        (scan.columns.getD (List.range f.schema.size)) out.columns := by
  have houtput := serves.output
  cases hcolumns : scan.columns with
  | none =>
      rw [hcolumns] at houtput
      refine ⟨rows, rfl, schema.trans (Eq.symm houtput), rfl, ?_⟩
      rw [Option.getD_none, ← schema, ← count, List.forall₂_iff_get]
      refine ⟨List.length_range, fun i hi hi' => ?_⟩
      rw [List.get_eq_getElem, List.getElem_range]
      exact List.getElem?_eq_getElem hi'
  | some ordinals =>
      rw [hcolumns] at houtput
      rw [← schema] at houtput
      obtain ⟨columns, hproject, hcols⟩ := Batch.project_eq count houtput
      exact ⟨_, hproject, rfl, rfl, hcols⟩

/-- The pieces of some rows of a stripe are delivered, and joining them gives those rows. -/
theorem run_pieces {f : MemoryFile} (wf : f.WellFormed) (reads : f.failsRows = false) {i : ℕ}
    {m : MemoryStripe} (hm : f.stripes[i]? = some m) {s : Stripe} (fits : s.Fits f.stride)
    (hrows : s.rows = m.rows.rows) {start count : ℕ} (low : s.firstRow ≤ start)
    (positive : 0 < count) (high : start + count ≤ s.stop) (readings : ℕ) :
    ∃ parts readings', ((Scan.pieces s f.stride (Word.add start count) UInt64.size start).mapM
        (Scan.readPiece f.source i)).run readings = (.ok parts, readings') ∧
      Batch.concat parts = .ok (m.rows.cutRows (start - s.firstRow) count) := by
  have hend : start - s.firstRow + count ≤ m.rows.rows := by
    unfold Stripe.stop at high
    omega
  have regular := (wf.regular (List.mem_of_getElem? hm)).1
  rw [Word.add_eq (high.trans_lt fits.stop_lt)]
  obtain ⟨lengths, hsum, -, hspans⟩ := Scan.pieces_spans fits high low (fits.le_limit high)
  rw [Nat.add_sub_cancel_left] at hsum
  have hpieces : ∀ p ∈ Scan.pieces s f.stride (start + count) UInt64.size start,
      (p.place f.stride).1 + (p.place f.stride).2 ≤ m.rows.rows := by
    intro p hp
    have hmem : p.place f.stride ∈ spans (start - s.firstRow) lengths :=
      hspans ▸ List.mem_map_of_mem hp
    have := mem_spans_le hmem
    omega
  refine ⟨_, _, run_mapM_readPiece wf reads hm hpieces, ?_⟩
  have hcuts : (Scan.pieces s f.stride (start + count) UInt64.size start).map
      (fun p => m.rows.cutRows (p.place f.stride).1 (p.place f.stride).2) =
      (spans (start - s.firstRow) lengths).map fun q => m.rows.cutRows q.1 q.2 := by
    rw [← hspans, List.map_map]
    rfl
  rw [hcuts]
  cases lengths with
  | nil =>
      rw [List.sum_nil] at hsum
      omega
  | cons n rest =>
      rw [List.sum_cons] at hsum
      rw [← hsum]
      exact Batch.concat_cuts regular (by omega)

/-- The columns kept of some rows of a stripe hold rows of the file. -/
theorem contents_kept {f : MemoryFile} {i : ℕ} {m : MemoryStripe} (hm : f.stripes[i]? = some m)
    {offset count : ℕ} (hend : offset + count ≤ m.rows.rows) {columns : Option (List ℕ)}
    {out : Batch} (hcount : out.rows = count)
    (hcolumns : List.Forall₂ (fun j c => (m.rows.cutRows offset count).columns[j]? = some c)
      (columns.getD (List.range f.schema.size)) out.columns) :
    out.contents =
      (List.range' (totalOf (f.lengths.take i) + offset) count).map (f.row columns) := by
  rw [Batch.contents, hcount, List.range'_eq_map_range, List.map_map]
  refine List.map_congr_left fun k hk => ?_
  rw [List.mem_range] at hk
  refine (List.forall₂_eq_eq_eq ▸ List.forall₂_map_left_iff.mpr
    (List.forall₂_map_right_iff.mpr (hcolumns.imp fun j c hc => ?_))).symm
  obtain ⟨c', hc', rfl⟩ := Option.map_eq_some_iff.mp (List.getElem?_map ▸ hc)
  have hvalue : f.value j (totalOf (f.lengths.take i) + offset + k) =
      (m.rows.columns[j]?).bind (·.literalAt? (offset + k)) :=
    Nat.add_assoc _ offset k ▸ valueIn_eq hm (by omega)
  rw [Column.literalAt?_cut hk, hvalue, hc']
  rfl

/-- Reading rows of a stripe delivers the rows of the file. -/
theorem run_readRows {f : MemoryFile} (wf : f.WellFormed) (reads : f.failsRows = false)
    {scan : Scan} (serves : scan.Serves f) {i : ℕ} {s : Stripe}
    (hs : scan.plan.stripes[i]? = some s)
    {start count : ℕ} (low : s.firstRow ≤ start) (positive : 0 < count)
    (high : start + count ≤ s.stop) (readings : ℕ) :
    ∃ rows readings', (Scan.readRows f.source scan s start count).run readings =
        (.ok rows, readings') ∧ rows.schema = scan.schema ∧ rows.rows = count ∧
      rows.contents = (List.range' start count).map (f.row scan.columns) := by
  obtain ⟨m, hm, hrows, hfirst⟩ := serves.stripes i s hs
  obtain ⟨regular, schema⟩ := wf.regular (List.mem_of_getElem? hm)
  have fits : s.Fits f.stride := serves.stride ▸ serves.plan.fits s (List.mem_of_getElem? hs)
  have hend : start - s.firstRow + count ≤ m.rows.rows := by
    unfold Stripe.stop at high
    omega
  obtain ⟨parts, readings', hparts, hconcat⟩ :=
    run_pieces wf reads hm fits hrows low positive high readings
  obtain ⟨out, hout, hschema, hcount, hcolumns⟩ := keepColumns_eq serves
    (Batch.cutRows_regular regular hend).count schema
  refine ⟨out, readings', ?_, hschema, hcount, ?_⟩
  · rw [Scan.readRows, serves.stride, serves.plan.index i s hs, Access.run_bind_of_ok hparts,
      hconcat]
    show Access.run (Access.ofExcept _) _ = _
    rw [Access.run_ofExcept, hout]
  · rw [contents_kept hm hend hcount hcolumns]
    congr 2
    omega

end MemoryFile

end StripeScan
