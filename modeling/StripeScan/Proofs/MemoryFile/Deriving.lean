import StripeScan.Proofs.MemoryFile.Building
import StripeScan.Proofs.Statistics.Deriving

/-! # Statistics of files in memory

Deriving the statistics of a file never fails on stripes that follow its schema (`build_ofStripes`).
Each row group then has the summaries of its rows, and the statistics of the whole admit what those
of a part admit, stripe over row groups and file over stripes (`Derived`). -/

namespace StripeScan

/-- The values of some rows of a column. -/
def Column.values (c : Column) (rows : ℕ × ℕ) : List (Option Literal) :=
  (List.range' rows.1 rows.2).map c.literalAt?

theorem Column.kind_of_values {c : Column} {rows : ℕ × ℕ} {v : Literal}
    (hv : v ∈ (c.values rows).reduceOption) : v.kind = c.kind := by
  obtain ⟨row, -, hrow⟩ := List.mem_map.mp (List.reduceOption_mem_iff.mp hv)
  obtain ⟨cell, -, hliteral⟩ := Option.bind_eq_some_iff.mp hrow
  exact ColumnType.kind_of_literal? hliteral

theorem Column.length_values_le (c : Column) (rows : ℕ × ℕ) :
    (c.values rows).reduceOption.length ≤ rows.2 := by
  refine (List.reduceOption_length_le _).trans_eq ?_
  rw [values, List.length_map, List.length_range']

theorem Column.mem_values {c : Column} {rows : ℕ × ℕ} {row : ℕ} (low : rows.1 ≤ row)
    (high : row < rows.1 + rows.2) : c.literalAt? row ∈ c.values rows :=
  List.mem_map_of_mem (List.mem_range'_1.mpr ⟨low, high⟩)

namespace MemoryFile

/-! ### Entries -/

section entries

/-- Whether there is an entry for each column, with bounds of the kind of the column, and none
counts more values than there are rows. -/
structure EntriesFit (schema : Schema) (rows : ℕ) (entries : List (Option Statistics)) : Prop where
  length : entries.length = schema.size
  kinds : ∀ {column : ℕ} {kind : Kind} {entry : Option Statistics},
    schema.kind? column = some kind → entries[column]? = some entry → ∀ s ∈ entry, s.OfKind kind
  counts : ∀ {s : Statistics}, some s ∈ entries → s.count ≤ rows

/-- Whether a column has an entry that admits a value. -/
def EntryAdmits (entries : List (Option Statistics)) (column : ℕ) (v : Option Literal) : Prop :=
  ∃ s, entries[column]? = some (some s) ∧ s.Admits v

variable {schema : Schema} {m n : ℕ} {a b u : List (Option Statistics)}

theorem unknownColumns_fit : EntriesFit schema 0 (unknownColumns schema) where
  length := List.length_replicate
  kinds _ hentry s hs := by
    rw [List.eq_of_mem_replicate (List.mem_of_getElem? hentry)] at hs
    cases hs
  counts hs := nomatch List.eq_of_mem_replicate hs

theorem exists_kind? {column : ℕ} (h : column < schema.size) :
    ∃ kind, schema.kind? column = some kind :=
  ⟨_, List.getElem?_eq_getElem h⟩

theorem mergeOptional_eq_ok {x y : Option Statistics} {kind : Kind}
    (hx : ∀ s ∈ x, s.OfKind kind) (hy : ∀ s ∈ y, s.OfKind kind) :
    ∃ z, Statistics.mergeOptional x y = .ok z ∧ ∀ s ∈ z, s.OfKind kind := by
  cases x with
  | none =>
      cases y with
      | none => exact ⟨none, rfl, hx⟩
      | some t => exact ⟨some t, rfl, hy⟩
  | some s =>
      cases y with
      | none => exact ⟨some s, rfl, hx⟩
      | some t =>
          obtain ⟨z, hz, kz⟩ := Statistics.merge_eq_ok (hx s rfl) (hy t rfl)
          refine ⟨some z, by rw [Statistics.mergeOptional, hz]; rfl, fun w hw => ?_⟩
          cases hw
          exact kz

section mergeOptional

variable {x y z : Option Statistics} (h : Statistics.mergeOptional x y = .ok z)
variable (hx : ∀ s ∈ x, s.count ≤ m) (hy : ∀ s ∈ y, s.count ≤ n) (few : m + n < UInt64.size)

include h hx hy few

theorem mergeOptional_count_le : ∀ s ∈ z, s.count ≤ m + n := by
  intro w hw
  cases x with
  | none =>
      cases y with
      | none =>
          cases h
          cases hw
      | some t =>
          cases h
          exact (hy w hw).trans (Nat.le_add_left n m)
  | some s =>
      cases y with
      | none =>
          cases h
          exact (hx w hw).trans (Nat.le_add_right m n)
      | some t =>
          obtain ⟨_, hmerged, rfl⟩ := map_eq_ok_iff.mp h
          cases hw
          have hcount := Nat.add_le_add (hx s rfl) (hy t rfl)
          rw [Statistics.merge_count hmerged (hcount.trans_lt few)]
          exact hcount

theorem mergeOptional_admits {v : Option Literal}
    (hv : (∃ s ∈ x, s.Admits v) ∨ ∃ s ∈ y, s.Admits v) : ∃ s ∈ z, s.Admits v := by
  cases x with
  | none =>
      cases y with
      | none =>
          cases h
          exact hv.elim id id
      | some t =>
          cases h
          exact hv.resolve_left fun ⟨s, hs, _⟩ => (nomatch hs)
  | some s =>
      cases y with
      | none =>
          cases h
          exact hv.resolve_right fun ⟨s, hs, _⟩ => (nomatch hs)
      | some t =>
          obtain ⟨w, hw, rfl⟩ := map_eq_ok_iff.mp h
          have hcount := (Nat.add_le_add (hx s rfl) (hy t rfl)).trans_lt few
          refine ⟨w, rfl, Statistics.merge_admits hw hcount (hv.imp ?_ ?_)⟩
          · rintro ⟨_, ⟨⟩, hadmits⟩
            exact hadmits
          · rintro ⟨_, ⟨⟩, hadmits⟩
            exact hadmits

end mergeOptional

/-- Merging is column by column. -/
theorem mergeColumns_getElem? (ha : a.length = schema.size) (hb : b.length = schema.size)
    (h : mergeColumns a b = .ok u) :
    u.length = schema.size ∧ ∀ column < schema.size, ∃ x y z, a[column]? = some x ∧
      b[column]? = some y ∧ u[column]? = some z ∧ Statistics.mergeOptional x y = .ok z := by
  have hall := mapM_eq_ok_iff.mp h
  have hzip : (a.zip b).length = schema.size := by
    rw [List.length_zip, ha, hb, Nat.min_self]
  refine ⟨hall.length_eq.symm.trans hzip, fun column hcolumn => ?_⟩
  have hu : column < u.length := hall.length_eq ▸ hzip.symm ▸ hcolumn
  have hmerged := hall.get (hzip.symm ▸ hcolumn) hu
  rw [List.get_eq_getElem, List.getElem_zip] at hmerged
  exact ⟨_, _, _, List.getElem?_eq_getElem (ha.symm ▸ hcolumn),
    List.getElem?_eq_getElem (hb.symm ▸ hcolumn), List.getElem?_eq_getElem hu, hmerged⟩

theorem EntriesFit.count_le (fit : EntriesFit schema n a) {column : ℕ} {x : Option Statistics}
    (hx : a[column]? = some x) : ∀ s ∈ x, s.count ≤ n := by
  rintro s rfl
  exact fit.counts (List.mem_of_getElem? hx)

theorem EntryAdmits.lt_length {column : ℕ} {v : Option Literal} (h : EntryAdmits a column v) :
    column < a.length := by
  obtain ⟨s, hs, -⟩ := h
  exact (List.getElem?_eq_some_iff.mp hs).1

section mergeColumns

variable (ha : EntriesFit schema m a) (hb : EntriesFit schema n b)

include ha hb

theorem exists_mergeColumns : ∃ u, mergeColumns a b = .ok u := by
  have hsteps : ∀ p ∈ a.zip b, ∃ z, Statistics.mergeOptional p.1 p.2 = .ok z ∧ True := by
    intro p hp
    obtain ⟨column, hcolumn⟩ := List.mem_iff_getElem?.mp hp
    obtain ⟨hx, hy⟩ := List.getElem?_zip_eq_some.mp hcolumn
    have hlt : column < schema.size := ha.length ▸ (List.getElem?_eq_some_iff.mp hx).1
    obtain ⟨kind, hkind⟩ := exists_kind? hlt
    obtain ⟨z, hz, -⟩ := mergeOptional_eq_ok (ha.kinds hkind hx) (hb.kinds hkind hy)
    exact ⟨z, hz, trivial⟩
  obtain ⟨u, hu, -⟩ := exists_mapM_forall₂ hsteps
  exact ⟨u, hu⟩

variable (few : m + n < UInt64.size) (h : mergeColumns a b = .ok u)

include few h

theorem mergeColumns_fit : EntriesFit schema (m + n) u := by
  obtain ⟨hlength, hcolumns⟩ := mergeColumns_getElem? ha.length hb.length h
  have hentry {column : ℕ} {entry : Option Statistics} (hentry : u[column]? = some entry) :
      ∃ x y, a[column]? = some x ∧ b[column]? = some y ∧
        Statistics.mergeOptional x y = .ok entry := by
    obtain ⟨x, y, z, hx, hy, hz, hmerged⟩ :=
      hcolumns column (hlength ▸ (List.getElem?_eq_some_iff.mp hentry).1)
    rw [hz] at hentry
    cases hentry
    exact ⟨x, y, hx, hy, hmerged⟩
  refine ⟨hlength, fun {column kind entry} hkind hu => ?_, fun {s} hs => ?_⟩
  · obtain ⟨x, y, hx, hy, hmerged⟩ := hentry hu
    obtain ⟨z, hz, kz⟩ := mergeOptional_eq_ok (ha.kinds hkind hx) (hb.kinds hkind hy)
    rw [hmerged] at hz
    cases hz
    exact kz
  · obtain ⟨column, hcolumn⟩ := List.mem_iff_getElem?.mp hs
    obtain ⟨x, y, hx, hy, hmerged⟩ := hentry hcolumn
    exact mergeOptional_count_le hmerged (ha.count_le hx) (hb.count_le hy) few s rfl

theorem mergeColumns_admits {column : ℕ} {v : Option Literal}
    (hv : EntryAdmits a column v ∨ EntryAdmits b column v) : EntryAdmits u column v := by
  obtain ⟨-, hcolumns⟩ := mergeColumns_getElem? ha.length hb.length h
  have hcolumn : column < schema.size :=
    hv.elim (fun hv => hv.lt_length.trans_eq ha.length) fun hv => hv.lt_length.trans_eq hb.length
  obtain ⟨x, y, z, hx, hy, hz, hmerged⟩ := hcolumns column hcolumn
  have hsides : (∃ s ∈ x, s.Admits v) ∨ ∃ s ∈ y, s.Admits v :=
    hv.imp (fun ⟨s, hs, hadmits⟩ => ⟨s, Option.some.inj (hx.symm.trans hs), hadmits⟩)
      (fun ⟨s, hs, hadmits⟩ => ⟨s, Option.some.inj (hy.symm.trans hs), hadmits⟩)
  obtain ⟨s, hs, hadmits⟩ :=
    mergeOptional_admits hmerged (ha.count_le hx) (hb.count_le hy) few hsides
  exact ⟨s, hz.trans (congrArg some hs), hadmits⟩

end mergeColumns

/-- Merging the entries of two parts succeeds, and admits what those of either part admit. -/
theorem mergeColumns_eq_ok (ha : EntriesFit schema m a) (hb : EntriesFit schema n b)
    (few : m + n < UInt64.size) :
    ∃ u, mergeColumns a b = .ok u ∧ EntriesFit schema (m + n) u ∧
      ∀ column v, EntryAdmits a column v ∨ EntryAdmits b column v → EntryAdmits u column v := by
  obtain ⟨u, hu⟩ := exists_mergeColumns ha hb
  exact ⟨u, hu, mergeColumns_fit ha hb few hu, fun _ _ hv => mergeColumns_admits ha hb few hu hv⟩

end entries

/-! ### Row groups -/

/-- The rows of each row group of a stripe, as their start and their number. -/
def groupChunks (stride rows : ℕ) : List (ℕ × ℕ) :=
  chunks (if stride = 0 then rows else stride) rows rows 0

theorem chunks_getElem? {length total limit start : ℕ} (positive : 0 < length)
    (enough : total - start ≤ limit) (g : ℕ) :
    (chunks length total limit start)[g]? =
      if start + g * length < total then
        some (start + g * length, min length (total - (start + g * length)))
      else none := by
  induction limit generalizing start g with
  | zero =>
      rw [if_neg (by omega)]
      rfl
  | succ limit ih =>
      rw [chunks]
      split
      · rw [if_neg (by omega)]
        rfl
      · rename_i hstart
        cases g with
        | zero =>
            rw [Nat.zero_mul, Nat.add_zero, if_pos (by omega)]
            rfl
        | succ g =>
            rw [List.getElem?_cons_succ, ih (by omega), Nat.succ_mul]
            by_cases hlast : length ≤ total - start
            · rw [min_eq_left hlast, show start + length + g * length =
                start + (g * length + length) by omega]
            · rw [if_neg (by omega), if_neg (by omega)]

/-- The chunks together are all rows. -/
theorem flatMap_chunks {length total limit start : ℕ} (positive : 0 < length)
    (enough : total - start ≤ limit) :
    (chunks length total limit start).flatMap (fun c => List.range' c.1 c.2) =
      List.range' start (total - start) := by
  induction limit generalizing start with
  | zero =>
      rw [Nat.le_zero.mp enough]
      rfl
  | succ limit ih =>
      rw [chunks]
      split
      · rw [Nat.sub_eq_zero_of_le ‹_›]
        rfl
      · rw [List.flatMap_cons, ih (by omega), List.range'_append_1]
        congr 1
        omega

theorem flatMap_groupChunks (stride rows : ℕ) :
    (groupChunks stride rows).flatMap (fun c => List.range' c.1 c.2) = List.range' 0 rows := by
  rcases Nat.eq_zero_or_pos rows with rfl | hpos
  · rfl
  · exact flatMap_chunks (by split <;> omega) (by omega)

/-- The rows of all chunks. -/
theorem totalOf_groupChunks (stride rows : ℕ) :
    totalOf ((groupChunks stride rows).map Prod.snd) = rows := by
  have h := congrArg List.length (flatMap_groupChunks stride rows)
  rw [List.length_flatMap, List.length_range'] at h
  simp only [List.length_range'] at h
  rw [totalOf_eq_sum]
  exact h

/-- Without a stride there is at most one row group. -/
theorem groupChunks_zero (rows : ℕ) : (groupChunks 0 rows).length ≤ 1 := by
  rw [← List.getElem?_eq_none_iff, groupChunks, if_pos rfl]
  rcases Nat.eq_zero_or_pos rows with rfl | hpos
  · rfl
  · rw [chunks_getElem? hpos (by omega), if_neg (by omega)]

/-- Each row lies in the chunk of its row group. -/
theorem exists_groupChunk (stride : ℕ) {rows row : ℕ} (h : row < rows) :
    ∃ chunk, (groupChunks stride rows)[if stride = 0 then 0 else row / stride]? = some chunk ∧
      chunk.1 ≤ row ∧ row < chunk.1 + chunk.2 := by
  unfold groupChunks
  split
  · rw [chunks_getElem? (by omega) (by omega), if_pos (by omega)]
    exact ⟨_, rfl, by omega, by omega⟩
  · rename_i hstride
    have hpos : 0 < stride := Nat.pos_of_ne_zero hstride
    have hle := Nat.div_mul_le_self row stride
    have hlt := Nat.lt_div_mul_add hpos (a := row)
    rw [chunks_getElem? hpos (by omega), if_pos (by omega)]
    exact ⟨_, rfl, by omega, by omega⟩

/-- The rows of a chunk are of its row group. -/
theorem mem_groupChunk {stride rows g row : ℕ} {chunk : ℕ × ℕ}
    (h : (groupChunks stride rows)[g]? = some chunk) (low : chunk.1 ≤ row)
    (high : row < chunk.1 + chunk.2) :
    row < rows ∧ (if stride = 0 then 0 else row / stride) = g := by
  unfold groupChunks at h
  split at h
  · rename_i hstride
    have hpos : 0 < rows := by
      refine Nat.pos_of_ne_zero fun hzero => ?_
      rw [hzero] at h
      cases h
    rw [chunks_getElem? hpos (by omega)] at h
    split at h
    · cases h
      have hzero : g = 0 := by
        refine Nat.eq_zero_of_not_pos fun hg => ?_
        have := Nat.le_mul_of_pos_left rows hg
        omega
      subst hzero
      exact ⟨by omega, if_pos hstride⟩
    · cases h
  · rename_i hstride
    have hpos : 0 < stride := Nat.pos_of_ne_zero hstride
    rw [chunks_getElem? hpos (by omega)] at h
    split at h
    · cases h
      refine ⟨by omega, ?_⟩
      rw [if_neg hstride]
      refine Nat.div_eq_of_lt_le (by omega) ?_
      rw [Nat.succ_mul]
      omega
    · cases h

/-! ### Derived statistics -/

section derived

variable {schema : Schema} {stride : ℕ}

/-- Whether entries summarise some rows of a batch, column by column. -/
def EntriesSummarise (rows : Batch) (chunk : ℕ × ℕ) (entries : List (Option Statistics)) : Prop :=
  ∀ (column : ℕ) (c : Column), rows.columns[column]? = some c →
    ∃ s, entries[column]? = some (some s) ∧ s.Summarises (c.values chunk)

/-- A stripe with statistics derived from its rows. -/
structure DerivedStripe (schema : Schema) (stride : ℕ) (rows : Batch) (m : MemoryStripe) :
    Prop where
  rows_eq : m.rows = rows
  fits : EntriesFit schema rows.rows m.statistics
  groups : List.Forall₂ (fun chunk entries =>
    EntriesFit schema chunk.2 entries ∧ EntriesSummarise rows chunk entries)
    (groupChunks stride rows.rows) m.groups
  admits : ∀ entries ∈ m.groups, ∀ column v, EntryAdmits entries column v →
    EntryAdmits m.statistics column v
  single : stride = 0 → ∀ entries ∈ m.groups, m.statistics = entries

/-- A file that is built of stripes, with the statistics derived from their rows. -/
structure Derived (schema : Schema) (stride : ℕ) (stripes : List Batch) (f : MemoryFile) :
    Prop where
  built : build (.ofStripes schema stride stripes) = .ok f
  fits : EntriesFit schema (totalOf (stripes.map Batch.rows)) f.statistics
  stripes : List.Forall₂ (DerivedStripe schema stride) stripes f.stripes
  admits : ∀ m ∈ f.stripes, ∀ column v, EntryAdmits m.statistics column v →
    EntryAdmits f.statistics column v

theorem Derived.realizes {stripes : List Batch} {f : MemoryFile}
    (derived : Derived schema stride stripes f) : f.Realizes (.ofStripes schema stride stripes) :=
  build_realizes derived.built

theorem Derived.schema_eq {stripes : List Batch} {f : MemoryFile}
    (derived : Derived schema stride stripes f) : f.schema = schema :=
  derived.realizes.schema_eq

theorem Derived.stride_eq {stripes : List Batch} {f : MemoryFile}
    (derived : Derived schema stride stripes f) : f.stride = stride :=
  derived.realizes.stride_eq

theorem ofColumn_eq_ok (c : Column) {chunk : ℕ × ℕ} (few : chunk.2 < UInt64.size) :
    ∃ s, Statistics.ofColumn c chunk.1 chunk.2 = .ok s ∧ s.Summarises (c.values chunk) ∧
      s.OfKind c.kind ∧ s.count ≤ chunk.2 := by
  have kinds : ∀ v ∈ (c.values chunk).reduceOption, v.kind = c.kind :=
    fun v => Column.kind_of_values
  have hcount := c.length_values_le chunk
  obtain ⟨s, hs, hsummary⟩ := Statistics.ofValues_eq_ok kinds (hcount.trans_lt few)
  exact ⟨s, hs, hsummary, hsummary.ofKind kinds, hsummary.count.trans_le hcount⟩

theorem deriveColumns_eq_ok {rows : Batch} (regular : rows.Regular) (chunk : ℕ × ℕ)
    (few : chunk.2 < UInt64.size) :
    ∃ entries, deriveColumns rows chunk.1 chunk.2 = .ok entries ∧
      EntriesFit rows.schema chunk.2 entries ∧ EntriesSummarise rows chunk entries := by
  have hstep : ∀ c ∈ rows.columns, ∃ entry,
      (Statistics.ofColumn c chunk.1 chunk.2).map some = .ok entry ∧
        ∃ s, entry = some s ∧ s.Summarises (c.values chunk) ∧ s.OfKind c.kind ∧
          s.count ≤ chunk.2 := by
    intro c _
    obtain ⟨s, hs, hfit⟩ := ofColumn_eq_ok c few
    exact ⟨some s, map_eq_ok_iff.mpr ⟨s, hs, rfl⟩, s, rfl, hfit⟩
  obtain ⟨entries, hentries, hall⟩ := exists_mapM_forall₂ hstep
  have hlength : rows.columns.length = entries.length := hall.length_eq
  refine ⟨entries, hentries, ⟨hlength.symm.trans regular.count, ?_, fun {s} hs => ?_⟩,
    fun column c hc => ?_⟩
  · intro column kind entry hkind hentry s hs
    obtain ⟨hlt, rfl⟩ := List.getElem?_eq_some_iff.mp hentry
    have hlt' : column < rows.columns.length := hlength ▸ hlt
    obtain ⟨field, hfield, hcolumnKind⟩ :=
      regular.exists_field (List.getElem?_eq_getElem hlt')
    rw [Schema.kind?_eq, hfield] at hkind
    cases hkind
    obtain ⟨s', hs', -, hkind, -⟩ := hall.get hlt' hlt
    have hsame : s = s' := Option.some.inj (hs.symm.trans hs')
    show s.OfKind field.type.kind
    rw [hcolumnKind, hsame]
    exact hkind
  · obtain ⟨column, hlt, hentry⟩ := List.getElem_of_mem hs
    obtain ⟨s', hs', -, -, hcount⟩ := hall.get (hlength ▸ hlt) hlt
    have hsame : s = s' := Option.some.inj (hentry.symm.trans hs')
    rw [hsame]
    exact hcount
  · obtain ⟨hlt, rfl⟩ := List.getElem?_eq_some_iff.mp hc
    have hlt' : column < entries.length := hlength ▸ hlt
    obtain ⟨s, hs, hsummary, -⟩ := hall.get hlt hlt'
    exact ⟨s, (List.getElem?_eq_getElem hlt').trans (congrArg some hs), hsummary⟩

/-- Merging the entries of many parts into those of some more succeeds, and admits what those of any
of them admit. -/
theorem foldlM_mergeColumns_eq_ok {sizes : List ℕ} {groups : List (List (Option Statistics))}
    (fits : List.Forall₂ (EntriesFit schema) sizes groups) {size : ℕ}
    {merged : List (Option Statistics)} (hmerged : EntriesFit schema size merged)
    (few : size + totalOf sizes < UInt64.size) :
    ∃ u, groups.foldlM mergeColumns merged = .ok u ∧ EntriesFit schema (size + totalOf sizes) u ∧
      ∀ entries, entries = merged ∨ entries ∈ groups → ∀ column v,
        EntryAdmits entries column v → EntryAdmits u column v := by
  induction fits generalizing size merged with
  | nil =>
      refine ⟨merged, rfl, hmerged, fun entries hentries column v hv => ?_⟩
      rcases hentries with rfl | hentries
      · exact hv
      · cases hentries
  | @cons n group sizes groups hgroup _ ih =>
      rw [totalOf, ← Nat.add_assoc] at few ⊢
      obtain ⟨next, hnext, hfit, hadmits⟩ := mergeColumns_eq_ok hmerged hgroup (by omega)
      obtain ⟨u, hu, hfit, hkept⟩ := ih hfit few
      refine ⟨u, by rw [List.foldlM_cons, hnext, bind_ok, hu], hfit,
        fun entries hentries column v hv => ?_⟩
      rcases hentries with rfl | hentries
      · exact hkept next (.inl rfl) column v (hadmits column v (.inl hv))
      · rcases List.mem_cons.mp hentries with rfl | hentries
        · exact hkept next (.inl rfl) column v (hadmits column v (.inr hv))
        · exact hkept entries (.inr hentries) column v hv

/-- Merging with nothing known changes nothing. -/
theorem mergeColumns_unknown {entries : List (Option Statistics)}
    (length : entries.length = schema.size) :
    mergeColumns (unknownColumns schema) entries = .ok entries := by
  rw [mergeColumns, mapM_eq_ok_iff, List.forall₂_iff_get]
  have hzip : ((unknownColumns schema).zip entries).length = entries.length := by
    rw [List.length_zip, unknownColumns, List.length_replicate, length, Nat.min_self]
  refine ⟨hzip, fun i hi hi' => ?_⟩
  rw [List.get_eq_getElem, List.getElem_zip, List.get_eq_getElem]
  simp only [unknownColumns, List.getElem_replicate]
  cases entries[i] <;> rfl

theorem deriveStripe_eq_ok (stride : ℕ) {rows : Batch} (regular : rows.Regular)
    (few : rows.rows < UInt64.size) :
    ∃ m, deriveStripe rows.schema stride rows = .ok m ∧
      DerivedStripe rows.schema stride rows m := by
  have htotal := totalOf_groupChunks stride rows.rows
  obtain ⟨groups, hgroups, hall⟩ : ∃ groups, deriveGroups stride rows = .ok groups ∧
      List.Forall₂ (fun chunk entries =>
        EntriesFit rows.schema chunk.2 entries ∧ EntriesSummarise rows chunk entries)
        (groupChunks stride rows.rows) groups := by
    refine exists_mapM_forall₂ fun chunk hchunk => deriveColumns_eq_ok regular chunk ?_
    have hle := le_totalOf (List.mem_map_of_mem (f := Prod.snd) hchunk)
    exact (hle.trans_eq htotal).trans_lt few
  have hlength : (groupChunks stride rows.rows).length = groups.length := hall.length_eq
  have hfits : List.Forall₂ (EntriesFit rows.schema)
      ((groupChunks stride rows.rows).map Prod.snd) groups :=
    List.forall₂_map_left_iff.mpr (hall.imp fun _ _ h => h.1)
  obtain ⟨statistics, hstatistics, hfit, hadmits⟩ :=
    foldlM_mergeColumns_eq_ok hfits unknownColumns_fit (by rwa [htotal, Nat.zero_add])
  rw [htotal, Nat.zero_add] at hfit
  refine ⟨⟨rows, statistics, groups⟩, ?_, rfl, hfit, hall,
    fun entries hentries => hadmits entries (.inr hentries), fun hstride entries hentries => ?_⟩
  · rw [deriveStripe, hgroups, bind_ok, hstatistics]
    rfl
  · have hle := groupChunks_zero rows.rows
    rw [← hstride, hlength] at hle
    obtain ⟨first, hfirst⟩ := List.length_eq_one_iff.mp
      (le_antisymm hle (List.length_pos_of_mem hentries))
    obtain rfl : entries = first := List.mem_singleton.mp (hfirst ▸ hentries)
    obtain ⟨chunk, -, hfit, -⟩ := List.forall₂_cons_right_iff.mp (hfirst ▸ hfits)
    rw [hfirst, List.foldlM_cons, mergeColumns_unknown hfit.length] at hstatistics
    cases hstatistics
    rfl

section stripes

variable {stripes : List Batch} (follow : Follow schema stride stripes)

include follow

/-- Deriving the statistics of a file succeeds on stripes that follow its schema. -/
theorem deriveAll_eq_ok :
    ∃ ms file, deriveAll schema stride stripes = .ok (ms, file) ∧
      EntriesFit schema (totalOf (stripes.map Batch.rows)) file ∧
      List.Forall₂ (DerivedStripe schema stride) stripes ms ∧
      ∀ m ∈ ms, ∀ column v, EntryAdmits m.statistics column v → EntryAdmits file column v := by
  have hfold : ∃ p, deriveAll schema stride stripes = .ok p ∧
      EntriesFit schema (totalOf (stripes.map Batch.rows)) p.2 ∧
      List.Forall₂ (DerivedStripe schema stride) stripes p.1 ∧
      ∀ m ∈ p.1, ∀ column v, EntryAdmits m.statistics column v → EntryAdmits p.2 column v := by
    refine foldlM_eq_ok (P := fun done (p : List MemoryStripe × List (Option Statistics)) =>
      EntriesFit schema (totalOf (done.map Batch.rows)) p.2 ∧
      List.Forall₂ (DerivedStripe schema stride) done p.1 ∧
      ∀ m ∈ p.1, ∀ column v, EntryAdmits m.statistics column v → EntryAdmits p.2 column v)
      ⟨unknownColumns_fit, .nil, fun m hm => (nomatch hm)⟩ ?_
    rintro done rows hdone ⟨ms, file⟩ ⟨hfit, hall, hadmits⟩
    have hrows : rows ∈ stripes := hdone.subset (List.mem_append_right done List.mem_cons_self)
    have htotal : totalOf ((done ++ [rows]).map Batch.rows) =
        totalOf (done.map Batch.rows) + rows.rows := by
      simp only [totalOf_eq_sum, List.map_append, List.map_singleton, List.sum_append,
        List.sum_singleton]
    have few : totalOf (done.map Batch.rows) + rows.rows < UInt64.size := by
      rw [← htotal]
      exact (follow.totalOf_le_of_prefix hdone).trans_lt (by decide)
    obtain ⟨columns, hcolumns⟩ := follow.made rows hrows
    obtain ⟨regular, hschema, -⟩ := Batch.regular_of_ofColumns hcolumns
    obtain ⟨m, hm, hderived⟩ := deriveStripe_eq_ok stride regular (by omega)
    rw [hschema] at hm hderived
    obtain ⟨file', hfile', hfit', hmerged⟩ := mergeColumns_eq_ok hfit hderived.fits few
    refine ⟨(ms ++ [m], file'), ?_, htotal ▸ hfit', List.rel_append hall (.cons hderived .nil),
      fun part hpart column v hv => ?_⟩
    · show (deriveStripe schema stride rows >>= fun stripe => _) = _
      rw [hm, bind_ok, hfile']
      rfl
    · rcases List.mem_append.mp hpart with hpart | hpart
      · exact hmerged column v (.inl (hadmits part hpart column v hv))
      · rw [List.mem_singleton.mp hpart] at hv
        exact hmerged column v (.inr hv)
  obtain ⟨⟨ms, file⟩, hderived, hfit, hall, hadmits⟩ := hfold
  exact ⟨ms, file, hderived, hfit, hall, hadmits⟩

/-- Building a file of stripes that follow its schema, with nothing replaced, succeeds. -/
theorem build_ofStripes :
    ∃ f, build (.ofStripes schema stride stripes) = .ok f ∧ Derived schema stride stripes f := by
  obtain ⟨ms, file, hderived, hfit, hall, hadmits⟩ := deriveAll_eq_ok follow
  have built : build (.ofStripes schema stride stripes) =
      .ok ⟨schema, stride, ms, file, [], false, false⟩ := by
    rw [build, Spec.ofStripes, hderived]
    rfl
  exact ⟨_, built, built, hfit, hall, hadmits⟩

end stripes

end derived

end MemoryFile

end StripeScan
