import StripeScan.Proofs.MemoryFile.Deriving
import StripeScan.Proofs.MemoryFile.Pruning
import StripeScan.Proofs.Scan.Accounting
import StripeScan.Proofs.Statistics.Adding

/-! # Statistics of the parts and of the whole

The statistics of a stripe are merged from those of its row groups, and the statistics of the file
from those of its stripes.  For a column without floats this makes no difference: they are what is
derived from all the rows at once, to the literals that are kept as bounds (`build_statistics`).

The entry of a column depends on its rows only (`entryOf`): nothing if there are none, otherwise the
sum over them.  Merging entries is joining the rows (`mergeOptional_entryOf`), and so it is with any
number of them (`foldlM_mergeColumns_hasEntry`). -/

namespace StripeScan

open Statistics

/-! ### Rows of a column -/

section columns

variable (c : Column)

theorem Column.values_append (start a b : ℕ) :
    c.values (start, a) ++ c.values (start + a, b) = c.values (start, a + b) := by
  rw [values, values, values, ← List.map_append, List.range'_append_1]

/-- No rows have more values than the column. -/
theorem Column.length_values_le_size (rows : ℕ × ℕ) :
    (c.values rows).reduceOption.length ≤ c.size := by
  obtain ⟨start, count⟩ := rows
  -- Only the first rows are rows of the column.
  obtain ⟨a, b, rfl, ha, hb⟩ : ∃ a b, count = a + b ∧ a ≤ c.size ∧
      (b = 0 ∨ c.size ≤ start + a) :=
    ⟨min count (c.size - start), count - min count (c.size - start), by omega, by omega, by omega⟩
  have houtside : (c.values (start + a, b)).reduceOption = [] := by
    rw [List.reduceOption_eq_nil_iff, Column.values]
    refine ⟨b, List.eq_replicate_iff.mpr ⟨by rw [List.length_map, List.length_range'], ?_⟩⟩
    intro v hv
    obtain ⟨row, hrow, rfl⟩ := List.mem_map.mp hv
    obtain ⟨low, high⟩ := List.mem_range'_1.mp hrow
    have hnone : c.cells[row]? = none := Array.getElem?_eq_none (by unfold size at hb; omega)
    rw [literalAt?, hnone]
    rfl
  rw [← Column.values_append, List.reduceOption_append, houtside, List.append_nil]
  exact (c.length_values_le (start, a)).trans ha

variable {c} (notFloat : c.kind ≠ .float)

include notFloat

/-- What is derived from rows of a column is the sum over the rows. -/
theorem Statistics.ofColumn_eq {rows : ℕ × ℕ}
    (few : (c.values rows).reduceOption.length < UInt64.size) :
    ofColumn c rows.1 rows.2 = .ok (total (c.values rows)) ∧
      (total (c.values rows)).Definite c.kind :=
  ofValues_eq notFloat (fun _ => Column.kind_of_values) few

/-- Rows may be cut anywhere. -/
theorem Statistics.ofColumn_add (few : c.size < UInt64.size) (offset a b : ℕ) :
    ∃ s t u, ofColumn c offset a = .ok s ∧ ofColumn c (offset + a) b = .ok t ∧
      s.merge t = .ok u ∧ ofColumn c offset (a + b) = .ok u := by
  have hfew (rows : ℕ × ℕ) := (c.length_values_le_size rows).trans_lt few
  obtain ⟨hs, definite⟩ := ofColumn_eq notFloat (hfew (offset, a))
  obtain ⟨ht, definite'⟩ := ofColumn_eq notFloat (hfew (offset + a, b))
  obtain ⟨hu, -⟩ := ofColumn_eq notFloat (hfew (offset, a + b))
  have hcount : (total (c.values (offset, a)) + total (c.values (offset + a, b))).count <
      UInt64.size := by
    rw [← total_append, Column.values_append, total_count]
    exact hfew (offset, a + b)
  refine ⟨_, _, _, hs, ht, definite.merge_eq notFloat definite' hcount, ?_⟩
  rw [hu, ← total_append, Column.values_append]

end columns

/-- The values of a column in all rows of a stripe. -/
def MemoryStripe.values (m : MemoryStripe) (column : ℕ) : List (Option Literal) :=
  (List.range m.rows.rows).map (m.value column)

theorem MemoryStripe.values_eq {m : MemoryStripe} {column : ℕ} {c : Column}
    (hc : m.rows.columns[column]? = some c) : m.values column = c.values (0, m.rows.rows) := by
  rw [values, Column.values, List.range_eq_range']
  exact List.map_congr_left fun row _ => by rw [value, hc, Option.bind_some]

namespace MemoryFile

/-! ### Entries of a column -/

/-- The entry of a column for some rows; there is none without rows. -/
def entryOf (rows : List (Option Literal)) : Option Statistics :=
  if rows = [] then none else some (total rows)

/-- Whether a column has the entry for some rows, with values of a kind. -/
structure HasEntry (schema : Schema) (column : ℕ) (kind : Kind)
    (entries : List (Option Statistics)) (rows : List (Option Literal)) : Prop where
  length : entries.length = schema.size
  entry : entries[column]? = some (entryOf rows)
  kinds : ∀ v ∈ rows.reduceOption, v.kind = kind

section entries

variable {schema : Schema} {column : ℕ} {kind : Kind} (notFloat : kind ≠ .float)

include notFloat

/-- Merging entries is joining the rows. -/
theorem mergeOptional_entryOf {xs ys : List (Option Literal)}
    (hx : ∀ v ∈ xs.reduceOption, v.kind = kind) (hy : ∀ v ∈ ys.reduceOption, v.kind = kind)
    (few : (xs ++ ys).length < UInt64.size) :
    mergeOptional (entryOf xs) (entryOf ys) = .ok (entryOf (xs ++ ys)) := by
  have hlength := List.reduceOption_length_le xs
  have hlength' := List.reduceOption_length_le ys
  rw [List.length_append] at few
  by_cases hxs : xs = []
  · rw [hxs, List.nil_append]
    cases entryOf ys <;> rfl
  by_cases hys : ys = []
  · rw [hys, List.append_nil]
    cases entryOf xs <;> rfl
  have hxys : xs ++ ys ≠ [] := fun h => hxs (List.append_eq_nil_iff.mp h).1
  obtain ⟨-, definite⟩ := ofValues_eq notFloat hx (by omega)
  obtain ⟨-, definite'⟩ := ofValues_eq notFloat hy (by omega)
  have hcount : (total xs).count + (total ys).count < UInt64.size := by
    rw [total_count, total_count]
    omega
  rw [entryOf, entryOf, entryOf, if_neg hxs, if_neg hys, if_neg hxys, mergeOptional,
    definite.merge_eq notFloat definite' hcount, total_append]
  rfl

/-- Merging is column by column. -/
theorem HasEntry.merge {a b u : List (Option Statistics)} {xs ys : List (Option Literal)}
    (hcolumn : column < schema.size) (ha : HasEntry schema column kind a xs)
    (hb : HasEntry schema column kind b ys) (few : (xs ++ ys).length < UInt64.size)
    (h : mergeColumns a b = .ok u) : HasEntry schema column kind u (xs ++ ys) := by
  obtain ⟨hlength, hcolumns⟩ := mergeColumns_getElem? ha.length hb.length h
  obtain ⟨x, y, z, hx, hy, hz, hxyz⟩ := hcolumns column hcolumn
  rw [ha.entry] at hx
  rw [hb.entry] at hy
  cases hx
  cases hy
  rw [mergeOptional_entryOf notFloat ha.kinds hb.kinds few] at hxyz
  cases hxyz
  refine ⟨hlength, hz, fun v hv => ?_⟩
  rw [List.reduceOption_append, List.mem_append] at hv
  exact hv.elim (ha.kinds v) (hb.kinds v)

/-- Merging the entries of many parts is joining their rows. -/
theorem foldlM_mergeColumns_hasEntry {parts : List (List (Option Statistics))}
    {rows : List (List (Option Literal))} (hcolumn : column < schema.size)
    (hparts : List.Forall₂ (HasEntry schema column kind) parts rows)
    (few : rows.flatten.length < UInt64.size) {u : List (Option Statistics)}
    (h : parts.foldlM mergeColumns (unknownColumns schema) = .ok u) :
    HasEntry schema column kind u rows.flatten := by
  have hstart : HasEntry schema column kind (unknownColumns schema) [] :=
    ⟨List.length_replicate, List.getElem?_replicate_of_lt hcolumn, fun _ hv => (nomatch hv)⟩
  rw [← List.nil_append rows.flatten] at few ⊢
  -- On the parts, for any rows that are merged already.
  generalize unknownColumns schema = acc at h hstart
  generalize ([] : List (Option Literal)) = before at hstart few ⊢
  induction hparts generalizing before acc with
  | nil =>
      cases h
      rwa [List.flatten_nil, List.append_nil]
  | cons hpart _ ih =>
      obtain ⟨merged, hmerged, h⟩ := bind_eq_ok_iff.mp h
      rw [List.flatten_cons, ← List.append_assoc] at few ⊢
      have hsome := few
      rw [List.length_append] at hsome
      exact ih merged h _ (hstart.merge notFloat hcolumn hpart (by omega) hmerged) few

end entries

/-! ### Row groups and stripes -/

/-- No chunk is empty. -/
theorem chunks_positive {length total limit start : ℕ} (positive : 0 < length)
    (enough : total - start ≤ limit) {chunk : ℕ × ℕ}
    (h : chunk ∈ chunks length total limit start) : 0 < chunk.2 := by
  obtain ⟨g, hg⟩ := List.mem_iff_getElem?.mp h
  rw [chunks_getElem? positive enough] at hg
  split at hg
  · cases hg
    exact Nat.lt_min.mpr ⟨positive, by omega⟩
  · cases hg

section stripes

variable {schema : Schema} {stride : ℕ} {rows : Batch} {column : ℕ} {c : Column}

/-- The values of the row groups together are those of all rows. -/
theorem flatMap_groupChunks_values (c : Column) (stride n : ℕ) :
    (groupChunks stride n).flatMap c.values = c.values (0, n) := by
  rw [Column.values, ← flatMap_groupChunks stride n, List.map_flatMap]
  rfl

theorem groupChunks_positive {n : ℕ} {chunk : ℕ × ℕ} (h : chunk ∈ groupChunks stride n) :
    0 < chunk.2 := by
  rcases Nat.eq_zero_or_pos n with rfl | hpos
  · cases h
  · exact chunks_positive (by split <;> omega) (by omega) h

variable (regular : rows.Regular) (hc : rows.columns[column]? = some c)
  (notFloat : c.kind ≠ .float) (few : rows.rows < UInt64.size)

include regular hc notFloat few

/-- The entry of a row group. -/
theorem deriveColumns_hasEntry {chunk : ℕ × ℕ} {entries : List (Option Statistics)}
    (positive : 0 < chunk.2) (h : deriveColumns rows chunk.1 chunk.2 = .ok entries) :
    HasEntry rows.schema column c.kind entries (c.values chunk) := by
  have hall := mapM_eq_ok_iff.mp h
  obtain ⟨hlt, rfl⟩ := List.getElem?_eq_some_iff.mp hc
  have hlt' : column < entries.length := hall.length_eq ▸ hlt
  obtain ⟨s, hs, hentry⟩ := map_eq_ok_iff.mp (hall.get hlt hlt')
  rw [List.get_eq_getElem] at hs hentry
  have hsize := regular.sizes _ (List.getElem_mem hlt)
  have hcount := rows.columns[column].length_values_le_size chunk
  rw [(ofColumn_eq notFloat (by omega)).1] at hs
  cases hs
  have hne : rows.columns[column].values chunk ≠ [] := by
    rw [Column.values, ne_eq, List.map_eq_nil_iff, List.range'_eq_nil_iff]
    exact positive.ne'
  refine ⟨hall.length_eq.symm.trans regular.count, ?_, fun _ => Column.kind_of_values⟩
  rw [List.getElem?_eq_getElem hlt', entryOf, if_neg hne, ← hentry]

/-- The entry of a stripe. -/
theorem deriveStripe_hasEntry {m : MemoryStripe}
    (h : deriveStripe rows.schema stride rows = .ok m) :
    HasEntry rows.schema column c.kind m.statistics (c.values (0, rows.rows)) := by
  obtain ⟨groups, hgroups, h⟩ := bind_eq_ok_iff.mp h
  obtain ⟨statistics, hstatistics, h⟩ := bind_eq_ok_iff.mp h
  cases h
  have hcolumn : column < rows.schema.size :=
    (List.getElem?_eq_some_iff.mp hc).1.trans_eq regular.count
  have hderived : List.Forall₂ (fun chunk entries => 0 < chunk.2 ∧
      deriveColumns rows chunk.1 chunk.2 = .ok entries) (groupChunks stride rows.rows) groups :=
    (List.forall₂_and_left _ _).mpr ⟨fun _ => groupChunks_positive, mapM_eq_ok_iff.mp hgroups⟩
  have hparts : List.Forall₂ (HasEntry rows.schema column c.kind) groups
      ((groupChunks stride rows.rows).map c.values) := by
    refine List.forall₂_map_right_iff.mpr (hderived.imp fun chunk entries h => ?_).flip
    exact deriveColumns_hasEntry regular hc notFloat few h.1 h.2
  have hlength : (c.values (0, rows.rows)).length = rows.rows := by
    rw [Column.values, List.length_map, List.length_range']
  rw [← flatMap_groupChunks_values c stride, List.flatMap_def] at hlength ⊢
  exact foldlM_mergeColumns_hasEntry notFloat hcolumn hparts (hlength.trans_lt few) hstatistics

end stripes

/-! ### Files -/

section files

variable {schema : Schema} {stride column : ℕ} {kind : Kind} {stripes : List Batch}
variable {ms : List MemoryStripe} {file : List (Option Statistics)}

/-- The stripes are derived one by one, and their statistics are merged from left to right. -/
theorem deriveAll_merged (h : deriveAll schema stride stripes = .ok (ms, file)) :
    List.Forall₂ (fun rows m => deriveStripe schema stride rows = .ok m) stripes ms ∧
      (ms.map (·.statistics)).foldlM mergeColumns (unknownColumns schema) = .ok file := by
  refine foldlM_preserves (P := fun done p =>
    List.Forall₂ (fun rows m => deriveStripe schema stride rows = .ok m) done p.1 ∧
      (p.1.map (·.statistics)).foldlM mergeColumns (unknownColumns schema) = .ok p.2)
    h ⟨.nil, rfl⟩ ?_
  rintro done rows ⟨ms, acc⟩ ⟨ms', acc'⟩ hstep ⟨hall, hmerged⟩
  obtain ⟨m, hm, hstep⟩ := bind_eq_ok_iff.mp hstep
  obtain ⟨merged, hnext, hstep⟩ := bind_eq_ok_iff.mp hstep
  cases hstep
  refine ⟨List.rel_append hall (.cons hm .nil), ?_⟩
  rw [List.map_append, List.foldlM_append, hmerged, bind_ok, List.map_singleton,
    List.foldlM_cons, hnext]
  rfl

theorem length_values (ms : List MemoryStripe) (column : ℕ) :
    (ms.flatMap (·.values column)).length = totalOf (ms.map (·.rows.rows)) := by
  simp [List.length_flatMap, MemoryStripe.values, totalOf_eq_sum]

variable (follow : Follow schema stride stripes)

include follow

/-- Each stripe that follows a schema has a column for each of its kinds. -/
theorem Follow.exists_column
    (hkind : schema.kind? column = some kind) {rows : Batch} (hrows : rows ∈ stripes) :
    rows.Regular ∧ rows.schema = schema ∧ ∃ c, rows.columns[column]? = some c ∧ c.kind = kind := by
  obtain ⟨columns, hcolumns⟩ := follow.made rows hrows
  obtain ⟨regular, hschema, -⟩ := Batch.regular_of_ofColumns hcolumns
  have hlt : column < rows.columns.length := by
    rw [regular.count, hschema]
    exact lt_size_of_kind? hkind
  obtain ⟨field, hfield, hcolumn⟩ := regular.exists_field (List.getElem?_eq_getElem hlt)
  rw [hschema] at hfield
  rw [Schema.kind?_eq, hfield] at hkind
  exact ⟨regular, hschema, _, List.getElem?_eq_getElem hlt, hcolumn ▸ Option.some.inj hkind⟩

/-- The rows of all stripes are no more than a word. -/
theorem Follow.totalOf_lt_of_deriveAll (h : deriveAll schema stride stripes = .ok (ms, file)) :
    totalOf (ms.map (·.rows.rows)) < UInt64.size := by
  have held := follow.held
  rw [← deriveAll_rows h, List.map_map] at held
  exact held.trans_lt (by decide)

/-- The entries of all stripes, and that of the file. -/
theorem deriveAll_hasEntry
    (hkind : schema.kind? column = some kind) (notFloat : kind ≠ .float)
    (h : deriveAll schema stride stripes = .ok (ms, file)) :
    (∀ m ∈ ms, ∃ c, m.rows.columns[column]? = some c ∧ c.kind = kind ∧
        HasEntry schema column kind m.statistics (c.values (0, m.rows.rows))) ∧
      HasEntry schema column kind file (ms.flatMap (·.values column)) := by
  obtain ⟨hall, hmerged⟩ := deriveAll_merged h
  have few := follow.totalOf_lt_of_deriveAll h
  have hstripes : ∀ m ∈ ms, ∃ c, m.rows.columns[column]? = some c ∧ c.kind = kind ∧
      HasEntry schema column kind m.statistics (c.values (0, m.rows.rows)) := by
    intro m hm
    obtain ⟨i, hi, rfl⟩ := List.getElem_of_mem hm
    have hderived := hall.get (hall.length_eq ▸ hi) hi
    have hrows := deriveStripe_rows hderived
    obtain ⟨regular, hschema, c, hc, rfl⟩ :=
      follow.exists_column hkind (List.get_mem stripes ⟨i, hall.length_eq ▸ hi⟩)
    rw [← hrows] at hderived regular hschema hc
    subst hschema
    have hle := le_totalOf (List.mem_map_of_mem (f := fun m : MemoryStripe => m.rows.rows) hm)
    exact ⟨c, hc, rfl, deriveStripe_hasEntry regular hc notFloat (hle.trans_lt few) hderived⟩
  refine ⟨hstripes, ?_⟩
  rw [← length_values ms column] at few
  rw [List.flatMap_def] at few ⊢
  refine foldlM_mergeColumns_hasEntry notFloat (lt_size_of_kind? hkind) ?_ few hmerged
  rw [List.forall₂_map_left_iff, List.forall₂_map_right_iff, List.forall₂_same]
  intro m hm
  obtain ⟨c, hc, -, hentry⟩ := hstripes m hm
  rwa [MemoryStripe.values_eq hc]

end files

/-- Deriving and merging agree.

Rows of a column without floats, whose size is a word, may be cut anywhere: merging what is derived
from both parts gives what is derived from all rows, with the same literals as bounds.

So it is for a file that is built of stripes that follow its schema and with no statistics replaced.
In a column without floats, the statistics of a stripe with rows are those derived from the whole
stripe, and the statistics of a file with rows are those derived from the values of all stripes one
after the other; a file without rows has none. -/
theorem build_statistics :
    (∀ (c : Column) (offset a b : ℕ), c.kind ≠ .float → c.size < UInt64.size →
      ∃ s t u, ofColumn c offset a = .ok s ∧ ofColumn c (offset + a) b = .ok t ∧
        s.merge t = .ok u ∧ ofColumn c offset (a + b) = .ok u) ∧
    ∀ spec : Spec, Follow spec.schema spec.stride spec.stripes → spec.fileStatistics = [] →
      spec.stripeStatistics = [] → spec.groupStatistics = [] →
      ∃ f, build spec = .ok f ∧ f.stripes.map (·.rows) = spec.stripes ∧
        ∀ column kind, spec.schema.kind? column = some kind → kind ≠ .float →
          (∀ m ∈ f.stripes, m.rows.rows ≠ 0 → ∃ c s, m.rows.columns[column]? = some c ∧
            ofColumn c 0 m.rows.rows = .ok s ∧ m.statistics[column]? = some (some s)) ∧
          (f.totalRows ≠ 0 → ∃ s, ofValues (f.stripes.flatMap (·.values column)) = .ok s ∧
            f.statistics[column]? = some (some s)) ∧
          (f.totalRows = 0 → f.statistics[column]? = some none) := by
  refine ⟨fun c offset a b notFloat few => ofColumn_add notFloat few offset a b, ?_⟩
  intro spec follow hfile hstripe hgroup
  obtain ⟨ms, file, hderived, -⟩ := deriveAll_eq_ok follow
  refine ⟨⟨spec.schema, spec.stride, ms, file, spec.groupCounts.reverse, spec.failsRows,
    spec.failsStatistics⟩, ?_, deriveAll_rows hderived, fun column kind hkind notFloat => ?_⟩
  · rw [build, hderived, hfile, hstripe, hgroup]
    rfl
  obtain ⟨hstripes, hwhole⟩ := deriveAll_hasEntry follow hkind notFloat hderived
  have hlength := length_values ms column
  have few := follow.totalOf_lt_of_deriveAll hderived
  refine ⟨fun m hm hrows => ?_, fun hrows => ?_, fun hrows => ?_⟩
  · obtain ⟨c, hc, rfl, hentry⟩ := hstripes m hm
    have hne : c.values (0, m.rows.rows) ≠ [] := by
      simpa [Column.values] using hrows
    have hle := le_totalOf (List.mem_map_of_mem (f := fun m : MemoryStripe => m.rows.rows) hm)
    have hcount := (c.length_values_le (0, m.rows.rows)).trans_lt (hle.trans_lt few)
    exact ⟨c, _, hc, (ofColumn_eq notFloat hcount).1,
      hentry.entry.trans (congrArg some (if_neg hne))⟩
  · have hne : ms.flatMap (·.values column) ≠ [] := fun hnil => hrows (by
      rw [hnil] at hlength
      exact hlength.symm)
    have hcount := (List.reduceOption_length_le _).trans_lt (hlength.trans_lt few)
    exact ⟨_, (ofValues_eq notFloat hwhole.kinds hcount).1,
      hwhole.entry.trans (congrArg some (if_neg hne))⟩
  · have hnil : ms.flatMap (·.values column) = [] :=
      List.length_eq_zero_iff.mp (hlength.trans hrows)
    exact hwhole.entry.trans (congrArg some (if_pos hnil))

/-- Amounts with a number of fraction digits; a missing one is null. -/
def amounts (scale : Int8) (unscaled : List (Option Int)) : Column :=
  ⟨.decimal 5 scale, (unscaled.map (·.bind Int128.ofInt?)).toArray⟩

/-- The amounts 1.00 and 2.50 with a null between them, then no rows, then the amounts 2.5 and 1.0;
row groups have two rows. -/
def receipts : Spec :=
  let schema : Schema := .ofTyped [⟨"amount", .decimal 5 2, true⟩]
  .ofStripes schema 2 [⟨schema, [amounts 2 [some 100, none, some 250]], 3, 3⟩,
    ⟨schema, [amounts 1 []], 0, 1⟩, ⟨schema, [amounts 1 [some 25, some 10]], 2, 2⟩]

theorem follow_receipts : Follow receipts.schema receipts.stride receipts.stripes where
  made rows hrows := by
    refine ⟨rows.columns, ?_⟩
    simp only [receipts, Spec.ofStripes, List.mem_cons, List.not_mem_nil, or_false] at hrows
    rcases hrows with rfl | rfl | rfl <;> rfl
  held := by decide
  stride_lt := by decide

/-- Of equal amounts, the file keeps those that come first. -/
theorem build_statistics_receipts :
    (∃ s t u, ofColumn (amounts 1 [some 25, some 10]) 0 1 = .ok s ∧
      ofColumn (amounts 1 [some 25, some 10]) 1 2 = .ok t ∧ s.merge t = .ok u ∧
      ofColumn (amounts 1 [some 25, some 10]) 0 3 = .ok u) ∧
    ∃ f s, build receipts = .ok f ∧ ofValues (f.stripes.flatMap (·.values 0)) = .ok s ∧
      f.statistics[0]? = some (some s) ∧ s.hasNull = true ∧ s.count = 4 ∧
      s.min.map Literal.text = some "1.00" ∧ s.max.map Literal.text = some "2.50" := by
  obtain ⟨cut, whole⟩ := build_statistics
  refine ⟨cut (amounts 1 [some 25, some 10]) 0 1 2 (by decide) (by decide), ?_⟩
  obtain ⟨f, hf, -, hcolumns⟩ := whole receipts follow_receipts rfl rfl rfl
  obtain ⟨-, hfile, -⟩ := hcolumns 0 .decimal rfl (by decide)
  cases hf
  obtain ⟨s, hs, hentry⟩ := hfile (by decide)
  refine ⟨_, s, rfl, hs, hentry, ?_⟩
  cases hentry
  decide +kernel

end MemoryFile

end StripeScan
