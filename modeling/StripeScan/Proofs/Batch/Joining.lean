import StripeScan.Proofs.Batch.Shape

/-! # Joining batches

What joining makes of batches of any origin that agree in their fields and types.  It always
succeeds, and in every place the joined column holds the cells of the parts' columns in order
(`Batch.concat_joins`), so that it can be cut into them again.

The number of rows is another matter.  Joining takes it from the first column that was joined.
Several batches without columns, as projections to no column are, leave nothing to take it from,
and their rows are lost (`Batch.concat_exact`). -/

namespace StripeScan

/-! ### Columns -/

namespace Column

variable {parts : List Column} {whole : Column}

/-- Cells followed by those of some columns of one type. -/
def append (type : ColumnType) (cells : Array (Option type.Cell)) (parts : List Column) : Column :=
  ⟨type, parts.foldl (fun cells c => cells ++ cellsAs type c) cells⟩

theorem mk_cellsAs {type : ColumnType} {c : Column} (h : c.type = type) :
    ⟨type, cellsAs type c⟩ = c := by
  subst h
  rw [cellsAs_self]

theorem size_cellsAs {type : ColumnType} {c : Column} (h : c.type = type) :
    (cellsAs type c).size = c.size := by
  subst h
  rw [cellsAs_self]
  rfl

theorem concat_eq_ok_iff : concat parts = .ok whole ↔
    parts ≠ [] ∧ (∀ c ∈ parts, c.type = whole.type) ∧ whole = append whole.type #[] parts := by
  cases parts with
  | nil => exact iff_of_false (fun h => nomatch h) fun h => h.1 rfl
  | cons first rest =>
      have hmem : first ∈ first :: rest := List.mem_cons_self
      unfold concat
      constructor
      · intro h
        simp only at h
        split at h
        · cases h
        · split at h
          · cases h
          · rename_i htypes
            cases h
            refine ⟨List.cons_ne_nil first rest, fun c hc => ?_, rfl⟩
            by_contra hne
            exact htypes (List.any_eq_true.mpr ⟨c, hc, by simpa using hne⟩)
      · rintro ⟨-, htypes, hwhole⟩
        have hkinds : (first :: rest).find? (fun c => c.kind != first.kind) = none := by
          rw [List.find?_eq_none]
          intro c hc
          simp [kind, htypes c hc, htypes first hmem]
        have hsame : ((first :: rest).any fun c => c.type != first.type) = false := by
          rw [List.any_eq_false]
          intro c hc
          simp [htypes c hc, htypes first hmem]
        simp only [hkinds, hsame, Bool.false_eq_true, if_false]
        rw [htypes first hmem]
        exact congrArg Except.ok hwhole.symm

theorem concat_singleton (c : Column) : concat [c] = .ok c := by
  refine concat_eq_ok_iff.mpr ⟨List.cons_ne_nil c [], fun d hd => ?_, ?_⟩
  · rw [List.mem_singleton.mp hd]
  · simp [append]

theorem size_append {type : ColumnType} (cells : Array (Option type.Cell))
    (types : ∀ c ∈ parts, c.type = type) :
    (append type cells parts).size = cells.size + (parts.map size).sum := by
  induction parts generalizing cells with
  | nil => rfl
  | cons c rest ih =>
      have hrest := ih (cells ++ cellsAs type c) fun d hd => types d (List.mem_cons_of_mem c hd)
      rw [Array.size_append, size_cellsAs (types c List.mem_cons_self)] at hrest
      rw [List.map_cons, List.sum_cons, ← Nat.add_assoc]
      exact hrest

/-- What columns are appended to stays as it is. -/
theorem exists_append_eq (type : ColumnType) (cells : Array (Option type.Cell))
    (parts : List Column) : ∃ tail, append type cells parts = ⟨type, cells ++ tail⟩ := by
  induction parts generalizing cells with
  | nil => exact ⟨#[], by simp [append]⟩
  | cons c rest ih =>
      obtain ⟨tail, htail⟩ := ih (cells ++ cellsAs type c)
      exact ⟨cellsAs type c ++ tail, by rw [← Array.append_assoc]; exact htail⟩

/-- Columns that were appended can be cut out again. -/
theorem cut_append {type : ColumnType} (cells : Array (Option type.Cell))
    (types : ∀ c ∈ parts, c.type = type) :
    List.Forall₂ (fun s c => (append type cells parts).cut s.1 s.2 = c)
      (spans cells.size (parts.map size)) parts := by
  induction parts generalizing cells with
  | nil => exact .nil
  | cons c rest ih =>
      have htype := types c List.mem_cons_self
      have hsize := size_cellsAs htype
      rw [List.map_cons, spans]
      constructor
      · obtain ⟨tail, htail⟩ := exists_append_eq type (cells ++ cellsAs type c) rest
        show (append type (cells ++ cellsAs type c) rest).cut cells.size c.size = c
        rw [htail, cut, ← hsize]
        simp only [Array.append_assoc, Array.extract_append_right]
        rw [Array.extract_append_left, Array.extract_size, mk_cellsAs htype]
      · have hrest := ih (cells ++ cellsAs type c) fun d hd => types d (List.mem_cons_of_mem c hd)
        rw [Array.size_append, hsize] at hrest
        exact hrest

theorem size_of_concat (h : concat parts = .ok whole) : whole.size = (parts.map size).sum := by
  obtain ⟨-, htypes, hwhole⟩ := concat_eq_ok_iff.mp h
  rw [hwhole, size_append _ htypes]
  exact Nat.zero_add _

theorem cuts_of_concat (h : concat parts = .ok whole) :
    List.Forall₂ (fun s c => whole.cut s.1 s.2 = c) (spans 0 (parts.map size)) parts := by
  obtain ⟨-, htypes, hwhole⟩ := concat_eq_ok_iff.mp h
  rw [hwhole]
  exact cut_append #[] htypes

end Column

/-! ### Batches -/

namespace Batch

/-- Whether two batches agree in their fields and in the types of their columns. -/
structure Agrees (b d : Batch) : Prop where
  schema : b.schema.Matches d.schema
  types : b.columns.map Column.type = d.columns.map Column.type

/-- Whether the columns of a batch are those of others, joined place by place. -/
structure Joins (whole : Batch) (parts : List Batch) : Prop where
  width : ∀ d ∈ parts, d.columns.length = whole.columns.length
  columns : ∀ (i : ℕ) (c : Column), whole.columns[i]? = some c → ∃ cs,
    List.Forall₂ (fun d e => d.columns[i]? = some e) parts cs ∧ Column.concat cs = .ok c

variable {parts : List Batch} {whole : Batch}

theorem columnsAt_eq_ok_iff {i : ℕ} {cs : List Column} : columnsAt parts i = .ok cs ↔
    List.Forall₂ (fun d c => d.columns[i]? = some c) parts cs := by
  rw [columnsAt, mapM_eq_ok_iff]
  constructor
  · refine fun h => h.imp fun d c hc => ?_
    split at hc
    · rename_i hfound
      cases hc
      exact hfound
    · cases hc
  · exact fun h => h.imp fun d c hc => by rw [hc]

theorem concat_joins (consistent : ∀ d ∈ parts, d.Consistent) (h : concat parts = .ok whole) :
    whole.Joins parts := by
  rcases concat_eq_ok_cases h with rfl | ⟨first, second, rest, columns, rfl, hmatches, hcolumns, h⟩
  · refine ⟨fun d hd => by rw [List.mem_singleton.mp hd], fun i c hc => ?_⟩
    exact ⟨[c], .cons hc .nil, Column.concat_singleton c⟩
  · obtain ⟨-, -, rfl, -⟩ := regular_of_ofColumns h
    have hall := mapM_eq_ok_iff.mp hcolumns
    have hwidth : first.columns.length = whole.columns.length := by
      rw [← hall.length_eq, List.length_range]
    refine ⟨fun d hd => ?_, fun i c hc => ?_⟩
    · rcases List.mem_cons.mp hd with rfl | hd'
      · exact hwidth
      · rw [← hwidth, (consistent d hd).count, (consistent first List.mem_cons_self).count,
          Schema.size_eq, Schema.size_eq]
        exact (hmatches d hd').length_eq.symm
    · obtain ⟨hi, rfl⟩ := List.getElem?_eq_some_iff.mp hc
      have hplace := hall.get (by rw [List.length_range, hwidth]; exact hi) hi
      simp only [List.get_eq_getElem, List.getElem_range] at hplace
      obtain ⟨cs, hcs, hjoined⟩ := bind_eq_ok_iff.mp hplace
      exact ⟨cs, columnsAt_eq_ok_iff.mp hcs, hjoined⟩

/-- Columns in one place are as long as their batches say. -/
theorem map_size_eq (consistent : ∀ d ∈ parts, d.Consistent) {i : ℕ} {cs : List Column}
    (h : List.Forall₂ (fun d c => d.columns[i]? = some c) parts cs) :
    cs.map Column.size = parts.map rows := by
  induction h with
  | nil => rfl
  | @cons d c _ _ hc _ ih =>
      rw [List.map_cons, List.map_cons, ih fun e he => consistent e (List.mem_cons_of_mem d he),
        (consistent d List.mem_cons_self).sizes c (List.mem_of_getElem? hc)]

namespace Joins

theorem size_eq (h : whole.Joins parts) (consistent : ∀ d ∈ parts, d.Consistent) {c : Column}
    (hc : c ∈ whole.columns) : c.size = (parts.map rows).sum := by
  obtain ⟨i, hi⟩ := List.mem_iff_getElem?.mp hc
  obtain ⟨cs, hcs, hjoined⟩ := h.columns i c hi
  rw [Column.size_of_concat hjoined, map_size_eq consistent hcs]

/-- What was joined can be cut into the parts again. -/
theorem cuts (h : whole.Joins parts) (consistent : ∀ d ∈ parts, d.Consistent) :
    List.Forall₂ (fun s d => whole.columns.map (·.cut s.1 s.2) = d.columns)
      (spans 0 (parts.map rows)) parts := by
  rw [List.forall₂_iff_get]
  refine ⟨by rw [length_spans, List.length_map], fun k hk hk' => List.ext_getElem? fun i => ?_⟩
  rw [List.getElem?_map]
  cases hc : whole.columns[i]? with
  | none =>
      rw [List.getElem?_eq_none_iff, ← h.width _ (List.get_mem parts ⟨k, hk'⟩)] at hc
      rw [List.getElem?_eq_none hc, Option.map_none]
  | some c =>
      obtain ⟨cs, hcs, hjoined⟩ := h.columns i c hc
      have hcuts := Column.cuts_of_concat hjoined
      rw [map_size_eq consistent hcs] at hcuts
      have hk'' : k < cs.length := hcs.length_eq ▸ hk'
      rw [hcs.get hk' hk'', Option.map_some, hcuts.get hk hk'']

end Joins

/-! ### Which batches can be joined -/

namespace Agrees

variable {b d : Batch}

theorem length_eq (h : b.Agrees d) : b.columns.length = d.columns.length := by
  simpa using congrArg List.length h.types

theorem type_eq (h : b.Agrees d) {i : ℕ} {c e : Column} (hc : b.columns[i]? = some c)
    (he : d.columns[i]? = some e) : c.type = e.type := by
  have htypes := congrArg (·[i]?) h.types
  simp only [List.getElem?_map, hc, he, Option.map_some, Option.some.injEq] at htypes
  exact htypes

end Agrees

/-- Columns in one place of batches that agree can be joined. -/
theorem exists_column (agree : ∀ d ∈ parts, ∀ e ∈ parts, d.Agrees e)
    (consistent : ∀ d ∈ parts, d.Consistent) {first : Batch} (hfirst : first ∈ parts) {i : ℕ}
    {e : Column} (he : first.columns[i]? = some e) :
    ∃ c, (columnsAt parts i >>= Column.concat) = .ok c ∧ c.type = e.type ∧
      c.size = (parts.map rows).sum := by
  have hi := (List.getElem?_eq_some_iff.mp he).1
  obtain ⟨cs, hcs, hplaces⟩ : ∃ cs, columnsAt parts i = .ok cs ∧
      List.Forall₂ (fun d c => d.columns[i]? = some c) parts cs :=
    exists_columnsAt fun d hd => (agree first hfirst d hd).length_eq ▸ hi
  have htypes : ∀ c ∈ cs, c.type = e.type := by
    intro c hc
    obtain ⟨k, hk, rfl⟩ := List.mem_iff_getElem.mp hc
    have hk' : k < parts.length := hplaces.length_eq ▸ hk
    exact (agree _ (List.get_mem parts ⟨k, hk'⟩) first hfirst).type_eq (hplaces.get hk' hk) he
  have hnonempty : cs ≠ [] := by
    rintro rfl
    rw [List.forall₂_nil_right_iff.mp hplaces] at hfirst
    cases hfirst
  have hconcat : Column.concat cs = .ok (.append e.type #[] cs) :=
    Column.concat_eq_ok_iff.mpr ⟨hnonempty, htypes, rfl⟩
  refine ⟨.append e.type #[] cs, by rw [hcs, bind_ok, hconcat], rfl, ?_⟩
  rw [Column.size_of_concat hconcat, map_size_eq consistent hplaces]

theorem exists_columns (agree : ∀ d ∈ parts, ∀ e ∈ parts, d.Agrees e)
    (consistent : ∀ d ∈ parts, d.Consistent) {first : Batch} (hfirst : first ∈ parts) :
    ∃ columns, (List.range first.columns.length).mapM (fun i =>
        columnsAt parts i >>= Column.concat) = .ok columns ∧
      List.Forall₂ (fun c e => c.type = e.type) columns first.columns ∧
      ∀ c ∈ columns, c.size = (parts.map rows).sum := by
  have hplace : ∀ i ∈ List.range first.columns.length, ∃ c,
      (columnsAt parts i >>= Column.concat) = .ok c ∧
        (∃ e, first.columns[i]? = some e ∧ c.type = e.type) ∧ c.size = (parts.map rows).sum := by
    intro i hi
    have he := List.getElem?_eq_getElem (List.mem_range.mp hi)
    obtain ⟨c, hc, htype, hsize⟩ := exists_column agree consistent hfirst he
    exact ⟨c, hc, ⟨_, he, htype⟩, hsize⟩
  obtain ⟨columns, hcolumns, hplaces⟩ := exists_mapM_forall₂ hplace
  refine ⟨columns, hcolumns, List.forall₂_iff_get.mpr ?_, fun c hc => ?_⟩
  · refine ⟨hplaces.length_eq.symm.trans List.length_range, fun k hk hk' => ?_⟩
    obtain ⟨⟨e, he, htype⟩, -⟩ := hplaces.get (hplaces.length_eq ▸ hk) hk
    simp only [List.get_eq_getElem, List.getElem_range] at he
    obtain ⟨_, rfl⟩ := List.getElem?_eq_some_iff.mp he
    exact htype
  · obtain ⟨k, hk, rfl⟩ := List.mem_iff_getElem.mp hc
    exact (hplaces.get (hplaces.length_eq ▸ hk) hk).2

/-- Columns of the types of a batch and of one length can take the places of its columns. -/
theorem exists_ofColumns {b : Batch} (consistent : b.Consistent) {columns : List Column} {n : ℕ}
    (types : List.Forall₂ (fun c e => c.type = e.type) columns b.columns)
    (sizes : ∀ c ∈ columns, c.size = n) : ∃ whole, ofColumns b.schema columns = .ok whole := by
  obtain ⟨m, hempty, hsizes⟩ : ∃ m, (columns = [] → m = 0) ∧ ∀ c ∈ columns, c.size = m := by
    by_cases h : columns = []
    · exact ⟨0, fun _ => rfl, fun c hc => absurd (h ▸ hc) List.not_mem_nil⟩
    · exact ⟨n, fun h' => absurd h' h, sizes⟩
  have hregular : Regular ⟨b.schema, columns, m, max m 1⟩ := by
    refine ⟨types.length_eq.trans consistent.count, fun p hp => ?_, hsizes, hempty⟩
    obtain ⟨i, hi⟩ := List.mem_iff_getElem?.mp hp
    obtain ⟨hkind, hcolumn⟩ := List.getElem?_zip_eq_some.mp hi
    rw [Schema.kinds_eq, List.getElem?_map, Option.map_eq_some_iff] at hkind
    obtain ⟨f, hfield, hkind⟩ := hkind
    obtain ⟨hlt, heq⟩ := List.getElem?_eq_some_iff.mp hcolumn
    have hlt' : i < b.columns.length := types.length_eq ▸ hlt
    rw [← hkind, consistent.kind_eq hfield (List.getElem?_eq_getElem hlt'), ← heq]
    exact congrArg ColumnType.kind (types.get hlt hlt').symm
  exact ⟨_, ofColumns_eq hregular rfl⟩

theorem exists_concat (nonempty : parts ≠ []) (consistent : ∀ d ∈ parts, d.Consistent)
    (agree : ∀ d ∈ parts, ∀ e ∈ parts, d.Agrees e) : ∃ whole, concat parts = .ok whole := by
  match parts, nonempty with
  | [d], _ => exact ⟨d, rfl⟩
  | first :: second :: rest, _ =>
      have hfirst : first ∈ first :: second :: rest := List.mem_cons_self
      have hcheck : (second :: rest).forM (fun d => first.schema.check d.schema) = .ok () := by
        refine forM_eq_ok_iff.mpr fun d hd => Schema.check_eq_ok_iff.mpr ?_
        exact (agree first hfirst d (List.mem_cons_of_mem first hd)).schema
      obtain ⟨columns, hcolumns, htypes, hsizes⟩ := exists_columns agree consistent hfirst
      rw [concat_eq hcheck hcolumns]
      exact exists_ofColumns (consistent first hfirst) htypes hsizes

/-! ### How many rows are joined -/

theorem rows_of_columns (consistent : ∀ d ∈ parts, d.Consistent) (h : concat parts = .ok whole)
    (hcolumns : whole.columns ≠ []) : whole.rows = (parts.map rows).sum := by
  obtain ⟨c, hc⟩ := List.exists_mem_of_ne_nil _ hcolumns
  rw [← (concat_consistent consistent h).sizes c hc]
  exact (concat_joins consistent h).size_eq consistent hc

/-- Without columns there is nothing to count. -/
theorem rows_of_no_columns (h : concat parts = .ok whole) (several : parts.length ≠ 1)
    (hcolumns : whole.columns = []) : whole.rows = 0 := by
  rcases concat_eq_ok_cases h with rfl | ⟨first, second, rest, columns, rfl, -, -, h⟩
  · exact absurd rfl several
  · exact (regular_of_ofColumns h).1.empty hcolumns

theorem rows_eq_sum_iff (consistent : ∀ d ∈ parts, d.Consistent) (h : concat parts = .ok whole) :
    whole.rows = (parts.map rows).sum ↔
      parts.length = 1 ∨ whole.columns ≠ [] ∨ ∀ d ∈ parts, d.rows = 0 := by
  constructor
  · intro hsum
    by_cases hone : parts.length = 1
    · exact .inl hone
    by_cases hcolumns : whole.columns = []
    · refine .inr (.inr fun d hd => ?_)
      rw [rows_of_no_columns h hone hcolumns] at hsum
      exact List.sum_eq_zero_iff.mp hsum.symm d.rows (List.mem_map_of_mem hd)
    · exact .inr (.inl hcolumns)
  · rintro (hone | hcolumns | hzero)
    · obtain ⟨d, rfl⟩ := List.length_eq_one_iff.mp hone
      cases h
      simp
    · exact rows_of_columns consistent h hcolumns
    · have hsum : (parts.map rows).sum = 0 := by
        refine List.sum_eq_zero_iff.mpr fun n hn => ?_
        obtain ⟨d, hd, rfl⟩ := List.mem_map.mp hn
        exact hzero d hd
      by_cases hcolumns : whole.columns = []
      · by_cases hone : parts.length = 1
        · obtain ⟨d, rfl⟩ := List.length_eq_one_iff.mp hone
          cases h
          simp
        · rw [hsum, rows_of_no_columns h hone hcolumns]
      · exact rows_of_columns consistent h hcolumns

/-- The parts can be sliced out of what they were joined to exactly if no row was lost. -/
theorem slices_iff (consistent : ∀ d ∈ parts, d.Consistent) (h : concat parts = .ok whole) :
    List.Forall₂ (fun s d => ∃ piece, whole.slice s.1 s.2 = .ok piece ∧
        piece.columns = d.columns ∧ piece.rows = d.rows) (spans 0 (parts.map rows)) parts ↔
      whole.rows = (parts.map rows).sum := by
  constructor
  · intro hslices
    by_cases hone : parts.length = 1
    · exact (rows_eq_sum_iff consistent h).mpr (.inl hone)
    by_cases hcolumns : whole.columns = []
    · refine (rows_eq_sum_iff consistent h).mpr (.inr (.inr fun d hd => ?_))
      obtain ⟨k, hk, rfl⟩ := List.mem_iff_getElem.mp hd
      obtain ⟨piece, hslice, -, hrows⟩ := hslices.get (hslices.length_eq ▸ hk) hk
      generalize (spans 0 (parts.map rows)).get _ = s at hslice
      have hnone := rows_of_no_columns h hone hcolumns
      rcases (concat_consistent consistent h).slice_cases s.1 s.2 with ⟨hle, hok⟩ | ⟨-, herror⟩
      · rw [hok] at hslice
        cases hslice
        have hlength : s.2 = parts[k].rows := hrows
        omega
      · rw [herror] at hslice
        cases hslice
    · exact rows_of_columns consistent h hcolumns
  · intro hrows
    have hcuts := (concat_joins consistent h).cuts consistent
    refine List.forall₂_iff_get.mpr ⟨hcuts.length_eq, fun k hk hk' => ?_⟩
    have hbounds := mem_spans_le (List.get_mem _ ⟨k, hk⟩)
    rw [Nat.zero_add, ← hrows] at hbounds
    refine ⟨_, slice_of_sizes (concat_consistent consistent h).sizes hbounds, hcuts.get hk hk', ?_⟩
    have hlength := congrArg (·[k]?) (map_snd_spans 0 (parts.map rows))
    simp only [List.getElem?_map, List.getElem?_eq_getElem hk, List.getElem?_eq_getElem hk',
      Option.map_some, Option.some.injEq] at hlength
    exact hlength

/-! ### Projecting what was joined -/

theorem exists_project {b : Batch} (consistent : b.Consistent) {ordinals : List ℕ}
    (valid : ∀ i ∈ ordinals, i < b.schema.size) :
    ∃ projected, b.project ordinals = .ok projected := by
  have hfields : ∀ i ∈ ordinals, ∃ f, b.schema.fieldAt i = .ok f ∧ True := by
    intro i hi
    rw [Schema.fieldAt, List.getElem?_eq_getElem ((valid i hi).trans_eq b.schema.size_eq)]
    exact ⟨_, rfl, trivial⟩
  obtain ⟨fields, hmap, -⟩ := exists_mapM_forall₂ hfields
  have hschema := Schema.project_eq_ok_iff.mpr ⟨fields, hmap, rfl⟩
  obtain ⟨columns, hproject, -⟩ := project_eq consistent.count hschema
  exact ⟨_, hproject⟩

/-- What is picked from batches that agree agrees. -/
theorem Agrees.project {b d b' d' : Batch} (h : b.Agrees d) {ordinals : List ℕ}
    (hb : b.project ordinals = .ok b') (hd : d.project ordinals = .ok d') : b'.Agrees d' := by
  obtain ⟨hfields, hcolumns, -, -⟩ := project_eq_ok hb
  obtain ⟨hfields', hcolumns', -, -⟩ := project_eq_ok hd
  constructor
  · refine List.forall₂_iff_get.mpr ⟨hfields.length_eq.symm.trans hfields'.length_eq,
      fun k hk hk' => ?_⟩
    have hk'' : k < ordinals.length := hfields.length_eq ▸ hk
    obtain ⟨hlt, hf⟩ := List.getElem?_eq_some_iff.mp (hfields.get hk'' hk)
    obtain ⟨hlt', hf'⟩ := List.getElem?_eq_some_iff.mp (hfields'.get hk'' hk')
    rw [← hf, ← hf']
    exact h.schema.get hlt hlt'
  · refine List.ext_getElem ?_ fun k hk hk' => ?_
    · rw [List.length_map, List.length_map, ← hcolumns.length_eq, hcolumns'.length_eq]
    · rw [List.length_map] at hk hk'
      rw [List.getElem_map, List.getElem_map]
      have hk'' : k < ordinals.length := hcolumns.length_eq ▸ hk
      exact h.type_eq (hcolumns.get hk'' hk) (hcolumns'.get hk'' hk')

/-- Columns in one place are fixed by the batches. -/
theorem columns_unique {pieces : List Batch} {i j : ℕ} {cs cs' : List Column}
    (same : List.Forall₂ (fun d p => p.columns[j]? = d.columns[i]?) parts pieces)
    (h : List.Forall₂ (fun d c => d.columns[i]? = some c) parts cs)
    (h' : List.Forall₂ (fun p c => p.columns[j]? = some c) pieces cs') : cs = cs' := by
  induction same generalizing cs cs' with
  | nil =>
      cases h
      cases h'
      rfl
  | cons hplace _ ih =>
      cases h with
      | cons hc hcs =>
          cases h' with
          | cons hc' hcs' =>
              rw [hplace, hc, Option.some.injEq] at hc'
              rw [hc', ih hcs hcs']

/-- Projecting and joining commute in the columns. -/
theorem Joins.project {pieces : List Batch} {projected joined : Batch} {ordinals : List ℕ}
    (h : whole.Joins parts) (h' : joined.Joins pieces) (nonempty : parts ≠ [])
    (hwhole : whole.project ordinals = .ok projected)
    (hparts : List.Forall₂ (fun d p => d.project ordinals = .ok p) parts pieces) :
    joined.columns = projected.columns := by
  obtain ⟨-, hpicked, -, -⟩ := project_eq_ok hwhole
  have hwidth : joined.columns.length = ordinals.length := by
    obtain ⟨d, hd⟩ := List.exists_mem_of_ne_nil _ nonempty
    obtain ⟨k, hk, rfl⟩ := List.mem_iff_getElem.mp hd
    have hk' : k < pieces.length := hparts.length_eq ▸ hk
    rw [← h'.width _ (List.get_mem pieces ⟨k, hk'⟩)]
    exact (project_eq_ok (hparts.get hk hk')).2.1.length_eq.symm
  refine List.ext_getElem (hwidth.trans hpicked.length_eq) fun j hj hj' => ?_
  have hj'' : j < ordinals.length := hwidth ▸ hj
  obtain ⟨cs, hcs, hc⟩ := h.columns _ _ (hpicked.get hj'' hj')
  obtain ⟨cs', hcs', hc'⟩ := h'.columns j _ (List.getElem?_eq_getElem hj)
  have hsame : List.Forall₂ (fun d p => p.columns[j]? = d.columns[ordinals.get ⟨j, hj''⟩]?)
      parts pieces := by
    refine hparts.imp fun d p hp => ?_
    have hcolumns := (project_eq_ok hp).2.1
    have hp : j < p.columns.length := hcolumns.length_eq ▸ hj''
    rw [hcolumns.get hj'' hp, List.get_eq_getElem, List.getElem?_eq_getElem hp]
  rw [columns_unique hsame hcs hcs', hc'] at hc
  exact Except.ok.inj hc

section projections

variable {pieces : List Batch} {projected joined : Batch} {ordinals : List ℕ}
variable (consistent : ∀ d ∈ parts, d.Consistent) (consistent' : ∀ p ∈ pieces, p.Consistent)
variable (hwhole : concat parts = .ok whole) (hprojected : whole.project ordinals = .ok projected)
variable (hparts : List.Forall₂ (fun d p => d.project ordinals = .ok p) parts pieces)
variable (hjoined : concat pieces = .ok joined)

include hparts in
theorem map_rows_of_project : pieces.map rows = parts.map rows := by
  induction hparts with
  | nil => rfl
  | cons hp _ ih => rw [List.map_cons, List.map_cons, ih, (project_eq_ok hp).2.2.1]

include consistent consistent' hwhole hprojected hparts hjoined in
/-- Projecting and joining commute in the number of rows unless there are several batches and no
column is picked. -/
theorem rows_project_iff (hcolumns : joined.columns = projected.columns) :
    joined.rows = projected.rows ↔ parts.length = 1 ∨ ordinals ≠ [] ∨ whole.rows = 0 := by
  obtain ⟨-, hpicked, hkept, -⟩ := project_eq_ok hprojected
  have hlength : pieces.length = parts.length := hparts.length_eq.symm
  have hsums := congrArg List.sum (map_rows_of_project hparts)
  rw [hkept]
  by_cases hone : parts.length = 1
  · rw [(rows_eq_sum_iff consistent' hjoined).mpr (.inl (hlength.trans hone)), hsums,
      (rows_eq_sum_iff consistent hwhole).mpr (.inl hone)]
    exact iff_of_true rfl (.inl hone)
  cases ordinals with
  | nil =>
      rw [List.forall₂_nil_left_iff.mp hpicked] at hcolumns
      rw [rows_of_no_columns hjoined (hlength ▸ hone) hcolumns]
      simp [hone, eq_comm]
  | cons i rest =>
      obtain ⟨c, cs, hc, -, hcons⟩ := List.forall₂_cons_left_iff.mp hpicked
      have hsome : joined.columns ≠ [] := by
        rw [hcolumns, hcons]
        exact List.cons_ne_nil c cs
      have hsome' : whole.columns ≠ [] := List.ne_nil_of_mem (List.mem_of_getElem? hc)
      rw [rows_of_columns consistent' hjoined hsome, hsums,
        rows_of_columns consistent hwhole hsome']
      exact iff_of_true rfl (.inr (.inl (List.cons_ne_nil i rest)))

end projections

/-- What joining keeps.  Batches of any origin are consistent; if they agree in their fields and in
the types of their columns, they can be joined, and the result can be sliced into the parts again
exactly if it has the sum of their rows.  It has, but for several batches without columns: these are
joined to a batch without rows, whether they had any or not.  Projecting the result gives the
columns that joining the parts' projections gives, and as many rows except where several projections
without columns are joined. -/
theorem concat_exact (nonempty : parts ≠ []) (consistent : ∀ d ∈ parts, d.Consistent)
    (agree : ∀ d ∈ parts, ∀ e ∈ parts, d.Agrees e) :
    ∃ whole, concat parts = .ok whole ∧
      (whole.rows = (parts.map rows).sum ↔
        parts.length = 1 ∨ whole.columns ≠ [] ∨ ∀ d ∈ parts, d.rows = 0) ∧
      (parts.length ≠ 1 → whole.columns = [] → whole.rows = 0) ∧
      (List.Forall₂ (fun s d => ∃ piece, whole.slice s.1 s.2 = .ok piece ∧
          piece.columns = d.columns ∧ piece.rows = d.rows) (spans 0 (parts.map rows)) parts ↔
        whole.rows = (parts.map rows).sum) ∧
      ∀ ordinals : List ℕ, (∀ i ∈ ordinals, i < whole.schema.size) →
        ∃ projected pieces joined, whole.project ordinals = .ok projected ∧
          parts.mapM (·.project ordinals) = .ok pieces ∧ concat pieces = .ok joined ∧
          joined.columns = projected.columns ∧
          (joined.rows = projected.rows ↔
            parts.length = 1 ∨ ordinals ≠ [] ∨ whole.rows = 0) := by
  obtain ⟨whole, hwhole⟩ := exists_concat nonempty consistent agree
  have hconsistent := concat_consistent consistent hwhole
  have hjoins := concat_joins consistent hwhole
  refine ⟨whole, hwhole, rows_eq_sum_iff consistent hwhole, rows_of_no_columns hwhole,
    slices_iff consistent hwhole, fun ordinals valid => ?_⟩
  obtain ⟨projected, hprojected⟩ := exists_project hconsistent valid
  have hpieces : ∀ d ∈ parts, ∃ p, d.project ordinals = .ok p ∧ d.project ordinals = .ok p := by
    intro d hd
    have hsize : d.schema.size = whole.schema.size := by
      rw [← (consistent d hd).count, hjoins.width d hd, hconsistent.count]
    obtain ⟨p, hp⟩ := exists_project (consistent d hd) fun i hi => (valid i hi).trans_eq hsize.symm
    exact ⟨p, hp, hp⟩
  obtain ⟨pieces, hmap, hparts⟩ := exists_mapM_forall₂ hpieces
  have hconsistent' : ∀ p ∈ pieces, p.Consistent := by
    intro p hp
    obtain ⟨d, hd, hproject⟩ := exists_of_mem_mapM hmap hp
    exact (consistent d hd).project hproject
  have hagree : ∀ p ∈ pieces, ∀ q ∈ pieces, p.Agrees q := by
    intro p hp q hq
    obtain ⟨d, hd, hproject⟩ := exists_of_mem_mapM hmap hp
    obtain ⟨e, he, hproject'⟩ := exists_of_mem_mapM hmap hq
    exact (agree d hd e he).project hproject hproject'
  have hnonempty : pieces ≠ [] := by
    rintro rfl
    exact nonempty (List.forall₂_nil_right_iff.mp hparts)
  obtain ⟨joined, hjoined⟩ := exists_concat hnonempty hconsistent' hagree
  have hcolumns := hjoins.project (concat_joins hconsistent' hjoined) nonempty hprojected hparts
  exact ⟨projected, pieces, joined, hprojected, hmap, hjoined, hcolumns,
    rows_project_iff consistent hconsistent' hwhole hprojected hparts hjoined hcolumns⟩

/-- Three rows of which no column is left. -/
def threeBare : Batch := ⟨.ofTyped [], [], 3, 3⟩

/-- Two batches of three rows that were projected to no column are joined to a batch of none. -/
theorem concat_exact_threeBare :
    threeLongs.project [] = .ok threeBare ∧
      ∃ whole, concat [threeBare, threeBare] = .ok whole ∧
        whole.rows ≠ ([threeBare, threeBare].map rows).sum := by
  have consistent : threeBare.Consistent := ⟨.nil, by simp [threeBare], by decide, by decide⟩
  have agrees : threeBare.Agrees threeBare := ⟨List.Forall₂.nil, rfl⟩
  obtain ⟨whole, hwhole, hrows, -⟩ := concat_exact (List.cons_ne_nil threeBare [threeBare])
    (by simpa using consistent) (by simpa using agrees)
  refine ⟨rfl, whole, hwhole, fun h => ?_⟩
  rcases hrows.mp h with hone | hcolumns | hnone
  · cases hone
  · exact hcolumns (by cases hwhole; rfl)
  · exact absurd (hnone threeBare List.mem_cons_self) (by decide)

end Batch

end StripeScan
