import StripeScan.Proofs.Outcome
import StripeScan.Batch

/-! # Cutting batches and joining the pieces

`Batch.cutRows` is what slicing delivers when it succeeds.  Consecutive pieces of one batch can
always be joined again, and give the piece that they make up (`Batch.concat_cuts`).
`Batch.contents` reads a batch row by row. -/

namespace StripeScan

/-- Consecutive spans of these lengths, as offset and length. -/
def spans : (offset : ℕ) → List ℕ → List (ℕ × ℕ)
  | _, [] => []
  | offset, n :: rest => (offset, n) :: spans (offset + n) rest

theorem map_snd_spans (offset : ℕ) (lengths : List ℕ) :
    (spans offset lengths).map Prod.snd = lengths := by
  induction lengths generalizing offset with
  | nil => rfl
  | cons n rest ih => rw [spans, List.map_cons, ih]

theorem length_spans (offset : ℕ) (lengths : List ℕ) :
    (spans offset lengths).length = lengths.length := by
  rw [← List.length_map Prod.snd, map_snd_spans]

theorem mem_spans_le {offset : ℕ} {lengths : List ℕ} {s : ℕ × ℕ} (h : s ∈ spans offset lengths) :
    s.1 + s.2 ≤ offset + lengths.sum := by
  induction lengths generalizing offset with
  | nil => cases h
  | cons n rest ih =>
      rw [List.sum_cons]
      rcases List.mem_cons.mp h with rfl | h
      · show offset + n ≤ _
        omega
      · have := ih h
        omega

/-- Consecutive spans leave nothing out. -/
theorem flatMap_spans (first offset : ℕ) (lengths : List ℕ) :
    (spans offset lengths).flatMap (fun s => List.range' (first + s.1) s.2) =
      List.range' (first + offset) lengths.sum := by
  induction lengths generalizing offset with
  | nil => rfl
  | cons n rest ih =>
      rw [spans, List.flatMap_cons, ih, List.sum_cons, ← Nat.add_assoc]
      exact List.range'_append_1

/-! ### Columns -/

namespace Column

/-- Some cells of a column. -/
def cut (c : Column) (offset length : ℕ) : Column :=
  ⟨c.type, c.cells.extract offset (offset + length)⟩

theorem slice_eq {c : Column} {offset length : ℕ} (h : offset + length ≤ c.size) :
    c.slice offset length = .ok (c.cut offset length) := by
  rw [slice, if_pos h]
  rfl

theorem cut_size {c : Column} {offset length : ℕ} (h : offset + length ≤ c.size) :
    (c.cut offset length).size = length := by
  show (c.cells.extract offset (offset + length)).size = length
  rw [Array.size_extract_of_le h]
  omega

theorem literalAt?_cut {c : Column} {offset length i : ℕ} (h : i < length) :
    (c.cut offset length).literalAt? i = c.literalAt? (offset + i) := by
  have hcell : (c.cells.extract offset (offset + length))[i]? = c.cells[offset + i]? := by
    rw [Array.getElem?_extract]
    split
    · rfl
    · exact (Array.getElem?_eq_none (by omega)).symm
  show ((c.cells.extract offset (offset + length))[i]?).join.bind c.type.literal? = _
  rw [hcell]
  rfl

/-- Joining on appends one piece after the other. -/
theorem foldl_cuts (c : Column) (offset start : ℕ) (lengths : List ℕ) (h : offset ≤ start) :
    ((spans start lengths).map fun s => c.cut s.1 s.2).foldl
        (fun cells d => cells ++ cellsAs c.type d) (c.cells.extract offset start) =
      c.cells.extract offset (start + lengths.sum) := by
  induction lengths generalizing start with
  | nil => rfl
  | cons n rest ih =>
      rw [spans, List.map_cons, List.foldl_cons, List.sum_cons, ← Nat.add_assoc]
      have hcut : cellsAs c.type (c.cut start n) = c.cells.extract start (start + n) :=
        cellsAs_self (c.cut start n)
      rw [hcut, Array.extract_append_extract, Nat.min_eq_left h,
        Nat.max_eq_right (Nat.le_add_right start n)]
      exact ih (start + n) (by omega)

theorem concat_cuts (c : Column) (offset n : ℕ) (rest : List ℕ) :
    concat ((spans offset (n :: rest)).map fun s => c.cut s.1 s.2) =
      .ok (c.cut offset (n + rest.sum)) := by
  have hmem : ∀ d ∈ (spans offset (n :: rest)).map fun s => c.cut s.1 s.2, d.type = c.type := by
    intro d hd
    obtain ⟨s, -, rfl⟩ := List.mem_map.mp hd
    rfl
  have hkind : ((spans offset (n :: rest)).map fun s => c.cut s.1 s.2).find?
      (fun d => d.kind != (c.cut offset n).kind) = none := by
    rw [List.find?_eq_none]
    intro d hd
    rw [kind, hmem d hd]
    simp [kind, cut]
  have htype : (((spans offset (n :: rest)).map fun s => c.cut s.1 s.2).any
      fun d => d.type != (c.cut offset n).type) = false := by
    rw [List.any_eq_false]
    intro d hd
    rw [hmem d hd]
    simp [cut]
  have hfold := foldl_cuts c offset offset (n :: rest) le_rfl
  have hempty : c.cells.extract offset offset = #[] := by
    simp
  rw [hempty] at hfold
  rw [spans, List.map_cons] at hkind htype hfold ⊢
  unfold concat
  simp only
  rw [hkind]
  simp only [htype, Bool.false_eq_true, if_false]
  rw [List.sum_cons] at hfold
  exact congrArg (Except.ok ∘ Column.mk c.type) hfold

end Column

/-! ### Schemas -/

namespace Schema

/-- Whether two schemas agree in the number of their fields and, place by place, in name and
type. -/
def Matches (s t : Schema) : Prop :=
  List.Forall₂ (fun f g => f.name = g.name ∧ f.type = g.type) s.fields t.fields

theorem check_eq_ok_iff {s t : Schema} : s.check t = .ok () ↔ s.Matches t := by
  unfold check matchFields
  rw [mapError_eq_ok_iff, Matches, List.forall₂_iff_zip, List.length_map, List.length_map]
  by_cases hlength : s.fields.length = t.fields.length
  · rw [if_neg (not_not.mpr hlength), List.zip_map, List.find?_map]
    cases hfind : (s.fields.zip t.fields).find? _ with
    | none =>
        refine iff_of_true rfl ⟨hlength, fun {f g} hmem => ?_⟩
        simpa [toField] using List.find?_eq_none.mp hfind (f, g) hmem
    | some p =>
        refine iff_of_false (fun h => nomatch h) fun h => ?_
        obtain ⟨hname, htype⟩ := h.2 (List.mem_of_find?_eq_some hfind)
        have hdiffers := List.find?_some hfind
        simp [toField, hname, htype] at hdiffers
  · rw [if_pos hlength]
    exact iff_of_false (fun h => nomatch h) fun h => hlength h.1

theorem check_self (s : Schema) : s.check s = .ok () :=
  check_eq_ok_iff.mpr (List.forall₂_same.mpr fun _ _ => ⟨rfl, rfl⟩)

/-- A schema can be projected wherever its fields are found. -/
theorem project_eq_ok_iff {s out : Schema} {ordinals : List ℕ} :
    s.project ordinals = .ok out ↔
      ∃ fields, ordinals.mapM s.fieldAt = .ok fields ∧ ofTyped fields = out := by
  rw [project_eq, map_eq_ok_iff]

end Schema

/-! ### Batches -/

namespace Batch

/-- A batch whose columns follow its schema in number and kind and are all as long as it says. -/
structure Regular (b : Batch) : Prop where
  count : b.columns.length = b.schema.size
  kinds : ∀ p ∈ b.schema.kinds.zip b.columns, p.1 = p.2.kind
  sizes : ∀ c ∈ b.columns, c.size = b.rows
  empty : b.columns = [] → b.rows = 0

/-- The kinds of the fields are those of the columns. -/
theorem Regular.fields {b : Batch} (h : b.Regular) :
    List.Forall₂ (fun f c => f.type.kind = c.kind) b.schema.fields b.columns := by
  have hkinds : List.Forall₂ (fun kind c => kind = c.kind) b.schema.kinds b.columns :=
    List.forall₂_iff_zip.mpr ⟨h.count.symm, fun hp => h.kinds _ hp⟩
  rwa [b.schema.kinds_eq, List.forall₂_map_left_iff] at hkinds

/-- Each column of a batch has a field of its kind. -/
theorem Regular.exists_field {b : Batch} (h : b.Regular) {i : ℕ} {c : Column}
    (hc : b.columns[i]? = some c) : ∃ f, b.schema.fields[i]? = some f ∧ f.type.kind = c.kind := by
  obtain ⟨hi, rfl⟩ := List.getElem?_eq_some_iff.mp hc
  have hlt : i < b.schema.fields.length := h.fields.length_eq ▸ hi
  exact ⟨_, List.getElem?_eq_getElem hlt, h.fields.get hlt hi⟩

theorem regular_of_ofColumns {schema : Schema} {columns : List Column} {b : Batch}
    (h : ofColumns schema columns = .ok b) :
    b.Regular ∧ b.schema = schema ∧ b.columns = columns ∧ b.capacity = max b.rows 1 := by
  unfold ofColumns at h
  split at h
  · cases h
  · rename_i hcount
    split at h
    · cases h
    · rename_i hkinds
      simp only at h
      split at h
      · cases h
      · rename_i hsizes
        cases h
        refine ⟨⟨not_not.mp hcount, fun p hp => ?_, fun c hc => ?_, fun hempty => ?_⟩,
          rfl, rfl, rfl⟩
        · simpa using List.find?_eq_none.mp hkinds p hp
        · simpa using List.find?_eq_none.mp hsizes c hc
        · simp only at hempty
          rw [hempty]
          rfl

theorem ofColumns_eq {b : Batch} (h : b.Regular) (hcapacity : b.capacity = max b.rows 1) :
    ofColumns b.schema b.columns = .ok b := by
  unfold ofColumns
  rw [if_neg (not_not.mpr h.count)]
  split
  · rename_i kind c hfind
    have hdiffers := List.find?_some hfind
    exact absurd (h.kinds _ (List.mem_of_find?_eq_some hfind)) (bne_iff_ne.mp hdiffers)
  · have hrows : (b.columns.head?.map Column.size).getD 0 = b.rows := by
      cases hcolumns : b.columns with
      | nil => exact (h.empty hcolumns).symm
      | cons c rest => exact h.sizes c (hcolumns ▸ List.mem_cons_self)
    have hsizes : b.columns.find? (fun c => c.size != b.rows) = none := by
      rw [List.find?_eq_none]
      intro c hc
      simp [h.sizes c hc]
    simp only [hrows]
    rw [hsizes, ← hcapacity]

theorem concat_eq {first second : Batch} {rest : List Batch} {columns : List Column}
    (hcheck : (second :: rest).forM (fun d => first.schema.check d.schema) = .ok ())
    (hcolumns : (List.range first.columns.length).mapM (fun i =>
      columnsAt (first :: second :: rest) i >>= Column.concat) = .ok columns) :
    concat (first :: second :: rest) = ofColumns first.schema columns := by
  unfold concat
  simp only
  rw [hcheck, bind_ok, hcolumns]
  rfl

/-- Some rows of a batch. -/
def cutRows (b : Batch) (offset length : ℕ) : Batch :=
  ⟨b.schema, b.columns.map (·.cut offset length), length, max length 1⟩

theorem slice_of_sizes {b : Batch} (sizes : ∀ c ∈ b.columns, c.size = b.rows) {offset length : ℕ}
    (h : offset + length ≤ b.rows) : b.slice offset length = .ok (b.cutRows offset length) := by
  rw [slice, if_neg (not_lt.mpr h), mapM_eq_ok_map fun c hc =>
    Column.slice_eq (h.trans_eq (sizes c hc).symm)]
  rfl

section cuts

variable {b : Batch} (regular : b.Regular)

include regular

theorem slice_eq {offset length : ℕ} (h : offset + length ≤ b.rows) :
    b.slice offset length = .ok (b.cutRows offset length) :=
  slice_of_sizes regular.sizes h

theorem cutRows_regular {offset length : ℕ} (h : offset + length ≤ b.rows) :
    (b.cutRows offset length).Regular where
  count := (List.length_map _).trans regular.count
  kinds p hp := by
    rw [cutRows, List.zip_map_right, List.mem_map] at hp
    obtain ⟨q, hq, rfl⟩ := hp
    exact regular.kinds q hq
  sizes c hc := by
    obtain ⟨d, hd, rfl⟩ := List.mem_map.mp hc
    exact Column.cut_size (h.trans_eq (regular.sizes d hd).symm)
  empty hnone := by
    have hrows := regular.empty (List.map_eq_nil_iff.mp hnone)
    show length = 0
    omega

/-- Consecutive pieces join to the piece that they make up. -/
theorem concat_cuts {offset n : ℕ} {rest : List ℕ} (h : offset + (n + rest.sum) ≤ b.rows) :
    concat ((spans offset (n :: rest)).map fun s => b.cutRows s.1 s.2) =
      .ok (b.cutRows offset (n + rest.sum)) := by
  cases rest with
  | nil => rfl
  | cons m rest =>
      have hcheck : ((spans (offset + n) (m :: rest)).map fun s => b.cutRows s.1 s.2).forM
          (fun d => (b.cutRows offset n).schema.check d.schema) = .ok () := by
        refine forM_eq_ok_iff.mpr fun d hd => ?_
        obtain ⟨s, -, rfl⟩ := List.mem_map.mp hd
        exact b.schema.check_self
      have hat (i : ℕ) (hi : i < b.columns.length) :
          columnsAt ((spans offset (n :: m :: rest)).map fun s => b.cutRows s.1 s.2) i =
            .ok ((spans offset (n :: m :: rest)).map fun s => b.columns[i].cut s.1 s.2) := by
        rw [columnsAt, mapM_eq_ok_iff, List.forall₂_map_left_iff, List.forall₂_map_right_iff,
          List.forall₂_same]
        intro s _
        simp only [cutRows, List.getElem?_map, List.getElem?_eq_getElem hi, Option.map_some]
      have hcolumns : (List.range (b.cutRows offset n).columns.length).mapM (fun i =>
          columnsAt ((spans offset (n :: m :: rest)).map fun s => b.cutRows s.1 s.2) i >>=
            Column.concat) = .ok (b.cutRows offset (n + (m :: rest).sum)).columns := by
        rw [mapM_eq_ok_iff, List.forall₂_iff_get]
        refine ⟨by simp [cutRows], fun i hi hi' => ?_⟩
        have hi'' : i < b.columns.length := by simpa [cutRows] using hi
        rw [List.get_eq_getElem, List.getElem_range, hat i hi'', bind_ok, Column.concat_cuts]
        simp [cutRows]
      have hwhole := ofColumns_eq (cutRows_regular regular h) rfl
      exact (concat_eq hcheck hcolumns).trans hwhole

end cuts

/-! ### Projecting and refilling -/

theorem fieldAt_eq_ok {s : Schema} {i : ℕ} {f : Schema.Field ColumnType}
    (h : s.fieldAt i = .ok f) : i < s.size := by
  unfold Schema.fieldAt at h
  split at h
  · rename_i hf
    exact (List.getElem?_eq_some_iff.mp hf).1.trans_eq s.size_eq.symm
  · cases h

theorem columnAt_eq {b : Batch} {i : ℕ} (h : i < b.columns.length) :
    b.columnAt i = .ok b.columns[i] := by
  rw [columnAt, List.getElem?_eq_getElem h]

/-- A batch can be projected wherever its schema can, and keeps its rows. -/
theorem project_eq {b : Batch} (count : b.columns.length = b.schema.size) {ordinals : List ℕ}
    {schema : Schema} (h : b.schema.project ordinals = .ok schema) :
    ∃ columns, b.project ordinals = .ok ⟨schema, columns, b.rows, b.capacity⟩ ∧
      List.Forall₂ (fun i c => b.columns[i]? = some c) ordinals columns := by
  obtain ⟨fields, hfields, -⟩ := Schema.project_eq_ok_iff.mp h
  have hall : ∀ i ∈ ordinals, ∃ c, b.columnAt i = .ok c ∧ b.columns[i]? = some c := by
    intro i hi
    obtain ⟨f, -, hf⟩ := exists_of_mem_left_mapM hfields hi
    have hlt : i < b.columns.length := count ▸ fieldAt_eq_ok hf
    exact ⟨_, columnAt_eq hlt, List.getElem?_eq_getElem hlt⟩
  obtain ⟨columns, hcolumns, hread⟩ := exists_mapM_forall₂ hall
  refine ⟨columns, ?_, hread⟩
  rw [project, h, bind_ok, hcolumns]
  rfl

/-- A batch is refilled by rows of the same schema that fit. -/
theorem fillFrom_eq {b rows : Batch} (hschema : rows.schema = b.schema)
    (hrows : rows.rows ≤ b.capacity) :
    b.fillFrom rows = .ok { b with columns := rows.columns, rows := rows.rows } := by
  rw [fillFrom, if_neg (not_lt.mpr hrows), hschema, Schema.check_self]
  rfl

/-- A batch that was refilled holds the other rows, which fit into it. -/
theorem fillFrom_eq_ok {b rows filled : Batch} (h : b.fillFrom rows = .ok filled) :
    rows.rows ≤ b.capacity ∧ filled = { b with columns := rows.columns, rows := rows.rows } := by
  unfold fillFrom at h
  split at h
  · cases h
  · rename_i hrows
    obtain ⟨_, -, rfl⟩ := map_eq_ok_iff.mp h
    exact ⟨not_lt.mp hrows, rfl⟩

/-! ### Reading -/

/-- The rows of a batch, each as the values of its columns. -/
def contents (b : Batch) : List (List (Option Literal)) :=
  (List.range b.rows).map fun i => b.columns.map (·.literalAt? i)

theorem contents_clear (b : Batch) : b.clear.contents = [] := rfl

theorem contents_length (b : Batch) : b.contents.length = b.rows := by
  rw [contents, List.length_map, List.length_range]

theorem contents_getElem? {b : Batch} {i : ℕ} (h : i < b.rows) :
    b.contents[i]? = some (b.columns.map (·.literalAt? i)) := by
  rw [contents, List.getElem?_map, List.getElem?_range h]
  rfl

end Batch

end StripeScan
