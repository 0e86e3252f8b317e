import StripeScan.Proofs.Batch
import StripeScan.Proofs.Scan.Calls

/-! # The shape of batches

Batches come from three places: empty ones for a scan, columns that are checked when they are put
together, and other batches that are cut, joined, projected, emptied or refilled.  Whatever the
order of these operations, a batch has one column for each field of its schema, of the kind of the
field and as long as the batch says, and no more rows than it has room for (`Batch.Made.shape`).

Only the first two places check this.  The rest rely on it, so each operation has a lemma that says
that it keeps the invariant (`Batch.Consistent`). -/

namespace StripeScan

namespace Batch

/-- A batch whose columns have the kinds of its fields and the length that it says, with room for
its rows. -/
structure Consistent (b : Batch) : Prop where
  kinds : List.Forall₂ (fun f c => f.type.kind = c.kind) b.schema.fields b.columns
  sizes : ∀ c ∈ b.columns, c.size = b.rows
  room : 0 < b.capacity
  fits : b.rows ≤ b.capacity

variable {b other : Batch}

theorem Consistent.count (h : b.Consistent) : b.columns.length = b.schema.size :=
  h.kinds.length_eq.symm.trans b.schema.size_eq.symm

/-! ### New batches -/

theorem withCapacity_consistent {schema : Schema} {capacity : ℕ}
    (h : withCapacity schema capacity = .ok b) : b.Consistent := by
  unfold withCapacity at h
  split at h
  · cases h
  · rename_i hpositive
    cases h
    refine ⟨?_, fun c hc => ?_, Nat.pos_of_ne_zero hpositive, Nat.zero_le _⟩
    · rw [List.forall₂_map_right_iff, List.forall₂_same]
      intro f _
      rfl
    · obtain ⟨f, -, rfl⟩ := List.mem_map.mp hc
      rfl

theorem ofColumns_consistent {schema : Schema} {columns : List Column}
    (h : ofColumns schema columns = .ok b) : b.Consistent := by
  obtain ⟨regular, -, -, hcapacity⟩ := regular_of_ofColumns h
  refine ⟨regular.fields, regular.sizes, ?_, ?_⟩
  · rw [hcapacity]
    exact lt_max_of_lt_right Nat.one_pos
  · rw [hcapacity]
    exact le_max_left _ _

theorem ofRecord_consistent {r : Record} (h : ofRecord r = .ok b) : b.Consistent := by
  obtain ⟨schema, -, hcolumns⟩ := bind_eq_ok_iff.mp h
  exact ofColumns_consistent hcolumns

/-! ### Batches from batches -/

theorem Consistent.clear (h : b.Consistent) : b.clear.Consistent where
  kinds := List.forall₂_map_right_iff.mpr h.kinds
  sizes c hc := by
    obtain ⟨d, -, rfl⟩ := List.mem_map.mp hc
    rfl
  room := h.room
  fits := Nat.zero_le _

theorem Consistent.cutRows (h : b.Consistent) {offset length : ℕ} (hle : offset + length ≤ b.rows) :
    (b.cutRows offset length).Consistent where
  kinds := List.forall₂_map_right_iff.mpr h.kinds
  sizes c hc := by
    obtain ⟨d, hd, rfl⟩ := List.mem_map.mp hc
    exact Column.cut_size (hle.trans_eq (h.sizes d hd).symm)
  room := lt_max_of_lt_right Nat.one_pos
  fits := le_max_left _ _

/-- Slicing delivers the rows that are asked for, or says that there are fewer. -/
theorem Consistent.slice_cases (h : b.Consistent) (offset length : ℕ) :
    (offset + length ≤ b.rows ∧ b.slice offset length = .ok (b.cutRows offset length)) ∨
      (b.rows < offset + length ∧ b.slice offset length =
        .error (.invalidBatch (.sliceBounds offset (offset + length) b.rows))) := by
  rcases Nat.lt_or_ge b.rows (offset + length) with hlt | hle
  · exact .inr ⟨hlt, if_pos hlt⟩
  · exact .inl ⟨hle, slice_of_sizes h.sizes hle⟩

theorem Consistent.slice (h : b.Consistent) {offset length : ℕ}
    (hslice : b.slice offset length = .ok other) : other.Consistent := by
  rcases h.slice_cases offset length with ⟨hle, hok⟩ | ⟨-, herror⟩
  · rw [hok] at hslice
    cases hslice
    exact h.cutRows hle
  · rw [herror] at hslice
    cases hslice

/-- What is joined: a single batch stays as it is, and of several the columns are joined that they
have in one place. -/
theorem concat_eq_ok_cases {parts : List Batch} {whole : Batch} (h : concat parts = .ok whole) :
    parts = [whole] ∨ ∃ first second rest columns, parts = first :: second :: rest ∧
      (∀ d ∈ second :: rest, first.schema.Matches d.schema) ∧
      (List.range first.columns.length).mapM (fun i => columnsAt parts i >>= Column.concat) =
        .ok columns ∧
      ofColumns first.schema columns = .ok whole := by
  match parts with
  | [] => cases h
  | [d] =>
      cases h
      exact .inl rfl
  | first :: second :: rest =>
      obtain ⟨_, hcheck, h⟩ := bind_eq_ok_iff.mp h
      obtain ⟨columns, hcolumns, h⟩ := bind_eq_ok_iff.mp h
      refine .inr ⟨first, second, rest, columns, rfl, fun d hd => ?_, hcolumns, h⟩
      exact Schema.check_eq_ok_iff.mp (forM_eq_ok_iff.mp hcheck d hd)

theorem concat_consistent {parts : List Batch} {whole : Batch}
    (consistent : ∀ d ∈ parts, d.Consistent) (h : concat parts = .ok whole) :
    whole.Consistent := by
  rcases concat_eq_ok_cases h with rfl | ⟨first, second, rest, columns, rfl, -, -, hcolumns⟩
  · exact consistent whole List.mem_cons_self
  · exact ofColumns_consistent hcolumns

/-- The fields and the columns that a projection picks. -/
theorem project_eq_ok {ordinals : List ℕ} (h : b.project ordinals = .ok other) :
    List.Forall₂ (fun i f => b.schema.fields[i]? = some f) ordinals other.schema.fields ∧
      List.Forall₂ (fun i c => b.columns[i]? = some c) ordinals other.columns ∧
      other.rows = b.rows ∧ other.capacity = b.capacity := by
  obtain ⟨schema, hschema, h⟩ := bind_eq_ok_iff.mp h
  obtain ⟨columns, hcolumns, h⟩ := bind_eq_ok_iff.mp h
  cases h
  obtain ⟨fields, hfields, rfl⟩ := Schema.project_eq_ok_iff.mp hschema
  refine ⟨(mapM_eq_ok_iff.mp hfields).imp fun i f hf => ?_,
    (mapM_eq_ok_iff.mp hcolumns).imp fun i c hc => ?_, rfl, rfl⟩
  · unfold Schema.fieldAt at hf
    split at hf
    · rename_i hfound
      cases hf
      exact hfound
    · cases hf
  · unfold columnAt at hc
    split at hc
    · rename_i hfound
      cases hc
      exact hfound
    · cases hc

theorem Consistent.kind_eq (h : b.Consistent) {i : ℕ} {f : Schema.Field ColumnType} {c : Column}
    (hf : b.schema.fields[i]? = some f) (hc : b.columns[i]? = some c) : f.type.kind = c.kind := by
  obtain ⟨hi, rfl⟩ := List.getElem?_eq_some_iff.mp hf
  obtain ⟨hi', rfl⟩ := List.getElem?_eq_some_iff.mp hc
  exact h.kinds.get hi hi'

theorem Consistent.project (h : b.Consistent) {ordinals : List ℕ}
    (hproject : b.project ordinals = .ok other) : other.Consistent := by
  obtain ⟨hfields, hcolumns, hrows, hcapacity⟩ := project_eq_ok hproject
  refine ⟨?_, fun c hc => ?_, hcapacity ▸ h.room, ?_⟩
  · rw [List.forall₂_iff_get]
    refine ⟨hfields.length_eq.symm.trans hcolumns.length_eq, fun j hj hj' => ?_⟩
    have hj'' : j < ordinals.length := hfields.length_eq ▸ hj
    exact h.kind_eq (hfields.get hj'' hj) (hcolumns.get hj'' hj')
  · rw [hrows]
    obtain ⟨j, hj, rfl⟩ := List.mem_iff_getElem.mp hc
    exact h.sizes _ (List.mem_of_getElem? (hcolumns.get (hcolumns.length_eq ▸ hj) hj))
  · rw [hrows, hcapacity]
    exact h.fits

/-- Refilling takes over the columns of rows whose schema was checked, so that their kinds suit the
schema that is kept. -/
theorem Consistent.fillFrom (h : b.Consistent) {rows : Batch} (hrows : rows.Consistent)
    (hfill : b.fillFrom rows = .ok other) : other.Consistent := by
  obtain ⟨hfits, rfl⟩ := fillFrom_eq_ok hfill
  unfold Batch.fillFrom at hfill
  rw [if_neg (not_lt.mpr hfits)] at hfill
  obtain ⟨_, hcheck, -⟩ := map_eq_ok_iff.mp hfill
  refine ⟨?_, hrows.sizes, h.room, hfits⟩
  have hmatches : b.schema.Matches rows.schema := Schema.check_eq_ok_iff.mp hcheck
  rw [List.forall₂_iff_get]
  refine ⟨hmatches.length_eq.trans hrows.kinds.length_eq, fun i hi hi' => ?_⟩
  have hi'' : i < rows.schema.fields.length := hmatches.length_eq ▸ hi
  rw [(hmatches.get hi hi'').2]
  exact hrows.kinds.get hi'' hi'

/-! ### What cannot be out of bounds -/

/-- Batches with as many columns as the first have columns to join in each place. -/
theorem exists_columnsAt {parts : List Batch} {i : ℕ} (h : ∀ d ∈ parts, i < d.columns.length) :
    ∃ cs, columnsAt parts i = .ok cs ∧
      List.Forall₂ (fun d c => d.columns[i]? = some c) parts cs := by
  refine exists_mapM_forall₂ fun d hd => ?_
  have hcolumn := List.getElem?_eq_getElem (h d hd)
  exact ⟨_, by rw [hcolumn], hcolumn⟩

end Batch

theorem Column.concat_inBounds (parts : List Column) : concat parts ≠ .error .outOfBounds := by
  unfold concat
  split
  · simp
  · split
    · simp
    · split <;> simp

namespace Batch

theorem ofColumns_inBounds (schema : Schema) (columns : List Column) :
    ofColumns schema columns ≠ .error .outOfBounds := by
  unfold ofColumns
  split
  · simp
  · split
    · simp
    · simp only
      split <;> simp

/-- Joining never looks for a column that is not there: schemas that agree have as many fields, and
so as many columns. -/
theorem concat_inBounds {parts : List Batch} (consistent : ∀ d ∈ parts, d.Consistent) :
    concat parts ≠ .error .outOfBounds := by
  match parts with
  | [] => simp [concat]
  | [d] => simp [concat]
  | first :: second :: rest =>
      intro h
      rcases bind_eq_error_iff.mp h with hcheck | ⟨_, hcheck, h⟩
      · obtain ⟨d, -, hd⟩ := exists_of_forM_eq_error hcheck
        cases hmatch : Schema.matchFields (first.schema.fields.map Schema.toField)
          (d.schema.fields.map Schema.toField) <;>
          simp [Schema.check, hmatch, Except.mapError] at hd
      rcases bind_eq_error_iff.mp h with hcolumns | ⟨columns, -, h⟩
      · obtain ⟨i, hi, he⟩ := exists_of_mapM_eq_error hcolumns
        have hwidth : ∀ d ∈ first :: second :: rest, i < d.columns.length := by
          intro d hd
          rw [List.mem_range] at hi
          rcases List.mem_cons.mp hd with rfl | hd'
          · exact hi
          · have hmatches := Schema.check_eq_ok_iff.mp (forM_eq_ok_iff.mp hcheck d hd')
            rw [(consistent first List.mem_cons_self).count, Schema.size_eq] at hi
            rw [(consistent d hd).count, Schema.size_eq]
            exact hi.trans_eq hmatches.length_eq
        obtain ⟨cs, hcs, -⟩ := exists_columnsAt hwidth
        rw [hcs, bind_ok] at he
        exact Column.concat_inBounds cs he
      · exact ofColumns_inBounds first.schema columns h

end Batch

/-! ### Refilling by a scan -/

namespace Scan

variable {σ : Type} {source : Source σ} {scan : Scan}

/-- Rows that are read are the joined pieces, without the columns that are left out. -/
theorem run_readRows_eq_ok {stripe : Stripe} {start count : ℕ} {rows : Batch} {s s' : σ}
    (h : (readRows source scan stripe start count).run s = (.ok rows, s')) :
    ∃ parts whole, ((pieces stripe scan.plan.stride (Word.add start count) UInt64.size start).mapM
        (readPiece source stripe.index)).run s = (.ok parts, s') ∧
      Batch.concat parts = .ok whole ∧ keepColumns scan.columns whole = .ok rows := by
  obtain ⟨parts, t, hparts, h⟩ := Access.run_bind_eq_ok_iff.mp h
  obtain ⟨whole, t', hwhole, h⟩ := Access.run_bind_eq_ok_iff.mp h
  rw [Access.run_ofExcept, Prod.mk.injEq] at hwhole h
  obtain ⟨hwhole, rfl⟩ := hwhole
  obtain ⟨hkeep, rfl⟩ := h
  exact ⟨parts, whole, hparts, hwhole, hkeep⟩

/-- A piece that is read was delivered by the source, complete. -/
theorem run_readPiece_eq_ok {stripe : ℕ} {p : Piece} {part : Batch} {s s' : σ}
    (h : (readPiece source stripe p).run s = (.ok part, s')) :
    (source.rows stripe p.group p.offset p.count).run s = (.ok part, s') ∧
      part.rows = p.count := by
  obtain ⟨d, t, hd, h⟩ := Access.run_bind_eq_ok_iff.mp h
  split at h
  · rename_i hcount
    obtain ⟨rfl, rfl⟩ := Access.run_pure_eq_ok_iff.mp h
    exact ⟨hd, hcount⟩
  · cases h

theorem keepColumns_consistent {columns : Option (List ℕ)} {whole rows : Batch}
    (consistent : whole.Consistent) (h : keepColumns columns whole = .ok rows) :
    rows.Consistent := by
  cases columns with
  | none =>
      cases h
      exact consistent
  | some ordinals => exact consistent.project h

/-- A batch is left as it is, emptied, or refilled with rows that were read. -/
theorem produceBatch_cases (source : Source σ) (scan : Scan) (batch : Batch) (medium : σ) :
    (produceBatch source scan batch medium).batch = batch ∨
      (produceBatch source scan batch medium).batch = batch.clear ∨
      ∃ stripe start count rows s s',
        (readRows source scan stripe start count).run s = (.ok rows, s') ∧
        batch.fillFrom rows = .ok (produceBatch source scan batch medium).batch := by
  rcases hstep : (step source scan batch).run medium with ⟨e | after, medium'⟩
  · rw [produceBatch_of_error hstep]
    exact .inl rfl
  · rw [produceBatch_of_step hstep]
    cases steps_of_run hstep with
    | ended => exact .inr (.inl rfl)
    | finished => exact .inr (.inl rfl)
    | delivered _ _ _ _ read fill => exact .inr (.inr ⟨_, _, _, _, _, _, read, fill⟩)

/-- No scan changes the schema or the capacity of a batch that it refills. -/
theorem produceBatch_keeps (source : Source σ) (scan : Scan) (batch : Batch) (medium : σ) :
    (produceBatch source scan batch medium).batch.schema = batch.schema ∧
      (produceBatch source scan batch medium).batch.capacity = batch.capacity := by
  rcases produceBatch_cases source scan batch medium with
    heq | heq | ⟨stripe, start, count, rows, s, s', -, hfill⟩
  · rw [heq]
    exact ⟨rfl, rfl⟩
  · rw [heq]
    exact ⟨rfl, rfl⟩
  · obtain ⟨-, hfilled⟩ := Batch.fillFrom_eq_ok hfill
    rw [hfilled]
    exact ⟨rfl, rfl⟩

theorem produceBatch_consistent {batch : Batch} (medium : σ) (consistent : batch.Consistent)
    (delivers : ∀ stripe group offset count s part s',
      (source.rows stripe group offset count).run s = (.ok part, s') → part.Consistent) :
    (produceBatch source scan batch medium).batch.Consistent := by
  rcases produceBatch_cases source scan batch medium with
    heq | heq | ⟨stripe, start, count, rows, s, s', hrows, hfill⟩
  · rw [heq]
    exact consistent
  · rw [heq]
    exact consistent.clear
  · obtain ⟨parts, whole, hparts, hwhole, hkeep⟩ := run_readRows_eq_ok hrows
    have hconsistent : ∀ d ∈ parts, d.Consistent :=
      Access.run_mapM_forall hparts fun p part u u' hpart =>
        delivers _ _ _ _ _ _ _ (run_readPiece_eq_ok hpart).1
    exact consistent.fillFrom
      (keepColumns_consistent (Batch.concat_consistent hconsistent hwhole) hkeep) hfill

end Scan

/-! ### Batches of any origin -/

namespace Batch

/-- A batch that comes out of any sequence of operations on batches.  A source may deliver any such
batches to the scans that refill one. -/
inductive Made : Batch → Prop
  | withCapacity {schema : Schema} {capacity : ℕ} {b : Batch}
      (h : withCapacity schema capacity = .ok b) : Made b
  | ofColumns {schema : Schema} {columns : List Column} {b : Batch}
      (h : ofColumns schema columns = .ok b) : Made b
  | ofRecord {r : Record} {b : Batch} (h : ofRecord r = .ok b) : Made b
  | slice {b piece : Batch} (made : Made b) (offset length : ℕ)
      (h : b.slice offset length = .ok piece) : Made piece
  | concat {parts : List Batch} {whole : Batch} (made : ∀ d ∈ parts, Made d)
      (h : concat parts = .ok whole) : Made whole
  | project {b projected : Batch} (made : Made b) (ordinals : List ℕ)
      (h : b.project ordinals = .ok projected) : Made projected
  | clear {b : Batch} (made : Made b) : Made b.clear
  | refilled {σ : Type} {source : Source σ} {b : Batch} (made : Made b)
      (delivers : ∀ stripe group offset count s part s',
        (source.rows stripe group offset count).run s = (.ok part, s') → Made part)
      (scan : Scan) (medium : σ) : Made (scan.produceBatch source b medium).batch

theorem Made.consistent {b : Batch} (made : b.Made) : b.Consistent := by
  induction made with
  | withCapacity h => exact withCapacity_consistent h
  | ofColumns h => exact ofColumns_consistent h
  | ofRecord h => exact ofRecord_consistent h
  | slice _ offset length h ih => exact ih.slice h
  | concat _ h ih => exact concat_consistent ih h
  | project _ ordinals h ih => exact ih.project h
  | clear _ ih => exact ih.clear
  | refilled _ _ scan medium ih ih' => exact Scan.produceBatch_consistent medium ih ih'

/-- The shape of batches, whatever they are made by.  A batch has as many columns as fields, each of
the kind of its field and as long as the batch says, and it has room for a row and for all it holds.
Emptying it and refilling it, by any scan of any source, keep its schema and its capacity.  So no
offset and no length lets slicing look beyond the end of a column, and no list of such batches lets
joining look for a column that is not there. -/
theorem Made.shape {b : Batch} (made : b.Made) :
    b.columns.length = b.schema.size ∧
      (∀ i c, b.columns[i]? = some c → ∃ f, b.schema.fields[i]? = some f ∧
        b.schema.kind? i = some c.kind ∧
        Schema.kindOf f.name (Schema.toField f).type = .ok c.kind ∧ c.size = b.rows) ∧
      1 ≤ b.capacity ∧ b.rows ≤ b.capacity ∧
      (b.clear.schema = b.schema ∧ b.clear.capacity = b.capacity) ∧
      (∀ (σ : Type) (source : Source σ) (scan : Scan) (medium : σ),
        (scan.produceBatch source b medium).batch.schema = b.schema ∧
          (scan.produceBatch source b medium).batch.capacity = b.capacity) ∧
      (∀ offset length, b.slice offset length ≠ .error .outOfBounds) ∧
      ∀ parts : List Batch, (∀ d ∈ parts, d.Made) → Batch.concat parts ≠ .error .outOfBounds := by
  have h := made.consistent
  refine ⟨h.count, fun i c hc => ?_, h.room, h.fits, ⟨rfl, rfl⟩, fun σ source scan medium => ?_,
    fun offset length => ?_, fun parts hparts => ?_⟩
  · have hi : i < b.schema.fields.length :=
      (List.getElem?_eq_some_iff.mp hc).1.trans_eq (h.count.trans b.schema.size_eq)
    have hfield := List.getElem?_eq_getElem hi
    have hkind := h.kind_eq hfield hc
    refine ⟨_, hfield, ?_, congrArg Except.ok hkind, h.sizes c (List.mem_of_getElem? hc)⟩
    rw [Schema.kind?_eq, hfield, Option.map_some, hkind]
  · exact scan.produceBatch_keeps source b medium
  · rcases h.slice_cases offset length with ⟨-, hok⟩ | ⟨-, herror⟩
    · rw [hok]
      exact fun h => nomatch h
    · rw [herror]
      exact fun h => nomatch h
  · exact concat_inBounds fun d hd => (hparts d hd).consistent

/-- Three numbers, the second of them missing. -/
def threeLongs : Batch := ⟨.ofTyped [⟨"x", .long, true⟩], [⟨.long, #[some 1, none, some 3]⟩], 3, 3⟩

theorem made_threeLongs : threeLongs.Made := by
  have h : ofColumns threeLongs.schema threeLongs.columns = .ok threeLongs := rfl
  exact .ofColumns h

/-- The three numbers as a stripe of two row groups, without statistics. -/
def threeLongsSource : Source Unit where
  schema := threeLongs.schema
  stride := 2
  stripeCount := 1
  stripeRows _ := pure 3
  fileStatistics _ := pure none
  stripeStatistics _ _ := pure none
  groupCount _ := pure 0
  groupStatistics _ _ _ := pure none
  rows _ group offset count := .ofExcept (threeLongs.slice (group * 2 + offset) count)

/-- A scan of all of them, before the first. -/
def threeLongsScan : Scan where
  schema := threeLongs.schema
  columns := none
  batchSize := 1024
  plan := ⟨[⟨0, 0, 3, 2⟩], [⟨0, 0, 0, 3⟩], 3, 2⟩
  cursor := ⟨.notStarted, some 0, some 0, 0, 0, 0⟩
  metrics := ⟨false, 1, 1, 2, 2, 3, 0, 0⟩

/-- An empty batch for that scan. -/
def fourEmpty : Batch := ⟨threeLongs.schema, [Column.empty .long], 0, 4⟩

/-- A batch that a scan refilled still has its rows when it is projected to no column. -/
theorem Made.shape_threeLongs :
    (Scan.start threeLongsSource .standard).run () = (.ok threeLongsScan, ()) ∧
      threeLongsScan.createBatch 4 = .ok fourEmpty ∧
      (threeLongsScan.produceBatch threeLongsSource fourEmpty ()).batch.project [] =
        .ok ⟨.ofTyped [], [], 3, 4⟩ ∧
      (∀ offset length,
        (Batch.mk (.ofTyped []) [] 3 4).slice offset length ≠ .error .outOfBounds) := by
  have hproject : (threeLongsScan.produceBatch threeLongsSource fourEmpty ()).batch.project [] =
      .ok ⟨.ofTyped [], [], 3, 4⟩ := rfl
  have hempty : Batch.withCapacity threeLongs.schema 4 = .ok fourEmpty := rfl
  have hrefilled : (threeLongsScan.produceBatch threeLongsSource fourEmpty ()).batch.Made := by
    refine .refilled (.withCapacity hempty) (fun _ group offset count _ part _ hpart => ?_) _ ()
    obtain ⟨hslice, -⟩ := Prod.mk.inj ((Access.run_ofExcept _ _).symm.trans hpart)
    exact .slice made_threeLongs _ count hslice
  obtain ⟨-, -, -, -, -, -, hslice, -⟩ := Made.shape (.project hrefilled [] hproject)
  exact ⟨rfl, rfl, hproject, hslice⟩

end Batch

end StripeScan
