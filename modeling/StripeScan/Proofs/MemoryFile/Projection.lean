import StripeScan.Proofs.MemoryFile.Refinement
import StripeScan.Proofs.SearchArgument.Rows

/-! # Scans of some columns

A scan that keeps some columns does what the scan of all columns does, and its batches are those of
the other one projected to the columns (`MemoryFile.projection_unobservable`).  The projection of
scans, batches and whole clients is a plain function, `select`, and every step commutes with it
(`MemoryFile.produceBatch_select`): rows are projected after their pieces have been joined, so that
even without columns their number is known. -/

namespace StripeScan

/-! ### Batches -/

namespace Batch

/-- Whether a batch has a column for each field of a schema. -/
structure Follows (b : Batch) (expected : Schema) : Prop where
  schema : b.schema = expected
  count : b.columns.length = expected.size

/-- The columns at some positions, under the schema that they make up. -/
def select (b : Batch) (ordinals : List ℕ) (out : Schema) : Batch :=
  ⟨out, ordinals.filterMap (b.columns[·]?), b.rows, b.capacity⟩

section select

variable {schema out : Schema} {ordinals : List ℕ} {b rows : Batch}

theorem eq_filterMap_of_forall₂ {γ : Type} {xs : List γ} {ys : List γ} {is : List ℕ}
    (h : List.Forall₂ (fun i y => xs[i]? = some y) is ys) : ys = is.filterMap (xs[·]?) := by
  induction h with
  | nil => rfl
  | cons hxy _ ih => rw [List.filterMap_cons_some hxy, ← ih]

/-- Projecting is selecting. -/
theorem project_eq_select (follows : b.Follows schema) (hout : schema.project ordinals = .ok out) :
    b.project ordinals = .ok (b.select ordinals out) := by
  obtain ⟨rfl, hcount⟩ := follows
  obtain ⟨columns, hproject, hcolumns⟩ := project_eq hcount hout
  rw [hproject, select, ← eq_filterMap_of_forall₂ hcolumns]

theorem select_clear (b : Batch) (ordinals : List ℕ) (out : Schema) :
    b.clear.select ordinals out = (b.select ordinals out).clear := by
  unfold clear select
  simp only [List.map_filterMap, List.getElem?_map]

theorem withCapacity_select (hout : schema.project ordinals = .ok out) (capacity : ℕ) :
    withCapacity out capacity =
      (withCapacity schema capacity).map fun b => b.select ordinals out := by
  unfold withCapacity
  split
  · rfl
  · obtain ⟨fields, hfields, rfl⟩ := Schema.project_eq_ok_iff.mp hout
    have hempty : List.Forall₂ (fun i c => (schema.fields.map fun f => Column.empty f.type)[i]? =
        some c) ordinals ((Schema.ofTyped fields).fields.map fun f => Column.empty f.type) := by
      rw [List.forall₂_map_right_iff]
      refine (mapM_eq_ok_iff.mp hfields).imp fun i f hf => ?_
      unfold Schema.fieldAt at hf
      split at hf
      · rename_i hfield
        cases hf
        rw [List.getElem?_map, hfield, Option.map_some]
      · cases hf
    rw [eq_filterMap_of_forall₂ hempty]
    rfl

/-- Refilling is the same for the selected columns: whether the rows fit does not depend on them. -/
theorem fillFrom_select (hb : b.Follows schema) (hrows : rows.Follows schema) :
    (b.select ordinals out).fillFrom (rows.select ordinals out) =
      (b.fillFrom rows).map fun filled => filled.select ordinals out := by
  unfold fillFrom
  split
  · rename_i hmany
    rw [if_pos (show b.capacity < rows.rows from hmany)]
    rfl
  · rename_i hfew
    rw [if_neg (show ¬b.capacity < rows.rows from hfew), hb.schema, hrows.schema,
      Schema.check_self]
    show (Schema.check out out).map _ = _
    rw [Schema.check_self]
    rfl

theorem Follows.clear (h : b.Follows schema) : b.clear.Follows schema :=
  ⟨h.schema, (List.length_map _).trans h.count⟩

theorem follows_of_withCapacity {capacity : ℕ} (h : withCapacity schema capacity = .ok b) :
    b.Follows schema := by
  unfold withCapacity at h
  split at h
  · cases h
  · cases h
    exact ⟨rfl, (List.length_map _).trans schema.size_eq.symm⟩

theorem follows_of_fillFrom {filled : Batch} (hb : b.Follows schema) (hrows : rows.Follows schema)
    (h : b.fillFrom rows = .ok filled) : filled.Follows schema := by
  obtain ⟨-, rfl⟩ := fillFrom_eq_ok h
  exact ⟨hb.schema, hrows.count⟩

theorem follows_of_slice {offset length : ℕ} {part : Batch} (hb : b.Follows schema)
    (h : b.slice offset length = .ok part) : part.Follows schema := by
  unfold slice at h
  split at h
  · cases h
  · obtain ⟨columns, hcolumns, h⟩ := bind_eq_ok_iff.mp h
    cases h
    exact ⟨hb.schema, (mapM_eq_ok_iff.mp hcolumns).length_eq.symm.trans hb.count⟩

theorem follows_of_concat {parts : List Batch} (hparts : ∀ p ∈ parts, p.Follows schema)
    (h : concat parts = .ok rows) : rows.Follows schema := by
  match parts with
  | [] => cases h
  | [p] =>
      cases h
      exact hparts rows List.mem_cons_self
  | first :: second :: rest =>
      obtain ⟨_, -, h⟩ := bind_eq_ok_iff.mp h
      obtain ⟨columns, -, h⟩ := bind_eq_ok_iff.mp h
      obtain ⟨hregular, hschema, -⟩ := regular_of_ofColumns h
      rw [(hparts first List.mem_cons_self).schema] at hschema
      exact ⟨hschema, hschema ▸ hregular.count⟩

end select

end Batch

/-! ### Schemas -/

/-- Columns that can all be found make up a schema. -/
theorem Schema.exists_project {schema : Schema} {columns : List ColumnRef} {ordinals : List ℕ}
    (h : columns.mapM (Scan.resolveColumn schema) = .ok ordinals) :
    ∃ out, schema.project ordinals = .ok out := by
  have hall : ∀ i ∈ ordinals, ∃ f, schema.fieldAt i = .ok f ∧ True := by
    intro i hi
    obtain ⟨column, -, hcolumn⟩ := exists_of_mem_mapM h hi
    unfold Scan.resolveColumn at hcolumn
    split at hcolumn
    · rename_i ordinal kind hresolve
      cases hcolumn
      have hkind := kind?_of_resolve hresolve
      rw [kind?_eq] at hkind
      obtain ⟨field, hfield, -⟩ := Option.map_eq_some_iff.mp hkind
      exact ⟨field, by rw [fieldAt, hfield], trivial⟩
    · cases hcolumn
  obtain ⟨fields, hfields, -⟩ := exists_mapM_forall₂ hall
  exact ⟨_, project_eq_ok_iff.mpr ⟨fields, hfields, rfl⟩⟩

/-! ### Scans -/

namespace Scan

/-- The scan that keeps some columns instead of all. -/
def select (scan : Scan) (ordinals : List ℕ) (out : Schema) : Scan :=
  { scan with columns := some ordinals, schema := out }

def Step.select (step : Step) (ordinals : List ℕ) (out : Schema) : Step :=
  ⟨step.more, step.scan.select ordinals out, step.batch.select ordinals out⟩

def Outcome.select {σ α : Type} (o : Outcome σ α) (ordinals : List ℕ) (out : Schema) :
    Outcome σ α :=
  ⟨o.answer, o.scan.select ordinals out, o.batch.select ordinals out, o.medium⟩

/-- Whether a scan keeps all columns of a schema. -/
structure Whole (scan : Scan) (expected : Schema) : Prop where
  columns : scan.columns = none
  schema : scan.schema = expected

theorem seekTo_select (scan : Scan) (row : ℕ) (ordinals : List ℕ) (out : Schema) :
    (scan.select ordinals out).seekTo row =
      ((scan.seekTo row).1, (scan.seekTo row).2.select ordinals out) := by
  unfold seekTo
  show (if scan.plan.totalRows < row then _ else if row = scan.plan.totalRows then _ else _) = _
  by_cases hbeyond : scan.plan.totalRows < row
  · rw [if_pos hbeyond]
    simp only [if_pos hbeyond]
    rfl
  · rw [if_neg hbeyond]
    simp only [if_neg hbeyond]
    by_cases hend : row = scan.plan.totalRows
    · rw [if_pos hend, if_pos hend]
      rfl
    · rw [if_neg hend, if_neg hend]
      rfl

theorem Whole.seekTo {scan : Scan} {schema : Schema} (h : scan.Whole schema) (row : ℕ) :
    (scan.seekTo row).2.Whole schema := by
  unfold Scan.seekTo
  simp only
  split
  · exact ⟨h.columns, h.schema⟩
  · split <;> exact ⟨h.columns, h.schema⟩

end Scan

/-! ### Clients -/

/-- What a client of a scan does: it has a batch made, hands in one of its batches, or moves the
scan. -/
inductive ClientCall where
  | create (capacity : ℕ)
  | refill (index : ℕ)
  | seek (row : ℕ)

/-- What a client is told. -/
inductive ClientReply where
  | created (outcome : Except ScanError Unit)
  | refilled (more : Except ScanError Bool)
  | sought (outcome : Except ScanError Unit)
  | noBatch

/-- A scan in use, with the batches that were made for it. -/
structure Client (σ : Type) where
  scan : Scan
  batches : List Batch
  medium : σ

namespace Client

variable {σ : Type}

/-- One call of a client, and how it stands afterwards. -/
def call (source : Source σ) (c : Client σ) : ClientCall → ClientReply × Client σ
  | .create capacity =>
    match c.scan.createBatch capacity with
    | .error e => (.created (.error e), c)
    | .ok batch => (.created (.ok ()), { c with batches := c.batches ++ [batch] })
  | .refill index =>
    match c.batches[index]? with
    | none => (.noBatch, c)
    | some batch =>
      let o := c.scan.produceBatch source batch c.medium
      (.refilled o.answer, ⟨o.scan, c.batches.set index o.batch, o.medium⟩)
  | .seek row =>
    let (outcome, scan) := c.scan.seekTo row
    (.sought outcome, { c with scan := scan })

/-- What a client is told by its calls, and how it stands after each. -/
def calls (source : Source σ) : Client σ → List ClientCall → List (ClientReply × Client σ)
  | _, [] => []
  | c, call :: rest =>
    let (reply, c) := c.call source call
    (reply, c) :: calls source c rest

/-- The client of the scan of some columns. -/
def select (c : Client σ) (ordinals : List ℕ) (out : Schema) : Client σ :=
  ⟨c.scan.select ordinals out, c.batches.map fun b => b.select ordinals out, c.medium⟩

/-- Whether a client scans all columns of a schema, with batches of all columns. -/
structure Whole (c : Client σ) (schema : Schema) : Prop where
  scan : c.scan.Whole schema
  batches : ∀ b ∈ c.batches, b.Follows schema

/-- How a client of the scan of some columns stands next to one of all: planned, counted and placed
alike, with batches of as many rows that are the projections of the other ones. -/
structure Projects (ordinals : List ℕ) (whole part : Client σ) : Prop where
  plan : part.scan.plan = whole.scan.plan
  metrics : part.scan.metrics = whole.scan.metrics
  cursor : part.scan.cursor = whole.scan.cursor
  batches : List.Forall₂ (fun b p => b.project ordinals = .ok p ∧ p.rows = b.rows) whole.batches
    part.batches
  medium : part.medium = whole.medium

theorem projects_select {c : Client σ} {schema out : Schema} {ordinals : List ℕ}
    (whole : c.Whole schema) (hout : schema.project ordinals = .ok out) :
    c.Projects ordinals (c.select ordinals out) where
  plan := rfl
  metrics := rfl
  cursor := rfl
  batches := by
    show List.Forall₂ _ c.batches (c.batches.map _)
    rw [List.forall₂_map_right_iff, List.forall₂_same]
    exact fun b hb => ⟨Batch.project_eq_select (whole.batches b hb) hout, rfl⟩
  medium := rfl

end Client

namespace MemoryFile

variable {f : MemoryFile} {ordinals : List ℕ} {out : Schema}

/-! ### Reading -/

section reading

variable (wf : f.FollowsSchema)

include wf

theorem FollowsSchema.follows {s : MemoryStripe} (hs : s ∈ f.stripes) :
    s.rows.Follows f.schema := by
  obtain ⟨hregular, hschema⟩ := wf.regular hs
  exact ⟨hschema, hschema ▸ hregular.count⟩

/-- Whatever rows are delivered, they have a column for each field. -/
theorem readPiece_follows {stripe : ℕ} {p : Scan.Piece} {part : Batch} {s s' : ℕ}
    (h : (Scan.readPiece f.source stripe p).run s = (.ok part, s')) : part.Follows f.schema := by
  obtain ⟨rows, s₁, hrows, h⟩ := Access.run_bind_eq_ok_iff.mp h
  split at h
  · obtain ⟨rfl, -⟩ := Access.run_pure_eq_ok_iff.mp h
    have hread : (f.rows stripe p.group p.offset p.count).run s = (.ok rows, s₁) := hrows
    unfold MemoryFile.rows at hread
    split at hread
    · cases hread
    · obtain ⟨_, _, -, hread⟩ := Access.run_bind_eq_ok_iff.mp hread
      rw [Access.run_ofExcept, Prod.mk.injEq] at hread
      obtain ⟨m, hm, hslice⟩ := bind_eq_ok_iff.mp hread.1
      unfold MemoryFile.stripe at hm
      split at hm
      · rename_i hstripe
        cases hm
        exact Batch.follows_of_slice (wf.follows (List.mem_of_getElem? hstripe)) hslice
      · cases hm
  · cases h

/-- Rows are joined before they are projected, so reading in some columns is projecting what is read
in all. -/
theorem run_readRows_select (hout : f.schema.project ordinals = .ok out) {scan : Scan}
    (whole : scan.Whole f.schema) (stripe : Stripe) (start count readings : ℕ) :
    (Scan.readRows f.source (scan.select ordinals out) stripe start count).run readings =
        (((Scan.readRows f.source scan stripe start count).run readings).1.map
            fun rows => rows.select ordinals out,
          ((Scan.readRows f.source scan stripe start count).run readings).2) ∧
      ∀ rows s, (Scan.readRows f.source scan stripe start count).run readings = (.ok rows, s) →
        rows.Follows f.schema := by
  unfold Scan.readRows
  simp only [Scan.select, whole.columns, Access.run_bind, Access.run_ofExcept]
  rcases hparts : Access.run (List.mapM (Scan.readPiece f.source stripe.index) _) readings with
    ⟨e | parts, s⟩
  · exact ⟨rfl, fun rows s h => (nomatch h)⟩
  · have hfollows : ∀ p ∈ parts, p.Follows f.schema :=
      Access.run_mapM_forall hparts fun _ _ _ _ h => readPiece_follows wf h
    simp only
    cases hjoined : Batch.concat parts with
    | error e => exact ⟨rfl, fun rows s h => (nomatch h)⟩
    | ok joined =>
        have hjoined' := Batch.follows_of_concat hfollows hjoined
        simp only [Scan.keepColumns, Batch.project_eq_select hjoined' hout]
        refine ⟨rfl, fun rows s h => ?_⟩
        cases h
        exact hjoined'

end reading

/-! ### Steps -/

section steps

variable (wf : f.FollowsSchema) (hout : f.schema.project ordinals = .ok out)
variable {scan : Scan} (whole : scan.Whole f.schema) {batch : Batch}
variable (follows : batch.Follows f.schema)

include wf hout whole follows

theorem run_deliver_select (range : RowRange) (stripe : Stripe) (readings : ℕ) :
    (Scan.deliver f.source (scan.select ordinals out) (batch.select ordinals out) range
          stripe).run readings =
        (((Scan.deliver f.source scan batch range stripe).run readings).1.map
            fun step => step.select ordinals out,
          ((Scan.deliver f.source scan batch range stripe).run readings).2) ∧
      ∀ step s, (Scan.deliver f.source scan batch range stripe).run readings = (.ok step, s) →
        step.scan.Whole f.schema ∧ step.batch.Follows f.schema := by
  unfold Scan.deliver
  obtain ⟨hread, hfollows⟩ := run_readRows_select wf hout whole stripe scan.cursor.next
    (min batch.capacity (Word.sub range.stop scan.cursor.next)) readings
  simp only [Access.run_bind]
  have hsame : Access.run (Scan.readRows f.source (scan.select ordinals out) stripe
      (scan.select ordinals out).cursor.next (min (batch.select ordinals out).capacity
        (Word.sub range.stop (scan.select ordinals out).cursor.next))) readings = _ := hread
  rw [hsame]
  rcases hrows : Access.run (Scan.readRows f.source scan stripe scan.cursor.next _) readings with
    ⟨e | rows, s⟩
  · exact ⟨rfl, fun step s h => (nomatch h)⟩
  · have hrows' := hfollows rows s hrows
    simp only [Except.map, Access.run_ofExcept, Batch.fillFrom_select follows hrows']
    cases hfill : batch.fillFrom rows with
    | error e => exact ⟨rfl, fun step s h => (nomatch h)⟩
    | ok filled =>
        refine ⟨rfl, fun step s h => ?_⟩
        obtain ⟨rfl, -⟩ := Access.run_pure_eq_ok_iff.mp h
        exact ⟨⟨whole.columns, whole.schema⟩, Batch.follows_of_fillFrom follows hrows' hfill⟩

theorem run_step_select (readings : ℕ) :
    (Scan.step f.source (scan.select ordinals out) (batch.select ordinals out)).run readings =
        (((Scan.step f.source scan batch).run readings).1.map fun step => step.select ordinals out,
          ((Scan.step f.source scan batch).run readings).2) ∧
      ∀ step s, (Scan.step f.source scan batch).run readings = (.ok step, s) →
        step.scan.Whole f.schema ∧ step.batch.Follows f.schema := by
  unfold Scan.step
  rw [show (scan.select ordinals out).cursor = scan.cursor from rfl,
    show (scan.select ordinals out).plan = scan.plan from rfl]
  by_cases hended : scan.cursor.isExhausted = true
  · rw [if_pos hended, if_pos hended]
    refine ⟨?_, fun step s h => ?_⟩
    · rw [← Batch.select_clear]
      rfl
    · obtain ⟨rfl, -⟩ := Access.run_pure_eq_ok_iff.mp h
      exact ⟨whole, follows.clear⟩
  · rw [if_neg hended, if_neg hended]
    cases scan.plan.ranges[scan.cursor.rangeIndex]? with
    | none =>
        refine ⟨?_, fun step s h => ?_⟩
        · simp only [Scan.finish, ← Batch.select_clear]
          rfl
        · obtain ⟨rfl, -⟩ := Access.run_pure_eq_ok_iff.mp h
          exact ⟨⟨whole.columns, whole.schema⟩, follows.clear⟩
    | some range =>
        simp only
        cases scan.plan.stripes[range.stripe]? with
        | none => exact ⟨rfl, fun step s h => (nomatch h)⟩
        | some stripe => exact run_deliver_select wf hout whole follows range stripe readings

/-- A step of the scan of some columns is the step of the scan of all. -/
theorem produceBatch_select (readings : ℕ) :
    Scan.produceBatch f.source (scan.select ordinals out) (batch.select ordinals out) readings =
        (Scan.produceBatch f.source scan batch readings).select ordinals out ∧
      (Scan.produceBatch f.source scan batch readings).scan.Whole f.schema ∧
      (Scan.produceBatch f.source scan batch readings).batch.Follows f.schema := by
  obtain ⟨hselect, hkept⟩ := run_step_select wf hout whole follows readings
  rcases hstep : (Scan.step f.source scan batch).run readings with ⟨e | step, s⟩
  · rw [hstep] at hselect
    rw [Scan.produceBatch_of_error hstep, Scan.produceBatch_of_error hselect]
    exact ⟨rfl, whole, follows⟩
  · rw [hstep] at hselect
    rw [Scan.produceBatch_of_step hstep, Scan.produceBatch_of_step hselect]
    exact ⟨rfl, hkept step s hstep⟩

end steps

/-! ### Calls -/

section clients

variable (wf : f.FollowsSchema) (hout : f.schema.project ordinals = .ok out)

include wf hout

/-- A call of the client of some columns is the call of the client of all. -/
theorem call_select {c : Client ℕ} (whole : c.Whole f.schema) (call : ClientCall) :
    (c.select ordinals out).call f.source call =
        ((c.call f.source call).1, (c.call f.source call).2.select ordinals out) ∧
      (c.call f.source call).2.Whole f.schema := by
  cases call with
  | create capacity =>
      have hcreate : (c.scan.select ordinals out).createBatch capacity =
          (c.scan.createBatch capacity).map fun b => b.select ordinals out := by
        unfold Scan.createBatch
        rw [whole.scan.schema]
        exact Batch.withCapacity_select hout capacity
      unfold Client.call
      simp only [Client.select, hcreate]
      cases hbatch : c.scan.createBatch capacity with
      | error e => exact ⟨rfl, whole⟩
      | ok batch =>
          rw [Scan.createBatch, whole.scan.schema] at hbatch
          have hfollows := Batch.follows_of_withCapacity hbatch
          refine ⟨?_, whole.scan, fun b hb => ?_⟩
          · simp only [Except.map, List.map_append, List.map_cons, List.map_nil]
          · rcases List.mem_append.mp hb with hold | hnew
            · exact whole.batches b hold
            · exact List.mem_singleton.mp hnew ▸ hfollows
  | refill index =>
      unfold Client.call
      simp only [Client.select, List.getElem?_map]
      cases hbatch : c.batches[index]? with
      | none => exact ⟨rfl, whole⟩
      | some batch =>
          obtain ⟨hselect, hwhole, hfollows⟩ := produceBatch_select wf hout whole.scan
            (whole.batches batch (List.mem_of_getElem? hbatch)) c.medium
          refine ⟨?_, hwhole, fun b hb => ?_⟩
          · simp only [Option.map_some, hselect, Scan.Outcome.select, List.map_set]
          · rcases List.mem_or_eq_of_mem_set hb with hold | rfl
            · exact whole.batches b hold
            · exact hfollows
  | seek row =>
      refine ⟨?_, whole.scan.seekTo row, whole.batches⟩
      unfold Client.call
      simp only [Client.select, Scan.seekTo_select]

/-- All calls of the client of some columns are those of the client of all. -/
theorem calls_select (calls : List ClientCall) {c : Client ℕ} (whole : c.Whole f.schema) :
    List.Forall₂ (fun a b => b.1 = a.1 ∧ a.2.Projects ordinals b.2) (c.calls f.source calls)
      ((c.select ordinals out).calls f.source calls) := by
  induction calls generalizing c with
  | nil => exact .nil
  | cons call rest ih =>
      obtain ⟨hcall, hwhole⟩ := call_select wf hout whole call
      unfold Client.calls
      rw [hcall]
      exact .cons ⟨rfl, Client.projects_select hwhole hout⟩ (ih hwhole)

end clients

/-! ### Whole sessions -/

/-- Starting a scan of some columns is starting the scan of all. -/
theorem run_startScan_select {columns : List ColumnRef}
    (resolves : columns.mapM (Scan.resolveColumn f.schema) = .ok ordinals)
    (hout : f.schema.project ordinals = .ok out) (options : ScanOptions) (readings : ℕ) :
    (f.startScan { options with columns := some columns }).run readings =
      (((f.startScan { options with columns := none }).run readings).1.map
          fun started => (started.1, started.2.select ordinals out),
        ((f.startScan { options with columns := none }).run readings).2) := by
  have hcolumns : Scan.outputColumns f.source.schema (some columns) = .ok (some ordinals, out) := by
    show (columns.mapM (Scan.resolveColumn f.schema) >>= _) = _
    rw [resolves, bind_ok]
    exact congrArg (· >>= _) hout
  rw [run_startScan, run_startScan,
    Scan.run_start { options with columns := some columns } hcolumns,
    Scan.run_start { options with columns := none } rfl]
  simp only
  split
  · rfl
  · cases Scan.bindArgument f.source.schema options.argument with
    | error e => rfl
    | ok argument =>
        simp only
        rcases Access.run (Scan.start.planned f.source argument options.pruning) readings with
          ⟨_ | _, _⟩ <;> rfl

/-- Keeping some columns changes nothing of a scan but the columns of its batches.  For any columns
that can be found, in any order and any number of times, or none at all, starting the scan fails as
starting the scan of all columns does, or both plan the same; and then, whatever calls a client
makes, both answer alike, stay alike in plan, counters and place, and each batch is the projection
of the other one, with as many rows. -/
theorem projection_unobservable (wf : f.FollowsSchema) (options : ScanOptions)
    {columns : List ColumnRef}
    (resolves : columns.mapM (Scan.resolveColumn f.schema) = .ok ordinals) (readings : ℕ) :
    (∀ e readings',
      (f.startScan { options with columns := none }).run readings = (.error e, readings') →
      (f.startScan { options with columns := some columns }).run readings =
        (.error e, readings')) ∧
    ∀ source whole readings',
      (f.startScan { options with columns := none }).run readings =
        (.ok (source, whole), readings') →
      ∃ part,
        (f.startScan { options with columns := some columns }).run readings =
          (.ok (source, part), readings') ∧
        Client.Projects ordinals ⟨whole, [], readings'⟩ ⟨part, [], readings'⟩ ∧
        ∀ calls, List.Forall₂ (fun a b => b.1 = a.1 ∧ a.2.Projects ordinals b.2)
          (Client.calls source ⟨whole, [], readings'⟩ calls)
          (Client.calls source ⟨part, [], readings'⟩ calls) := by
  obtain ⟨out, hout⟩ := Schema.exists_project resolves
  have hselect := run_startScan_select resolves hout options readings
  constructor
  · intro e readings' h
    rw [hselect, h]
    rfl
  · intro source whole readings' h
    refine ⟨whole.select ordinals out, by rw [hselect, h]; rfl, ?_⟩
    obtain ⟨rfl, hstart⟩ := run_startScan_eq_ok_iff.mp h
    obtain ⟨-, _, -, hcolumns, -⟩ := Scan.run_start_eq_ok_iff.mp hstart
    obtain ⟨hcolumns, hschema⟩ := Prod.mk.inj (Except.ok.inj hcolumns)
    have hwhole : Client.Whole ⟨whole, [], readings'⟩ f.schema :=
      ⟨⟨hcolumns.symm, hschema.symm⟩, fun b hb => absurd hb List.not_mem_nil⟩
    exact ⟨Client.projects_select hwhole hout, fun calls => calls_select wf hout calls hwhole⟩

/-- Without columns, a batch of the three numbers still says how many rows it stands for, and a seek
beyond the end fails alike. -/
theorem projection_unobservable_threeNumbers :
    ∃ whole part : Scan,
      (threeNumbers.startScan { ScanOptions.standard with columns := none }).run 0 =
        (.ok (threeNumbers.source, whole), 0) ∧
      (threeNumbers.startScan { ScanOptions.standard with columns := some [] }).run 0 =
        (.ok (threeNumbers.source, part), 0) ∧
      List.Forall₂ (fun a b => b.1 = a.1 ∧ a.2.Projects [] b.2)
        (Client.calls threeNumbers.source ⟨whole, [], 0⟩
          [.create 2, .refill 0, .seek 9, .refill 0])
        (Client.calls threeNumbers.source ⟨part, [], 0⟩
          [.create 2, .refill 0, .seek 9, .refill 0]) ∧
      ((Client.calls threeNumbers.source ⟨part, [], 0⟩ [.create 2, .refill 0]).map
        fun c => c.2.batches.map fun b => (b.columns.length, b.rows)) = [[(0, 0)], [(0, 2)]] := by
  have h : (threeNumbers.startScan { ScanOptions.standard with columns := none }).run 0 =
      (.ok (threeNumbers.source, _), 0) := rfl
  have resolves : [].mapM (Scan.resolveColumn threeNumbers.schema) = .ok [] := rfl
  obtain ⟨part, hpart, -, hcalls⟩ :=
    (projection_unobservable threeNumbers_wellFormed.followsSchema .standard resolves 0).2 _ _ _ h
  refine ⟨_, part, h, hpart, hcalls _, ?_⟩
  cases hpart
  rfl

end MemoryFile

end StripeScan
