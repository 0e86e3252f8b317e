import StripeScan.Proofs.Batch.Joining
import StripeScan.Proofs.Scan.Calls
import StripeScan.Proofs.Scan.Reading

/-! # What a step asks for

What a step asks its source for is settled before it: the rows that come next, row group by row
group (`Scan.requests`).  A step that fails asks for the beginning of that, every other one for all
of it (`Access.Records`).  So whatever has happened to a scan since it was started, a step asks for
rows of the plan only, for each row group at most once and in ascending order without a gap
(`Scan.produceBatch_requests`). -/

namespace StripeScan

variable {σ α β : Type}

/-! ### Recording -/

namespace Access

/-- On the medium `x` does what `y` does; beside it keeps a list of requests.  These are the
beginning of `asks`, and all of it if nothing fails. -/
def Records (x : Access (σ × List Request) α) (y : Access σ α) (asks : List Request) : Prop :=
  Notes (fun done result => done <+: asks ∧ ∀ a, result = .ok a → done = asks) x y

namespace Records

theorem ofExcept (x : Except ScanError α) :
    Records (.ofExcept x : Access (σ × List Request) α) (.ofExcept x) [] :=
  Notes.ofExcept ⟨List.prefix_rfl, fun _ _ => rfl⟩

theorem pure (a : α) : Records (Pure.pure a : Access (σ × List Request) α) (Pure.pure a) [] :=
  ofExcept (.ok a)

theorem fail (e : ScanError) : Records (.fail e : Access (σ × List Request) α) (.fail e) [] :=
  ofExcept (.error e)

theorem rows (source : Source σ) (stripe group offset count : ℕ) :
    Records (source.recording.rows stripe group offset count)
      (source.rows stripe group offset count) [.rows stripe group offset count] :=
  fun _ _ => ⟨_, rfl, List.prefix_rfl, fun _ _ => rfl⟩

theorem bind {x : Access (σ × List Request) α} {y : Access σ α}
    {f : α → Access (σ × List Request) β} {g : α → Access σ β} {asks more : List Request}
    (first : Records x y asks) (next : ∀ a, Records (f a) (g a) more) :
    Records (x >>= f) (y >>= g) (asks ++ more) := by
  refine Notes.bind first next ?_ ?_
  · rintro done e ⟨hdone, -⟩
    exact ⟨hdone.trans (List.prefix_append asks more), fun _ h => nomatch h⟩
  · rintro done a done' result ⟨-, hall⟩ ⟨hdone', hall'⟩
    obtain rfl := hall a rfl
    refine ⟨(List.prefix_append_right_inj done).mpr hdone', fun b hb => ?_⟩
    rw [hall' b hb]

theorem mapM {ι : Type} {f : ι → Access (σ × List Request) β} {g : ι → Access σ β}
    {ask : ι → Request} {xs : List ι} (h : ∀ x ∈ xs, Records (f x) (g x) [ask x]) :
    Records (xs.mapM f) (xs.mapM g) (xs.map ask) := by
  induction xs with
  | nil => exact pure []
  | cons x xs ih =>
      rw [List.mapM_cons, List.mapM_cons, List.map_cons, ← List.singleton_append]
      refine bind (h x List.mem_cons_self) fun y => ?_
      rw [← List.append_nil (xs.map ask)]
      exact bind (ih fun z hz => h z (List.mem_cons_of_mem x hz)) fun ys => pure (y :: ys)

end Records

end Access

/-! ### Requests for rows of a plan -/

namespace Plan

/-- The rows of the file that a request asks for. -/
def rowsOf (p : Plan) : Request → List ℕ
  | .rows stripe group offset count =>
    match p.stripes[stripe]? with
    | some s => List.range' (s.firstRow + ((s.groupBounds p.stride group).1 + offset)) count
    | none => []
  | _ => []

/-- A request for rows of a row group that lies in a range: for at least one row, and not beyond
the end of the row group. -/
inductive Within (p : Plan) (r : RowRange) : Request → Prop
  | rows {s : Stripe} {group offset count : ℕ} (stripe : p.stripes[r.stripe]? = some s)
      (exists_group : group < s.groups)
      (low : r.start ≤ s.firstRow + (s.groupBounds p.stride group).1)
      (high : s.firstRow + (s.groupBounds p.stride group).2 ≤ r.stop)
      (positive : 0 < count)
      (fits : offset + count ≤
        (s.groupBounds p.stride group).2 - (s.groupBounds p.stride group).1) :
      Within p r (.rows r.stripe group offset count)

theorem Within.contains {p : Plan} {r : RowRange} {q : Request} (h : p.Within r q) :
    ∀ row ∈ p.rowsOf q, r.contains row = true := by
  cases h with
  | @rows s group offset count stripe _ low high positive fits =>
      intro row hrow
      rw [rowsOf, stripe, List.mem_range'_1] at hrow
      rw [RowRange.contains_iff]
      omega

end Plan

namespace Scan

variable {source : Source σ} {scan : Scan} {batch : Batch} {medium medium' : σ}

/-- A request for a piece of a stripe. -/
def Piece.request (stripe : ℕ) (p : Piece) : Request := .rows stripe p.group p.offset p.count

/-- What is asked for to read rows of a stripe. -/
def requestsFor (scan : Scan) (stripe : Stripe) (start count : ℕ) : List Request :=
  (pieces stripe scan.plan.stride (Word.add start count) UInt64.size start).map
    (Piece.request stripe.index)

/-- What a step asks for if nothing fails. -/
def requests (scan : Scan) (batch : Batch) : List Request :=
  if scan.cursor.isExhausted then []
  else
    match scan.plan.ranges[scan.cursor.rangeIndex]? with
    | none => []
    | some range =>
      match scan.plan.stripes[range.stripe]? with
      | none => []
      | some stripe =>
        let start := scan.cursor.next
        scan.requestsFor stripe start (min batch.capacity (Word.sub range.stop start))

theorem readPiece_records (source : Source σ) (stripe : ℕ) (p : Piece) :
    Access.Records (readPiece source.recording stripe p) (readPiece source stripe p)
      [p.request stripe] := by
  unfold readPiece
  refine .bind (.rows source stripe p.group p.offset p.count) fun part => ?_
  split
  · exact .pure part
  · exact .fail _

theorem readRows_records (source : Source σ) (scan : Scan) (stripe : Stripe) (start count : ℕ) :
    Access.Records (readRows source.recording scan stripe start count)
      (readRows source scan stripe start count) (scan.requestsFor stripe start count) := by
  unfold readRows
  rw [← List.append_nil (requestsFor _ _ _ _)]
  refine .bind (.mapM fun p _ => readPiece_records source stripe.index p) fun parts => ?_
  exact .bind (.ofExcept (Batch.concat parts)) fun whole =>
    .ofExcept (keepColumns scan.columns whole)

theorem step_records (source : Source σ) (scan : Scan) (batch : Batch) :
    Access.Records (step source.recording scan batch) (step source scan batch)
      (scan.requests batch) := by
  unfold step requests
  split
  · exact .pure _
  · cases scan.plan.ranges[scan.cursor.rangeIndex]? with
    | none => exact .pure _
    | some range =>
        dsimp only
        cases scan.plan.stripes[range.stripe]? with
        | none => exact .fail _
        | some stripe =>
            dsimp only
            rw [← List.append_nil (requestsFor _ _ _ _)]
            refine .bind (readRows_records source scan stripe _ _) fun rows => ?_
            exact .bind (.ofExcept (batch.fillFrom rows)) fun _ => .pure _

/-- Recording changes nothing else, and a step that succeeds has asked for everything. -/
theorem produceBatch_records (source : Source σ) (scan : Scan) (batch : Batch) (medium : σ)
    (log : List Request) : ∃ done, done <+: scan.requests batch ∧
      (let o := produceBatch source scan batch medium
      produceBatch source.recording scan batch (medium, log) =
          ⟨o.answer, o.scan, o.batch, o.medium, log ++ done⟩ ∧
        ∀ more, o.answer = .ok more → done = scan.requests batch) := by
  obtain ⟨done, hrun, hdone, hall⟩ := step_records source scan batch medium log
  refine ⟨done, hdone, ?_⟩
  rcases hstep : (step source scan batch).run medium with ⟨e | after, medium'⟩
  · rw [hstep] at hrun
    rw [produceBatch_of_error hstep, produceBatch_of_error hrun]
    exact ⟨rfl, fun _ h => nomatch h⟩
  · rw [hstep] at hrun hall
    rw [produceBatch_of_step hstep, produceBatch_of_step hrun]
    exact ⟨rfl, fun _ _ => hall after rfl⟩

/-! ### What is asked for -/

/-- Requests that a step of the scan may make: for row groups in the range of the cursor, each at
most once, and together for consecutive rows from the one that comes next. -/
structure Reads (scan : Scan) (requests : List Request) : Prop where
  within : ∀ q ∈ requests, ∃ r, scan.plan.ranges[scan.cursor.rangeIndex]? = some r ∧
    scan.plan.Within r q
  places : (requests.map Request.place).Nodup
  rows : ∃ n, requests.flatMap scan.plan.rowsOf = List.range' scan.cursor.next n

namespace Reads

theorem nil (scan : Scan) : scan.Reads [] :=
  ⟨fun _ hq => absurd hq List.not_mem_nil, List.nodup_nil, 0, rfl⟩

theorem of_append {done rest : List Request} (h : scan.Reads (done ++ rest)) :
    scan.Reads done := by
  obtain ⟨n, hn⟩ := h.rows
  refine ⟨fun q hq => h.within q (List.mem_append_left rest hq), ?_, ?_⟩
  · have := h.places
    rw [List.map_append] at this
    exact this.of_append_left
  · rw [List.flatMap_append, eq_comm, List.range'_eq_append_iff] at hn
    obtain ⟨k, -, hk, -⟩ := hn
    exact ⟨k, hk⟩

theorem retained {requests : List Request} (h : scan.Reads requests) :
    ∀ row ∈ requests.flatMap scan.plan.rowsOf, scan.plan.retains row = true := by
  intro row hrow
  obtain ⟨q, hq, hrow⟩ := List.mem_flatMap.mp hrow
  obtain ⟨r, hr, hwithin⟩ := h.within q hq
  rw [Plan.retains, List.any_eq_true]
  exact ⟨r, List.mem_of_getElem? hr, hwithin.contains row hrow⟩

end Reads

section range

variable (h : scan.OnPlan) {range : RowRange} {stripe : Stripe} {count : ℕ}
variable (hrange : scan.plan.ranges[scan.cursor.rangeIndex]? = some range)
variable (hstripe : scan.plan.stripes[range.stripe]? = some stripe)

variable (going : scan.cursor.state ≠ .exhausted)
variable (hcount : count ≤ range.stop - scan.cursor.next)

include h hrange hstripe going hcount

/-- The rows that a step reads lie in the range and in its stripe. -/
theorem OnPlan.bounds : stripe.firstRow ≤ scan.cursor.next ∧
    scan.cursor.next + count ≤ stripe.stop ∧ range.start ≤ scan.cursor.next ∧
    scan.cursor.next + count ≤ range.stop := by
  obtain ⟨last, hspans⟩ := h.plan.exists_spans (List.mem_of_getElem? hrange) hstripe
  have hcontains := RowRange.contains_iff.mp (h.contains going hrange)
  have hbounds := hspans.bounds (h.plan.fits stripe (List.mem_of_getElem? hstripe))
  omega

/-- A step that reads up to a row of its range counts the rows without overflow. -/
theorem OnPlan.requestsFor_eq : scan.requestsFor stripe scan.cursor.next count =
    (pieces stripe scan.plan.stride (scan.cursor.next + count) UInt64.size scan.cursor.next).map
      (Piece.request stripe.index) := by
  have hstop := (h.left_eq going hrange).2.1
  obtain ⟨-, -, -, hle⟩ := h.bounds hrange hstripe going hcount
  rw [requestsFor, Word.add_eq (hle.trans_lt hstop)]

theorem OnPlan.rowsOf_requestsFor :
    (scan.requestsFor stripe scan.cursor.next count).flatMap scan.plan.rowsOf =
      List.range' scan.cursor.next count := by
  obtain ⟨low, high, -⟩ := h.bounds hrange hstripe going hcount
  have fits := h.plan.fits stripe (List.mem_of_getElem? hstripe)
  have hpieces := pieces_rows fits high low (fits.le_limit high)
  rw [Nat.add_sub_cancel_left] at hpieces
  rw [← hpieces, h.requestsFor_eq hrange hstripe going hcount, List.flatMap_map]
  refine List.flatMap_congr fun p _ => ?_
  rw [Piece.request, h.plan.index _ _ hstripe, Plan.rowsOf, hstripe]

theorem OnPlan.reads_requestsFor :
    scan.Reads (scan.requestsFor stripe scan.cursor.next count) := by
  have fits := h.plan.fits stripe (List.mem_of_getElem? hstripe)
  obtain ⟨low, high, hstart, hstop⟩ := h.bounds hrange hstripe going hcount
  have hrequests := h.requestsFor_eq hrange hstripe going hcount
  refine ⟨fun q hq => ?_, ?_, count, h.rowsOf_requestsFor hrange hstripe going hcount⟩
  · obtain ⟨last, hspans⟩ := h.plan.exists_spans (List.mem_of_getElem? hrange) hstripe
    rw [hrequests] at hq
    obtain ⟨p, hp, rfl⟩ := List.mem_map.mp hq
    obtain ⟨start, hle, hlt, rfl⟩ := mem_pieces fits high low hp
    obtain ⟨hgroup, hlow, hhigh, hpositive, hfits⟩ :=
      pieceAt_bounds fits hspans (hstart.trans hle) hlt hstop
    rw [Piece.request, ← hspans.stripe]
    exact ⟨range, hrange, .rows hstripe hgroup hlow hhigh hpositive hfits⟩
  · rw [hrequests, List.map_map]
    refine List.pairwise_map.mpr ((pieces_ascend fits high low).imp fun {p q} hlt heq => ?_)
    simp only [Function.comp_apply, Piece.request, Request.place, List.cons.injEq] at heq
    exact hlt.ne heq.2.1

end range

theorem requests_of_exhausted (h : scan.cursor.state = .exhausted) : scan.requests batch = [] :=
  if_pos (Cursor.isExhausted_iff.mpr h)

theorem requests_of_beyond (h : scan.plan.ranges[scan.cursor.rangeIndex]? = none) :
    scan.requests batch = [] := by
  unfold requests
  rw [h]
  exact ite_self _

theorem requests_of_range {range : RowRange} {stripe : Stripe}
    (going : scan.cursor.state ≠ .exhausted)
    (hrange : scan.plan.ranges[scan.cursor.rangeIndex]? = some range)
    (hstripe : scan.plan.stripes[range.stripe]? = some stripe) :
    scan.requests batch = scan.requestsFor stripe scan.cursor.next
      (min batch.capacity (Word.sub range.stop scan.cursor.next)) := by
  unfold requests
  rw [if_neg (going ∘ Cursor.isExhausted_iff.mp), hrange]
  dsimp only
  rw [hstripe]

theorem OnPlan.reads (h : scan.OnPlan) (batch : Batch) : scan.Reads (scan.requests batch) := by
  by_cases hexhausted : scan.cursor.state = .exhausted
  · rw [requests_of_exhausted hexhausted]
    exact .nil scan
  cases hrange : scan.plan.ranges[scan.cursor.rangeIndex]? with
  | none =>
      rw [requests_of_beyond hrange]
      exact .nil scan
  | some range =>
      obtain ⟨stripe, _, hstripe, -⟩ := h.plan.ranges range (List.mem_of_getElem? hrange)
      rw [requests_of_range hexhausted hrange hstripe, (h.left_eq hexhausted hrange).2.2]
      exact h.reads_requestsFor hrange hstripe hexhausted (min_le_right _ _)

end Scan

/-! ### What is delivered -/

/-- Whether whatever a source delivers is a batch of its schema with the rows that were asked
for. -/
def Source.Delivers (source : Source σ) : Prop :=
  ∀ stripe group offset count s part s',
    (source.rows stripe group offset count).run s = (.ok part, s') →
      part.Consistent ∧ part.schema = source.schema ∧ part.rows = count

namespace Scan

variable {source : Source σ} {scan : Scan} {batch : Batch} {medium medium' : σ}

section delivered

variable (columns : 0 < source.schema.size) (delivers : source.Delivers)

include columns delivers

/-- No rows are lost when they are joined and projected. -/
theorem rows_of_read {stripe : Stripe} {start count : ℕ} {rows : Batch}
    (h : (readRows source scan stripe start count).run medium = (.ok rows, medium')) :
    rows.rows = ((pieces stripe scan.plan.stride (Word.add start count) UInt64.size start).map
      Piece.count).sum := by
  obtain ⟨parts, whole, hparts, hwhole, hkeep⟩ := run_readRows_eq_ok h
  have hpart : ∀ d ∈ parts, d.Consistent ∧ d.schema = source.schema := by
    refine Access.run_mapM_forall hparts fun p d u u' hread => ?_
    obtain ⟨hconsistent, hschema, -⟩ := delivers _ _ _ _ _ _ _ (run_readPiece_eq_ok hread).1
    exact ⟨hconsistent, hschema⟩
  have hcolumns : whole.columns ≠ [] := by
    have hnonempty : parts ≠ [] := by
      rintro rfl
      cases hwhole
    obtain ⟨d, hd⟩ := List.exists_mem_of_ne_nil _ hnonempty
    have hwidth := (Batch.concat_joins (fun d hd => (hpart d hd).1) hwhole).width d hd
    rw [(hpart d hd).1.count, (hpart d hd).2] at hwidth
    exact List.ne_nil_of_length_pos (hwidth ▸ columns)
  have hrows : parts.map Batch.rows =
      (pieces stripe scan.plan.stride (Word.add start count) UInt64.size start).map
        Piece.count := by
    have hall := Access.run_mapM_forall₂ hparts fun p d u u' hread => (run_readPiece_eq_ok hread).2
    exact List.forall₂_eq_eq_eq ▸
      List.forall₂_map_left_iff.mpr (List.forall₂_map_right_iff.mpr hall.flip)
  rw [← hrows, ← Batch.rows_of_columns (fun d hd => (hpart d hd).1) hwhole hcolumns]
  cases hkept : scan.columns with
  | none =>
      rw [hkept] at hkeep
      cases hkeep
      rfl
  | some ordinals =>
      rw [hkept] at hkeep
      exact (Batch.project_eq_ok hkeep).2.2.1

/-- A step that delivers rows has asked for exactly those, and one that finds nothing for none. -/
theorem OnPlan.asked (h : scan.OnPlan) {after : Step}
    (steps : Steps source scan batch medium after medium') :
    (after.more = true → after.scan.cursor.current = scan.cursor.next ∧
      (scan.requests batch).flatMap scan.plan.rowsOf =
        List.range' scan.cursor.next after.batch.rows) ∧
      (after.more = false → scan.requests batch = []) := by
  cases steps with
  | ended exhausted => exact ⟨fun h => (nomatch h), fun _ => requests_of_exhausted exhausted⟩
  | finished _ beyond => exact ⟨fun h => (nomatch h), fun _ => requests_of_beyond beyond⟩
  | @delivered range stripe rows filled count _ going range_eq stripe_eq count_eq read fill =>
      obtain ⟨-, hstop, hleft⟩ := h.left_eq going range_eq
      have hcount : count ≤ range.stop - scan.cursor.next := by
        rw [count_eq, hleft]
        exact min_le_right _ _
      obtain ⟨low, high, -, hle⟩ := h.bounds range_eq stripe_eq going hcount
      have fits := h.plan.fits stripe (List.mem_of_getElem? stripe_eq)
      have hlt := hle.trans_lt hstop
      refine ⟨fun _ => ⟨(Cursor.advance_at h.plan scan.cursor hlt).2.1, ?_⟩, fun h => nomatch h⟩
      have hrows : filled.rows = count := by
        rw [(Batch.fillFrom_eq_ok fill).2]
        show rows.rows = count
        rw [rows_of_read columns delivers read, Word.add_eq hlt,
          sum_counts fits high low (fits.le_limit high)]
        omega
      rw [requests_of_range going range_eq stripe_eq, ← count_eq,
        h.rowsOf_requestsFor range_eq stripe_eq going hcount, hrows]

end delivered

theorem threeLongs_delivers : Batch.threeLongsSource.Delivers := by
  intro stripe group offset count s part s' h
  obtain ⟨hslice, -⟩ := Prod.mk.inj ((Access.run_ofExcept _ _).symm.trans h)
  have consistent := Batch.made_threeLongs.consistent
  rcases consistent.slice_cases (group * 2 + offset) count with ⟨hle, hok⟩ | ⟨-, herror⟩
  · rw [hok] at hslice
    cases hslice
    exact ⟨consistent.cutRows hle, rfl, rfl⟩
  · rw [herror] at hslice
    cases hslice

/-- Where the end of a row group that is kept wraps around, a step for one row first asks for more
rows than the row group has. -/
example :
    let plan : Plan :=
      ⟨[⟨0, 0, 2 ^ 63 + 2, 2⟩], [⟨0, 1, 2 ^ 63 + 1, 2⟩], 2 ^ 63 + 2, 2 ^ 63 + 1⟩
    let scan : Scan := { Batch.threeLongsScan with plan := plan, cursor := .start plan }
    (scan.requests { Batch.fourEmpty with capacity := 1 }).head? =
      some (.rows 0 1 0 (2 ^ 63 + 1)) := rfl

end Scan

end StripeScan
