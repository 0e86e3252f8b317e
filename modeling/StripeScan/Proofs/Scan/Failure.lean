import StripeScan.Proofs.Scan.Machine

/-! # Steps that fail

`Scan.refill` is a step as it happens: scan and batch are changed in place, one part after the
other, and whatever has been changed when something fails stays changed.  It is the same step as
`Scan.produceBatch` (`Scan.run_refill`), because everything that may fail comes before the first
change (`Scan.refill_failsClean`).

`Source.observed` keeps a list of all readings of rows with their outcomes.  A reading that fails
or that does not bring the rows that were asked for makes the step fail
(`Scan.produceBatch_observed`). -/

namespace StripeScan

variable {σ τ α β : Type}

namespace Access

/-! ### Failing before anything is changed -/

/-- A computation that never changes the second part of the state. -/
def LeavesSecond (x : Access (σ × τ) α) : Prop := ∀ s t, (run x (s, t)).2.2 = t

/-- A computation that has not changed the second part of the state if it fails. -/
def FailsClean (x : Access (σ × τ) α) : Prop :=
  ∀ s t e s' t', run x (s, t) = (.error e, s', t') → t' = t

theorem leavesSecond_ofExcept (x : Except ScanError α) :
    LeavesSecond (ofExcept x : Access (σ × τ) α) := by
  intro s t
  rw [run_ofExcept]

theorem leavesSecond_onFirst (x : Access σ α) : LeavesSecond (onFirst x : Access (σ × τ) α) :=
  fun _ _ => rfl

theorem LeavesSecond.failsClean {x : Access (σ × τ) α} (h : LeavesSecond x) : FailsClean x := by
  intro s t e s' t' hx
  have hsecond := h s t
  rwa [hx] at hsecond

theorem Succeeds.failsClean {x : Access (σ × τ) α} (h : Succeeds x) : FailsClean x := by
  intro s t e s' t' hx
  obtain ⟨a, u, ha⟩ := h (s, t)
  rw [ha] at hx
  cases hx

/-- First what changes nothing, then what fails cleanly. -/
theorem LeavesSecond.bind {x : Access (σ × τ) α} {f : α → Access (σ × τ) β} (h : LeavesSecond x)
    (next : ∀ a, FailsClean (f a)) : FailsClean (x >>= f) := by
  intro s t e s' t' hrun
  have hsecond := h s t
  rw [run_bind] at hrun
  rcases hx : run x (s, t) with ⟨e' | a, s₁, t₁⟩
  · rw [hx] at hrun hsecond
    cases hrun
    exact hsecond
  · rw [hx] at hrun hsecond
    rw [next a s₁ t₁ e s' t' hrun]
    exact hsecond

/-- First what fails cleanly, then what never fails. -/
theorem FailsClean.bind {x : Access (σ × τ) α} {f : α → Access (σ × τ) β} (h : FailsClean x)
    (next : ∀ a, Succeeds (f a)) : FailsClean (x >>= f) := by
  intro s t e s' t' hrun
  rw [run_bind] at hrun
  rcases hx : run x (s, t) with ⟨e' | a, s₁, t₁⟩
  · rw [hx] at hrun
    cases hrun
    exact h s t e s' t' hx
  · rw [hx] at hrun
    obtain ⟨b, u, hb⟩ := next a (s₁, t₁)
    have hok : run (f a) (s₁, t₁) = (.error e, s', t') := hrun
    rw [hb] at hok
    cases hok

theorem succeeds_modify (f : σ → σ) : Succeeds (modify f) := fun s => ⟨(), f s, rfl⟩

end Access

namespace Scan

open Access

/-! ### Steps in place -/

/-- The scan and the batch as they are now. -/
def look : Access (σ × Scan × Batch) (Scan × Batch) := fun (s, t) => (.ok t, s, t)

/-- Changes the scan. -/
def setScan (f : Scan → Scan) : Access (σ × Scan × Batch) Unit :=
  .modifySecond fun (scan, batch) => (f scan, batch)

/-- Changes the batch. -/
def setBatch (f : Batch → Batch) : Access (σ × Scan × Batch) Unit :=
  .modifySecond fun (scan, batch) => (scan, f batch)

/-- Puts rows into the batch, after checking that they fit and follow the same fields. -/
def fill (other : Batch) : Access (σ × Scan × Batch) Unit := do
  let (_, batch) ← look
  if batch.capacity < other.rows then
    .fail (.invalidBatch (.tooManyRows other.rows batch.capacity))
  else do
    Access.ofExcept (batch.schema.check other.schema)
    setBatch fun batch => { batch with columns := other.columns }
    setBatch fun batch => { batch with rows := other.rows }

/-- Moves the scan behind some rows, and counts them. -/
def move (plan : Plan) (start count : Nat) : Access (σ × Scan × Batch) Unit := do
  setScan fun scan => { scan with cursor := scan.cursor.advance plan start count }
  setScan fun scan =>
    { scan with
      metrics := { scan.metrics with rowsProduced := scan.metrics.rowsProduced + count } }
  setScan fun scan =>
    { scan with
      metrics := { scan.metrics with batchesProduced := scan.metrics.batchesProduced + 1 } }

/-- Refills the batch with the rows of a range that come next. -/
def refillFrom (source : Source σ) (scan : Scan) (batch : Batch) (range : RowRange)
    (stripe : Stripe) : Access (σ × Scan × Batch) Bool := do
  let start := scan.cursor.next
  let count := min batch.capacity (Word.sub range.stop start)
  let parts ← ((pieces stripe scan.plan.stride (Word.add start count) UInt64.size start).mapM
    (readPiece source stripe.index)).onFirst
  let rows ← Access.ofExcept (Batch.concat parts)
  let rows ← Access.ofExcept (keepColumns scan.columns rows)
  fill rows
  move scan.plan start count
  return true

/-- Refills the batch with the next rows; answers whether there were any. -/
def refill (source : Source σ) : Access (σ × Scan × Batch) Bool := do
  let (scan, batch) ← look
  if scan.cursor.isExhausted then
    setBatch Batch.clear
    return false
  else
    match scan.plan.ranges[scan.cursor.rangeIndex]? with
    | none => do
      setScan fun scan => { scan with cursor := .exhaust scan.plan }
      setBatch Batch.clear
      return false
    | some range =>
      match scan.plan.stripes[range.stripe]? with
      | none => .fail (.invalidBatch (.unknownStripe range.stripe))
      | some stripe => refillFrom source scan batch range stripe

theorem leavesSecond_look : LeavesSecond (look : Access (σ × Scan × Batch) _) := fun _ _ => rfl

theorem fill_failsClean (other : Batch) :
    FailsClean (fill other : Access (σ × Scan × Batch) _) := by
  refine leavesSecond_look.bind fun state => ?_
  obtain ⟨scan, batch⟩ := state
  dsimp only
  split
  · exact (leavesSecond_ofExcept (.error _)).failsClean
  · refine (leavesSecond_ofExcept _).bind fun _ => Succeeds.failsClean ?_
    exact .bind (succeeds_modify _) fun _ _ _ _ => succeeds_modify _

theorem move_succeeds (plan : Plan) (start count : ℕ) :
    Succeeds (move plan start count : Access (σ × Scan × Batch) _) := by
  refine .bind (succeeds_modify _) fun _ _ _ _ => ?_
  exact .bind (succeeds_modify _) fun _ _ _ _ => succeeds_modify _

theorem refillFrom_failsClean (source : Source σ) (scan : Scan) (batch : Batch) (range : RowRange)
    (stripe : Stripe) : FailsClean (refillFrom source scan batch range stripe) := by
  refine (leavesSecond_onFirst _).bind fun parts => ?_
  refine (leavesSecond_ofExcept _).bind fun rows => ?_
  refine (leavesSecond_ofExcept _).bind fun rows => ?_
  refine (fill_failsClean rows).bind fun _ => ?_
  exact .bind (move_succeeds _ _ _) fun _ _ _ _ => .pure true

/-- All that may fail comes before the first change. -/
theorem refill_failsClean (source : Source σ) : FailsClean (refill source) := by
  refine leavesSecond_look.bind fun state => ?_
  obtain ⟨scan, batch⟩ := state
  dsimp only
  split
  · exact Succeeds.failsClean (.bind (succeeds_modify _) fun _ _ _ _ => .pure false)
  · split
    · refine Succeeds.failsClean (.bind (succeeds_modify _) fun _ _ _ _ => ?_)
      exact .bind (succeeds_modify _) fun _ _ _ _ => .pure false
    · split
      · exact (leavesSecond_ofExcept (.error _)).failsClean
      · exact refillFrom_failsClean source scan batch _ _

/-! ### Steps in place are steps -/

/-- What a call leaves, in the order of a run of a step in place. -/
def Outcome.inPlace (o : Outcome σ α) : Except ScanError α × σ × Scan × Batch :=
  (o.answer, o.medium, o.scan, o.batch)

/-- What a step leaves if it starts with these: where it failed, they are left. -/
def landing (scan : Scan) (batch : Batch) :
    Except ScanError Step × σ → Except ScanError Bool × σ × Scan × Batch
  | (.ok step, medium) => (.ok step.more, medium, step.scan, step.batch)
  | (.error e, medium) => (.error e, medium, scan, batch)

theorem produceBatch_landing (source : Source σ) (scan : Scan) (batch : Batch) (medium : σ) :
    (produceBatch source scan batch medium).inPlace =
      landing scan batch ((step source scan batch).run medium) := by
  rcases h : (step source scan batch).run medium with ⟨e | step, medium'⟩
  · rw [produceBatch_of_error h]
    rfl
  · rw [produceBatch_of_step h]
    rfl

theorem run_fill (other : Batch) (s : σ) (scan : Scan) (batch : Batch) :
    (fill other).run (s, scan, batch) =
      match batch.fillFrom other with
      | .ok batch' => (.ok (), s, scan, batch')
      | .error e => (.error e, s, scan, batch) := by
  show (if batch.capacity < other.rows then _ else _ : Access (σ × Scan × Batch) Unit).run _ = _
  unfold Batch.fillFrom
  split
  · rfl
  · rw [run_bind, run_ofExcept]
    cases batch.schema.check other.schema <;> rfl

theorem run_refillFrom (source : Source σ) (scan : Scan) (batch : Batch) (range : RowRange)
    (stripe : Stripe) (medium : σ) :
    (refillFrom source scan batch range stripe).run (medium, scan, batch) =
      landing scan batch ((deliver source scan batch range stripe).run medium) := by
  have honFirst {x : Access σ (List Batch)} :
      x.onFirst.run (medium, scan, batch) = ((x.run medium).1, (x.run medium).2, scan, batch) := rfl
  unfold refillFrom deliver readRows
  simp only [run_bind, honFirst]
  rcases List.mapM (m := Access σ) _ _ |>.run medium with ⟨e | parts, medium'⟩
  · rfl
  · dsimp only
    rw [run_ofExcept, run_ofExcept]
    cases Batch.concat parts with
    | error e => rfl
    | ok joined =>
        dsimp only
        rw [run_ofExcept, run_ofExcept]
        cases keepColumns scan.columns joined with
        | error e => rfl
        | ok rows =>
            dsimp only
            rw [run_fill, run_ofExcept]
            cases batch.fillFrom rows <;> rfl

/-- The step in place is the step. -/
theorem run_refill (source : Source σ) (scan : Scan) (batch : Batch) (medium : σ) :
    (refill source).run (medium, scan, batch) =
      (produceBatch source scan batch medium).inPlace := by
  have hlook {f : Scan × Batch → Access (σ × Scan × Batch) Bool} :
      (look >>= f).run (medium, scan, batch) = (f (scan, batch)).run (medium, scan, batch) := rfl
  rw [produceBatch_landing, refill, hlook, step]
  dsimp only
  by_cases hended : scan.cursor.isExhausted = true
  · rw [if_pos hended, if_pos hended]
    rfl
  · rw [if_neg hended, if_neg hended]
    cases scan.plan.ranges[scan.cursor.rangeIndex]? with
    | none => rfl
    | some range =>
        dsimp only
        cases scan.plan.stripes[range.stripe]? with
        | none => rfl
        | some stripe => exact run_refillFrom source scan batch range stripe medium

end Scan

/-! ### Readings of rows -/

/-- A reading of rows: what was asked for, and how many rows came or why none did. -/
structure Reading where
  stripe : ℕ
  group : ℕ
  offset : ℕ
  count : ℕ
  outcome : Except ScanError ℕ

/-- What is wrong with a reading: it failed, or other than the rows that were asked for came. -/
def Reading.fault? (r : Reading) : Option ScanError :=
  match r.outcome with
  | .error e => some e
  | .ok rows =>
    if rows = r.count then none else some (.access (.shortRead r.stripe r.group rows r.count))

/-- The source with a list of all readings of rows, the latest last. -/
def Source.observed (source : Source σ) : Source (σ × List Reading) :=
  { source.widen with
    rows := fun stripe group offset count (medium, readings) =>
      let (part, medium) := (source.rows stripe group offset count).run medium
      (part, medium, readings ++ [⟨stripe, group, offset, count, part.map Batch.rows⟩]) }

theorem Source.run_observed_rows (source : Source σ) (stripe group offset count : ℕ) (s : σ)
    (before : List Reading) :
    (source.observed.rows stripe group offset count).run (s, before) =
      (((source.rows stripe group offset count).run s).1,
        ((source.rows stripe group offset count).run s).2,
        before ++ [⟨stripe, group, offset, count,
          ((source.rows stripe group offset count).run s).1.map Batch.rows⟩]) := rfl

namespace Access

/-- On the medium `x` does what `y` does; beside it keeps a list of readings, and any fault in them
is the error that `y` fails with. -/
def Observes (x : Access (σ × List Reading) α) (y : Access σ α) : Prop :=
  ∀ s before, ∃ readings,
    run x (s, before) = ((run y s).1, (run y s).2, before ++ readings) ∧
      ∀ r ∈ readings, ∀ e, r.fault? = some e → (run y s).1 = .error e

theorem observes_iff {x : Access (σ × List Reading) α} {y : Access σ α} : Observes x y ↔
    Notes (fun readings result => ∀ r ∈ readings, ∀ e, r.fault? = some e → result = .error e) x y :=
  Iff.rfl

namespace Observes

theorem ofExcept (x : Except ScanError α) :
    Observes (.ofExcept x : Access (σ × List Reading) α) (.ofExcept x) :=
  observes_iff.mpr (.ofExcept fun _ hr => absurd hr List.not_mem_nil)

theorem pure (a : α) : Observes (Pure.pure a : Access (σ × List Reading) α) (Pure.pure a) :=
  ofExcept (.ok a)

theorem fail (e : ScanError) : Observes (.fail e : Access (σ × List Reading) α) (.fail e) :=
  ofExcept (.error e)

theorem bind {x : Access (σ × List Reading) α} {y : Access σ α}
    {f : α → Access (σ × List Reading) β} {g : α → Access σ β} (first : Observes x y)
    (next : ∀ a, Observes (f a) (g a)) : Observes (x >>= f) (y >>= g) := by
  refine observes_iff.mpr (.bind (observes_iff.mp first) (fun a => observes_iff.mp (next a)) ?_ ?_)
  · intro readings e h r hr e' he
    cases h r hr e' he
    rfl
  · intro readings a more result h h' r hr e he
    rcases List.mem_append.mp hr with hr | hr
    · cases h r hr e he
    · exact h' r hr e he

theorem mapM {ι : Type} {f : ι → Access (σ × List Reading) β} {g : ι → Access σ β} {xs : List ι}
    (h : ∀ x ∈ xs, Observes (f x) (g x)) : Observes (xs.mapM f) (xs.mapM g) := by
  induction xs with
  | nil => exact pure []
  | cons x xs ih =>
      rw [List.mapM_cons, List.mapM_cons]
      refine bind (h x List.mem_cons_self) fun y => ?_
      refine bind (ih fun z hz => h z (List.mem_cons_of_mem x hz)) fun ys => ?_
      exact pure (y :: ys)

end Observes

end Access

namespace Scan

open Access

theorem readPiece_observes (source : Source σ) (stripe : ℕ) (p : Piece) :
    Observes (readPiece source.observed stripe p) (readPiece source stripe p) := by
  intro s before
  have hobserved := source.run_observed_rows stripe p.group p.offset p.count s before
  rcases hrows : (source.rows stripe p.group p.offset p.count).run s with ⟨e | part, s'⟩
  · rw [hrows] at hobserved
    refine ⟨[⟨stripe, p.group, p.offset, p.count, .error e⟩], ?_, ?_⟩
    · rw [readPiece, run_bind_of_error hobserved, readPiece, run_bind_of_error hrows]
      rfl
    · rw [readPiece, run_bind_of_error hrows]
      intro r hr e' he
      rw [List.mem_singleton.mp hr] at he
      cases he
      rfl
  · rw [hrows] at hobserved
    refine ⟨[⟨stripe, p.group, p.offset, p.count, .ok part.rows⟩], ?_, ?_⟩
    · rw [readPiece, run_bind_of_ok hobserved, readPiece, run_bind_of_ok hrows]
      by_cases hcount : part.rows = p.count
      · rw [if_pos hcount, if_pos hcount]
        rfl
      · rw [if_neg hcount, if_neg hcount]
        rfl
    · rw [readPiece, run_bind_of_ok hrows]
      intro r hr e' he
      rw [List.mem_singleton.mp hr, Reading.fault?] at he
      dsimp only at he
      by_cases hcount : part.rows = p.count
      · rw [if_pos hcount] at he
        cases he
      · rw [if_neg hcount] at he ⊢
        cases he
        rfl

theorem step_observes (source : Source σ) (scan : Scan) (batch : Batch) :
    Observes (step source.observed scan batch) (step source scan batch) := by
  unfold step
  split
  · exact .pure _
  · split
    · exact .pure _
    · split
      · exact .fail _
      · refine .bind (.bind (.mapM fun p _ => readPiece_observes source _ p) fun parts => ?_) ?_
        · exact .bind (.ofExcept _) fun rows => .ofExcept _
        · exact fun rows => .bind (.ofExcept _) fun _ => .pure _

/-- Watching the readings changes nothing else, and a fault in one of them is the error that the
step ends with. -/
theorem produceBatch_observed (source : Source σ) (scan : Scan) (batch : Batch) (medium : σ) :
    ∃ readings, (let o := produceBatch source scan batch medium
      produceBatch source.observed scan batch (medium, []) =
        ⟨o.answer, o.scan, o.batch, o.medium, readings⟩ ∧
      ∀ r ∈ readings, ∀ e, r.fault? = some e → o.answer = .error e) := by
  obtain ⟨readings, hrun, hfault⟩ := step_observes source scan batch medium []
  rw [List.nil_append] at hrun
  refine ⟨readings, ?_⟩
  rcases hstep : (step source scan batch).run medium with ⟨e | next, medium'⟩
  · rw [hstep] at hrun hfault
    rw [produceBatch_of_error hstep, produceBatch_of_error hrun]
    refine ⟨rfl, fun r hr e' he => ?_⟩
    cases hfault r hr e' he
    rfl
  · rw [hstep] at hrun hfault
    rw [produceBatch_of_step hstep, produceBatch_of_step hrun]
    refine ⟨rfl, fun r hr e' he => ?_⟩
    cases hfault r hr e' he

/-! ### Calls that fail -/

/-- A call fails, on some source, and leaves medium, scan and batch like this. -/
def Fails (before after : σ × Scan × Batch) : Prop :=
  ∃ (source : Source σ) (e : ScanError), (refill source).run before = (.error e, after)

/-- Scan and batch stay the same, however many calls fail. -/
theorem same_of_fails {before after : σ × Scan × Batch}
    (h : Relation.ReflTransGen Fails before after) : after.2 = before.2 := by
  induction h with
  | refl => rfl
  | tail _ hfails ih =>
      obtain ⟨source, e, hrun⟩ := hfails
      exact (refill_failsClean source _ _ e _ _ hrun).trans ih

/-- A call that fails changes nothing but the medium.  For any source, scan and batch, the call in
place is the call, and what is wrong with any of its readings of rows is the error that it answers
with.  Whatever makes it fail, the scan (its cursor and metrics with it) and the batch are as they
were.  So after any number of calls that failed, and with whatever the source has become, a call
does what it would have done without them. -/
theorem refill_atomic (source : Source σ) (scan : Scan) (batch : Batch) (medium : σ) :
    (refill source).run (medium, scan, batch) =
        (produceBatch source scan batch medium).inPlace ∧
      (∃ readings, (refill source.observed).run ((medium, []), scan, batch) =
          ⟨(produceBatch source scan batch medium).answer,
            ((produceBatch source scan batch medium).medium, readings),
            (produceBatch source scan batch medium).scan,
            (produceBatch source scan batch medium).batch⟩ ∧
        ∀ r ∈ readings, ∀ e, r.fault? = some e →
          (produceBatch source scan batch medium).answer = .error e) ∧
      (∀ e after, (refill source).run (medium, scan, batch) = (.error e, after) →
        after.2 = (scan, batch)) ∧
      ∀ after, Relation.ReflTransGen Fails (medium, scan, batch) after →
        ∀ later : Source σ,
          (refill later).run after = (refill later).run (after.1, scan, batch) := by
  refine ⟨run_refill source scan batch medium, ?_, ?_, ?_⟩
  · obtain ⟨readings, hobserved, hfault⟩ := produceBatch_observed source scan batch medium
    refine ⟨readings, ?_, hfault⟩
    rw [run_refill, hobserved]
    rfl
  · intro e after hrun
    exact refill_failsClean source _ _ e _ _ hrun
  · intro after hfails later
    obtain ⟨medium', scan', batch'⟩ := after
    cases same_of_fails hfails
    rfl

/-- A stripe of three rows in two row groups.  Of what is read second, the last row is missing. -/
def shortOnce : Source ℕ where
  schema := .ofTyped [⟨"x", .long, true⟩]
  stride := 2
  stripeCount := 1
  stripeRows _ := pure 3
  fileStatistics _ := pure none
  stripeStatistics _ _ := pure none
  groupCount _ := pure 0
  groupStatistics _ _ _ := pure none
  rows _ _ _ count := fun readings =>
    let rows := if readings = 1 then count - 1 else count
    (.ok ⟨.ofTyped [⟨"x", .long, true⟩], [⟨.long, Array.replicate rows none⟩], rows, count⟩,
      readings + 1)

/-- A scan of these rows, before the first of them. -/
def threeRows : Scan where
  schema := .ofTyped [⟨"x", .long, true⟩]
  columns := none
  batchSize := 3
  plan := ⟨[⟨0, 0, 3, 2⟩], [⟨0, 0, 0, 3⟩], 3, 2⟩
  cursor := ⟨.notStarted, some 0, some 0, 0, 0, 0⟩
  metrics := ⟨false, 1, 1, 2, 2, 3, 0, 0⟩

/-- A batch made for that scan, with room for all rows. -/
def threeEmpty : Batch := ⟨threeRows.schema, [Column.empty .long], 0, 3⟩

/-- The first call reads the first row group and fails at the second one; the call after it delivers
all three rows. -/
theorem refill_atomic_shortOnce :
    threeRows.createBatch 3 = .ok threeEmpty ∧
      ∃ after, (refill shortOnce).run (0, threeRows, threeEmpty) =
          (.error (.access (.shortRead 0 1 0 1)), after) ∧
        after.2 = (threeRows, threeEmpty) ∧
        (refill shortOnce).run after = (refill shortOnce).run (2, threeRows, threeEmpty) ∧
        ((refill shortOnce).run after).1 = .ok true := by
  obtain ⟨-, -, hsame, hrepeat⟩ := refill_atomic shortOnce threeRows threeEmpty 0
  have hfails : (refill shortOnce).run (0, threeRows, threeEmpty) =
      (.error (.access (.shortRead 0 1 0 1)), 2, threeRows, threeEmpty) := rfl
  have hagain := hrepeat _ (.single ⟨shortOnce, _, hfails⟩) shortOnce
  refine ⟨rfl, _, hfails, hsame _ _ hfails, hagain, ?_⟩
  rw [hagain]
  rfl

end Scan

end StripeScan
