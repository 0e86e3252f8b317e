import StripeScan.Proofs.Scan.Machine
import StripeScan.Proofs.SearchArgument.Addressing

/-! # Scans by name or by place

Planning sees of a search argument only how it evaluates (`Plan.build_congr`), and a scan sees of
the argument only the plan (`Scan.start_congr`).  So scans are the same whether their search
arguments refer to columns by name or by place: in what they request from the source and in which
order, in their plans and metrics, and in every step (`SearchArgument.ofCalls_readdressed`). -/

namespace StripeScan

variable {σ : Type}

/-! ### Arguments that evaluate alike -/

section congruence

variable {b b' : BoundSearchArgument}
variable (same : ∀ fetch : ℕ → Access σ (Option Statistics), b.evaluate fetch = b'.evaluate fetch)

include same

namespace Plan

theorem keeps_congr (level : Bool) (fetch : ℕ → Access σ (Option Statistics)) :
    keeps (consulted (some b) level) fetch = keeps (consulted (some b') level) fetch := by
  cases level with
  | false => rfl
  | true => exact congrArg (Truth.isNeeded <$> ·) (same fetch)

theorem keptGroups_congr (source : Source σ) (level : Bool) (stripe : Stripe) (stride : ℕ) :
    keptGroups source (consulted (some b) level) stripe stride =
      keptGroups source (consulted (some b') level) stripe stride := by
  have hneeded (fetch : ℕ → Access σ (Option Statistics)) : b.isNeeded fetch = b'.isNeeded fetch :=
    keeps_congr same true fetch
  cases level with
  | false => rfl
  | true => simp only [consulted, Option.filter_some, if_true, keptGroups, hneeded]

theorem planStripe_congr (source : Source σ) (pruning : Pruning) (stride : ℕ) :
    planStripe source (some b) pruning stride = planStripe source (some b') pruning stride := by
  funext stripe
  simp only [planStripe, keeps_congr same, keptGroups_congr same]

/-- Planning sees of an argument only how it evaluates. -/
theorem build_congr (source : Source σ) (pruning : Pruning) :
    build source (some b) pruning = build source (some b') pruning := by
  simp only [build, keeps_congr same, planStripe_congr same]

end Plan

/-- A scan sees of an argument only how it evaluates. -/
theorem Scan.start_congr {source : Source σ} {a a' : SearchArgument}
    (hb : a.bind source.schema = .ok b) (hb' : a'.bind source.schema = .ok b')
    (options : ScanOptions) :
    start source { options with argument := some a } =
      start source { options with argument := some a' } := by
  have hbind : bindArgument source.schema (some a) = .ok (some b) := by
    rw [bindArgument, hb]
    rfl
  have hbind' : bindArgument source.schema (some a') = .ok (some b') := by
    rw [bindArgument, hb']
    rfl
  have hplanned : start.planned source (some b) options.pruning =
      start.planned source (some b') options.pruning := by
    unfold start.planned
    rw [Plan.build_congr same]
  simp only [start, hbind, hbind', Access.ofExcept, pure_bind, hplanned]

end congruence

/-! ### Sessions -/

namespace Scan

/-- What the steps among calls leave, one after the other. -/
def outcomes (source : Source σ) : Scan → σ → List ScanCall → List (Outcome σ Bool)
  | _, _, [] => []
  | scan, medium, .produce batch :: rest =>
    let o := produceBatch source scan batch medium
    o :: outcomes source o.scan o.medium rest
  | scan, medium, .seek row :: rest => outcomes source (scan.seekTo row).2 medium rest

/-- Starts a scan and makes calls on it: the scan at its start, and what its steps leave. -/
def session (source : Source σ) (options : ScanOptions) (calls : List ScanCall) :
    Access σ (Scan × List (Outcome σ Bool)) := do
  let scan ← start source options
  fun medium => (.ok (scan, outcomes source scan medium calls), medium)

end Scan

namespace SearchArgument

/-- Referring to columns by name or by place is the same.  If some of the names in calls are
replaced by the places that they stand for, building fails for both or for neither.  If it succeeds,
binding fails for both, with errors that are the same up to references, or for neither.  If that
succeeds too, the truth over every partition is the same, and so is what is asked of the medium of
the statistics, in that order.  For every source with the schema, the plan and its metrics are then
the same, and so are the scan and all that its steps leave. -/
theorem ofCalls_readdressed {schema : Schema} {calls calls' : List Call}
    (h : List.Forall₂ (Call.UpTo (ColumnRef.Readdressed schema)) calls calls') :
    (∃ e e', ofCalls calls = .error e ∧ ofCalls calls' = .error e') ∨
      ∃ a a', ofCalls calls = .ok a ∧ ofCalls calls' = .ok a' ∧
        ((∃ e e', a.bind schema = .error e ∧ a'.bind schema = .error e' ∧
            e.UpTo (ColumnRef.Readdressed schema) e') ∨
          ∃ b b', a.bind schema = .ok b ∧ a'.bind schema = .ok b' ∧
            (∀ (σ : Type) (fetch : ℕ → Access σ (Option Statistics)),
              b.evaluate fetch = b'.evaluate fetch) ∧
            ∀ (σ : Type) (source : Source σ), source.schema = schema →
              (∀ pruning, Plan.build source (some b) pruning =
                Plan.build source (some b') pruning) ∧
              ∀ (options : ScanOptions) (scanCalls : List ScanCall),
                Scan.session source { options with argument := some a } scanCalls =
                  Scan.session source { options with argument := some a' } scanCalls) := by
  rcases ofCalls_upTo h with hfails | ⟨a, a', ha, ha', hfails | ⟨b, b', hb, hb', same⟩⟩
  · exact .inl hfails
  · exact .inr ⟨a, a', ha, ha', .inl hfails⟩
  · refine .inr ⟨a, a', ha, ha', .inr ⟨b, b', hb, hb', same, ?_⟩⟩
    rintro σ source rfl
    refine ⟨Plan.build_congr (same σ) source, fun options scanCalls => ?_⟩
    rw [Scan.session, Scan.start_congr (same σ) hb hb', Scan.session]

/-- A stripe of two row groups of one row each.  Both columns have the same name; the first holds
three and then five, the second three twice. -/
def threeThenFive : Source Unit where
  schema := .ofTyped [⟨"x", .long, false⟩, ⟨"x", .long, false⟩]
  stride := 1
  stripeCount := 1
  stripeRows _ := pure 2
  fileStatistics _ := pure none
  stripeStatistics _ _ := pure none
  groupCount _ := pure 2
  groupStatistics _ group column :=
    let value := .long (if column = 0 ∧ group = 1 then 5 else 3)
    pure (some (.ofRange value value 1))
  rows _ group _ count := pure
    { schema := .ofTyped [⟨"x", .long, false⟩, ⟨"x", .long, false⟩]
      columns := [⟨.long, Array.replicate count (some (if group = 0 then 3 else 5))⟩,
        ⟨.long, Array.replicate count (some 3)⟩]
      rows := count
      capacity := count }

/-- The calls that spell that one column is five or another one is. -/
def fiveOrFive (column column' : ColumnRef) : List Call :=
  [.start .or, .test column .equals .long [.long 5], .test column' .equals .long [.long 5], .finish]

/-- By its name and by its place, the first column is tested by two predicates; by its place only,
it is tested by one that is shared.  The scans are the same, and both ask for its statistics once
per partition. -/
theorem ofCalls_readdressed_threeThenFive :
    List.Forall₂ (Call.UpTo (ColumnRef.Readdressed threeThenFive.schema))
        (fiveOrFive (.name "x") (.ordinal 0)) (fiveOrFive (.ordinal 0) (.ordinal 0)) ∧
      ∃ a a', ofCalls (fiveOrFive (.name "x") (.ordinal 0)) = .ok a ∧
        ofCalls (fiveOrFive (.ordinal 0) (.ordinal 0)) = .ok a' ∧
        a.predicates.map Predicate.column = [.name "x", .ordinal 0] ∧
        a'.predicates.map Predicate.column = [.ordinal 0] ∧
        (∀ calls, Scan.session threeThenFive.recording ⟨some a, 10, none, .full⟩ calls =
          Scan.session threeThenFive.recording ⟨some a', 10, none, .full⟩ calls) ∧
        ((Scan.session threeThenFive.recording ⟨some a, 10, none, .full⟩ []).run ((), [])).2.2 =
          [.stripeRows 0, .fileStatistics 0, .stripeStatistics 0 0, .groupCount 0,
            .groupStatistics 0 0 0, .groupStatistics 0 1 0] := by
  have hcalls : List.Forall₂ (Call.UpTo (ColumnRef.Readdressed threeThenFive.schema))
      (fiveOrFive (.name "x") (.ordinal 0)) (fiveOrFive (.ordinal 0) (.ordinal 0)) := by
    refine .cons (.start .or) (.cons (.test ?_ _ _ _) (.cons (.test ?_ _ _ _) (.cons .finish .nil)))
    · exact .place (show threeThenFive.schema.resolve _ = some (0, .long) from rfl)
    · exact .same _
  refine ⟨hcalls, ?_⟩
  rcases ofCalls_readdressed hcalls with
    ⟨e, e', he, -⟩ | ⟨a, a', ha, ha', ⟨e, e', he, -⟩ | ⟨b, b', hb, hb', -, hscan⟩⟩
  · cases he
  · cases ha
    cases he
  · have hsession := (hscan _ threeThenFive.recording rfl).2 ⟨none, 10, none, .full⟩
    refine ⟨a, a', ha, ha', ?_, ?_, hsession, ?_⟩
    · cases ha
      rfl
    · cases ha'
      rfl
    · cases ha
      rfl

end SearchArgument

end StripeScan
