import StripeScan.Proofs.Scan.Survey

/-! # Statistics that planning does not consult

`Access.Agrees` relates computations on two media: from media that are related they give the same
result and leave media that are related.  Two sources are interchangeable for planning
(`Source.AnswersAlike`) if they agree on what planning consults: the statistics of columns that the
search argument refers to, on levels that are switched on, of partitions that lie in no skipped one.
On such sources planning comes to the same end with the same metrics, whatever the rest of their
statistics is like (`Plan.build_noninterference`). -/

namespace StripeScan

variable {σ τ α β μ : Type}

namespace Access

/-- Whether a computation gives a result in some state of the medium. -/
def May (x : Access σ α) (a : α) : Prop := ∃ s s', run x s = (.ok a, s')

/-- From media that are related, both computations give the same result and leave media that are
related. -/
def Agrees (R : σ → τ → Prop) (x : Access σ α) (y : Access τ α) : Prop :=
  ∀ s t, R s t → (run x s).1 = (run y t).1 ∧ R (run x s).2 (run y t).2

/-- Related media, with the same beside them. -/
def Beside (R : σ → τ → Prop) (p : σ × μ) (q : τ × μ) : Prop := R p.1 q.1 ∧ p.2 = q.2

theorem May.onFirst {x : Access σ α} {a : α} (h : May (x.onFirst : Access (σ × μ) α) a) :
    May x a := by
  obtain ⟨⟨s, m⟩, ⟨s', m'⟩, h⟩ := h
  have hrun : ((run x s).1, (run x s).2, m) = (.ok a, s', m') := h
  cases hx : run x s with
  | mk result medium =>
      rw [hx] at hrun
      cases hrun
      exact ⟨s, medium, hx⟩

namespace Agrees

variable {R : σ → τ → Prop}

theorem pure (a : α) : Agrees R (Pure.pure a) (Pure.pure a) := fun _ _ h => ⟨rfl, h⟩

theorem ofExcept (x : Except ScanError α) : Agrees R (.ofExcept x) (.ofExcept x) := by
  intro s t h
  rw [run_ofExcept, run_ofExcept]
  exact ⟨rfl, h⟩

/-- The second steps need to agree only after results that the first one may give. -/
theorem bind {x : Access σ α} {y : Access τ α} {f : α → Access σ β} {g : α → Access τ β}
    (first : Agrees R x y) (next : ∀ a, May x a → Agrees R (f a) (g a)) :
    Agrees R (x >>= f) (y >>= g) := by
  intro s t h
  have hfirst := first s t h
  rw [run_bind, run_bind]
  cases hx : run x s with
  | mk result s' =>
      cases hy : run y t with
      | mk result' t' =>
          rw [hx, hy] at hfirst
          obtain ⟨rfl, h'⟩ := hfirst
          cases result with
          | error e => exact ⟨rfl, h'⟩
          | ok a => exact next a ⟨s, s', hx⟩ s' t' h'

theorem map {x : Access σ α} {y : Access τ α} (f : α → β) (h : Agrees R x y) :
    Agrees R (f <$> x) (f <$> y) := by
  rw [← bind_pure_comp, ← bind_pure_comp]
  exact bind h fun a _ => pure (f a)

theorem mapM {ι : Type} {f : ι → Access σ β} {g : ι → Access τ β} {xs : List ι}
    (h : ∀ x ∈ xs, Agrees R (f x) (g x)) : Agrees R (xs.mapM f) (xs.mapM g) := by
  induction xs with
  | nil => exact pure []
  | cons x xs ih =>
      rw [List.mapM_cons, List.mapM_cons]
      refine bind (h x List.mem_cons_self) fun y _ => ?_
      refine bind (ih fun z hz => h z (List.mem_cons_of_mem x hz)) fun ys _ => ?_
      exact pure (y :: ys)

theorem onFirst {x : Access σ α} {y : Access τ α} (h : Agrees R x y) :
    Agrees (Beside R) (x.onFirst : Access (σ × μ) α) y.onFirst := by
  intro s t hst
  obtain ⟨hresult, hmedium⟩ := h s.1 t.1 hst.1
  exact ⟨hresult, hmedium, hst.2⟩

theorem modifySecond (f : μ → μ) :
    Agrees (Beside R) (Access.modifySecond f : Access (σ × μ) Unit) (Access.modifySecond f) :=
  fun _ _ h => ⟨rfl, h.1, congrArg f h.2⟩

end Agrees

end Access

open Access

variable {R : σ → τ → Prop} {argument : Option BoundSearchArgument} {pruning : Pruning}

/-! ### Evaluating -/

namespace BoundSearchArgument

theorem statisticsOf_agrees {fetch : ℕ → Access σ (Option Statistics)}
    {fetch' : ℕ → Access τ (Option Statistics)} {column : ℕ}
    (h : Agrees R (fetch column) (fetch' column)) (known : Known) :
    Agrees R (statisticsOf fetch known column) (statisticsOf fetch' known column) := by
  unfold statisticsOf
  split
  · exact .pure _
  · exact .bind h fun s _ => .pure (s, (column, s) :: known)

theorem truths_agrees {fetch : ℕ → Access σ (Option Statistics)}
    {fetch' : ℕ → Access τ (Option Statistics)} {ps : List BoundPredicate}
    (h : ∀ p ∈ ps, Agrees R (fetch p.column) (fetch' p.column)) (known : Known) :
    Agrees R (truths fetch known ps) (truths fetch' known ps) := by
  -- On the predicates, for anything known: both runs know the same after every step.
  induction ps generalizing known with
  | nil => exact .pure []
  | cons p ps ih =>
      refine .bind (statisticsOf_agrees (h p List.mem_cons_self) known) fun (s, known') _ => ?_
      refine .bind (.ofExcept _) fun t _ => ?_
      refine .bind (ih (fun q hq => h q (List.mem_cons_of_mem p hq)) known') fun ts _ => ?_
      exact .pure (t :: ts)

theorem evaluate_agrees {b : BoundSearchArgument} {fetch : ℕ → Access σ (Option Statistics)}
    {fetch' : ℕ → Access τ (Option Statistics)}
    (h : ∀ column ∈ b.columns, Agrees R (fetch column) (fetch' column)) :
    Agrees R (b.evaluate fetch) (b.evaluate fetch') :=
  .bind (truths_agrees (fun _ hp => h _ (List.mem_map_of_mem hp)) []) fun ts _ =>
    .pure (b.argument.truth ts)

end BoundSearchArgument

/-! ### What planning consults -/

namespace Source

section consulted

variable (source : Source σ) (argument : Option BoundSearchArgument) (pruning : Pruning)

/-- Whether a file may be kept: its statistics may say so, or they are not consulted. -/
def MayKeepFile : Prop :=
  May (Plan.keeps (Plan.consulted argument pruning.file) source.fileStatistics) true

/-- Whether planning may come to a stripe, which has so many rows: they are not none, and the file
may be kept. -/
def MayComeTo (stripe rows : ℕ) : Prop :=
  stripe < source.stripeCount ∧ rows ≠ 0 ∧ May (source.stripeRows stripe) rows ∧
    source.MayKeepFile argument pruning

/-- Whether planning may come to the row groups of a stripe: it may come to the stripe, and may keep
it; the level of row groups is switched on, and there is a row index. -/
def MayComeInto (stripe rows : ℕ) : Prop :=
  source.MayComeTo argument pruning stripe rows ∧
    May (Plan.keeps (Plan.consulted argument pruning.stripe)
      (source.stripeStatistics stripe)) true ∧
    pruning.rowGroup = true ∧ source.stride ≠ 0

end consulted

/-- Two sources with the same layout that agree, for the columns of a search argument, on the
statistics of the file if that level is switched on, on those of the stripes that planning may come
to if theirs is, and on the number and the statistics of the indexed row groups that it may come
to. -/
structure AnswersAlike (R : σ → τ → Prop) (argument : Option BoundSearchArgument)
    (pruning : Pruning) (a : Source σ) (b : Source τ) : Prop where
  stride : a.stride = b.stride
  stripeCount : a.stripeCount = b.stripeCount
  stripeRows : ∀ i < a.stripeCount, Agrees R (a.stripeRows i) (b.stripeRows i)
  file : pruning.file = true → ∀ s ∈ argument, ∀ column ∈ s.columns,
    Agrees R (a.fileStatistics column) (b.fileStatistics column)
  stripes : pruning.stripe = true → ∀ i rows, a.MayComeTo argument pruning i rows →
    ∀ s ∈ argument, ∀ column ∈ s.columns,
      Agrees R (a.stripeStatistics i column) (b.stripeStatistics i column)
  groupCount : ∀ i rows, a.MayComeInto argument pruning i rows →
    Agrees R (a.groupCount i) (b.groupCount i)
  groups : ∀ i rows, a.MayComeInto argument pruning i rows →
    ∀ indexed, May (a.groupCount i) indexed →
      ∀ group < min indexed (Stripe.groupCount a.stride rows),
        ∀ s ∈ argument, ∀ column ∈ s.columns,
          Agrees R (a.groupStatistics i group column) (b.groupStatistics i group column)

end Source

/-! ### Planning -/

namespace Plan

theorem keeps_agrees {level : Bool} {fetch : ℕ → Access σ (Option Statistics)}
    {fetch' : ℕ → Access τ (Option Statistics)}
    (h : level = true → ∀ s ∈ argument, ∀ column ∈ s.columns,
      Agrees R (fetch column) (fetch' column)) :
    Agrees R (keeps (consulted argument level) fetch)
      (keeps (consulted argument level) fetch') := by
  cases hs : consulted argument level with
  | none => exact .pure true
  | some s =>
      obtain ⟨hmem, hlevel⟩ := Option.filter_eq_some_iff.mp hs
      exact .map Truth.isNeeded (s.evaluate_agrees (h hlevel s hmem))

section sources

variable {a : Source σ} {b : Source τ}

theorem keptGroups_agrees (alike : a.AnswersAlike R argument pruning b) {stripe : Stripe}
    (cut : stripe.Cut a.stride) (come : a.MayComeTo argument pruning stripe.index stripe.rows)
    (kept : May (keeps (consulted argument pruning.stripe)
      (a.stripeStatistics stripe.index)) true) :
    Agrees R (keptGroups a (consulted argument pruning.rowGroup) stripe a.stride)
      (keptGroups b (consulted argument pruning.rowGroup) stripe a.stride) := by
  cases hs : consulted argument pruning.rowGroup with
  | none => exact .pure _
  | some s =>
      obtain ⟨hmem, hlevel⟩ := Option.filter_eq_some_iff.mp hs
      unfold keptGroups
      simp only
      split
      · exact .pure _
      · rename_i hstride
        have into : a.MayComeInto argument pruning stripe.index stripe.rows :=
          ⟨come, kept, hlevel, hstride⟩
        refine .bind (alike.groupCount _ _ into) fun indexed hindexed => ?_
        refine .bind (.mapM fun group hgroup => ?_) fun truths _ => .pure _
        rw [List.mem_range, cut] at hgroup
        exact .map Truth.isNeeded
          (s.evaluate_agrees (alike.groups _ _ into indexed hindexed group hgroup s hmem))

theorem planStripe_agrees (alike : a.AnswersAlike R argument pruning b) {stripe : Stripe}
    (cut : stripe.Cut a.stride)
    (come : stripe.rows ≠ 0 → a.MayComeTo argument pruning stripe.index stripe.rows) :
    Agrees (Beside R) (planStripe a argument pruning a.stride stripe)
      (planStripe b argument pruning a.stride stripe) := by
  unfold planStripe
  split
  · exact .pure []
  · rename_i hrows
    refine .bind (.modifySecond _) fun _ _ => ?_
    have hkeeps := keeps_agrees fun hlevel => alike.stripes hlevel _ _ (come hrows)
    refine .bind hkeeps.onFirst fun kept hkept => ?_
    cases kept with
    | false => exact .pure []
    | true =>
        refine .bind (.modifySecond _) fun _ _ => ?_
        have hgroups := keptGroups_agrees alike cut (come hrows) hkept.onFirst
        refine .bind hgroups.onFirst fun groups _ => ?_
        exact .bind (.modifySecond _) fun _ _ => .pure _

theorem layout_agrees (alike : a.AnswersAlike R argument pruning b) :
    Agrees R (layout a) (layout b) := by
  unfold layout
  rw [← alike.stride, ← alike.stripeCount]
  refine .bind (.mapM fun i hi => alike.stripeRows i (List.mem_range.mp hi)) fun rows _ => ?_
  exact .pure _

/-- The stripes of a layout have the rows that the source may say. -/
theorem stripe_of_layout {plan : Plan} (h : May (layout a) plan) :
    plan.stride = a.stride ∧ ∀ s ∈ plan.stripes, s.Cut a.stride ∧ s.index < a.stripeCount ∧
      May (a.stripeRows s.index) s.rows := by
  obtain ⟨u, u', h⟩ := h
  obtain ⟨rows, v, hrows, h⟩ := Access.run_bind_eq_ok_iff.mp h
  obtain ⟨rfl, rfl⟩ := Access.run_pure_eq_ok_iff.mp h
  refine ⟨rfl, fun s hs => ⟨Stripe.layout_cut s hs, ?_⟩⟩
  have hall := Access.run_mapM_forall₂ (R := fun i n => May (a.stripeRows i) n) hrows
    fun i n w w' h => ⟨w, w', h⟩
  have hlength := hall.length_eq
  rw [List.length_range] at hlength
  obtain ⟨i, hi⟩ := List.mem_iff_getElem?.mp hs
  rw [Stripe.layout_getElem?, Option.map_eq_some_iff] at hi
  obtain ⟨n, hn, rfl⟩ := hi
  obtain ⟨hlt, rfl⟩ := List.getElem?_eq_some_iff.mp hn
  have hrow := hall.get (by rwa [List.length_range, hlength]) hlt
  rw [List.get_eq_getElem, List.getElem_range] at hrow
  simp only [Nat.zero_add]
  exact ⟨by omega, hrow⟩

theorem build_agrees (alike : a.AnswersAlike R argument pruning b) :
    Agrees (Beside R) (build a argument pruning) (build b argument pruning) := by
  refine .bind (layout_agrees alike).onFirst fun plan hplan => ?_
  obtain ⟨hstride, hstripes⟩ := stripe_of_layout hplan.onFirst
  refine .bind (keeps_agrees alike.file).onFirst fun kept hkept => ?_
  cases kept with
  | false => exact .bind (.modifySecond _) fun _ _ => .pure plan
  | true =>
      refine .bind (.mapM fun stripe hstripe => ?_) fun ranges _ => ?_
      · obtain ⟨cut, hindex, hrows⟩ := hstripes stripe hstripe
        rw [hstride]
        exact planStripe_agrees alike cut fun hne => ⟨hindex, hne, hrows, hkept.onFirst⟩
      · exact .bind (.modifySecond _) fun _ _ => .pure _

end sources

/-- Statistics that are not to be consulted do not interfere.  Take two sources with the same layout
that give the same answers, be they statistics, none or errors, for the columns of the search
argument: about the file if its level is switched on, about each stripe with rows if the file is
kept and their level is switched on, and about each indexed row group of a stripe that is kept if
the level of row groups is switched on and there is a row index.  Planning then ends with the same
plan or the same error on both, and with the same metrics, whatever other columns, other levels and
partitions in skipped ones answer. -/
theorem build_noninterference {a : Source σ} {b : Source τ}
    (alike : a.AnswersAlike R argument pruning b) {s : σ} {t : τ} (related : R s t)
    (metrics : Metrics) :
    ((build a argument pruning).run (s, metrics)).1 =
        ((build b argument pruning).run (t, metrics)).1 ∧
      ((build a argument pruning).run (s, metrics)).2.2 =
        ((build b argument pruning).run (t, metrics)).2.2 ∧
      R ((build a argument pruning).run (s, metrics)).2.1
        ((build b argument pruning).run (t, metrics)).2.1 := by
  obtain ⟨hresult, hmedium, hmetrics⟩ := build_agrees alike (s, metrics) (t, metrics) ⟨related, rfl⟩
  exact ⟨hresult, hmetrics, hmedium⟩

/-- Two stripes of two rows, in row groups of one row.  By its statistics the first stripe holds
fives, and so is skipped by a search for less than one.  Of each stripe, the first row group is
indexed. -/
def fivesThenMore : Source Unit where
  schema := .ofTyped [⟨"x", .long, true⟩, ⟨"y", .long, true⟩]
  stride := 1
  stripeCount := 2
  stripeRows _ := pure 2
  fileStatistics _ := pure none
  stripeStatistics stripe _ :=
    pure (some (.ofRange (.long (if stripe = 0 then 5 else 0)) (.long 5) 2))
  groupCount _ := pure 1
  groupStatistics _ _ _ := pure (some (.ofRange (.long 5) (.long 5) 1))
  rows _ _ _ _ := .fail (.access .readFailure)

theorem kinds_lessThan_one : ∀ v ∈ (Test.lessThan (.long 1)).literals, v.kind = .long := by
  simp [Test.literals, Literal.kind]

/-- The search for values of the first column below one. -/
def firstBelowOne : BoundSearchArgument :=
  ⟨[⟨⟨.ordinal 0, .long, .lessThan (.long 1), kinds_lessThan_one⟩, 0⟩], .atom 0⟩

/-- Refuses all statistics but those of the first column about the stripes and about the indexed row
group of the second one. -/
def refuseOthers : Request → Option String
  | .stripeRows _ => none
  | .stripeStatistics _ 0 => none
  | .groupCount 1 => none
  | .groupStatistics 1 0 0 => none
  | _ => some "unreadable"

/-- With the level of the file switched off, none of the refusals shows. -/
theorem build_noninterference_fivesThenMore :
    ((build fivesThenMore (some firstBelowOne) ⟨false, true, true⟩).run ((), .zero)).1 =
        ((build (fivesThenMore.failing refuseOthers) (some firstBelowOne) ⟨false, true, true⟩).run
          ((), .zero)).1 ∧
      ((build (fivesThenMore.failing refuseOthers) (some firstBelowOne) ⟨false, true, true⟩).run
        ((), .zero)).1.map Plan.ranges = .ok [⟨1, 1, 3, 4⟩] := by
  have column {s : BoundSearchArgument} (hs : s ∈ some firstBelowOne) {c : ℕ}
      (hc : c ∈ s.columns) : c = 0 := by
    cases hs
    exact List.mem_singleton.mp hc
  -- The first stripe is skipped in every state, so planning comes into the second one only.
  have into {i rows : ℕ}
      (h : fivesThenMore.MayComeInto (some firstBelowOne) ⟨false, true, true⟩ i rows) : i = 1 := by
    obtain ⟨⟨hlt, -⟩, ⟨u, u', hkept⟩, -⟩ := h
    rcases Nat.lt_succ_iff_lt_or_eq.mp hlt with hzero | hone
    · rw [Nat.lt_one_iff.mp hzero] at hkept
      cases hkept
    · exact hone
  have alike : fivesThenMore.AnswersAlike (fun _ _ => True) (some firstBelowOne)
      ⟨false, true, true⟩ (fivesThenMore.failing refuseOthers) := by
    refine ⟨rfl, rfl, fun i hi u v _ => ⟨rfl, trivial⟩, fun hoff => (nomatch hoff), ?_, ?_, ?_⟩
    · intro _ i rows _ s hs c hc u v _
      rw [column hs hc]
      exact ⟨rfl, trivial⟩
    · intro i rows hinto u v _
      rw [into hinto]
      exact ⟨rfl, trivial⟩
    · intro i rows hinto indexed ⟨w, w', hindexed⟩ group hgroup s hs c hc u v _
      cases hindexed
      rw [into hinto, column hs hc, Nat.lt_one_iff.mp (lt_min_iff.mp hgroup).1]
      exact ⟨rfl, trivial⟩
  obtain ⟨hplan, -⟩ := build_noninterference alike (s := ()) (t := ()) trivial .zero
  refine ⟨hplan, ?_⟩
  rw [← hplan]
  rfl

end Plan

end StripeScan
