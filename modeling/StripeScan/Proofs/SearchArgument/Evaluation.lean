import StripeScan.Proofs.Statistics.Covering
import StripeScan.SearchArgument.Evaluation

/-! # Evaluation over a partition

An evaluation that succeeds has compared every predicate with statistics that were fetched for its
column, whatever the medium did meanwhile and however often a column was asked for
(`truths_eq_ok`).  So if everything that is fetched admits a row, the truth allows the verdict on
that row (`evaluate_allows`), and a partition with a matching row is needed. -/

namespace StripeScan

variable {σ : Type}

theorem Predicate.run_check {p : Predicate} {x : Option Statistics} {t : Truth} {s s' : σ}
    (h : (p.check x).run s = (.ok t, s')) : p.truthOptional x = .ok t ∧ s = s' := by
  rw [check, Access.run_ofExcept, Prod.mk.injEq, mapError_eq_ok_iff] at h
  exact h

theorem Predicate.truthOptional_allows {p : Predicate} {x : Option Statistics}
    {v : Option Literal} {t : Truth} (h : p.truthOptional x = .ok t)
    (admits : ∀ st ∈ x, st.Admits v) : t.Allows (p.answer v) := by
  cases x with
  | none =>
      cases h
      exact Truth.allows_yesNoNull _
  | some st => exact truth_allows h (admits st rfl)

namespace BoundSearchArgument

section fetching

variable {fetch : ℕ → Access σ (Option Statistics)} {P : ℕ → Option Statistics → Prop}

theorem run_statisticsOf {known known' : Known} {c : ℕ} {x : Option Statistics} {s s' : σ}
    (fetched : ∀ x s s', (fetch c).run s = (.ok x, s') → P c x)
    (hknown : ∀ c x, (c, x) ∈ known → P c x)
    (h : (statisticsOf fetch known c).run s = (.ok (x, known'), s')) :
    P c x ∧ ∀ c x, (c, x) ∈ known' → P c x := by
  unfold statisticsOf at h
  split at h
  · rename_i y hlookup
    obtain ⟨h, rfl⟩ := Access.run_pure_eq_ok_iff.mp h
    cases h
    obtain ⟨l₁, l₂, rfl, -⟩ := List.lookup_eq_some_iff.mp hlookup
    exact ⟨hknown c x (by simp), hknown⟩
  · obtain ⟨y, t, hfetch, h⟩ := Access.run_bind_eq_ok_iff.mp h
    obtain ⟨h, rfl⟩ := Access.run_pure_eq_ok_iff.mp h
    cases h
    have hx := fetched x s _ hfetch
    refine ⟨hx, fun c' x' hmem => ?_⟩
    rcases List.mem_cons.mp hmem with heq | hmem
    · cases heq
      exact hx
    · exact hknown c' x' hmem

/-- What is known of a column was fetched for it, and stays known; every predicate is compared
with what is known of its column. -/
theorem truths_eq_ok {ps : List BoundPredicate} {known : Known} {ts : List Truth} {s s' : σ}
    (fetched : ∀ p ∈ ps, ∀ x s s', (fetch p.column).run s = (.ok x, s') → P p.column x)
    (hknown : ∀ c x, (c, x) ∈ known → P c x)
    (h : (truths fetch known ps).run s = (.ok ts, s')) :
    List.Forall₂ (fun p t => ∃ x, P p.column x ∧ p.predicate.truthOptional x = .ok t) ps ts := by
  -- On the predicates, for anything known: what each step adds to it was fetched.
  induction ps generalizing known ts s s' with
  | nil =>
      obtain ⟨rfl, -⟩ := Access.run_pure_eq_ok_iff.mp h
      exact .nil
  | cons p ps ih =>
      obtain ⟨⟨x, known'⟩, s₁, hx, h⟩ := Access.run_bind_eq_ok_iff.mp h
      obtain ⟨t, s₂, ht, h⟩ := Access.run_bind_eq_ok_iff.mp h
      obtain ⟨rest, s₃, hrest, h⟩ := Access.run_bind_eq_ok_iff.mp h
      obtain ⟨rfl, -⟩ := Access.run_pure_eq_ok_iff.mp h
      obtain ⟨hP, hknown'⟩ := run_statisticsOf (fetched p List.mem_cons_self) hknown hx
      refine .cons ⟨x, hP, (Predicate.run_check ht).1⟩ (ih (fun q hq => ?_) hknown' hrest)
      exact fetched q (List.mem_cons_of_mem p hq)

theorem evaluate_eq_ok {b : BoundSearchArgument} {t : Truth} {s s' : σ}
    (fetched : ∀ p ∈ b.predicates, ∀ x s s', (fetch p.column).run s = (.ok x, s') → P p.column x)
    (h : (b.evaluate fetch).run s = (.ok t, s')) :
    ∃ ts, t = b.argument.truth ts ∧
      List.Forall₂ (fun p t => ∃ x, P p.column x ∧ p.predicate.truthOptional x = .ok t)
        b.predicates ts := by
  obtain ⟨ts, s₁, hts, h⟩ := Access.run_bind_eq_ok_iff.mp h
  obtain ⟨rfl, -⟩ := Access.run_pure_eq_ok_iff.mp h
  exact ⟨ts, rfl, truths_eq_ok fetched (fun _ _ h => absurd h List.not_mem_nil) hts⟩

/-- Evaluating never fails where no request does and each predicate can be evaluated over what may
be fetched for its column. -/
theorem truths_succeeds {ps : List BoundPredicate} {known : Known}
    (succeeds : ∀ p ∈ ps, (fetch p.column).Succeeds)
    (fetched : ∀ p ∈ ps, ∀ x s s', (fetch p.column).run s = (.ok x, s') → P p.column x)
    (total : ∀ p ∈ ps, ∀ x, P p.column x → ∃ t, p.predicate.truthOptional x = .ok t)
    (hknown : ∀ c x, (c, x) ∈ known → P c x) : (truths fetch known ps).Succeeds := by
  induction ps generalizing known with
  | nil => exact .pure _
  | cons p ps ih =>
      have hfetch : (statisticsOf fetch known p.column).Succeeds := by
        unfold statisticsOf
        split
        · exact .pure _
        · exact .bind (succeeds p List.mem_cons_self) fun _ _ _ _ => .pure _
      refine .bind hfetch fun ⟨x, known'⟩ s s' hx => ?_
      obtain ⟨hP, hknown'⟩ := run_statisticsOf (fetched p List.mem_cons_self) hknown hx
      obtain ⟨t, ht⟩ := total p List.mem_cons_self x hP
      refine .bind (.ofExcept (mapError_eq_ok_iff.mpr ht)) fun t _ _ _ => ?_
      have hrest : (truths fetch known' ps).Succeeds := by
        refine ih (fun q hq => ?_) (fun q hq => ?_) (fun q hq => ?_) hknown'
        · exact succeeds q (List.mem_cons_of_mem p hq)
        · exact fetched q (List.mem_cons_of_mem p hq)
        · exact total q (List.mem_cons_of_mem p hq)
      exact .bind hrest fun _ _ _ _ => .pure _

theorem evaluate_succeeds {b : BoundSearchArgument}
    (succeeds : ∀ p ∈ b.predicates, (fetch p.column).Succeeds)
    (fetched : ∀ p ∈ b.predicates, ∀ x s s', (fetch p.column).run s = (.ok x, s') → P p.column x)
    (total : ∀ p ∈ b.predicates, ∀ x, P p.column x → ∃ t, p.predicate.truthOptional x = .ok t) :
    (b.evaluate fetch).Succeeds :=
  .bind (truths_succeeds succeeds fetched total fun _ _ h => absurd h List.not_mem_nil)
    fun _ _ _ _ => .pure _

end fetching

section available

variable {stats : ℕ → Option Statistics}

/-- With statistics at hand, remembering them makes no difference. -/
theorem truths_pure {ps : List BoundPredicate} {known : Known}
    (hknown : ∀ c x, (c, x) ∈ known → x = stats c) :
    truths (fun c => (pure (stats c) : Access σ _)) known ps =
      ps.mapM fun p => p.predicate.check (stats p.column) := by
  induction ps generalizing known with
  | nil => rfl
  | cons p ps ih =>
      rw [truths, List.mapM_cons, statisticsOf]
      split
      · rename_i x hlookup
        have hx : x = stats p.column := by
          obtain ⟨l₁, l₂, rfl, -⟩ := List.lookup_eq_some_iff.mp hlookup
          exact hknown _ _ (by simp)
        simp only [pure_bind, ih hknown, hx]
      · have hknown' : ∀ c x, (c, x) ∈ (p.column, stats p.column) :: known → x = stats c := by
          intro c x hmem
          rcases List.mem_cons.mp hmem with heq | hmem
          · cases heq
            rfl
          · exact hknown c x hmem
        simp only [pure_bind, ih hknown']

/-- With statistics at hand, evaluating is checking each predicate against those of its column. -/
theorem run_evaluate_pure_eq_ok_iff {b : BoundSearchArgument} {t : Truth} {s : σ} :
    (b.evaluate fun c => pure (stats c)).run s = (.ok t, s) ↔
      ∃ ts, b.predicates.mapM (fun p => p.predicate.truthOptional (stats p.column)) = .ok ts ∧
        t = b.argument.truth ts := by
  rw [evaluate, truths_pure (fun _ _ h => absurd h List.not_mem_nil), Access.run_bind_eq_ok_iff]
  simp only [Predicate.check, Access.run_mapM_ofExcept, Prod.mk.injEq, Access.run_pure_eq_ok_iff,
    mapM_eq_ok_iff, mapError_eq_ok_iff]
  constructor
  · rintro ⟨ts, _, ⟨hts, rfl⟩, rfl, -⟩
    exact ⟨ts, hts, rfl⟩
  · rintro ⟨ts, hts, rfl⟩
    exact ⟨ts, s, ⟨hts, rfl⟩, rfl, rfl⟩

end available

section soundness

variable {b : BoundSearchArgument} {fetch : ℕ → Access σ (Option Statistics)}
variable {row : ℕ → Option Literal} {s s' : σ}
variable (admits : ∀ p ∈ b.predicates, ∀ x s s', (fetch p.column).run s = (.ok x, s') →
  ∀ st ∈ x, st.Admits (row p.column))

include admits

/-- The truth over a partition allows the verdict on every row that the partition's statistics
admit. -/
theorem evaluate_allows {t : Truth} (h : (b.evaluate fetch).run s = (.ok t, s')) :
    t.Allows (b.answer row) := by
  obtain ⟨ts, rfl, hts⟩ :=
    evaluate_eq_ok (P := fun c x => ∀ st ∈ x, st.Admits (row c)) admits h
  refine Formula.allows (fun i => ?_) b.formula
  by_cases hi : i < b.predicates.length
  · have hi' : i < ts.length := hts.length_eq ▸ hi
    obtain ⟨x, hx, ht⟩ := hts.get hi hi'
    rw [List.getD_eq_getElem _ _ hi', List.getElem?_eq_getElem hi]
    exact Predicate.truthOptional_allows ht hx
  · rw [List.getElem?_eq_none (by omega)]
    trivial

/-- A partition whose statistics admit a matching row is needed. -/
theorem isNeeded_of_matches {t : Truth} (matching : b.answer row = some true)
    (h : (b.evaluate fetch).run s = (.ok t, s')) : t.isNeeded = true := by
  have hallows := evaluate_allows admits h
  rw [matching] at hallows
  exact hallows

end soundness

/-- Evaluation is sound on both sides.  Over any rows that the statistics cover, wherever they are
available, a truth of `no` or `noNull` leaves no row of which the argument is true, and a truth of
`yes` or `yesNull` no row of which it is false.  Rows of the right kinds always have a verdict. -/
theorem evaluate_sound {b : BoundSearchArgument} {fetch : ℕ → Access σ (Option Statistics)}
    {rows : List (ℕ → Option Literal)} {t : Truth} {s s' : σ}
    (covers : ∀ p ∈ b.predicates, ∀ x u u', (fetch p.column).run u = (.ok x, u') →
      ∀ st ∈ x, ∀ row ∈ rows, st.Covers (row p.column))
    (h : (b.evaluate fetch).run s = (.ok t, s')) :
    (t = .no ∨ t = .noNull → ∀ row ∈ rows, b.verdict row ≠ .ok (some true)) ∧
      (t = .yes ∨ t = .yesNull → ∀ row ∈ rows, b.verdict row ≠ .ok (some false)) ∧
      ∀ row ∈ rows, b.Fits row → ∃ v, b.verdict row = .ok v := by
  have allowed {row : ℕ → Option Literal} (hrow : row ∈ rows) {v : Verdict}
      (hv : b.verdict row = .ok v) : t.Allows v := by
    rw [eq_answer_of_verdict hv]
    apply evaluate_allows _ h
    intro p hp x u u' hfetch st hst
    exact (covers p hp x u u' hfetch st hst row hrow).admits
  refine ⟨fun ht row hrow hv => ?_, fun ht row hrow hv => ?_,
    fun row _ fits => ⟨_, verdict_eq fits⟩⟩
  · obtain ⟨hno, hnoNull⟩ := Truth.allows_true_iff.mp (allowed hrow hv)
    exact ht.elim hno hnoNull
  · obtain ⟨hyes, hyesNull⟩ := Truth.allows_false_iff.mp (allowed hrow hv)
    exact ht.elim hyes hyesNull

/-- The argument that the first column does not hold the number five, a null being no five either,
or that the second is less than what is no number. -/
def notFiveOrBelowNone : BoundSearchArgument where
  predicates := [
    ⟨⟨.name "x", .long, .nullSafeEquals (.long 5), by simp [Test.literals, Literal.kind]⟩, 0⟩,
    ⟨⟨.name "y", .float, .lessThan (.float .nan), by simp [Test.literals, Literal.kind]⟩, 1⟩]
  formula := .or [.not (.atom 0), .atom 1]

/-- Two rows, the first of them with a null; both hold what is no number. -/
def nullAndThree : List (ℕ → Option Literal) :=
  [fun column => if column = 0 then none else some (.float .nan),
    fun column => if column = 0 then some (.long 3) else some (.float .nan)]

/-- Statistics of these rows; the bounds of the second column are no numbers. -/
def nullAndThreeStatistics (column : ℕ) : Access Unit (Option Statistics) :=
  pure (some (if column = 0 then (Statistics.ofRange (.long 3) (.long 3) 1).withNulls
    else .ofRange (.float .nan) (.float .nan) 2))

theorem evaluate_sound_nullAndThree :
    (notFiveOrBelowNone.evaluate nullAndThreeStatistics).run () = (.ok .yes, ()) ∧
      ∀ row ∈ nullAndThree, notFiveOrBelowNone.verdict row ≠ .ok (some false) := by
  have h : (notFiveOrBelowNone.evaluate nullAndThreeStatistics).run () = (.ok .yes, ()) := by
    rfl
  refine ⟨h, (evaluate_sound ?_ h).2.1 (.inl rfl)⟩
  intro p hp x u u' hfetch st hst
  obtain ⟨rfl, -⟩ := Access.run_pure_eq_ok_iff.mp hfetch
  cases hst
  simp only [notFiveOrBelowNone, List.mem_cons, List.not_mem_nil, or_false] at hp
  rcases hp with rfl | rfl
  · decide
  · decide

end BoundSearchArgument

end StripeScan
