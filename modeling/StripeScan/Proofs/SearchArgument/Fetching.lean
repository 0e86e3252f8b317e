import StripeScan.Proofs.SearchArgument.Sharing

/-! # What an evaluation fetches

Evaluating remembers the statistics of each column.  `evaluateRefetching` does not: it fetches them
anew for every predicate.  On a medium that answers every request for a column alike, both come to
the same result, and the first asks for each column once where the second may ask often
(`evaluate_fetches`).

The medium here writes down the columns that it is asked for.  For predicates that are evaluated
while some statistics are known, it is asked for those columns that are missing, each when it is
used first (`run_truths_noted`). -/

namespace StripeScan

/-- Keeping the first of equal elements leaves no repetitions. -/
theorem nodup_eraseDups {α : Type} [BEq α] [LawfulBEq α] : ∀ xs : List α, xs.eraseDups.Nodup
  | [] => List.nodup_nil
  | x :: xs => by
      rw [List.eraseDups_cons, List.nodup_cons]
      exact ⟨by simp, nodup_eraseDups _⟩
termination_by xs => xs.length
decreasing_by exact Nat.lt_succ_of_le (List.length_filter_le _ _)

namespace BoundSearchArgument

section answers

variable (answer : ℕ → Except ScanError (Option Statistics))

/-- Asks for the statistics of a column, on a medium that writes the column down. -/
def noted (column : ℕ) : Access (List ℕ) (Option Statistics) := do
  .modify (· ++ [column])
  .ofExcept (answer column)

/-- The truth of a predicate, for which the statistics of its column are fetched. -/
def refetched (b : BoundPredicate) : Except ScanError Truth := do
  let s ← answer b.column
  (b.predicate.truthOptional s).mapError fun e => .argument (.incomparable e)

/-- The truth of a search argument, where the statistics are fetched for every predicate. -/
def evaluateRefetching (b : BoundSearchArgument) : Except ScanError Truth := do
  let values ← b.predicates.mapM (refetched answer)
  return b.argument.truth values

/-- The predicates up to the first one that fails, or all if none does. -/
def tried (bs : List BoundPredicate) : List BoundPredicate :=
  bs.take (bs.findIdx (fun b => !(refetched answer b).isOk) + 1)

theorem run_noted (column : ℕ) (log : List ℕ) :
    (noted answer column).run log = (answer column, log ++ [column]) := by
  rw [noted, Access.run_bind, Access.run_modify]
  exact Access.run_ofExcept _ _

theorem exists_tried_cons (b : BoundPredicate) (bs : List BoundPredicate) :
    ∃ rest, tried answer (b :: bs) = b :: rest := ⟨_, List.take_succ_cons⟩

variable {answer} {b : BoundPredicate} {bs : List BoundPredicate}

theorem tried_cons_of_ok {t : Truth} (h : refetched answer b = .ok t) :
    tried answer (b :: bs) = b :: tried answer bs := by
  simp [tried, List.findIdx_cons, h, Except.isOk, Except.toBool]

theorem tried_cons_of_error {e : ScanError} (h : refetched answer b = .error e) :
    tried answer (b :: bs) = [b] := by
  simp [tried, List.findIdx_cons, h, Except.isOk, Except.toBool]

/-- All predicates pass, or one is the first that fails. -/
theorem passes_or_fails (answer : ℕ → Except ScanError (Option Statistics))
    (bs : List BoundPredicate) :
    (∃ ts, bs.mapM (refetched answer) = .ok ts ∧ tried answer bs = bs) ∨
      ∃ before b after e, bs = before ++ b :: after ∧
        (∀ q ∈ before, ∃ t, refetched answer q = .ok t) ∧ refetched answer b = .error e ∧
        bs.mapM (refetched answer) = .error e ∧ tried answer bs = before ++ [b] := by
  induction bs with
  | nil => exact .inl ⟨[], rfl, rfl⟩
  | cons b bs ih =>
      cases hb : refetched answer b with
      | error e =>
          refine .inr ⟨[], b, bs, e, rfl, fun q hq => absurd hq List.not_mem_nil, hb, ?_, ?_⟩
          · exact mapM_cons_of_error hb bs
          · exact tried_cons_of_error hb
      | ok t =>
          rw [List.mapM_cons, hb, bind_ok, tried_cons_of_ok hb]
          rcases ih with ⟨ts, hts, htried⟩ | ⟨before, c, after, e, rfl, hpass, hc, hfail, htried⟩
          · rw [hts, htried]
            exact .inl ⟨t :: ts, rfl, rfl⟩
          · rw [hfail, htried]
            refine .inr ⟨b :: before, c, after, e, rfl, fun q hq => ?_, hc, rfl, rfl⟩
            rcases List.mem_cons.mp hq with rfl | hq
            · exact ⟨t, hb⟩
            · exact hpass q hq

/-! ### Evaluating with some statistics known -/

/-- The columns among these whose statistics are not known. -/
def missing (known : Known) (columns : List ℕ) : List ℕ :=
  columns.filter fun c => (known.lookup c).isNone

variable {known : Known} {c : ℕ} {s : Option Statistics}

theorem missing_cons_of_known (h : known.lookup c = some s) (columns : List ℕ) :
    missing known (c :: columns) = missing known columns := by
  rw [missing, List.filter_cons, h]
  rfl

/-- A column that is missing is asked for once, and known from then on. -/
theorem eraseDups_missing (h : known.lookup c = none) (s : Option Statistics)
    (columns : List ℕ) :
    (missing known (c :: columns)).eraseDups =
      c :: (missing ((c, s) :: known) (c :: columns)).eraseDups := by
  have hrest : missing ((c, s) :: known) columns = (missing known columns).filter (!· == c) := by
    rw [missing, missing, List.filter_filter]
    refine List.filter_congr fun d _ => ?_
    rw [List.lookup_cons]
    cases hd : d == c <;> simp
  have hfirst : missing known (c :: columns) = c :: missing known columns := by
    rw [missing, List.filter_cons, h]
    rfl
  rw [missing_cons_of_known List.lookup_cons_self, hrest, hfirst, List.eraseDups_cons]

/-- The statistics of the first predicate's column are known: it is evaluated, and so is the rest if
it passes. -/
theorem run_truths_of_known (hlookup : known.lookup b.column = some s)
    (hanswer : answer b.column = .ok s) {log : List ℕ}
    (ih : (truths (noted answer) known bs).run log = (bs.mapM (refetched answer),
      log ++ (missing known ((tried answer bs).map BoundPredicate.column)).eraseDups)) :
    (truths (noted answer) known (b :: bs)).run log = ((b :: bs).mapM (refetched answer),
      log ++ (missing known ((tried answer (b :: bs)).map BoundPredicate.column)).eraseDups) := by
  have hrefetched : refetched answer b =
      (b.predicate.truthOptional s).mapError fun e => .argument (.incomparable e) := by
    rw [refetched, hanswer, bind_ok]
  rw [truths_cons_of_known hlookup]
  cases ht : b.predicate.truthOptional s with
  | error e =>
      rw [ht] at hrefetched
      rw [Predicate.check_of_error ht, mapM_cons_of_error hrefetched,
        tried_cons_of_error hrefetched, List.map_singleton, missing_cons_of_known hlookup]
      exact congrArg _ (List.append_nil log).symm
  | ok t =>
      rw [ht] at hrefetched
      rw [Predicate.check_of_ok ht, pure_bind, Access.run_map, ih, tried_cons_of_ok hrefetched,
        List.map_cons, missing_cons_of_known hlookup, List.mapM_cons, hrefetched]
      rfl

/-- Evaluating predicates one after the other is evaluating each with statistics that are fetched
for it.  What is asked for is what is missing for the predicates up to the first one that fails, in
the order of first use. -/
theorem run_truths_noted (hknown : ∀ c s, known.lookup c = some s → answer c = .ok s)
    (bs : List BoundPredicate) (log : List ℕ) :
    (truths (noted answer) known bs).run log = (bs.mapM (refetched answer),
      log ++ (missing known ((tried answer bs).map BoundPredicate.column)).eraseDups) := by
  -- On the predicates, for anything known: what is known is what the medium answers.
  induction bs generalizing known log with
  | nil => exact congrArg (Prod.mk _) (List.append_nil log).symm
  | cons b bs ih =>
      cases hlookup : known.lookup b.column with
      | some s => exact run_truths_of_known hlookup (hknown _ _ hlookup) (ih hknown log)
      | none =>
          obtain ⟨rest, hrest⟩ := exists_tried_cons answer b bs
          rw [truths_cons_of_unknown hlookup]
          cases hanswer : answer b.column with
          | error e =>
              have hrun := run_noted answer b.column log
              have hfails : refetched answer b = .error e := by
                rw [refetched, hanswer]
                rfl
              rw [hanswer] at hrun
              rw [Access.run_bind_of_error hrun, mapM_cons_of_error hfails,
                tried_cons_of_error hfails, List.map_singleton, eraseDups_missing hlookup none,
                missing_cons_of_known List.lookup_cons_self]
              rfl
          | ok s =>
              have hrun := run_noted answer b.column log
              have hknown' : ∀ c s', ((b.column, s) :: known).lookup c = some s' →
                  answer c = .ok s' := by
                intro c s' hc
                rw [List.lookup_cons] at hc
                split at hc
                · rename_i heq
                  rw [beq_iff_eq.mp heq, hanswer, Option.some.inj hc]
                · exact hknown c s' hc
              rw [hanswer] at hrun
              rw [Access.run_bind_of_ok hrun, run_truths_of_known List.lookup_cons_self hanswer
                (ih hknown' _), hrest, List.map_cons, eraseDups_missing hlookup s,
                List.append_assoc, List.singleton_append]

end answers

/-- Remembering statistics changes nothing but what is fetched.  Whatever statistics, gaps and
errors a medium answers for the columns, evaluating ends as it does when the statistics are fetched
for every predicate: with the truth of the formula if all predicates pass, else with the error of
the first one that fails, be it of fetching or of comparing.  The columns that it asks for are those
of the predicates that were tried, each once and in the order of first use: of all predicates, or of
those up to the first one that fails. -/
theorem evaluate_fetches (b : BoundSearchArgument)
    (answer : ℕ → Except ScanError (Option Statistics)) (log : List ℕ) :
    (b.evaluate (noted answer)).run log = (b.evaluateRefetching answer,
        log ++ ((tried answer b.predicates).map BoundPredicate.column).eraseDups) ∧
      ((tried answer b.predicates).map BoundPredicate.column).eraseDups.Nodup ∧
      ((∃ ts, List.Forall₂ (fun p t => refetched answer p = .ok t) b.predicates ts ∧
          b.evaluateRefetching answer = .ok (b.argument.truth ts) ∧
          tried answer b.predicates = b.predicates) ∨
        ∃ before p after e, b.predicates = before ++ p :: after ∧
          (∀ q ∈ before, ∃ t, refetched answer q = .ok t) ∧ refetched answer p = .error e ∧
          b.evaluateRefetching answer = .error e ∧
          tried answer b.predicates = before ++ [p]) := by
  refine ⟨?_, nodup_eraseDups _, ?_⟩
  · have hall (columns : List ℕ) : missing [] columns = columns :=
      List.filter_eq_self.mpr fun _ _ => rfl
    rw [evaluate, Access.run_bind, run_truths_noted (fun c s h => absurd h (by simp)), hall,
      evaluateRefetching]
    cases b.predicates.mapM (refetched answer) <;> rfl
  · rw [evaluateRefetching]
    rcases passes_or_fails answer b.predicates with
      ⟨ts, hts, htried⟩ | ⟨before, p, after, e, hsplit, hpass, hp, hfail, htried⟩
    · rw [hts]
      exact .inl ⟨ts, mapM_eq_ok_iff.mp hts, rfl, htried⟩
    · rw [hfail]
      exact .inr ⟨before, p, after, e, hsplit, hpass, hp, rfl, htried⟩

end BoundSearchArgument

end StripeScan
