import StripeScan.Proofs.SearchArgument.Builder
import StripeScan.Proofs.Statistics.Coarser

/-! # When evaluating a predicate fails

Whether a predicate can be evaluated over statistics is a matter of kinds alone.  Over values
between two bounds a test of values succeeds exactly if both bounds are of the kind of its literals,
whichever comparisons it makes and wherever it stops (`Test.exists_boundedTruth_iff`).  So the kinds
of the bounds decide for all predicates of one kind together (`Predicate.truth_failsFast`).

`Operator.truthAt?` evaluates an operator over a list of literals that it looks up by their places.
It never misses a literal of a list that makes up a test (`Test.truthAt?_eq`). -/

namespace StripeScan

/-! ### Literals by their places -/

namespace Operator

/-- What an operator makes of values between two bounds, nulls apart, where literals are looked up
by their places; nothing if one is missing. -/
def outcomeAt? (operator : Operator) (literals : List Literal) (min max : Literal) :
    Option (Except Incomparable Truth) :=
  match operator with
  | .equals | .nullSafeEquals => (literals[0]?).map fun v => Test.equalsTruth v min max
  | .lessThan => (literals[0]?).map fun v => Test.lessThanTruth v min max
  | .lessThanEquals => (literals[0]?).map fun v => Test.lessThanEqualsTruth v min max
  | .between => do return Test.betweenTruth (← literals[0]?) (← literals[1]?) min max
  | .isIn => some (Test.isInTruth literals min max)
  | .isNull => some (.ok .yesNoNull)

/-- What nulls make of an outcome: equality that treats nulls as values only loses its certainty. -/
def qualify (operator : Operator) (hasNull : Bool) (outcome : Truth) : Truth :=
  if operator = .nullSafeEquals then
    if outcome = .yes ∧ hasNull = true then .yesNo else outcome
  else outcome.withNulls hasNull

/-- Truth of an operator over summarised rows, where literals are looked up by their places; nothing
if one is missing. -/
def truthAt? (operator : Operator) (literals : List Literal) (s : Statistics) :
    Option (Except Incomparable Truth) :=
  if operator = .isNull then some (.ok (Test.isNullTruth s))
  else if s.count = 0 then some (.ok .no)
  else
    match s.min, s.max with
    | some min, some max =>
      (operator.outcomeAt? literals min max).map (·.map (operator.qualify s.hasNull))
    | _, _ => some (.ok .yesNoNull)

end Operator

namespace Test

theorem outcomeAt?_eq {test : Test} (notNull : test ≠ .isNull) (hasNull : Bool)
    (min max : Literal) :
    (test.operator.outcomeAt? test.literals min max).map
        (·.map (test.operator.qualify hasNull)) =
      some (test.boundedTruth hasNull min max) := by
  cases test with
  | isNull => exact absurd rfl notNull
  | _ => rfl

/-- A test has every literal that its operator looks up. -/
theorem truthAt?_eq (test : Test) (s : Statistics) :
    test.operator.truthAt? test.literals s = some (test.truth s) := by
  have hoperator : test.operator = .isNull ↔ test = .isNull := by
    cases test <;> simp [operator]
  unfold Operator.truthAt? truth
  simp only [hoperator]
  split
  · rfl
  · rename_i notNull
    split
    · rfl
    · cases s.min with
      | none => rfl
      | some min =>
          cases s.max with
          | none => rfl
          | some max => exact outcomeAt?_eq notNull s.hasNull min max

/-! ### Kinds decide -/

section kinds

variable {min max : Literal} {kind : Kind}

/-- Membership was decided, so the first literal was compared with a bound and the bounds with each
other. -/
theorem kinds_of_isInTruth {v : Literal} {vs : List Literal} {t : Truth}
    (h : isInTruth (v :: vs) min max = .ok t) : min.kind = v.kind ∧ max.kind = v.kind := by
  obtain ⟨o, ho, h⟩ := bind_eq_ok_iff.mp h
  have hbounds := Literal.kind_eq_of_compare?_eq_ok ho
  have hfirst : v.kind = min.kind := by
    split at h
    · obtain ⟨o, ho, -⟩ := bind_eq_ok_iff.mp h
      exact Literal.kind_eq_of_compare?_eq_ok ho
    · obtain ⟨o, ho, -⟩ := bind_eq_ok_iff.mp h
      exact Literal.kind_eq_of_compare?_eq_ok ho
  exact ⟨hfirst.symm, hbounds.symm.trans hfirst.symm⟩

/-- A test of values that was decided between two bounds is of their kind. -/
theorem kinds_of_boundedTruth {test : Test} (notNull : test ≠ .isNull)
    (kinds : ∀ l ∈ test.literals, l.kind = kind) {hasNull : Bool} {t : Truth}
    (h : test.boundedTruth hasNull min max = .ok t) : min.kind = kind ∧ max.kind = kind := by
  have all {v : Literal} (hv : v ∈ test.literals) (h : min.kind = v.kind ∧ max.kind = v.kind) :
      min.kind = kind ∧ max.kind = kind := by
    rwa [kinds v hv] at h
  cases test with
  | equals v =>
      obtain ⟨u, hu, -⟩ := map_eq_ok_iff.mp h
      obtain ⟨hmin, hmax, -⟩ := equalsTruth_decided hu
      exact all List.mem_cons_self ⟨hmin.symm, hmax.symm⟩
  | nullSafeEquals v =>
      obtain ⟨u, hu, -⟩ := map_eq_ok_iff.mp h
      obtain ⟨hmin, hmax, -⟩ := equalsTruth_decided hu
      exact all List.mem_cons_self ⟨hmin.symm, hmax.symm⟩
  | lessThan v =>
      obtain ⟨u, hu, -⟩ := map_eq_ok_iff.mp h
      obtain ⟨hmax, hmin, -⟩ := lessThanTruth_decided hu
      exact all List.mem_cons_self ⟨hmin, hmax⟩
  | lessThanEquals v =>
      obtain ⟨u, hu, -⟩ := map_eq_ok_iff.mp h
      obtain ⟨hmax, hmin, -⟩ := lessThanEqualsTruth_decided hu
      exact all List.mem_cons_self ⟨hmin, hmax⟩
  | between lower upper =>
      obtain ⟨u, hu, -⟩ := map_eq_ok_iff.mp h
      obtain ⟨hmax, hmin, -⟩ := betweenTruth_decided hu
      exact all List.mem_cons_self ⟨hmin, hmax⟩
  | isIn first rest =>
      obtain ⟨u, hu, -⟩ := map_eq_ok_iff.mp h
      exact all List.mem_cons_self (kinds_of_isInTruth hu)
  | isNull => exact absurd rfl notNull

/-- A test of values of one kind is decided between two bounds exactly if both are of that kind. -/
theorem exists_boundedTruth_iff {test : Test} (notNull : test ≠ .isNull)
    (kinds : ∀ l ∈ test.literals, l.kind = kind) (hasNull : Bool) :
    (∃ t, test.boundedTruth hasNull min max = .ok t) ↔ min.kind = kind ∧ max.kind = kind := by
  constructor
  · rintro ⟨t, h⟩
    exact kinds_of_boundedTruth notNull kinds h
  · rintro ⟨hmin, hmax⟩
    exact boundedTruth_eq_ok hmin hmax kinds hasNull

end kinds

end Test

/-! ### Predicates -/

/-- Whether there are values and both bounds, one of them not of a kind. -/
def Statistics.Foreign (s : Statistics) (kind : Kind) : Prop :=
  0 < s.count ∧ ∃ min ∈ s.min, ∃ max ∈ s.max, min.kind ≠ kind ∨ max.kind ≠ kind

namespace Predicate

/-- A predicate is decided unless it reads bounds of which one is of another kind. -/
theorem exists_truth_iff (p : Predicate) (s : Statistics) :
    (∃ t, p.truth s = .ok t) ↔ p.operator = .isNull ∨ ¬ s.Foreign p.kind := by
  have hoperator : p.operator = .isNull ↔ p.test = .isNull := by
    show p.test.operator = _ ↔ _
    cases p.test <;> simp [Test.operator]
  rw [hoperator, truth, Test.truth]
  by_cases notNull : p.test = .isNull
  · rw [if_pos notNull]
    exact iff_of_true ⟨_, rfl⟩ (.inl notNull)
  rw [if_neg notNull, or_iff_right notNull]
  by_cases hcount : s.count = 0
  · rw [if_pos hcount]
    exact iff_of_true ⟨_, rfl⟩ fun h => h.1.ne' hcount
  rw [if_neg hcount]
  split
  · rename_i min max hmin hmax
    rw [Test.exists_boundedTruth_iff notNull p.literal_kinds, Statistics.Foreign, hmin, hmax]
    simp only [Option.mem_def, Option.some.injEq, exists_eq_left', ne_eq,
      Nat.pos_of_ne_zero hcount, true_and, not_or, not_not]
  · rename_i missing
    refine iff_of_true ⟨_, rfl⟩ ?_
    rintro ⟨-, min, hmin, max, hmax, -⟩
    exact missing min max hmin hmax

theorem exists_error_iff (p : Predicate) (s : Statistics) :
    (∃ e, p.truth s = .error e) ↔ p.operator ≠ .isNull ∧ s.Foreign p.kind := by
  have hended : (∃ e, p.truth s = .error e) ↔ ¬ ∃ t, p.truth s = .ok t := by
    cases p.truth s <;> simp
  rw [hended, exists_truth_iff, not_or, not_not]

/-- Failing is a matter of kinds.  Evaluating an operator and literals that make up a predicate
never misses a literal.  Over any statistics, also bounds that contradict each other, it fails
exactly if the operator is no null test, there are values, both bounds are there, and at least one
of them is not of the declared kind; otherwise there is a truth.  So it fails alike for every other
predicate of that kind that is no null test, whatever its operator and its literals. -/
theorem truth_failsFast {column : ColumnRef} {operator : Operator} {kind : Kind}
    {literals : List Literal} {p : Predicate}
    (accepted : ofParts column operator kind literals = .ok p) (s : Statistics) :
    operator.truthAt? literals s = some (p.truth s) ∧
      ((∃ e, p.truth s = .error e) ↔ operator ≠ .isNull ∧ 0 < s.count ∧
        ∃ min ∈ s.min, ∃ max ∈ s.max, min.kind ≠ kind ∨ max.kind ≠ kind) ∧
      ((∃ t, p.truth s = .ok t) ↔ ¬ (operator ≠ .isNull ∧ 0 < s.count ∧
        ∃ min ∈ s.min, ∃ max ∈ s.max, min.kind ≠ kind ∨ max.kind ≠ kind)) ∧
      ∀ q : Predicate, q.kind = kind → (q.operator = .isNull ↔ operator = .isNull) →
        ((∃ e, q.truth s = .error e) ↔ ∃ e, p.truth s = .error e) := by
  obtain ⟨-, rfl, rfl, rfl⟩ := parts_of_ofParts accepted
  refine ⟨p.test.truthAt?_eq s, p.exists_error_iff s, ?_, fun q hkind hnull => ?_⟩
  · rw [exists_truth_iff, not_and_or, not_not]
    rfl
  · rw [exists_error_iff, exists_error_iff, hkind, ne_eq, hnull]

/-- The value looked for comes first, but the upper bound is a text. -/
theorem truth_failsFast_threeOrFive :
    ∃ p, ofParts (.name "x") .isIn .long [.long 3, .long 5] = .ok p ∧
      Operator.truthAt? .isIn [.long 3, .long 5] (.ofRange (.long 3) (.string "a") 2) =
        some (p.truth (.ofRange (.long 3) (.string "a") 2)) ∧
      ∃ e, p.truth (.ofRange (.long 3) (.string "a") 2) = .error e := by
  have accepted : ofParts (.name "x") .isIn .long [.long 3, .long 5] = .ok _ := rfl
  obtain ⟨hfound, hfails, -, -⟩ :=
    truth_failsFast accepted (.ofRange (.long 3) (.string "a") 2)
  refine ⟨_, accepted, hfound, hfails.mpr ⟨by decide, by decide, _, rfl, _, rfl, .inr ?_⟩⟩
  decide

end Predicate

end StripeScan
