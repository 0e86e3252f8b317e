import StripeScan.Proofs.SearchArgument.Evaluation
import StripeScan.Proofs.Statistics.Deriving

/-! # Search arguments that values outside the numbers satisfy

A float is at most −∞ if it is −∞ or no number at all, and it is not below +∞ if it is +∞ or no
number at all.  So a value that is no number satisfies both conditions row by row
(`outermost_answer`), while statistics whose bounds leave out the infinity say that no row does
(`evaluate_outermost`). -/

namespace StripeScan

open Literal

/-! ### Tests against infinities -/

namespace Test

variable {s : Statistics}

theorem truth_lessThanEquals_infinity (h : s.LeavesOut true) :
    (lessThanEquals (infinity true)).truth s = .ok (Truth.no.withNulls s.hasNull) := by
  obtain ⟨hcount, min, max, hmin, hmax, kmin, kmax, nmin, nmax, hle, hlt⟩ := h
  have low : min.order? (infinity true) = some .gt := order?_eq_gt_iff.mpr ⟨nmin, rfl, hlt⟩
  have high : max.order? (infinity true) = some .gt :=
    order?_eq_gt_iff.mpr ⟨nmax, rfl, lt_of_lt_of_le hlt hle⟩
  rw [truth, if_neg (by simp), if_neg hcount, hmin, hmax]
  show (lessThanEqualsTruth _ min max).map _ = _
  rw [lessThanEqualsTruth, compare?_eq kmax, compare?_eq kmin, low, high]
  rfl

theorem truth_lessThan_infinity (h : s.LeavesOut false) :
    (lessThan (infinity false)).truth s = .ok (Truth.yes.withNulls s.hasNull) := by
  obtain ⟨hcount, min, max, hmin, hmax, kmin, kmax, nmin, nmax, hle, hlt⟩ := h
  have low : min.order? (infinity false) = some .lt :=
    order?_eq_lt_iff.mpr ⟨nmin, rfl, lt_of_le_of_lt hle hlt⟩
  have high : max.order? (infinity false) = some .lt := order?_eq_lt_iff.mpr ⟨nmax, rfl, hlt⟩
  rw [truth, if_neg (by simp), if_neg hcount, hmin, hmax]
  show (lessThanTruth _ min max).map _ = _
  rw [lessThanTruth, compare?_eq kmax, compare?_eq kmin, low, high]
  rfl

end Test

/-! ### The arguments -/

/-- The values of a column are at most −∞, or they are not below +∞. -/
def SearchArgument.outermost (column : ℕ) : (negative : Bool) → SearchArgument
  | true => ⟨[⟨.ordinal column, .float, .lessThanEquals (infinity true), by
      simp [Test.literals, infinity, kind]⟩], .atom 0⟩
  | false => ⟨[⟨.ordinal column, .float, .lessThan (infinity false), by
      simp [Test.literals, infinity, kind]⟩], .not (.atom 0)⟩

namespace BoundSearchArgument

/-- The same where the column is a float column of the schema. -/
def outermost (column : ℕ) (negative : Bool) : BoundSearchArgument :=
  ⟨(SearchArgument.outermost column negative).predicates.map (⟨·, column⟩),
    (SearchArgument.outermost column negative).formula⟩

variable {column : ℕ} {negative : Bool}

theorem bind_outermost (negative : Bool) {schema : Schema} (h : schema.kind? column = some .float) :
    (SearchArgument.outermost column negative).bind schema = .ok (outermost column negative) := by
  have hresolve : schema.resolve (.ordinal column) = some (column, .float) := by
    show (do let kind ← schema.kind? column; return (column, kind)) = _
    rw [h]
    rfl
  cases negative <;>
    rw [SearchArgument.bind, SearchArgument.bindWith, SearchArgument.outermost, List.mapM_cons,
      Predicate.bind, hresolve] <;> rfl

/-- A value that is no number satisfies the argument. -/
theorem outermost_answer {row : ℕ → Option Literal} {v : Literal} (hv : row column = some v)
    (hnan : v.isNaN = true) : (outermost column negative).answer row = some true := by
  have horder (l : Literal) : v.order? l = none := order?_eq_none_iff.mpr (.inl hnan)
  cases negative <;>
    simp only [answer, outermost, SearchArgument.outermost, List.map_cons, List.map_nil,
      Formula.verdict, List.getElem?_cons_zero, Option.bind_some, hv, Predicate.answer, Test.holds,
      horder] <;> rfl

/-- Statistics that leave out the infinity say that no row satisfies the argument. -/
theorem evaluate_outermost {σ : Type} {fetch : ℕ → Access σ (Option Statistics)} {s : Statistics}
    (leavesOut : s.LeavesOut negative)
    (fetched : ∀ x u u', (fetch column).run u = (.ok x, u') → x = some s) {t : Truth} {u u' : σ}
    (h : ((outermost column negative).evaluate fetch).run u = (.ok t, u')) :
    t.isNeeded = false := by
  obtain ⟨ts, rfl, hts⟩ := evaluate_eq_ok (P := fun _ x => x = some s) (fun p hp => by
    obtain ⟨q, -, rfl⟩ := List.mem_map.mp hp
    exact fetched) h
  cases negative with
  | true =>
      obtain ⟨t, ts', ⟨_, rfl, ht⟩, hrest, rfl⟩ := List.forall₂_cons_left_iff.mp hts
      have heq := ht.symm.trans (Test.truth_lessThanEquals_infinity leavesOut)
      cases heq
      show (Truth.no.withNulls s.hasNull).isNeeded = false
      cases s.hasNull <;> rfl
  | false =>
      obtain ⟨t, ts', ⟨_, rfl, ht⟩, hrest, rfl⟩ := List.forall₂_cons_left_iff.mp hts
      have heq := ht.symm.trans (Test.truth_lessThan_infinity leavesOut)
      cases heq
      show (Truth.yes.withNulls s.hasNull).not.isNeeded = false
      cases s.hasNull <;> rfl

end BoundSearchArgument

end StripeScan
