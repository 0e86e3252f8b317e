import StripeScan.Proofs.Logic.Soundness
import StripeScan.Proofs.SearchArgument.Rows
import StripeScan.Statistics.Truth

/-! # Statistics that cover their rows

`Statistics.Covers` says what statistics must claim of a row of their partition: a null is
announced, a value is counted, and every bound that is a number bounds it by a decided comparison.

`Statistics.Admits` asks a little less: a value that is no number may also lie between the two
infinities, which no literal lies beyond.  This is all that evaluation needs:
`Predicate.truth_allows` says that the truth of a predicate over admitted statistics allows its
verdict on the row.  Float bounds that are no number make comparisons undecided and exclude
nothing. -/

namespace StripeScan

namespace Literal

/-- One of the two infinities. -/
def infinity (negative : Bool) : Literal := .float (.infinity negative)

theorem rank_infinity_lt : (infinity true).rank < (infinity false).rank := by
  have hkey : (Binary64.infinity true).key < (Binary64.infinity false).key := by decide
  simp only [infinity, rank, Prod.Lex.lt_iff, ofLex_toLex, Int.cast_lt]
  exact .inl hkey

theorem key_mem_of_number {x : Binary64} (h : x.isNaN = false) :
    (Binary64.infinity true).key ≤ x.key ∧ x.key ≤ (Binary64.infinity false).key := by
  have hneg : (Binary64.infinity true).key = -(Binary64.infinityMagnitude : ℤ) := by decide
  have hpos : (Binary64.infinity false).key = Binary64.infinityMagnitude := by decide
  have hmag : x.magnitude ≤ Binary64.infinityMagnitude := by
    unfold Binary64.isNaN at h
    exact not_lt.mp (of_decide_eq_false h)
  rw [hneg, hpos]
  unfold Binary64.key
  split <;> omega

/-- Every number lies between the infinities. -/
theorem rank_mem_of_number {v : Literal} (kind : v.kind = .float) (h : v.isNaN = false) :
    (infinity true).rank ≤ v.rank ∧ v.rank ≤ (infinity false).rank := by
  cases v <;> cases kind
  rename_i x
  obtain ⟨hlo, hhi⟩ := key_mem_of_number h
  have hle : ∀ i j : ℤ, i ≤ j → toLex ((i : ℚ), "") ≤ toLex ((j : ℚ), "") := by
    intro i j hij
    rw [Prod.Lex.le_iff]
    rcases hij.lt_or_eq with hlt | rfl
    · exact .inl (Int.cast_lt.mpr hlt)
    · exact .inr ⟨rfl, le_rfl⟩
  exact ⟨hle _ _ hlo, hle _ _ hhi⟩

/-- A lower bound that excludes nothing wrongly: it is no number itself, or it is at most the
value, or the value is no number and the bound is the least of all. -/
def BoundsBelow (bound v : Literal) : Prop :=
  bound.isNaN = true ∨ bound.AtMost v ∨ (v.isNaN = true ∧ bound = infinity true)

/-- An upper bound that excludes nothing wrongly. -/
def BoundsAbove (bound v : Literal) : Prop :=
  bound.isNaN = true ∨ v.AtMost bound ∨ (v.isNaN = true ∧ bound = infinity false)

theorem BoundsBelow.rank_le {bound v : Literal} (h : bound.BoundsBelow v)
    (hb : bound.isNaN = false) (hv : v.isNaN = false) : bound.rank ≤ v.rank := by
  rcases h with h | h | ⟨h, -⟩
  · rw [hb] at h; cases h
  · exact (atMost_iff.mp h).2.2.2
  · rw [hv] at h; cases h

theorem BoundsAbove.le_rank {bound v : Literal} (h : bound.BoundsAbove v)
    (hb : bound.isNaN = false) (hv : v.isNaN = false) : v.rank ≤ bound.rank := by
  rcases h with h | h | ⟨h, -⟩
  · rw [hb] at h; cases h
  · exact (atMost_iff.mp h).2.2.2
  · rw [hv] at h; cases h

theorem BoundsBelow.eq_infinity {bound v : Literal} (h : bound.BoundsBelow v)
    (hb : bound.isNaN = false) (hv : v.isNaN = true) : bound = infinity true := by
  rcases h with h | h | ⟨-, h⟩
  · rw [hb] at h; cases h
  · rw [(atMost_iff.mp h).2.2.1] at hv; cases hv
  · exact h

theorem BoundsAbove.eq_infinity {bound v : Literal} (h : bound.BoundsAbove v)
    (hb : bound.isNaN = false) (hv : v.isNaN = true) : bound = infinity false := by
  rcases h with h | h | ⟨-, h⟩
  · rw [hb] at h; cases h
  · rw [(atMost_iff.mp h).2.1] at hv; cases hv
  · exact h

theorem order?_swap (a b : Literal) : a.order? b = (b.order? a).map Ordering.swap := by
  unfold order?
  rw [Bool.or_comm]
  split
  · rfl
  · rw [Option.map_some, Std.OrientedOrd.eq_swap]

/-- A literal below a lower bound is below the value, which then is a number: no literal lies
below the bound of a value that is none. -/
theorem BoundsBelow.gt_of_gt {bound v l : Literal} (h : bound.BoundsBelow v)
    (kinds : l.kind = bound.kind) (hl : bound.order? l = some .gt) : v.order? l = some .gt := by
  obtain ⟨hb, hn, hlt⟩ := order?_eq_gt_iff.mp hl
  have hv : v.isNaN = false := by
    by_contra hv
    rw [Bool.not_eq_false] at hv
    obtain rfl := h.eq_infinity hb hv
    exact absurd (rank_mem_of_number kinds hn).1 (not_le.mpr hlt)
  exact order?_eq_gt_iff.mpr ⟨hv, hn, hlt.trans_le (h.rank_le hb hv)⟩

/-- A literal above an upper bound is above the value. -/
theorem BoundsAbove.lt_of_lt {bound v l : Literal} (h : bound.BoundsAbove v)
    (kinds : l.kind = bound.kind) (hl : bound.order? l = some .lt) : v.order? l = some .lt := by
  obtain ⟨hb, hn, hlt⟩ := order?_eq_lt_iff.mp hl
  have hv : v.isNaN = false := by
    by_contra hv
    rw [Bool.not_eq_false] at hv
    obtain rfl := h.eq_infinity hb hv
    exact absurd (rank_mem_of_number kinds hn).2 (not_le.mpr hlt)
  exact order?_eq_lt_iff.mpr ⟨hv, hn, (h.le_rank hb hv).trans_lt hlt⟩

/-- A value is not below what its lower bound is not below. -/
theorem BoundsBelow.ne_lt {bound v l : Literal} (h : bound.BoundsBelow v) {o : Ordering}
    (hl : bound.order? l = some o) (ho : o ≠ .lt) : v.order? l ≠ some .lt := by
  obtain ⟨hb, -, rfl⟩ := order?_eq_some_iff.mp hl
  intro hlt
  obtain ⟨hv, -, hlt⟩ := order?_eq_lt_iff.mp hlt
  exact ho (compare_lt_iff_lt.mpr ((h.rank_le hb hv).trans_lt hlt))

/-- A value is not above what its upper bound is not above. -/
theorem BoundsAbove.ne_gt {bound v l : Literal} (h : bound.BoundsAbove v) {o : Ordering}
    (hl : bound.order? l = some o) (ho : o ≠ .gt) : v.order? l ≠ some .gt := by
  obtain ⟨hb, -, rfl⟩ := order?_eq_some_iff.mp hl
  intro hgt
  obtain ⟨hv, -, hlt⟩ := order?_eq_gt_iff.mp hgt
  exact ho (compare_gt_iff_gt.mpr (hlt.trans_le (h.le_rank hb hv)))

/-- Two equal bounds leave room for one number only. -/
theorem rank_eq_of_bounds_eq {min max v : Literal} (low : min.BoundsBelow v)
    (high : max.BoundsAbove v) (hmin : min.isNaN = false) (hmax : max.isNaN = false)
    (h : min.rank = max.rank) : v.isNaN = false ∧ v.rank = min.rank := by
  have hv : v.isNaN = false := by
    by_contra hv
    rw [Bool.not_eq_false] at hv
    rw [low.eq_infinity hmin hv, high.eq_infinity hmax hv] at h
    exact absurd h rank_infinity_lt.ne
  exact ⟨hv, le_antisymm (h ▸ high.le_rank hmax hv) (low.rank_le hmin hv)⟩

/-- A value between equal bounds compares as they do. -/
theorem order?_eq_of_bounds_eq {min max v : Literal} (low : min.BoundsBelow v)
    (high : max.BoundsAbove v) (h : min.order? max = some .eq) (l : Literal) :
    v.order? l = min.order? l := by
  obtain ⟨hmin, hmax, hrank⟩ := order?_eq_eq_iff.mp h
  obtain ⟨hv, hrank⟩ := rank_eq_of_bounds_eq low high hmin hmax hrank
  unfold order?
  rw [hmin, hv, hrank]

end Literal

/-! ### Tests of bounded values -/

namespace Test

section bounded

variable {min max v w : Literal} {t : Truth}

theorem equalsTruth_cases (h : equalsTruth w min max = .ok t) :
    t = .no ∨ t = .yes ∨ t = .yesNo := by
  obtain ⟨_, -, h⟩ := bind_eq_ok_iff.mp h
  obtain ⟨_, -, h⟩ := bind_eq_ok_iff.mp h
  cases h
  split
  · split
    · exact .inl rfl
    · split
      · exact .inr (.inl rfl)
      · exact .inr (.inr rfl)
  · exact .inr (.inr rfl)

variable (low : min.BoundsBelow v) (high : max.BoundsAbove v)

include low high

/-- A literal outside the bounds is not equal to the value. -/
theorem ne_of_outside (hmin : w.kind = min.kind) (hmax : w.kind = max.kind)
    (h : w.order? min = some .lt ∨ w.order? max = some .gt) : v.order? w ≠ some .eq := by
  rcases h with h | h
  · rw [Literal.order?_swap, Option.map_eq_some_iff] at h
    obtain ⟨o, h, ho⟩ := h
    cases o <;> cases ho
    rw [low.gt_of_gt hmin h]
    decide
  · rw [Literal.order?_swap, Option.map_eq_some_iff] at h
    obtain ⟨o, h, ho⟩ := h
    cases o <;> cases ho
    rw [high.lt_of_lt hmax h]
    decide

theorem equalsTruth_allows (h : equalsTruth w min max = .ok t) :
    t.Allows (some (v.order? w == some .eq)) := by
  obtain ⟨l, hl, h⟩ := bind_eq_ok_iff.mp h
  obtain ⟨u, hu, h⟩ := bind_eq_ok_iff.mp h
  obtain ⟨hmin, hl⟩ := Literal.order?_of_compare? hl
  obtain ⟨hmax, hu⟩ := Literal.order?_of_compare? hu
  cases h
  split
  · split
    · rename_i hout
      refine Truth.allows_some (fun _ => beq_false_of_ne ?_) (fun h => (nomatch h))
      refine ne_of_outside low high hmin hmax ?_
      rw [hl, hu]
      exact hout.imp (congrArg some) (congrArg some)
    · split
      · rename_i heq
        refine Truth.allows_some (fun h => (nomatch h)) (fun _ => beq_iff_eq.mpr ?_)
        rw [heq.1] at hl
        rw [heq.2] at hu
        obtain ⟨hw, hb, hlow⟩ := Literal.order?_eq_eq_iff.mp hl
        obtain ⟨-, hc, hhigh⟩ := Literal.order?_eq_eq_iff.mp hu
        obtain ⟨hv, hrank⟩ := Literal.rank_eq_of_bounds_eq low high hb hc (hlow.symm.trans hhigh)
        exact Literal.order?_eq_eq_iff.mpr ⟨hv, hw, hrank.trans hlow.symm⟩
      · exact Truth.allows_yesNo _
  · exact Truth.allows_yesNo _

theorem lessThanTruth_allows (h : lessThanTruth w min max = .ok t) :
    t.Allows (some (v.order? w == some .lt)) := by
  obtain ⟨u, hu, h⟩ := bind_eq_ok_iff.mp h
  obtain ⟨l, hl, h⟩ := bind_eq_ok_iff.mp h
  obtain ⟨hmax, hu⟩ := Literal.order?_of_compare? hu
  obtain ⟨-, hl⟩ := Literal.order?_of_compare? hl
  cases h
  split
  · split
    · rename_i hlt
      refine Truth.allows_some (fun h => (nomatch h)) (fun _ => beq_iff_eq.mpr ?_)
      rw [hlt] at hu
      exact high.lt_of_lt hmax.symm hu
    · split
      · rename_i hge
        exact Truth.allows_some (fun _ => beq_false_of_ne (low.ne_lt hl hge)) (fun h => (nomatch h))
      · exact Truth.allows_yesNo _
  · exact Truth.allows_yesNo _

theorem lessThanEqualsTruth_allows (h : lessThanEqualsTruth w min max = .ok t) :
    t.Allows (some (!(v.order? w == some .gt))) := by
  obtain ⟨u, hu, h⟩ := bind_eq_ok_iff.mp h
  obtain ⟨l, hl, h⟩ := bind_eq_ok_iff.mp h
  obtain ⟨hmin, hl⟩ := Literal.order?_of_compare? hl
  obtain ⟨-, hu⟩ := Literal.order?_of_compare? hu
  cases h
  split
  · split
    · rename_i hle
      refine Truth.allows_some (fun h => (nomatch h)) (fun _ => ?_)
      rw [beq_false_of_ne (high.ne_gt hu hle)]
      rfl
    · split
      · rename_i hgt
        refine Truth.allows_some (fun _ => ?_) (fun h => (nomatch h))
        rw [hgt] at hl
        rw [low.gt_of_gt hmin.symm hl]
        rfl
      · exact Truth.allows_yesNo _
  · exact Truth.allows_yesNo _

theorem betweenTruth_allows {lower upper : Literal} (h : betweenTruth lower upper min max = .ok t) :
    t.Allows (some (!(v.order? lower == some .lt) && !(v.order? upper == some .gt))) := by
  obtain ⟨maxToLower, h₁, h⟩ := bind_eq_ok_iff.mp h
  obtain ⟨minToUpper, h₂, h⟩ := bind_eq_ok_iff.mp h
  obtain ⟨minToLower, h₃, h⟩ := bind_eq_ok_iff.mp h
  obtain ⟨maxToUpper, h₄, h⟩ := bind_eq_ok_iff.mp h
  obtain ⟨hmax, h₁⟩ := Literal.order?_of_compare? h₁
  obtain ⟨hmin, h₂⟩ := Literal.order?_of_compare? h₂
  obtain ⟨-, h₃⟩ := Literal.order?_of_compare? h₃
  obtain ⟨-, h₄⟩ := Literal.order?_of_compare? h₄
  cases h
  split
  · rename_i hout
    refine Truth.allows_some (fun _ => ?_) (fun h => (nomatch h))
    rcases hout with hout | hout
    · rw [hout] at h₁
      rw [high.lt_of_lt hmax.symm h₁]
      rfl
    · rw [hout] at h₂
      rw [low.gt_of_gt hmin.symm h₂, Bool.and_eq_false_iff]
      exact .inr rfl
  · split
    · rename_i hin
      refine Truth.allows_some (fun h => (nomatch h)) (fun _ => ?_)
      have hlower : v.order? lower ≠ some .lt := by
        rcases Bool.or_eq_true _ _ ▸ hin.1 with ho | ho
        · exact low.ne_lt (h₃.trans (beq_iff_eq.mp ho)) (by decide)
        · exact low.ne_lt (h₃.trans (beq_iff_eq.mp ho)) (by decide)
      have hupper : v.order? upper ≠ some .gt := by
        rcases Bool.or_eq_true _ _ ▸ hin.2 with ho | ho
        · exact high.ne_gt (h₄.trans (beq_iff_eq.mp ho)) (by decide)
        · exact high.ne_gt (h₄.trans (beq_iff_eq.mp ho)) (by decide)
      rw [beq_false_of_ne hlower, beq_false_of_ne hupper]
      rfl
    · exact Truth.allows_yesNo _

/-- The first literal that equals the one value decides; a literal that is no number hides
whether a later one does. -/
theorem isInConstant_allows {ls : List Literal} (equal : min.order? max = some .eq)
    (h : isInConstant min ls = .ok t) :
    t.Allows (some (ls.any fun l => v.order? l == some .eq)) := by
  induction ls with
  | nil =>
      cases h
      rfl
  | cons l ls ih =>
      obtain ⟨o, ho, h⟩ := bind_eq_ok_iff.mp h
      obtain ⟨-, ho⟩ := Literal.order?_of_compare? ho
      rw [Literal.order?_swap, ← Literal.order?_eq_of_bounds_eq low high equal] at ho
      rw [List.any_cons]
      cases hl : v.order? l with
      | none =>
          rw [hl] at ho
          subst ho
          cases h
          exact Truth.allows_yesNo _
      | some o' =>
          rw [hl] at ho
          subst ho
          cases o' with
          | lt => exact ih h
          | gt => exact ih h
          | eq =>
              cases h
              rfl

theorem isInRange_allows {ls : List Literal} (h : isInRange min max ls = .ok t) :
    t.Allows (some (ls.any fun l => v.order? l == some .eq)) := by
  induction ls with
  | nil =>
      cases h
      rfl
  | cons l ls ih =>
      obtain ⟨o, ho, h⟩ := bind_eq_ok_iff.mp h
      obtain ⟨u, hu, h⟩ := bind_eq_ok_iff.mp h
      obtain ⟨hmin, rfl⟩ := Literal.order?_of_compare? ho
      obtain ⟨hmax, rfl⟩ := Literal.order?_of_compare? hu
      split at h
      · rename_i hout
        rw [List.any_cons, beq_false_of_ne (ne_of_outside low high hmin hmax hout), Bool.false_or]
        exact ih h
      · cases h
        exact Truth.allows_yesNo _

theorem isInTruth_allows {ls : List Literal} (h : isInTruth ls min max = .ok t) :
    t.Allows (some (ls.any fun l => v.order? l == some .eq)) := by
  obtain ⟨o, ho, h⟩ := bind_eq_ok_iff.mp h
  obtain ⟨-, rfl⟩ := Literal.order?_of_compare? ho
  split at h
  · exact isInConstant_allows low high ‹_› h
  · exact isInRange_allows low high h

/-- The truth of a test over values between two bounds allows its answer to each of them. -/
theorem boundedTruth_allows {test : Test} {hasNull : Bool}
    (h : test.boundedTruth hasNull min max = .ok t) : t.Allows (some (test.holds v)) := by
  cases test with
  | equals w =>
      obtain ⟨u, hu, rfl⟩ := map_eq_ok_iff.mp h
      exact (equalsTruth_allows low high hu).withNulls hasNull
  | nullSafeEquals w =>
      obtain ⟨u, hu, rfl⟩ := map_eq_ok_iff.mp h
      split
      · exact Truth.allows_yesNo _
      · exact equalsTruth_allows low high hu
  | lessThan w =>
      obtain ⟨u, hu, rfl⟩ := map_eq_ok_iff.mp h
      exact (lessThanTruth_allows low high hu).withNulls hasNull
  | lessThanEquals w =>
      obtain ⟨u, hu, rfl⟩ := map_eq_ok_iff.mp h
      exact (lessThanEqualsTruth_allows low high hu).withNulls hasNull
  | between lower upper =>
      obtain ⟨u, hu, rfl⟩ := map_eq_ok_iff.mp h
      exact (betweenTruth_allows low high hu).withNulls hasNull
  | isIn first rest =>
      obtain ⟨u, hu, rfl⟩ := map_eq_ok_iff.mp h
      exact (isInTruth_allows low high hu).withNulls hasNull
  | isNull =>
      cases h
      exact Truth.allows_yesNoNull _

end bounded

/-- The truth of a test over values between two bounds allows its answer to a null. -/
theorem boundedTruth_allows_null {test : Test} {min max : Literal} {t : Truth}
    (h : test.boundedTruth true min max = .ok t) : t.Allows test.ofNull := by
  cases test with
  | nullSafeEquals w =>
      obtain ⟨u, hu, rfl⟩ := map_eq_ok_iff.mp h
      rcases equalsTruth_cases hu with rfl | rfl | rfl <;> rfl
  | isNull =>
      cases h
      rfl
  | _ => trivial

end Test

/-! ### Statistics -/

namespace Statistics

/-- Whether statistics cover a row: they announce its null, or count its value and bound it by
decided comparisons wherever they name a number. -/
def Covers (s : Statistics) : Option Literal → Prop
  | none => s.hasNull = true
  | some v => s.count ≠ 0 ∧ (∀ b ∈ s.min, b.isNaN = false → b.AtMost v) ∧
      (∀ b ∈ s.max, b.isNaN = false → v.AtMost b)

instance (s : Statistics) : (v : Option Literal) → Decidable (s.Covers v)
  | none => inferInstanceAs (Decidable (s.hasNull = true))
  | some v => inferInstanceAs (Decidable (s.count ≠ 0 ∧
      (∀ b ∈ s.min, b.isNaN = false → b.AtMost v) ∧ ∀ b ∈ s.max, b.isNaN = false → v.AtMost b))

/-- Whether statistics admit a row: as `Covers`, but a value that is no number may also lie
between the infinities. -/
def Admits (s : Statistics) : Option Literal → Prop
  | none => s.hasNull = true
  | some v => s.count ≠ 0 ∧ (∀ b ∈ s.min, b.BoundsBelow v) ∧ (∀ b ∈ s.max, b.BoundsAbove v)

theorem Covers.admits {s : Statistics} {v : Option Literal} (h : s.Covers v) : s.Admits v := by
  cases v with
  | none => exact h
  | some v =>
      obtain ⟨hcount, hmin, hmax⟩ := h
      refine ⟨hcount, fun b hb => ?_, fun b hb => ?_⟩
      · cases hn : b.isNaN with
        | true => exact .inl hn
        | false => exact .inr (.inl (hmin b hb hn))
      · cases hn : b.isNaN with
        | true => exact .inl hn
        | false => exact .inr (.inl (hmax b hb hn))

end Statistics

theorem Test.truth_allows_null {test : Test} {s : Statistics} {t : Truth}
    (h : test.truth s = .ok t) (hasNull : s.hasNull = true) : t.Allows test.ofNull := by
  unfold Test.truth at h
  split at h
  · rename_i hnull
    subst hnull
    cases h
    rw [isNullTruth, hasNull, if_pos rfl]
    split <;> rfl
  · split at h
    · cases h
      cases test <;> trivial
    · split at h
      · rw [hasNull] at h
        exact boundedTruth_allows_null h
      · cases h
        exact Truth.allows_yesNoNull _

theorem Test.truth_allows_value {test : Test} {s : Statistics} {v : Literal} {t : Truth}
    (h : test.truth s = .ok t) (admits : s.Admits (some v)) : t.Allows (some (test.holds v)) := by
  obtain ⟨hcount, hmin, hmax⟩ := admits
  unfold Test.truth at h
  split at h
  · rename_i hnull
    subst hnull
    cases h
    rw [isNullTruth, if_neg hcount]
    split <;> rfl
  · split at h
    · rename_i min max hlow hhigh
      exact boundedTruth_allows (hmin min hlow) (hmax max hhigh) h
    · cases h
      exact Truth.allows_yesNoNull _

/-- The truth of a predicate over statistics allows its answer to every row that they admit. -/
theorem Predicate.truth_allows {p : Predicate} {s : Statistics} {v : Option Literal} {t : Truth}
    (h : p.truth s = .ok t) (admits : s.Admits v) : t.Allows (p.answer v) := by
  cases v with
  | none => exact Test.truth_allows_null h admits
  | some v => exact Test.truth_allows_value h admits

end StripeScan
