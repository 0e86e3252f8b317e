import StripeScan.Proofs.Logic.Nulls
import StripeScan.Proofs.Statistics.Coarser
import StripeScan.Proofs.Statistics.Constant

/-! # Bounds are used to the full

Of a column only its bounds are known, so every value between them may occur.  Where the values are
no floats, the truth of a test leaves open only what such values show (`Test.Tight`): if a match is
not excluded then some value between the bounds matches, and if it is not certain then some value
does not.

Together with soundness the truth of a predicate says exactly what its test does between the bounds
(`Predicate.truth_sharp`).  Membership in a list is certain over one value only
(`Test.isInTruth_decided`), although a longer list may well hold all values between two bounds. -/

namespace StripeScan

namespace Literal

/-- Whether a value lies between two bounds. -/
def IsBetween (w min max : Literal) : Prop := min.AtMost w ∧ w.AtMost max

theorem number_of_kind {v : Literal} {kind : Kind} (notFloat : kind ≠ .float) (hv : v.kind = kind) :
    v.isNaN = false := isNaN_eq_false (hv ▸ notFloat)

theorem isBetween_iff {w min max : Literal} {kind : Kind} (notFloat : kind ≠ .float)
    (hmin : min.kind = kind) (hmax : max.kind = kind) :
    w.IsBetween min max ↔ w.kind = kind ∧ min.rank ≤ w.rank ∧ w.rank ≤ max.rank := by
  unfold IsBetween
  rw [atMost_iff, atMost_iff]
  constructor
  · rintro ⟨⟨hw, -, -, hlow⟩, -, -, -, hhigh⟩
    exact ⟨hw ▸ hmin, hlow, hhigh⟩
  · rintro ⟨hw, hlow, hhigh⟩
    have number : w.isNaN = false := number_of_kind notFloat hw
    exact ⟨⟨hmin.trans hw.symm, number_of_kind notFloat hmin, number, hlow⟩,
      hw.trans hmax.symm, number, number_of_kind notFloat hmax, hhigh⟩

end Literal

open Literal

/-! ### Tests of numbers -/

namespace Test

section holds

variable {v w lower upper : Literal} (hw : w.isNaN = false)

include hw

theorem holds_equals_iff (hv : v.isNaN = false) : (equals v).holds w = true ↔ w.rank = v.rank := by
  simp [holds, order?_eq_eq_iff, hv, hw]

theorem holds_lessThan_iff (hv : v.isNaN = false) :
    (lessThan v).holds w = true ↔ w.rank < v.rank := by
  simp [holds, order?_eq_lt_iff, hv, hw]

theorem holds_lessThanEquals_iff (hv : v.isNaN = false) :
    (lessThanEquals v).holds w = true ↔ w.rank ≤ v.rank := by
  simp [holds, order?_eq_gt_iff, hv, hw]

theorem holds_between_iff (hlower : lower.isNaN = false) (hupper : upper.isNaN = false) :
    (between lower upper).holds w = true ↔ lower.rank ≤ w.rank ∧ w.rank ≤ upper.rank := by
  simp [holds, order?_eq_lt_iff, order?_eq_gt_iff, hlower, hupper, hw]

end holds

/-! ### Tight truths -/

/-- Whether a truth leaves open only what values between two bounds show: a match unless it excludes
one, and a value that does not match unless it excludes that. -/
structure Tight (test : Test) (t : Truth) (min max : Literal) : Prop where
  holds : t.isNeeded = true → ∃ w, w.IsBetween min max ∧ test.holds w = true
  fails : t.not.isNeeded = true → ∃ w, w.IsBetween min max ∧ test.holds w = false

section tight

variable {kind : Kind} (notFloat : kind ≠ .float) {min max : Literal} {t : Truth}
variable (hmin : min.kind = kind) (hmax : max.kind = kind)

include notFloat hmin hmax

/-- A test of the place in the order: one of the bounds shows that it fails, unless it holds of
both. -/
theorem tight_of_ranks {test : Test} {R : ℚ ×ₗ String → Prop} (ordered : min.rank ≤ max.rank)
    (ranks : ∀ w : Literal, w.kind = kind → (test.holds w = true ↔ R w.rank))
    (excluded : (∀ w : Literal, w.kind = kind → min.rank ≤ w.rank → w.rank ≤ max.rank →
      ¬ R w.rank) → t.isNeeded = false)
    (certain : R min.rank → R max.rank → t.not.isNeeded = false) : test.Tight t min max := by
  constructor
  · intro ht
    by_contra hnone
    have hfalse := excluded fun w hw hlow hhigh hR =>
      hnone ⟨w, (isBetween_iff notFloat hmin hmax).mpr ⟨hw, hlow, hhigh⟩, (ranks w hw).mpr hR⟩
    exact Bool.false_ne_true (hfalse.symm.trans ht)
  · intro ht
    have fails {w : Literal} (hw : w.kind = kind) (hR : ¬ R w.rank) : test.holds w = false :=
      Bool.eq_false_iff.mpr fun h => hR ((ranks w hw).mp h)
    by_cases hlow : R min.rank
    · have hhigh : ¬ R max.rank := fun hhigh =>
        Bool.false_ne_true ((certain hlow hhigh).symm.trans ht)
      exact ⟨max, (isBetween_iff notFloat hmin hmax).mpr ⟨hmax, ordered, le_rfl⟩, fails hmax hhigh⟩
    · exact ⟨min, (isBetween_iff notFloat hmin hmax).mpr ⟨hmin, le_rfl, ordered⟩, fails hmin hlow⟩

variable (ordered : min.rank ≤ max.rank)

include ordered

theorem equalsTruth_tight {v : Literal} (hv : v.kind = kind) (h : equalsTruth v min max = .ok t) :
    (equals v).Tight t min max := by
  obtain ⟨-, -, hno, hyes⟩ := equalsTruth_decided h
  simp only [number_of_kind notFloat, hv, hmin, hmax, true_and] at hno hyes
  apply tight_of_ranks notFloat hmin hmax ordered (R := (· = v.rank))
  · intro w hw
    exact holds_equals_iff (number_of_kind notFloat hw) (number_of_kind notFloat hv)
  · intro hnone
    refine hno.mpr ?_
    by_contra hinside
    rw [not_or, not_lt, not_lt] at hinside
    exact hnone v hv hinside.1 hinside.2 rfl
  · intro hlow hhigh
    exact hyes.mpr ⟨hlow.symm, hhigh.symm⟩

theorem lessThanTruth_tight {v : Literal} (hv : v.kind = kind)
    (h : lessThanTruth v min max = .ok t) : (lessThan v).Tight t min max := by
  obtain ⟨-, -, hno, hyes⟩ := lessThanTruth_decided h
  simp only [number_of_kind notFloat, hv, hmin, hmax, true_and] at hno hyes
  apply tight_of_ranks notFloat hmin hmax ordered (R := (· < v.rank))
  · intro w hw
    exact holds_lessThan_iff (number_of_kind notFloat hw) (number_of_kind notFloat hv)
  · intro hnone
    have hge : v.rank ≤ min.rank := not_lt.mp (hnone min hmin le_rfl ordered)
    exact hno.mpr ⟨hge, hge.trans ordered⟩
  · intro _ hhigh
    exact hyes.mpr hhigh

theorem lessThanEqualsTruth_tight {v : Literal} (hv : v.kind = kind)
    (h : lessThanEqualsTruth v min max = .ok t) : (lessThanEquals v).Tight t min max := by
  obtain ⟨-, -, hno, hyes⟩ := lessThanEqualsTruth_decided h
  simp only [number_of_kind notFloat, hv, hmin, hmax, true_and] at hno hyes
  apply tight_of_ranks notFloat hmin hmax ordered (R := (· ≤ v.rank))
  · intro w hw
    exact holds_lessThanEquals_iff (number_of_kind notFloat hw) (number_of_kind notFloat hv)
  · intro hnone
    have hgt : v.rank < min.rank := not_le.mp (hnone min hmin le_rfl ordered)
    exact hno.mpr ⟨hgt, hgt.trans_le ordered⟩
  · intro _ hhigh
    exact hyes.mpr hhigh

theorem betweenTruth_tight {lower upper : Literal} (hlower : lower.kind = kind)
    (hupper : upper.kind = kind) (upright : lower.rank ≤ upper.rank)
    (h : betweenTruth lower upper min max = .ok t) : (between lower upper).Tight t min max := by
  obtain ⟨-, -, hno, hyes⟩ := betweenTruth_decided h
  simp only [number_of_kind notFloat, hlower, hupper, hmin, hmax, true_and] at hno hyes
  apply tight_of_ranks notFloat hmin hmax ordered (R := fun r => lower.rank ≤ r ∧ r ≤ upper.rank)
  · intro w hw
    exact holds_between_iff (number_of_kind notFloat hw) (number_of_kind notFloat hlower)
      (number_of_kind notFloat hupper)
  · intro hnone
    refine hno.mpr ?_
    by_contra hmeet
    rw [not_or, not_lt, not_lt] at hmeet
    -- The greater of the two lower ends lies in both ranges.
    rcases le_total lower.rank min.rank with hle | hle
    · exact hnone min hmin le_rfl ordered ⟨hle, hmeet.2⟩
    · exact hnone lower hlower hle hmeet.1 ⟨le_rfl, upright⟩
  · rintro ⟨hlow, hmid⟩ ⟨hmid', hhigh⟩
    exact hyes.mpr ⟨hmid', hmid, hlow, hhigh⟩

/-- But for membership, what a test leaves open occurs.  Nulls take certainty from a comparison that
treats them as values. -/
theorem boundedTruth_tight {test : Test} {hasNull : Bool} (notNull : test.operator ≠ .isNull)
    (notIn : test.operator ≠ .isIn) (kinds : ∀ l ∈ test.literals, l.kind = kind)
    (upright : ∀ lower upper, test = .between lower upper → lower.rank ≤ upper.rank)
    (h : test.boundedTruth hasNull min max = .ok t) :
    ∃ u, test.Tight u min max ∧ t.isNeeded = u.isNeeded ∧
      ((test.operator = .nullSafeEquals → hasNull = false) →
        t.not.isNeeded = u.not.isNeeded) := by
  have withNulls {u : Truth} (hu : test.Tight u min max) (ht : u.withNulls hasNull = t) :
      ∃ u, test.Tight u min max ∧ t.isNeeded = u.isNeeded ∧
        ((test.operator = .nullSafeEquals → hasNull = false) →
          t.not.isNeeded = u.not.isNeeded) := by
    subst ht
    exact ⟨u, hu, u.isNeeded_withNulls hasNull, fun _ => u.isNeeded_not_withNulls hasNull⟩
  cases test with
  | equals v =>
      obtain ⟨u, hu, ht⟩ := map_eq_ok_iff.mp h
      have hv : v.kind = kind := kinds v List.mem_cons_self
      exact withNulls (equalsTruth_tight notFloat hmin hmax ordered hv hu) ht
  | nullSafeEquals v =>
      obtain ⟨u, hu, rfl⟩ := map_eq_ok_iff.mp h
      have hv : v.kind = kind := kinds v List.mem_cons_self
      have htight := equalsTruth_tight notFloat hmin hmax ordered hv hu
      refine ⟨u, ⟨htight.holds, htight.fails⟩, ?_, fun nulls => ?_⟩
      · split
        · rename_i hyes
          rw [hyes.1]
          rfl
        · rfl
      · rw [nulls rfl]
        simp
  | lessThan v =>
      obtain ⟨u, hu, ht⟩ := map_eq_ok_iff.mp h
      have hv : v.kind = kind := kinds v List.mem_cons_self
      exact withNulls (lessThanTruth_tight notFloat hmin hmax ordered hv hu) ht
  | lessThanEquals v =>
      obtain ⟨u, hu, ht⟩ := map_eq_ok_iff.mp h
      have hv : v.kind = kind := kinds v List.mem_cons_self
      exact withNulls (lessThanEqualsTruth_tight notFloat hmin hmax ordered hv hu) ht
  | between lower upper =>
      obtain ⟨u, hu, ht⟩ := map_eq_ok_iff.mp h
      have hlower : lower.kind = kind := kinds lower List.mem_cons_self
      have hupper : upper.kind = kind := kinds upper (List.mem_cons_of_mem lower List.mem_cons_self)
      exact withNulls (betweenTruth_tight notFloat hmin hmax ordered hlower hupper
        (upright lower upper rfl) hu) ht
  | isNull => exact absurd rfl notNull
  | isIn first rest => exact absurd rfl notIn

omit ordered

/-- Membership is excluded if every literal lies outside, and certain only where the bounds are one
value and a literal is that value. -/
theorem isInTruth_decided {ls : List Literal} (kinds : ∀ l ∈ ls, l.kind = kind)
    (h : isInTruth ls min max = .ok t) :
    (t.isNeeded = false ↔ ∀ l ∈ ls, l.rank < min.rank ∨ max.rank < l.rank) ∧
      (t.not.isNeeded = false ↔ min.rank = max.rank ∧ ∃ l ∈ ls, l.rank = min.rank) := by
  have numbers : ∀ l ∈ ls, l.isNaN = false := fun l hl => number_of_kind notFloat (kinds l hl)
  have hlow : min.isNaN = false := number_of_kind notFloat hmin
  have hhigh : max.isNaN = false := number_of_kind notFloat hmax
  obtain ⟨order, horder, h⟩ := bind_eq_ok_iff.mp h
  obtain ⟨-, rfl⟩ := order?_of_compare? horder
  simp only [order?_eq_eq_iff, hlow, hhigh, true_and] at h
  by_cases hrank : min.rank = max.rank
  · have kinds' : ∀ l ∈ ls, l.kind = min.kind := fun l hl => (kinds l hl).trans hmin.symm
    rw [if_pos hrank, isInConstant_constant (.refl min) hlow kinds' numbers] at h
    cases h
    have hany : (ls.any fun l => min.order? l == some .eq) = true ↔
        ∃ l ∈ ls, l.rank = min.rank := by
      rw [List.any_eq_true]
      refine exists_congr fun l => and_congr_right fun hl => ?_
      rw [beq_iff_eq, order?_eq_eq_iff, numbers l hl, eq_comm (a := l.rank)]
      simp [hlow]
    rw [← hrank, eq_self, true_and, ← hany, Truth.not_ofBool, Truth.isNeeded_ofBool,
      Truth.isNeeded_ofBool]
    constructor
    · rw [← Bool.not_eq_true, hany]
      simp only [not_exists, not_and, lt_or_lt_iff_ne, ne_eq]
    · rw [Bool.not_eq_false']
  · rw [if_neg hrank] at h
    obtain ⟨hnot, hall⟩ := isInRange_decided h
    constructor
    · rw [hall]
      refine forall₂_congr fun l hl => ?_
      simp [order?_eq_lt_iff, order?_eq_gt_iff, numbers l hl, hlow, hhigh]
    · rw [hnot]
      exact iff_of_false (by decide) fun hpoint => hrank hpoint.1

theorem boundedTruth_isIn {test : Test} {hasNull : Bool} (isIn : test.operator = .isIn)
    (kinds : ∀ l ∈ test.literals, l.kind = kind) (h : test.boundedTruth hasNull min max = .ok t) :
    (t.isNeeded = false ↔ ∀ l ∈ test.literals, l.rank < min.rank ∨ max.rank < l.rank) ∧
      (t.not.isNeeded = false ↔
        min.rank = max.rank ∧ ∃ l ∈ test.literals, l.rank = min.rank) := by
  cases test <;> cases isIn
  obtain ⟨u, hu, rfl⟩ := map_eq_ok_iff.mp h
  rw [Truth.isNeeded_withNulls, Truth.isNeeded_not_withNulls]
  exact isInTruth_decided notFloat hmin hmax kinds hu

include ordered

/-- A match is left open exactly if a value between the bounds shows one. -/
theorem boundedTruth_possible {test : Test} {hasNull : Bool} (notNull : test.operator ≠ .isNull)
    (kinds : ∀ l ∈ test.literals, l.kind = kind)
    (upright : ∀ lower upper, test = .between lower upper → lower.rank ≤ upper.rank)
    (h : test.boundedTruth hasNull min max = .ok t) :
    t.isNeeded = true ↔ ∃ w, w.IsBetween min max ∧ test.holds w = true := by
  constructor
  · intro ht
    by_cases hin : test.operator = .isIn
    · cases test <;> cases hin
      rename_i first rest
      obtain ⟨hout, -⟩ := boundedTruth_isIn notFloat hmin hmax rfl kinds h
      by_contra hnone
      refine Bool.false_ne_true ((hout.mpr fun l hl => ?_).symm.trans ht)
      by_contra hinside
      rw [not_or, not_lt, not_lt] at hinside
      have hkind : l.kind = kind := kinds l hl
      have number : l.isNaN = false := number_of_kind notFloat hkind
      have hself : l.order? l = some .eq := order?_eq_eq_iff.mpr ⟨number, number, rfl⟩
      exact hnone ⟨l, (isBetween_iff notFloat hmin hmax).mpr ⟨hkind, hinside⟩,
        List.any_eq_true.mpr ⟨l, hl, beq_iff_eq.mpr hself⟩⟩
    · obtain ⟨u, htight, hneeded, -⟩ :=
        boundedTruth_tight notFloat hmin hmax ordered notNull hin kinds upright h
      exact htight.holds (hneeded ▸ ht)
  · rintro ⟨w, ⟨hlow, hhigh⟩, hw⟩
    have hallows := boundedTruth_allows (.inr (.inl hlow)) (.inr (.inl hhigh)) h
    rwa [hw] at hallows

/-- A value that does not match is left open exactly if one between the bounds shows it. -/
theorem boundedTruth_doubtful {test : Test} {hasNull : Bool} (notNull : test.operator ≠ .isNull)
    (notIn : test.operator ≠ .isIn) (nulls : test.operator = .nullSafeEquals → hasNull = false)
    (kinds : ∀ l ∈ test.literals, l.kind = kind)
    (upright : ∀ lower upper, test = .between lower upper → lower.rank ≤ upper.rank)
    (h : test.boundedTruth hasNull min max = .ok t) :
    t.not.isNeeded = true ↔ ∃ w, w.IsBetween min max ∧ test.holds w = false := by
  constructor
  · intro ht
    obtain ⟨u, htight, -, hdoubtful⟩ :=
      boundedTruth_tight notFloat hmin hmax ordered notNull notIn kinds upright h
    exact htight.fails (hdoubtful nulls ▸ ht)
  · rintro ⟨w, ⟨hlow, hhigh⟩, hw⟩
    have hallows := boundedTruth_allows (.inr (.inl hlow)) (.inr (.inl hhigh)) h
    rwa [hw] at hallows

end tight

end Test

/-! ### Predicates -/

namespace Predicate

/-- What the truth of a predicate says of the values between two bounds in order.  It excludes a
match exactly if none of them matches; it is certain exactly if all of them match, unless nulls take
away the certainty.  Membership is certain over one value only, if it is in the list. -/
theorem truth_sharp {p : Predicate} (notNull : p.operator ≠ .isNull) (notFloat : p.kind ≠ .float)
    {s : Statistics} (kinds : s.OfKind p.kind) (values : 0 < s.count) {min max : Literal}
    (hmin : s.min = some min) (hmax : s.max = some max) (ordered : min.AtMost max)
    (upright : ∀ lower upper, p.test = .between lower upper → lower.AtMost upper) :
    ∃ t, p.truth s = .ok t ∧
      ((t = .no ∨ t = .noNull) ↔
        ¬ ∃ w : Literal, w.IsBetween min max ∧ p.verdict (some w) = .ok (some true)) ∧
      (p.operator ≠ .isIn → (p.operator = .nullSafeEquals → s.hasNull = false) →
        ((t = .yes ∨ t = .yesNull) ↔
          ∀ w : Literal, w.IsBetween min max → p.verdict (some w) = .ok (some true))) ∧
      (p.operator = .isIn →
        ((t = .yes ∨ t = .yesNull) ↔
          min.compare? max = .ok (some .eq) ∧ ∃ v ∈ p.literals,
            v.compare? min = .ok (some .eq) ∧ v.compare? max = .ok (some .eq))) := by
  have kmin : min.kind = p.kind := kinds.min min hmin
  have kmax : max.kind = p.kind := kinds.max max hmax
  have hrank : min.rank ≤ max.rank := (atMost_iff.mp ordered).2.2.2
  have upright' : ∀ lower upper, p.test = .between lower upper → lower.rank ≤ upper.rank :=
    fun lower upper h => (atMost_iff.mp (upright lower upper h)).2.2.2
  have htruth : p.truth s = p.test.boundedTruth s.hasNull min max := by
    have hnull : p.test ≠ .isNull := fun h => notNull (congrArg Test.operator h)
    rw [truth, Test.truth, if_neg hnull, if_neg values.ne', hmin, hmax]
  have hverdict {w : Literal} (hw : w.IsBetween min max) :
      p.verdict (some w) = .ok (some (p.test.holds w)) := by
    apply verdict_eq
    rintro _ ⟨⟩
    exact ((isBetween_iff notFloat kmin kmax).mp hw).1
  obtain ⟨t, ht⟩ := Test.boundedTruth_eq_ok kmin kmax p.literal_kinds s.hasNull
  refine ⟨t, htruth.trans ht, ?_, fun notIn nulls => ?_, fun isIn => ?_⟩
  · rw [Truth.eq_no_or_noNull_iff, ← Bool.not_eq_true,
      Test.boundedTruth_possible notFloat kmin kmax hrank notNull p.literal_kinds upright' ht]
    refine not_congr (exists_congr fun w => and_congr_right fun hw => ?_)
    rw [hverdict hw, Except.ok.injEq, Option.some.injEq]
  · rw [Truth.eq_yes_or_yesNull_iff, ← Bool.not_eq_true, Test.boundedTruth_doubtful notFloat kmin
      kmax hrank notNull notIn nulls p.literal_kinds upright' ht, not_exists]
    refine forall_congr' fun w => ?_
    rw [not_and]
    refine forall_congr' fun hw => ?_
    rw [hverdict hw, Except.ok.injEq, Option.some.injEq, Bool.not_eq_false]
  · obtain ⟨-, hyes⟩ := Test.boundedTruth_isIn notFloat kmin kmax isIn p.literal_kinds ht
    have hequal {a b : Literal} (ha : a.kind = p.kind) (hb : b.kind = p.kind) :
        a.compare? b = .ok (some .eq) ↔ a.rank = b.rank := by
      rw [compare?_eq (ha.trans hb.symm), Except.ok.injEq, order?_eq_eq_iff,
        number_of_kind notFloat ha, number_of_kind notFloat hb]
      simp
    rw [Truth.eq_yes_or_yesNull_iff, hyes, hequal kmin kmax]
    refine and_congr_right fun hpoint => exists_congr fun l => and_congr_right fun hl => ?_
    have hl : l.kind = p.kind := p.literal_kinds l hl
    rw [hequal hl kmin, hequal hl kmax, ← hpoint, and_self]

/-- Values from five to seven, some of them null, and a range from three to nine around them. -/
theorem truth_sharp_threeToNine :
    ∃ p : Predicate, p.test = .between (.long 3) (.long 9) ∧
      p.truth ⟨true, 4, some (.long 5), some (.long 7)⟩ = .ok .yesNull ∧
      ∀ w : Literal, w.IsBetween (.long 5) (.long 7) → p.verdict (some w) = .ok (some true) := by
  have upright : ∀ lower upper, Test.between (.long 3) (.long 9) = .between lower upper →
      lower.AtMost upper := by
    rintro _ _ ⟨⟩
    decide
  obtain ⟨t, ht, -, hyes, -⟩ :=
    truth_sharp (p := ⟨.name "x", .long, .between (.long 3) (.long 9), by decide⟩)
      (s := ⟨true, 4, some (.long 5), some (.long 7)⟩) (by decide) (by decide) (by decide)
      (by decide) rfl rfl (by decide) upright
  refine ⟨_, rfl, rfl, (hyes (by decide) (by decide)).mp (.inr ?_)⟩
  cases ht
  rfl

end Predicate

end StripeScan
