import StripeScan.Proofs.SearchArgument.Alike
import StripeScan.Proofs.Statistics.Deriving

/-! # Statistics that claim less

Statistics are coarser than others if each of their bounds is the bound of the others or lies
beyond it, and if they announce all that the others announce (`Statistics.Coarser`).  Merging makes
statistics coarser, on either side and whatever they are merged with (`merge_coarser`).

`equalsTruth_decided` and its siblings say when a test is certain over values between two bounds.
From these, coarser statistics exclude no more (`Test.truth_within`), provided that the bounds that
are replaced are in order. -/

namespace StripeScan

namespace Literal

/-- Whether a lower bound is another one or lies below it. -/
def ReachesBelow (c a : Literal) : Prop := c = a ∨ c.AtMost a

/-- Whether an upper bound is another one or lies above it. -/
def ReachesAbove (c a : Literal) : Prop := c = a ∨ a.AtMost c

/-- Whether two literals are in order, or their order is not decided. -/
def InOrder (a b : Literal) : Prop := ∀ order, a.compare? b = .ok (some order) → order ≠ .gt

variable {a b c : Literal}

theorem InOrder.rank_le (h : a.InOrder b) (kinds : a.kind = b.kind) (ha : a.isNaN = false)
    (hb : b.isNaN = false) : a.rank ≤ b.rank := by
  by_contra hlt
  refine h .gt ?_ rfl
  rw [compare?_eq kinds, order?_eq_gt_iff.mpr ⟨ha, hb, not_le.mp hlt⟩]

theorem ReachesBelow.refl (a : Literal) : a.ReachesBelow a := .inl rfl

theorem ReachesAbove.refl (a : Literal) : a.ReachesAbove a := .inl rfl

theorem ReachesBelow.kind (h : c.ReachesBelow a) : c.kind = a.kind := by
  rcases h with rfl | h
  · rfl
  · exact (atMost_iff.mp h).1

theorem ReachesAbove.kind (h : c.ReachesAbove a) : c.kind = a.kind := by
  rcases h with rfl | h
  · rfl
  · exact (atMost_iff.mp h).1.symm

theorem ReachesBelow.rank_le (h : c.ReachesBelow a) (hc : c.isNaN = false) :
    a.isNaN = false ∧ c.rank ≤ a.rank := by
  rcases h with rfl | h
  · exact ⟨hc, le_rfl⟩
  · exact (atMost_iff.mp h).2.2

theorem ReachesAbove.le_rank (h : c.ReachesAbove a) (hc : c.isNaN = false) :
    a.isNaN = false ∧ a.rank ≤ c.rank := by
  rcases h with rfl | h
  · exact ⟨hc, le_rfl⟩
  · obtain ⟨-, ha, -, hle⟩ := atMost_iff.mp h
    exact ⟨ha, hle⟩

theorem ReachesBelow.trans (hcb : c.ReachesBelow b) (hba : b.ReachesBelow a) :
    c.ReachesBelow a := by
  rcases hcb with rfl | hcb
  · exact hba
  · rcases hba with rfl | hba
    · exact .inr hcb
    · obtain ⟨kcb, hc, -, hle⟩ := atMost_iff.mp hcb
      obtain ⟨kba, -, ha, hle'⟩ := atMost_iff.mp hba
      exact .inr (atMost_iff.mpr ⟨kcb.trans kba, hc, ha, hle.trans hle'⟩)

/-- What does not lie above a bound that reaches below reaches below as well. -/
theorem ReachesBelow.widen (h : b.ReachesBelow a) (hc : c.isNaN = false) (hb : b.isNaN = false)
    (kinds : c.kind = b.kind) (hcb : b.order? c ≠ some .lt) : c.ReachesBelow a := by
  refine .trans (.inr (atMost_iff.mpr ⟨kinds, hc, hb, not_lt.mp fun hlt => hcb ?_⟩)) h
  exact order?_eq_lt_iff.mpr ⟨hb, hc, hlt⟩

theorem ReachesAbove.trans (hcb : c.ReachesAbove b) (hba : b.ReachesAbove a) :
    c.ReachesAbove a := by
  rcases hcb with rfl | hcb
  · exact hba
  · rcases hba with rfl | hba
    · exact .inr hcb
    · obtain ⟨kbc, -, hc, hle⟩ := atMost_iff.mp hcb
      obtain ⟨kab, ha, -, hle'⟩ := atMost_iff.mp hba
      exact .inr (atMost_iff.mpr ⟨kab.trans kbc, ha, hc, hle'.trans hle⟩)

theorem ReachesAbove.widen (h : b.ReachesAbove a) (hc : c.isNaN = false) (hb : b.isNaN = false)
    (kinds : c.kind = b.kind) (hcb : b.order? c ≠ some .gt) : c.ReachesAbove a := by
  refine .trans (.inr (atMost_iff.mpr ⟨kinds.symm, hb, hc, not_lt.mp fun hlt => hcb ?_⟩)) h
  exact order?_eq_gt_iff.mpr ⟨hb, hc, hlt⟩

/-- The order of two literals is decided exactly if both are numbers, and then it is that of their
ranks. -/
theorem order?_cases (a b : Literal) :
    (a.order? b = none ∧ (a.isNaN = true ∨ b.isNaN = true)) ∨
    (a.isNaN = false ∧ b.isNaN = false ∧
      ((a.order? b = some .lt ∧ a.rank < b.rank) ∨ (a.order? b = some .eq ∧ a.rank = b.rank) ∨
        (a.order? b = some .gt ∧ b.rank < a.rank))) := by
  rcases h : a.order? b with _ | o
  · exact .inl ⟨rfl, order?_eq_none_iff.mp h⟩
  · obtain ⟨ha, hb, hcompare⟩ := order?_eq_some_iff.mp h
    refine .inr ⟨ha, hb, ?_⟩
    cases o with
    | lt => exact .inl ⟨rfl, compare_lt_iff_lt.mp hcompare⟩
    | eq => exact .inr (.inl ⟨rfl, compare_eq_iff_eq.mp hcompare⟩)
    | gt => exact .inr (.inr ⟨rfl, compare_gt_iff_gt.mp hcompare⟩)

end Literal

/-! ### When a test is certain -/

namespace Test

section decided

variable {v min max : Literal} {t : Truth}

/-- A truth that is found from two comparisons: both are of literals of one kind. -/
theorem eq_of_compare {a b c d : Literal} {decide : Option Ordering → Option Ordering → Truth}
    (h : (do
      let first ← a.compare? b
      let second ← c.compare? d
      return decide first second) = Except.ok t) :
    a.kind = b.kind ∧ c.kind = d.kind ∧ t = decide (a.order? b) (c.order? d) := by
  obtain ⟨first, hfirst, h⟩ := bind_eq_ok_iff.mp h
  obtain ⟨second, hsecond, h⟩ := bind_eq_ok_iff.mp h
  obtain ⟨kinds, rfl⟩ := Literal.order?_of_compare? hfirst
  obtain ⟨kinds', rfl⟩ := Literal.order?_of_compare? hsecond
  exact ⟨kinds, kinds', (Except.ok.inj h).symm⟩

/-- Equality with a value is excluded outside the bounds, and certain where both are that value. -/
theorem equalsTruth_decided (h : equalsTruth v min max = .ok t) :
    v.kind = min.kind ∧ v.kind = max.kind ∧
      (t.isNeeded = false ↔ v.isNaN = false ∧ min.isNaN = false ∧ max.isNaN = false ∧
        (v.rank < min.rank ∨ max.rank < v.rank)) ∧
      (t.not.isNeeded = false ↔ v.isNaN = false ∧ min.isNaN = false ∧ max.isNaN = false ∧
        v.rank = min.rank ∧ v.rank = max.rank) := by
  unfold equalsTruth at h
  obtain ⟨hmin, hmax, rfl⟩ := eq_of_compare h
  refine ⟨hmin, hmax, ?_⟩
  rcases v.order?_cases min with ⟨hl, _⟩ | ⟨_, _, ⟨hl, _⟩ | ⟨hl, _⟩ | ⟨hl, _⟩⟩ <;>
    rcases v.order?_cases max with ⟨hr, _⟩ | ⟨_, _, ⟨hr, _⟩ | ⟨hr, _⟩ | ⟨hr, _⟩⟩ <;>
    simp only [hl, hr, Truth.isNeeded, Truth.not] <;> grind

theorem lessThanTruth_decided (h : lessThanTruth v min max = .ok t) :
    max.kind = v.kind ∧ min.kind = v.kind ∧
      (t.isNeeded = false ↔ v.isNaN = false ∧ min.isNaN = false ∧ max.isNaN = false ∧
        v.rank ≤ min.rank ∧ v.rank ≤ max.rank) ∧
      (t.not.isNeeded = false ↔ v.isNaN = false ∧ min.isNaN = false ∧ max.isNaN = false ∧
        max.rank < v.rank) := by
  unfold lessThanTruth at h
  obtain ⟨hmax, hmin, rfl⟩ := eq_of_compare h
  refine ⟨hmax, hmin, ?_⟩
  rcases max.order?_cases v with ⟨hr, _⟩ | ⟨_, _, ⟨hr, _⟩ | ⟨hr, _⟩ | ⟨hr, _⟩⟩ <;>
    rcases min.order?_cases v with ⟨hl, _⟩ | ⟨_, _, ⟨hl, _⟩ | ⟨hl, _⟩ | ⟨hl, _⟩⟩ <;>
    simp only [hl, hr, Truth.isNeeded, Truth.not] <;> grind

theorem lessThanEqualsTruth_decided (h : lessThanEqualsTruth v min max = .ok t) :
    max.kind = v.kind ∧ min.kind = v.kind ∧
      (t.isNeeded = false ↔ v.isNaN = false ∧ min.isNaN = false ∧ max.isNaN = false ∧
        v.rank < min.rank ∧ v.rank < max.rank) ∧
      (t.not.isNeeded = false ↔ v.isNaN = false ∧ min.isNaN = false ∧ max.isNaN = false ∧
        max.rank ≤ v.rank) := by
  unfold lessThanEqualsTruth at h
  obtain ⟨hmax, hmin, rfl⟩ := eq_of_compare h
  refine ⟨hmax, hmin, ?_⟩
  rcases max.order?_cases v with ⟨hr, _⟩ | ⟨_, _, ⟨hr, _⟩ | ⟨hr, _⟩ | ⟨hr, _⟩⟩ <;>
    rcases min.order?_cases v with ⟨hl, _⟩ | ⟨_, _, ⟨hl, _⟩ | ⟨hl, _⟩ | ⟨hl, _⟩⟩ <;>
    simp only [hl, hr, Truth.isNeeded, Truth.not] <;> grind

/-- One decided order is enough to exclude a range; for certainty all four have to be decided. -/
theorem betweenTruth_decided {lower upper : Literal}
    (h : betweenTruth lower upper min max = .ok t) :
    max.kind = lower.kind ∧ min.kind = lower.kind ∧
      (t.isNeeded = false ↔
        (max.isNaN = false ∧ lower.isNaN = false ∧ max.rank < lower.rank) ∨
          (min.isNaN = false ∧ upper.isNaN = false ∧ upper.rank < min.rank)) ∧
      (t.not.isNeeded = false ↔
        (max.isNaN = false ∧ lower.isNaN = false ∧ min.isNaN = false ∧ upper.isNaN = false) ∧
          lower.rank ≤ max.rank ∧ min.rank ≤ upper.rank ∧
          lower.rank ≤ min.rank ∧ max.rank ≤ upper.rank) := by
  obtain ⟨maxToLower, h₁, h⟩ := bind_eq_ok_iff.mp h
  obtain ⟨minToUpper, h₂, h⟩ := bind_eq_ok_iff.mp h
  unfold atLeast atMost at h
  obtain ⟨hmin, -, rfl⟩ := eq_of_compare h
  obtain ⟨hmax, rfl⟩ := Literal.order?_of_compare? h₁
  obtain ⟨-, rfl⟩ := Literal.order?_of_compare? h₂
  refine ⟨hmax, hmin, ?_⟩
  simp only [Literal.order?_eq_lt_iff, Literal.order?_eq_gt_iff, Bool.or_eq_true, beq_iff_eq,
    Literal.order?_eq_eq_iff]
  split_ifs <;> simp only [Truth.isNeeded, Truth.not] <;> grind

/-- Membership in a list is never certain over a range, and excluded exactly if every literal lies
outside. -/
theorem isInRange_decided {ls : List Literal} (h : isInRange min max ls = .ok t) :
    t.not.isNeeded = true ∧
      (t.isNeeded = false ↔ ∀ l ∈ ls, l.order? min = some .lt ∨ l.order? max = some .gt) := by
  induction ls with
  | nil =>
      cases h
      exact ⟨rfl, iff_of_true rfl fun l hl => absurd hl List.not_mem_nil⟩
  | cons l ls ih =>
      obtain ⟨low, hlow, h⟩ := bind_eq_ok_iff.mp h
      obtain ⟨high, hhigh, h⟩ := bind_eq_ok_iff.mp h
      obtain ⟨-, rfl⟩ := Literal.order?_of_compare? hlow
      obtain ⟨-, rfl⟩ := Literal.order?_of_compare? hhigh
      rw [List.forall_mem_cons]
      by_cases hout : l.order? min = some .lt ∨ l.order? max = some .gt
      · rw [if_pos hout] at h
        obtain ⟨hnot, hall⟩ := ih h
        exact ⟨hnot, hall.trans (and_iff_right hout).symm⟩
      · rw [if_neg hout] at h
        cases h
        exact ⟨rfl, iff_of_false (by decide) fun hall => hout hall.1⟩

/-- Membership of one value is excluded exactly if every literal is decidedly another one. -/
theorem isInConstant_decided {ls : List Literal} (h : isInConstant v ls = .ok t) :
    t.isNeeded = false ↔ ∀ l ∈ ls, l.order? v = some .lt ∨ l.order? v = some .gt := by
  induction ls with
  | nil =>
      cases h
      exact iff_of_true rfl fun l hl => absurd hl List.not_mem_nil
  | cons l ls ih =>
      obtain ⟨order, horder, h⟩ := bind_eq_ok_iff.mp h
      obtain ⟨-, horder⟩ := Literal.order?_of_compare? horder
      rw [List.forall_mem_cons, horder]
      match order, h with
      | some .lt, h => exact (ih h).trans (and_iff_right (.inl rfl)).symm
      | some .gt, h => exact (ih h).trans (and_iff_right (.inr rfl)).symm
      | some .eq, h =>
          cases h
          exact iff_of_false (by decide) fun hall => by simpa using hall.1
      | none, h =>
          cases h
          exact iff_of_false (by decide) fun hall => by simpa using hall.1

/-- Values of one place in the order are found in the same lists. -/
theorem isInConstant_alike_value {w : Literal} (h : v.Alike w) (ls : List Literal) :
    isInConstant v ls = isInConstant w ls := by
  induction ls with
  | nil => rfl
  | cons l ls ih => rw [isInConstant, isInConstant, h.compare?_right, ih]

end decided

/-! ### Wider bounds -/

section within

variable {v min max min' max' : Literal} {t u : Truth}
variable (low : min'.ReachesBelow min) (high : max'.ReachesAbove max) (ordered : min.InOrder max)

include low high

/-- A literal outside of wider bounds is outside. -/
theorem outside_of_wider {l : Literal}
    (h : l.order? min' = some .lt ∨ l.order? max' = some .gt) :
    l.order? min = some .lt ∨ l.order? max = some .gt := by
  rcases h with h | h
  · obtain ⟨hl, hmin', hlt⟩ := Literal.order?_eq_lt_iff.mp h
    obtain ⟨hmin, hle⟩ := low.rank_le hmin'
    exact .inl (Literal.order?_eq_lt_iff.mpr ⟨hl, hmin, hlt.trans_le hle⟩)
  · obtain ⟨hl, hmax', hlt⟩ := Literal.order?_eq_gt_iff.mp h
    obtain ⟨hmax, hge⟩ := high.le_rank hmax'
    exact .inr (Literal.order?_eq_gt_iff.mpr ⟨hl, hmax, hge.trans_lt hlt⟩)

include ordered

/-- Equal bounds that are wider leave one place for the bounds between them. -/
theorem alike_of_wider (kinds : min.kind = max.kind) (h : min'.order? max' = some .eq) :
    min.Alike min' ∧ min.order? max = some .eq := by
  obtain ⟨hl, hr, heq⟩ := Literal.order?_eq_eq_iff.mp h
  obtain ⟨hmin, hle⟩ := low.rank_le hl
  obtain ⟨hmax, hge⟩ := high.le_rank hr
  have hmid := ordered.rank_le kinds hmin hmax
  refine ⟨⟨low.kind.symm, hmin.trans hl.symm, ?_⟩, Literal.order?_eq_eq_iff.mpr ⟨hmin, hmax, ?_⟩⟩
  · order
  · order

theorem equalsTruth_within (h : equalsTruth v min max = .ok t)
    (h' : equalsTruth v min' max' = .ok u) : t.Within u := by
  obtain ⟨hmin, hmax, hno, hyes⟩ := equalsTruth_decided h
  obtain ⟨-, -, hno', hyes'⟩ := equalsTruth_decided h'
  refine Truth.within_of (fun hu => hno.mpr ?_) (fun hu => hyes.mpr ?_)
  · obtain ⟨hv, hl, hr, hout⟩ := hno'.mp hu
    obtain ⟨hl, hle⟩ := low.rank_le hl
    obtain ⟨hr, hge⟩ := high.le_rank hr
    exact ⟨hv, hl, hr, hout.imp (·.trans_le hle) hge.trans_lt⟩
  · obtain ⟨hv, hl, hr, heq, heq'⟩ := hyes'.mp hu
    obtain ⟨hl, hle⟩ := low.rank_le hl
    obtain ⟨hr, hge⟩ := high.le_rank hr
    have hmid := ordered.rank_le (hmin.symm.trans hmax) hl hr
    refine ⟨hv, hl, hr, ?_, ?_⟩
    · order
    · order

theorem lessThanTruth_within (h : lessThanTruth v min max = .ok t)
    (h' : lessThanTruth v min' max' = .ok u) : t.Within u := by
  obtain ⟨hmax, hmin, hno, hyes⟩ := lessThanTruth_decided h
  obtain ⟨-, -, hno', hyes'⟩ := lessThanTruth_decided h'
  refine Truth.within_of (fun hu => hno.mpr ?_) (fun hu => hyes.mpr ?_)
  · obtain ⟨hv, hl, hr, hle', -⟩ := hno'.mp hu
    obtain ⟨hl, hle⟩ := low.rank_le hl
    obtain ⟨hr, -⟩ := high.le_rank hr
    have hmid := ordered.rank_le (hmin.trans hmax.symm) hl hr
    exact ⟨hv, hl, hr, hle'.trans hle, (hle'.trans hle).trans hmid⟩
  · obtain ⟨hv, hl, hr, hlt⟩ := hyes'.mp hu
    obtain ⟨hl, -⟩ := low.rank_le hl
    obtain ⟨hr, hge⟩ := high.le_rank hr
    exact ⟨hv, hl, hr, hge.trans_lt hlt⟩

theorem lessThanEqualsTruth_within (h : lessThanEqualsTruth v min max = .ok t)
    (h' : lessThanEqualsTruth v min' max' = .ok u) : t.Within u := by
  obtain ⟨hmax, hmin, hno, hyes⟩ := lessThanEqualsTruth_decided h
  obtain ⟨-, -, hno', hyes'⟩ := lessThanEqualsTruth_decided h'
  refine Truth.within_of (fun hu => hno.mpr ?_) (fun hu => hyes.mpr ?_)
  · obtain ⟨hv, hl, hr, hlt, -⟩ := hno'.mp hu
    obtain ⟨hl, hle⟩ := low.rank_le hl
    obtain ⟨hr, -⟩ := high.le_rank hr
    have hmid := ordered.rank_le (hmin.trans hmax.symm) hl hr
    exact ⟨hv, hl, hr, hlt.trans_le hle, (hlt.trans_le hle).trans_le hmid⟩
  · obtain ⟨hv, hl, hr, hle'⟩ := hyes'.mp hu
    obtain ⟨hl, -⟩ := low.rank_le hl
    obtain ⟨hr, hge⟩ := high.le_rank hr
    exact ⟨hv, hl, hr, hge.trans hle'⟩

theorem betweenTruth_within {lower upper : Literal} (h : betweenTruth lower upper min max = .ok t)
    (h' : betweenTruth lower upper min' max' = .ok u) : t.Within u := by
  obtain ⟨hmax, hmin, hno, hyes⟩ := betweenTruth_decided h
  obtain ⟨-, -, hno', hyes'⟩ := betweenTruth_decided h'
  refine Truth.within_of (fun hu => hno.mpr ?_) (fun hu => hyes.mpr ?_)
  · rcases hno'.mp hu with ⟨hr, hlower, hlt⟩ | ⟨hl, hupper, hlt⟩
    · obtain ⟨hr, hge⟩ := high.le_rank hr
      exact .inl ⟨hr, hlower, hge.trans_lt hlt⟩
    · obtain ⟨hl, hle⟩ := low.rank_le hl
      exact .inr ⟨hl, hupper, hlt.trans_le hle⟩
  · obtain ⟨⟨hr, hlower, hl, hupper⟩, -, -, hfrom, hto⟩ := hyes'.mp hu
    obtain ⟨hl, hle⟩ := low.rank_le hl
    obtain ⟨hr, hge⟩ := high.le_rank hr
    have hmid := ordered.rank_le (hmin.trans hmax.symm) hl hr
    refine ⟨⟨hr, hlower, hl, hupper⟩, ?_, ?_, hfrom.trans hle, hge.trans hto⟩
    · order
    · order

theorem isInTruth_within {ls : List Literal} (h : isInTruth ls min max = .ok t)
    (h' : isInTruth ls min' max' = .ok u) : t.Within u := by
  obtain ⟨order, horder, h⟩ := bind_eq_ok_iff.mp h
  obtain ⟨order', horder', h'⟩ := bind_eq_ok_iff.mp h'
  obtain ⟨kinds, rfl⟩ := Literal.order?_of_compare? horder
  obtain ⟨-, rfl⟩ := Literal.order?_of_compare? horder'
  by_cases hequal' : min'.order? max' = some .eq
  · -- One value is left on both sides, and the list is searched for it.
    obtain ⟨halike, hequal⟩ := alike_of_wider low high ordered kinds hequal'
    rw [if_pos hequal'] at h'
    rw [if_pos hequal, isInConstant_alike_value halike, h'] at h
    cases h
    exact .refl t
  · rw [if_neg hequal'] at h'
    obtain ⟨hnot, hall⟩ := isInRange_decided h'
    refine Truth.within_of (fun hu => ?_) (fun hu => absurd (hnot.symm.trans hu) (by decide))
    have outside : ∀ l ∈ ls, l.order? min = some .lt ∨ l.order? max = some .gt :=
      fun l hl => outside_of_wider low high (hall.mp hu l hl)
    by_cases hequal : min.order? max = some .eq
    · rw [if_pos hequal] at h
      obtain ⟨hmin, -, hrank⟩ := Literal.order?_eq_eq_iff.mp hequal
      refine (isInConstant_decided h).mpr fun l hl => (outside l hl).imp_right fun hgt => ?_
      obtain ⟨hl, -, hlt⟩ := Literal.order?_eq_gt_iff.mp hgt
      exact Literal.order?_eq_gt_iff.mpr ⟨hl, hmin, hrank ▸ hlt⟩
    · rw [if_neg hequal] at h
      exact (isInRange_decided h).2.mpr outside

/-- A test of values excludes no more over wider bounds, and with more nulls. -/
theorem boundedTruth_within {test : Test} {hasNull hasNull' : Bool}
    (nulls : hasNull = true → hasNull' = true) (h : test.boundedTruth hasNull min max = .ok t)
    (h' : test.boundedTruth hasNull' min' max' = .ok u) : t.Within u := by
  cases test with
  | equals w =>
      obtain ⟨t, ht, rfl⟩ := map_eq_ok_iff.mp h
      obtain ⟨u, hu, rfl⟩ := map_eq_ok_iff.mp h'
      exact (equalsTruth_within low high ordered ht hu).withNulls hasNull hasNull'
  | nullSafeEquals w =>
      obtain ⟨t, ht, rfl⟩ := map_eq_ok_iff.mp h
      obtain ⟨u, hu, rfl⟩ := map_eq_ok_iff.mp h'
      have hwithin := equalsTruth_within low high ordered ht hu
      by_cases hu' : u = .yes ∧ hasNull' = true
      · rw [if_pos hu']
        exact fun v _ => Truth.allows_yesNo v
      · rw [if_neg hu']
        by_cases ht' : t = .yes ∧ hasNull = true
        · -- Nulls take away the certainty on one side; it is not there on the other.
          obtain ⟨rfl, hnull⟩ := ht'
          rw [if_pos ⟨rfl, hnull⟩]
          rcases equalsTruth_cases hu with rfl | rfl | rfl
          · exact absurd (hwithin.isNeeded rfl) (by decide)
          · exact absurd ⟨rfl, nulls hnull⟩ hu'
          · exact .refl _
        · rw [if_neg ht']
          exact hwithin
  | lessThan w =>
      obtain ⟨t, ht, rfl⟩ := map_eq_ok_iff.mp h
      obtain ⟨u, hu, rfl⟩ := map_eq_ok_iff.mp h'
      exact (lessThanTruth_within low high ordered ht hu).withNulls hasNull hasNull'
  | lessThanEquals w =>
      obtain ⟨t, ht, rfl⟩ := map_eq_ok_iff.mp h
      obtain ⟨u, hu, rfl⟩ := map_eq_ok_iff.mp h'
      exact (lessThanEqualsTruth_within low high ordered ht hu).withNulls hasNull hasNull'
  | between lower upper =>
      obtain ⟨t, ht, rfl⟩ := map_eq_ok_iff.mp h
      obtain ⟨u, hu, rfl⟩ := map_eq_ok_iff.mp h'
      exact (betweenTruth_within low high ordered ht hu).withNulls hasNull hasNull'
  | isIn first rest =>
      obtain ⟨t, ht, rfl⟩ := map_eq_ok_iff.mp h
      obtain ⟨u, hu, rfl⟩ := map_eq_ok_iff.mp h'
      exact (isInTruth_within low high ordered ht hu).withNulls hasNull hasNull'
  | isNull =>
      cases h'
      exact Truth.within_yesNoNull t

end within

end Test

/-! ### Statistics -/

namespace Statistics

open Literal

/-- Whether the bounds of statistics are in order, wherever both are known and comparable. -/
def Ordered (s : Statistics) : Prop := ∀ min ∈ s.min, ∀ max ∈ s.max, min.InOrder max

/-- Whether statistics claim nothing that others do not: each of their bounds is that of the others
or lies beyond it, and they announce the nulls and the values of the others. -/
structure Coarser (u s : Statistics) : Prop where
  hasNull : s.hasNull = true → u.hasNull = true
  count : 0 < u.count
  min : ∀ b ∈ u.min, ∃ a ∈ s.min, b.ReachesBelow a
  max : ∀ b ∈ u.max, ∃ a ∈ s.max, b.ReachesAbove a

variable {s t u : Statistics}

theorem Coarser.refl (values : 0 < s.count) : s.Coarser s where
  hasNull := id
  count := values
  min b hb := ⟨b, hb, .refl b⟩
  max b hb := ⟨b, hb, .refl b⟩

theorem Coarser.trans (hut : u.Coarser t) (hts : t.Coarser s) : u.Coarser s where
  hasNull h := hut.hasNull (hts.hasNull h)
  count := hut.count
  min c hc := by
    obtain ⟨b, hb, hcb⟩ := hut.min c hc
    obtain ⟨a, ha, hba⟩ := hts.min b hb
    exact ⟨a, ha, hcb.trans hba⟩
  max c hc := by
    obtain ⟨b, hb, hcb⟩ := hut.max c hc
    obtain ⟨a, ha, hba⟩ := hts.max b hb
    exact ⟨a, ha, hcb.trans hba⟩

theorem merge_eq_ok_iff : s.merge t = .ok u ↔
    mergeBound .lt Statistics.min s t = .ok u.min ∧ mergeBound .gt Statistics.max s t = .ok u.max ∧
      u.hasNull = (s.hasNull || t.hasNull) ∧ u.count = Word.add s.count t.count := by
  rw [merge, bind_eq_ok_iff]
  constructor
  · rintro ⟨min, hmin, h⟩
    obtain ⟨max, hmax, h⟩ := bind_eq_ok_iff.mp h
    cases h
    exact ⟨hmin, hmax, rfl, rfl⟩
  · rintro ⟨hmin, hmax, hnull, hcount⟩
    refine ⟨u.min, hmin, bind_eq_ok_iff.mpr ⟨u.max, hmax, ?_⟩⟩
    rw [← hnull, ← hcount]
    rfl

/-- Merging with a side that has values counts no values only if the counts add up to the number of
words. -/
theorem merge_counts_iff (values : 0 < s.count) (hs : s.count < UInt64.size)
    (ht : t.count < UInt64.size) (h : s.merge t = .ok u ∨ t.merge s = .ok u) :
    0 < u.count ↔ s.count + t.count ≠ UInt64.size := by
  have hcount : u.count = (s.count + t.count) % UInt64.size := by
    rcases h with h | h
    · exact (merge_eq_ok_iff.mp h).2.2.2
    · rw [(merge_eq_ok_iff.mp h).2.2.2, Word.add, Nat.add_comm]
  rw [hcount]
  have hsize : (0 : ℕ) < UInt64.size := by decide
  rcases lt_or_ge (s.count + t.count) UInt64.size with hlt | hge
  · rw [Nat.mod_eq_of_lt hlt]
    omega
  · rw [Nat.mod_eq_sub_mod hge, Nat.mod_eq_of_lt (by omega)]
    omega

/-- A merged bound is that of a side with values or lies beyond it. -/
theorem exists_reached {side : Ordering} (hside : side ≠ .eq) {R : Literal → Literal → Prop}
    (refl : ∀ a, R a a)
    (widen : ∀ {a b c}, R b a → c.isNaN = false → b.isNaN = false → c.kind = b.kind →
      b.order? c ≠ some side → R c a)
    {bound : Statistics → Option Literal} {x : Option Literal} (values : 0 < s.count)
    (h : mergeBound side bound s t = .ok x ∨ mergeBound side bound t s = .ok x) :
    ∀ c ∈ x, ∃ a ∈ bound s, R c a := by
  intro c hc
  have own : s.count ≠ 0 ∧ ∀ b ∈ bound s, ∃ a ∈ bound s, R b a :=
    ⟨values.ne', fun b hb => ⟨b, hb, refl b⟩⟩
  have widened {c b v : Literal} (hcn : c.isNaN = false) (hbn : b.isNaN = false)
      (kinds : c.kind = b.kind) (hb : ∃ a ∈ bound s, R b a) (hcb : b.order? c ≠ some side) :
      ∃ a ∈ bound s, R c a := by
    obtain ⟨a, ha, hba⟩ := hb
    exact ⟨a, ha, widen hba hcn hbn kinds hcb⟩
  rcases h with h | h
  · exact mergeBound_bounds (R := fun b _ => ∃ a ∈ bound s, R b a) hside
      (widened (v := c)) h (v := c) (.inl own) c hc
  · exact mergeBound_bounds (R := fun b _ => ∃ a ∈ bound s, R b a) hside
      (widened (v := c)) h (v := c) (.inr own) c hc

/-- Merged statistics are coarser than a side that has values, whatever the other side is, as long
as they count values themselves. -/
theorem merge_coarser (values : 0 < s.count) (counts : 0 < u.count)
    (h : s.merge t = .ok u ∨ t.merge s = .ok u) : u.Coarser s where
  hasNull hnull := by
    rcases h with h | h
    · rw [(merge_eq_ok_iff.mp h).2.2.1, hnull, Bool.true_or]
    · rw [(merge_eq_ok_iff.mp h).2.2.1, hnull, Bool.or_true]
  count := counts
  min := exists_reached (by decide) ReachesBelow.refl ReachesBelow.widen values
    (h.imp (fun h => (merge_eq_ok_iff.mp h).1) fun h => (merge_eq_ok_iff.mp h).1)
  max := exists_reached (by decide) ReachesAbove.refl ReachesAbove.widen values
    (h.imp (fun h => (merge_eq_ok_iff.mp h).2.1) fun h => (merge_eq_ok_iff.mp h).2.1)

/-- Coarser bounds are in order if those that they replace are. -/
theorem Coarser.ordered (h : u.Coarser s) (ordered : s.Ordered) : u.Ordered := by
  intro c hc d hd order horder hgt
  obtain ⟨a, ha, low⟩ := h.min c hc
  obtain ⟨b, hb, high⟩ := h.max d hd
  obtain ⟨kinds, horder⟩ := order?_of_compare? horder
  rw [hgt] at horder
  obtain ⟨hcn, hdn, hlt⟩ := order?_eq_gt_iff.mp horder
  obtain ⟨han, hle⟩ := low.rank_le hcn
  obtain ⟨hbn, hge⟩ := high.le_rank hdn
  have hmid := (ordered a ha b hb).rank_le ((low.kind.symm.trans kinds).trans high.kind) han hbn
  order

end Statistics

/-- A test excludes no more over coarser statistics. -/
theorem Test.truth_within {test : Test} {s u : Statistics} {x y : Truth} (coarser : u.Coarser s)
    (ordered : s.Ordered) (values : 0 < s.count) (hs : test.truth s = .ok x)
    (hu : test.truth u = .ok y) : x.Within y := by
  unfold Test.truth at hs hu
  by_cases hnull : test = .isNull
  · rw [if_pos hnull, isNullTruth, if_neg values.ne'] at hs
    rw [if_pos hnull, isNullTruth, if_neg coarser.count.ne'] at hu
    cases hs
    cases hu
    cases h : s.hasNull with
    | false => cases u.hasNull <;> exact Truth.within_of (by decide) (by decide)
    | true =>
        rw [coarser.hasNull h]
        exact .refl _
  · rw [if_neg hnull, if_neg values.ne'] at hs
    rw [if_neg hnull, if_neg coarser.count.ne'] at hu
    split at hu
    · rename_i min' max' hmin' hmax'
      obtain ⟨min, hmin, low⟩ := coarser.min min' hmin'
      obtain ⟨max, hmax, high⟩ := coarser.max max' hmax'
      rw [Option.mem_def.mp hmin, Option.mem_def.mp hmax] at hs
      exact boundedTruth_within low high (ordered min hmin max hmax) coarser.hasNull hs hu
    · cases hu
      exact Truth.within_yesNoNull x

end StripeScan
