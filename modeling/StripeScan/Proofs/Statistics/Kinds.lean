import StripeScan.Proofs.Outcome
import StripeScan.Proofs.Value.Order
import StripeScan.Statistics.Truth

/-! # Statistics of one kind

Statistics whose bounds are of the kind of a predicate can always be evaluated: comparing fails only
on literals of different kinds (`Predicate.truthOptional_eq_ok`). -/

namespace StripeScan

/-- Whether all bounds are of a kind. -/
structure Statistics.OfKind (s : Statistics) (kind : Kind) : Prop where
  min : ∀ b ∈ s.min, b.kind = kind
  max : ∀ b ∈ s.max, b.kind = kind

instance (s : Statistics) (kind : Kind) : Decidable (s.OfKind kind) :=
  decidable_of_iff ((∀ b ∈ s.min, b.kind = kind) ∧ ∀ b ∈ s.max, b.kind = kind)
    ⟨fun h => ⟨h.1, h.2⟩, fun h => ⟨h.min, h.max⟩⟩

namespace Test

section kinds

variable {min max v : Literal} {kind : Kind} (hmin : min.kind = kind) (hmax : max.kind = kind)

include hmin hmax

theorem equalsTruth_eq_ok (hv : v.kind = kind) : ∃ t, equalsTruth v min max = .ok t := by
  subst hv
  rw [equalsTruth, Literal.compare?_eq hmin.symm, Literal.compare?_eq hmax.symm]
  exact ⟨_, rfl⟩

theorem lessThanTruth_eq_ok (hv : v.kind = kind) : ∃ t, lessThanTruth v min max = .ok t := by
  subst hv
  rw [lessThanTruth, Literal.compare?_eq hmin, Literal.compare?_eq hmax]
  exact ⟨_, rfl⟩

theorem lessThanEqualsTruth_eq_ok (hv : v.kind = kind) :
    ∃ t, lessThanEqualsTruth v min max = .ok t := by
  subst hv
  rw [lessThanEqualsTruth, Literal.compare?_eq hmin, Literal.compare?_eq hmax]
  exact ⟨_, rfl⟩

theorem betweenTruth_eq_ok {lower upper : Literal} (hlower : lower.kind = kind)
    (hupper : upper.kind = kind) : ∃ t, betweenTruth lower upper min max = .ok t := by
  rw [betweenTruth, Literal.compare?_eq (hmax.trans hlower.symm),
    Literal.compare?_eq (hmin.trans hupper.symm), Literal.compare?_eq (hmin.trans hlower.symm),
    Literal.compare?_eq (hmax.trans hupper.symm)]
  exact ⟨_, rfl⟩

omit hmax in
theorem isInConstant_eq_ok {ls : List Literal} (hls : ∀ l ∈ ls, l.kind = kind) :
    ∃ t, isInConstant min ls = .ok t := by
  induction ls with
  | nil => exact ⟨_, rfl⟩
  | cons l ls ih =>
      obtain ⟨t, ht⟩ := ih fun w hw => hls w (List.mem_cons_of_mem l hw)
      rw [isInConstant, Literal.compare?_eq ((hls l List.mem_cons_self).trans hmin.symm), bind_ok]
      cases l.order? min with
      | none => exact ⟨_, rfl⟩
      | some o =>
          cases o with
          | eq => exact ⟨_, rfl⟩
          | lt => exact ⟨t, ht⟩
          | gt => exact ⟨t, ht⟩

theorem isInRange_eq_ok {ls : List Literal} (hls : ∀ l ∈ ls, l.kind = kind) :
    ∃ t, isInRange min max ls = .ok t := by
  induction ls with
  | nil => exact ⟨_, rfl⟩
  | cons l ls ih =>
      obtain ⟨t, ht⟩ := ih fun w hw => hls w (List.mem_cons_of_mem l hw)
      have hl := hls l List.mem_cons_self
      rw [isInRange, Literal.compare?_eq (hl.trans hmin.symm), bind_ok,
        Literal.compare?_eq (hl.trans hmax.symm), bind_ok]
      split
      · exact ⟨t, ht⟩
      · exact ⟨_, rfl⟩

theorem isInTruth_eq_ok {ls : List Literal} (hls : ∀ l ∈ ls, l.kind = kind) :
    ∃ t, isInTruth ls min max = .ok t := by
  rw [isInTruth, Literal.compare?_eq (hmin.trans hmax.symm), bind_ok]
  split
  · exact isInConstant_eq_ok hmin hls
  · exact isInRange_eq_ok hmin hmax hls

/-- A test of literals of one kind can be evaluated between bounds of that kind. -/
theorem boundedTruth_eq_ok {test : Test} (hls : ∀ l ∈ test.literals, l.kind = kind)
    (hasNull : Bool) : ∃ t, test.boundedTruth hasNull min max = .ok t := by
  have mapped {x : Except Incomparable Truth} (k : Truth → Truth) (h : ∃ t, x = .ok t) :
      ∃ t, x.map k = .ok t := by
    obtain ⟨t, rfl⟩ := h
    exact ⟨k t, rfl⟩
  cases test with
  | equals w => exact mapped _ (equalsTruth_eq_ok hmin hmax (hls w List.mem_cons_self))
  | nullSafeEquals w => exact mapped _ (equalsTruth_eq_ok hmin hmax (hls w List.mem_cons_self))
  | lessThan w => exact mapped _ (lessThanTruth_eq_ok hmin hmax (hls w List.mem_cons_self))
  | lessThanEquals w =>
      exact mapped _ (lessThanEqualsTruth_eq_ok hmin hmax (hls w List.mem_cons_self))
  | between lower upper =>
      exact mapped _ (betweenTruth_eq_ok hmin hmax (hls lower List.mem_cons_self)
        (hls upper (List.mem_cons_of_mem _ List.mem_cons_self)))
  | isIn first rest => exact mapped _ (isInTruth_eq_ok hmin hmax hls)
  | isNull => exact ⟨_, rfl⟩

end kinds

theorem truth_eq_ok {test : Test} {s : Statistics} {kind : Kind} (bounds : s.OfKind kind)
    (hls : ∀ l ∈ test.literals, l.kind = kind) : ∃ t, test.truth s = .ok t := by
  unfold truth
  split
  · exact ⟨_, rfl⟩
  · split
    · exact ⟨_, rfl⟩
    · split
      · rename_i min max hmin hmax
        exact boundedTruth_eq_ok (bounds.min min hmin) (bounds.max max hmax) hls s.hasNull
      · exact ⟨_, rfl⟩

end Test

/-- A predicate can be evaluated over statistics of its kind. -/
theorem Predicate.truthOptional_eq_ok {p : Predicate} {x : Option Statistics}
    (bounds : ∀ s ∈ x, s.OfKind p.kind) : ∃ t, p.truthOptional x = .ok t := by
  cases x with
  | none => exact ⟨_, rfl⟩
  | some s => exact Test.truth_eq_ok (bounds s rfl) p.literal_kinds

end StripeScan
