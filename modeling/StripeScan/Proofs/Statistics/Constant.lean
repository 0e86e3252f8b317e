import StripeScan.Proofs.Logic.Soundness
import StripeScan.Proofs.SearchArgument.Alike
import StripeScan.Proofs.SearchArgument.Rows
import StripeScan.Proofs.Statistics.Deriving

/-! # Statistics of constant rows

Rows that all hold the same value, none of them null, have statistics whose bounds are both equal
to it (`Statistics.Constant`).  Unless the value is a float, every comparison with a bound is then
decided, and as it is for each row: the truth of a predicate is certain and is its answer
(`Test.truth_constant`). -/

namespace StripeScan

/-! ### Literals of one place in the order -/

namespace Literal

theorem isNaN_eq_false {v : Literal} (h : v.kind ≠ .float) : v.isNaN = false := by
  by_contra hnan
  exact h (kind_eq_of_isNaN (Bool.eq_true_of_not_eq_false hnan))

theorem compare?_eq_eq_iff {a b : Literal} :
    a.compare? b = .ok (some .eq) ↔ a.Alike b ∧ a.isNaN = false := by
  constructor
  · intro h
    obtain ⟨hkind, h⟩ := order?_of_compare? h
    obtain ⟨ha, hb, hrank⟩ := order?_eq_eq_iff.mp h
    exact ⟨⟨hkind, ha.trans hb.symm, hrank⟩, ha⟩
  · rintro ⟨h, ha⟩
    rw [compare?_eq h.kind, order?_eq_eq_iff.mpr ⟨ha, h.isNaN ▸ ha, h.rank⟩]

theorem exists_order? {a b : Literal} (ha : a.isNaN = false) (hb : b.isNaN = false) :
    ∃ o, a.order? b = some o := ⟨_, order?_eq_some_iff.mpr ⟨ha, hb, rfl⟩⟩

theorem Alike.order?_left {a b : Literal} (h : a.Alike b) (c : Literal) :
    a.order? c = b.order? c := by
  rw [order?, order?, h.isNaN, h.rank]

end Literal

/-- Values that are alike pass the same tests. -/
theorem Test.holds_alike {v w : Literal} (h : v.Alike w) (t : Test) : t.holds v = t.holds w := by
  cases t <;> simp only [Test.holds, h.order?_left]

/-! ### Constant rows -/

/-- Whether statistics are those of rows that all hold a value, none of them null. -/
structure Statistics.Constant (s : Statistics) (v : Literal) : Prop where
  hasNull : s.hasNull = false
  count : 0 < s.count
  min : ∃ b ∈ s.min, b.compare? v = .ok (some .eq)
  max : ∃ b ∈ s.max, b.compare? v = .ok (some .eq)

/-- The summary of constant rows. -/
theorem Statistics.Summarises.constant {s : Statistics} {rows : List (Option Literal)}
    (h : s.Summarises rows) (nonempty : rows ≠ []) {v : Literal}
    (constant : ∀ row ∈ rows, ∃ w, row = some w ∧ w.compare? v = .ok (some .eq)) :
    s.Constant v := by
  have equal : ∀ w ∈ rows.reduceOption, w.compare? v = .ok (some .eq) := by
    intro w hw
    obtain ⟨w', hw', hequal⟩ := constant _ (List.reduceOption_mem_iff.mp hw)
    cases hw'
    exact hequal
  have hvalues : rows.reduceOption ≠ [] := by
    obtain ⟨row, hrow⟩ := List.exists_mem_of_ne_nil rows nonempty
    obtain ⟨w, rfl, -⟩ := constant row hrow
    exact List.ne_nil_of_mem (List.reduceOption_mem_iff.mpr hrow)
  have bounded {side : Ordering} {bound : Option Literal}
      (hbound : IsBound side rows.reduceOption bound) :
      ∃ b ∈ bound, b.compare? v = .ok (some .eq) := by
    cases bound with
    | none => exact absurd hbound hvalues
    | some b => exact ⟨b, rfl, equal b (Extreme.mem hbound)⟩
  refine ⟨?_, ?_, bounded h.min, bounded h.max⟩
  · by_contra hnull
    obtain ⟨w, hw, -⟩ := constant none (h.hasNull.mp (Bool.eq_true_of_not_eq_false hnull))
    cases hw
  · rw [h.count]
    exact List.length_pos_of_ne_nil hvalues

/-! ### Tests of constant rows -/

namespace Test

section constant

variable {min max v : Literal} (hmin : min.Alike v) (hmax : max.Alike v) (number : v.isNaN = false)

include hmin hmax number

theorem equalsTruth_constant {l : Literal} (kind : l.kind = v.kind) (hl : l.isNaN = false) :
    equalsTruth l min max = .ok (.ofBool (v.order? l == some .eq)) := by
  obtain ⟨o, ho⟩ := Literal.exists_order? number hl
  rw [equalsTruth, hmin.compare?_right, hmax.compare?_right, Literal.compare?_eq kind,
    Literal.order?_swap, ho]
  cases o <;> rfl

theorem lessThanTruth_constant {l : Literal} (kind : l.kind = v.kind) (hl : l.isNaN = false) :
    lessThanTruth l min max = .ok (.ofBool (v.order? l == some .lt)) := by
  obtain ⟨o, ho⟩ := Literal.exists_order? number hl
  rw [lessThanTruth, hmin.compare?_left, hmax.compare?_left, Literal.compare?_eq kind.symm, ho]
  cases o <;> rfl

theorem lessThanEqualsTruth_constant {l : Literal} (kind : l.kind = v.kind)
    (hl : l.isNaN = false) :
    lessThanEqualsTruth l min max = .ok (.ofBool !(v.order? l == some .gt)) := by
  obtain ⟨o, ho⟩ := Literal.exists_order? number hl
  rw [lessThanEqualsTruth, hmin.compare?_left, hmax.compare?_left,
    Literal.compare?_eq kind.symm, ho]
  cases o <;> rfl

/-- The limits may be in any order. -/
theorem betweenTruth_constant {lower upper : Literal} (klower : lower.kind = v.kind)
    (hlower : lower.isNaN = false) (kupper : upper.kind = v.kind) (hupper : upper.isNaN = false) :
    betweenTruth lower upper min max =
      .ok (.ofBool (!(v.order? lower == some .lt) && !(v.order? upper == some .gt))) := by
  obtain ⟨o, ho⟩ := Literal.exists_order? number hlower
  obtain ⟨o', ho'⟩ := Literal.exists_order? number hupper
  simp only [betweenTruth, hmin.compare?_left, hmax.compare?_left,
    Literal.compare?_eq klower.symm, Literal.compare?_eq kupper.symm, ho, ho', bind_ok]
  cases o <;> cases o' <;> rfl

omit hmax in
theorem isInConstant_constant {ls : List Literal} (kinds : ∀ l ∈ ls, l.kind = v.kind)
    (numbers : ∀ l ∈ ls, l.isNaN = false) :
    isInConstant min ls = .ok (.ofBool (ls.any fun l => v.order? l == some .eq)) := by
  induction ls with
  | nil => rfl
  | cons l ls ih =>
      have hrest := ih (fun w hw => kinds w (List.mem_cons_of_mem l hw))
        fun w hw => numbers w (List.mem_cons_of_mem l hw)
      obtain ⟨o, ho⟩ := Literal.exists_order? number (numbers l List.mem_cons_self)
      rw [isInConstant, hmin.compare?_right, Literal.compare?_eq (kinds l List.mem_cons_self),
        Literal.order?_swap, hrest, List.any_cons, ho]
      cases o <;> rfl

theorem isInTruth_constant {ls : List Literal} (kinds : ∀ l ∈ ls, l.kind = v.kind)
    (numbers : ∀ l ∈ ls, l.isNaN = false) :
    isInTruth ls min max = .ok (.ofBool (ls.any fun l => v.order? l == some .eq)) := by
  have hequal : min.compare? max = .ok (some .eq) := by
    rw [hmin.compare?_left, hmax.compare?_right]
    exact Literal.compare?_eq_eq_iff.mpr ⟨.refl v, number⟩
  rw [isInTruth, hequal, bind_ok, if_pos rfl, isInConstant_constant hmin number kinds numbers]

theorem boundedTruth_constant {t : Test} (kinds : ∀ l ∈ t.literals, l.kind = v.kind)
    (numbers : ∀ l ∈ t.literals, l.isNaN = false) (notNull : t ≠ .isNull) :
    t.boundedTruth false min max = .ok (.ofBool (t.holds v)) := by
  have unchanged (b : Bool) : (Truth.ofBool b).withNulls false = .ofBool b := by cases b <;> rfl
  have decided {x : Except Incomparable Truth} {b : Bool} (h : x = .ok (.ofBool b)) :
      x.map (·.withNulls false) = .ok (.ofBool b) := by
    rw [h]
    exact congrArg Except.ok (unchanged b)
  cases t with
  | equals l =>
      exact decided (equalsTruth_constant hmin hmax number (kinds l List.mem_cons_self)
        (numbers l List.mem_cons_self))
  | nullSafeEquals l =>
      rw [boundedTruth, equalsTruth_constant hmin hmax number (kinds l List.mem_cons_self)
        (numbers l List.mem_cons_self)]
      simp only [Except.map, Bool.false_eq_true, and_false, if_false]
      rfl
  | lessThan l =>
      exact decided (lessThanTruth_constant hmin hmax number (kinds l List.mem_cons_self)
        (numbers l List.mem_cons_self))
  | lessThanEquals l =>
      exact decided (lessThanEqualsTruth_constant hmin hmax number (kinds l List.mem_cons_self)
        (numbers l List.mem_cons_self))
  | between lower upper =>
      have hupper : upper ∈ (between lower upper).literals :=
        List.mem_cons_of_mem lower List.mem_cons_self
      exact decided (betweenTruth_constant hmin hmax number (kinds lower List.mem_cons_self)
        (numbers lower List.mem_cons_self) (kinds upper hupper) (numbers upper hupper))
  | isNull => exact absurd rfl notNull
  | isIn first rest => exact decided (isInTruth_constant hmin hmax number kinds numbers)

end constant

/-- Over constant rows a test is certain, and it is what holds of the value. -/
theorem truth_constant {t : Test} {s : Statistics} {v : Literal} (h : s.Constant v)
    (kinds : ∀ l ∈ t.literals, l.kind = v.kind) (notFloat : v.kind ≠ .float) :
    t.truth s = .ok (.ofBool (t.holds v)) := by
  by_cases hnull : t = .isNull
  · subst hnull
    rw [truth, if_pos rfl, isNullTruth, h.hasNull]
    rfl
  · obtain ⟨min, hsmin, hmin⟩ := h.min
    obtain ⟨max, hsmax, hmax⟩ := h.max
    have numbers : ∀ l ∈ t.literals, l.isNaN = false := by
      intro l hl
      apply Literal.isNaN_eq_false
      rw [kinds l hl]
      exact notFloat
    rw [truth, if_neg hnull, if_neg h.count.ne', hsmin, hsmax, h.hasNull]
    exact boundedTruth_constant (Literal.compare?_eq_eq_iff.mp hmin).1
      (Literal.compare?_eq_eq_iff.mp hmax).1 (Literal.isNaN_eq_false notFloat) kinds numbers hnull

end Test

end StripeScan
