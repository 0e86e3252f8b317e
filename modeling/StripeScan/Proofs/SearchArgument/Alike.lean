import StripeScan.Proofs.Value.Order
import StripeScan.SearchArgument.Rows
import StripeScan.Statistics.Truth

/-! # Predicates that are written alike

Two predicates that are written alike need not be equal: the two zeros are different floats.  But
their literals have the same place in the order, so that they compare alike with every literal
(`Literal.Alike.compare?_left`, `Literal.Alike.compare?_right`).  So the predicates have the same
truth over every partition (`Predicate.Alike.truthOptional`) and the same verdict on every value
(`Predicate.Alike.verdict`), and fail alike. -/

namespace StripeScan

/-! ### Literals -/

/-- Whether two literals of one kind have the same place in the order. -/
structure Literal.Alike (a b : Literal) : Prop where
  kind : a.kind = b.kind
  isNaN : a.isNaN = b.isNaN
  rank : a.rank = b.rank

namespace Literal

theorem Alike.refl (a : Literal) : a.Alike a := ⟨rfl, rfl, rfl⟩

theorem alike_of_same {a b : Literal} (h : a.same b = true) : a.Alike b := by
  unfold same at h
  split at h
  · rename_i x y
    have horder : x.compare? y = some .eq := by simpa [Binary64.same] using h
    have kinds : (float x).kind = (float y).kind := rfl
    have hcompare : (float x).compare? (float y) = .ok (x.compare? y) := rfl
    rw [compare?_eq kinds, horder] at hcompare
    obtain ⟨hx, hy, hrank⟩ := order?_eq_eq_iff.mp (Except.ok.inj hcompare)
    exact ⟨rfl, hx.trans hy.symm, hrank⟩
  · rw [beq_iff_eq.mp h]
    exact .refl _

variable {a b : Literal} (h : a.Alike b)

include h

theorem Alike.compare?_left (v : Literal) : a.compare? v = b.compare? v := by
  by_cases hkind : a.kind = v.kind
  · rw [compare?_eq hkind, compare?_eq (h.kind.symm.trans hkind), order?, order?, h.isNaN, h.rank]
  · rw [compare?_of_kind_ne hkind, compare?_of_kind_ne (h.kind ▸ hkind), h.kind]

theorem Alike.compare?_right (v : Literal) : v.compare? a = v.compare? b := by
  by_cases hkind : v.kind = a.kind
  · rw [compare?_eq hkind, compare?_eq (hkind.trans h.kind), order?, order?, h.isNaN, h.rank]
  · rw [compare?_of_kind_ne hkind, compare?_of_kind_ne (h.kind ▸ hkind), h.kind]

theorem Alike.isOrder (o : Ordering) (v : Literal) : v.isOrder o a = v.isOrder o b := by
  rw [Literal.isOrder, Literal.isOrder, h.compare?_right]

end Literal

/-! ### Tests -/

namespace Test

/-- Whether two tests apply one operator to literals that have the same place in the order. -/
inductive Alike : Test → Test → Prop
  | equals {v w : Literal} (h : v.Alike w) : Alike (.equals v) (.equals w)
  | nullSafeEquals {v w : Literal} (h : v.Alike w) : Alike (.nullSafeEquals v) (.nullSafeEquals w)
  | lessThan {v w : Literal} (h : v.Alike w) : Alike (.lessThan v) (.lessThan w)
  | lessThanEquals {v w : Literal} (h : v.Alike w) :
      Alike (.lessThanEquals v) (.lessThanEquals w)
  | between {lower lower' upper upper' : Literal} (hlower : lower.Alike lower')
      (hupper : upper.Alike upper') : Alike (.between lower upper) (.between lower' upper')
  | isNull : Alike .isNull .isNull
  | isIn {first first' : Literal} {rest rest' : List Literal} (hfirst : first.Alike first')
      (hrest : List.Forall₂ Literal.Alike rest rest') :
      Alike (.isIn first rest) (.isIn first' rest')

theorem alike_of_literals {t u : Test} (operator : t.operator = u.operator)
    (literals : List.Forall₂ Literal.Alike t.literals u.literals) : t.Alike u := by
  cases t <;> cases u <;> try contradiction
  case equals.equals =>
    obtain ⟨h, -⟩ := List.forall₂_cons.mp literals
    exact .equals h
  case nullSafeEquals.nullSafeEquals =>
    obtain ⟨h, -⟩ := List.forall₂_cons.mp literals
    exact .nullSafeEquals h
  case lessThan.lessThan =>
    obtain ⟨h, -⟩ := List.forall₂_cons.mp literals
    exact .lessThan h
  case lessThanEquals.lessThanEquals =>
    obtain ⟨h, -⟩ := List.forall₂_cons.mp literals
    exact .lessThanEquals h
  case between.between =>
    obtain ⟨hlower, hrest⟩ := List.forall₂_cons.mp literals
    obtain ⟨hupper, -⟩ := List.forall₂_cons.mp hrest
    exact .between hlower hupper
  case isNull.isNull => exact .isNull
  case isIn.isIn =>
    obtain ⟨hfirst, hrest⟩ := List.forall₂_cons.mp literals
    exact .isIn hfirst hrest

theorem Alike.refl (t : Test) : t.Alike t :=
  alike_of_literals rfl (List.forall₂_same.mpr fun v _ => Literal.Alike.refl v)

section lists

variable {ls ls' : List Literal} (h : List.Forall₂ Literal.Alike ls ls')

include h

theorem isInConstant_alike (v : Literal) : isInConstant v ls = isInConstant v ls' := by
  induction h with
  | nil => rfl
  | cons hhead _ ih => rw [isInConstant, isInConstant, hhead.compare?_left, ih]

theorem isInRange_alike (min max : Literal) : isInRange min max ls = isInRange min max ls' := by
  induction h with
  | nil => rfl
  | cons hhead _ ih => simp only [isInRange, hhead.compare?_left, ih]

theorem isInTruth_alike (min max : Literal) : isInTruth ls min max = isInTruth ls' min max := by
  rw [isInTruth, isInTruth, isInConstant_alike h, isInRange_alike h]

theorem anyEqual_alike (v : Literal) : anyEqual v ls = anyEqual v ls' := by
  induction h with
  | nil => rfl
  | cons hhead _ ih => rw [anyEqual, anyEqual, hhead.isOrder, ih]

end lists

variable {t u : Test}

theorem Alike.boundedTruth (h : t.Alike u) (hasNull : Bool) (min max : Literal) :
    t.boundedTruth hasNull min max = u.boundedTruth hasNull min max := by
  cases h with
  | equals h | nullSafeEquals h => simp only [Test.boundedTruth, equalsTruth, h.compare?_left]
  | lessThan h => simp only [Test.boundedTruth, lessThanTruth, h.compare?_right]
  | lessThanEquals h => simp only [Test.boundedTruth, lessThanEqualsTruth, h.compare?_right]
  | between hlower hupper =>
      simp only [Test.boundedTruth, betweenTruth, hlower.compare?_right, hupper.compare?_right]
  | isNull => rfl
  | isIn hfirst hrest => simp only [Test.boundedTruth, isInTruth_alike (.cons hfirst hrest)]

theorem Alike.eq_isNull_iff (h : t.Alike u) : t = .isNull ↔ u = .isNull := by
  cases h <;> simp

theorem Alike.truth (h : t.Alike u) (s : Statistics) : t.truth s = u.truth s := by
  simp only [Test.truth, h.eq_isNull_iff, h.boundedTruth]

theorem Alike.accepts (h : t.Alike u) (v : Literal) : t.accepts v = u.accepts v := by
  cases h with
  | isNull => rfl
  | equals h | nullSafeEquals h => exact h.isOrder .eq v
  | lessThan h => exact h.isOrder .lt v
  | lessThanEquals h => rw [Test.accepts, Test.accepts, h.isOrder]
  | between hlower hupper => rw [Test.accepts, Test.accepts, hlower.isOrder, hupper.isOrder]
  | isIn hfirst hrest => exact anyEqual_alike (.cons hfirst hrest) v

theorem Alike.ofNull (h : t.Alike u) : t.ofNull = u.ofNull := by
  cases h <;> rfl

end Test

/-! ### Predicates -/

/-- Whether two predicates of one column make tests that are alike. -/
structure Predicate.Alike (p q : Predicate) : Prop where
  column : p.column = q.column
  kind : p.kind = q.kind
  test : p.test.Alike q.test

namespace Predicate

variable {p q : Predicate}

theorem Alike.refl (p : Predicate) : p.Alike p := ⟨rfl, rfl, .refl p.test⟩

theorem same_eq_true_iff : p.same q = true ↔ p.column = q.column ∧ p.kind = q.kind ∧
    p.operator = q.operator ∧
    List.Forall₂ (fun v w => v.same w = true) p.literals q.literals := by
  simp only [same, Bool.and_eq_true, beq_iff_eq, List.all_eq_true, Prod.forall,
    List.forall₂_iff_zip, and_assoc]

theorem alike_of_same (h : p.same q = true) : p.Alike q := by
  obtain ⟨hcolumn, hkind, hoperator, hliterals⟩ := same_eq_true_iff.mp h
  exact ⟨hcolumn, hkind,
    Test.alike_of_literals hoperator (hliterals.imp fun _ _ => Literal.alike_of_same)⟩

theorem Alike.truthOptional (h : p.Alike q) (x : Option Statistics) :
    p.truthOptional x = q.truthOptional x := by
  cases x with
  | none => rfl
  | some s => exact h.test.truth s

theorem Alike.verdict (h : p.Alike q) (v : Option Literal) : p.verdict v = q.verdict v := by
  cases v with
  | none => rw [Predicate.verdict, Predicate.verdict, h.test.ofNull]
  | some w => rw [Predicate.verdict, Predicate.verdict, h.test.accepts]

end Predicate

end StripeScan
