import StripeScan.Proofs.Statistics.Coarser
import StripeScan.Proofs.Statistics.Constant

/-! # The order of merging

A `Grouping` says in which order and with which grouping some statistics are merged.  Which one is
chosen does not matter, up to bounds that say the same (`Grouping.merged_perm`).

Merging keeps the left one of equal bounds, and makes a bound unknown that it cannot decide.  So
what merging makes of a bound is counted in `Reach`, where equal bounds are not told apart: there,
taking parts together is addition in a commutative monoid (`Statistics.reach_of_mergeBound`). -/

namespace StripeScan

/-! ### Places -/

namespace Literal

/-- Whether lying on a side of a literal is having a smaller place. -/
def Orders {α : Type} [LinearOrder α] (place : Literal → α) (side : Ordering) : Prop :=
  ∀ a b : Literal, a.isNaN = false → b.isNaN = false →
    (a.order? b = some side ↔ place a < place b) ∧ (a.order? b = some .eq ↔ place a = place b)

/-- The one with the smaller place of two literals; the left one if the places are equal. -/
def nearer {α : Type} [LinearOrder α] (place : Literal → α) (l r : Literal) : Literal :=
  if place l ≤ place r then l else r

theorem place_nearer {α : Type} [LinearOrder α] (place : Literal → α) (l r : Literal) :
    place (nearer place l r) = Min.min (place l) (place r) := by
  rw [nearer, apply_ite place, min_def]

/-- The place of a literal, counted from above. -/
def rankAbove (v : Literal) : (ℚ ×ₗ String)ᵒᵈ := OrderDual.toDual v.rank

/-- Whether two bounds are both no number, or compare as equal. -/
def SameBound (a b : Literal) : Prop :=
  a.isNaN = true ∧ b.isNaN = true ∨ a.compare? b = .ok (some .eq)

theorem Alike.sameBound {a b : Literal} (h : a.Alike b) : a.SameBound b := by
  cases ha : a.isNaN with
  | true => exact .inl ⟨ha, h.isNaN ▸ ha⟩
  | false => exact .inr (compare?_eq_eq_iff.mpr ⟨h, ha⟩)

theorem sameBound_of_alike {x y : Option Literal} (h : Option.Rel Alike x y) :
    Option.Rel SameBound x y := by
  cases h with
  | none => exact .none
  | some h => exact .some h.sameBound

theorem orders_rank : Orders rank .lt := fun a b ha hb => by
  simp [order?_eq_lt_iff, order?_eq_eq_iff, ha, hb]

theorem orders_rankAbove : Orders rankAbove .gt := fun a b ha hb => by
  simp [order?_eq_gt_iff, order?_eq_eq_iff, ha, hb, rankAbove]

end Literal

namespace Statistics

open Literal

section places

variable {α : Type} [LinearOrder α] {place : Literal → α} {side : Ordering}

/-- Of two bounds that are numbers, merging keeps the nearer one. -/
theorem mergeBounds_numbers (orders : Orders place side) {l r : Literal} (kinds : l.kind = r.kind)
    (hl : l.isNaN = false) (hr : r.isNaN = false) :
    mergeBounds side (some l) (some r) = .ok (some (nearer place l r)) := by
  obtain ⟨hlt, heq⟩ := orders l r hl hr
  have horder : l.order? r = some (Ord.compare l.rank r.rank) :=
    order?_eq_some_iff.mpr ⟨hl, hr, rfl⟩
  rw [horder, Option.some.injEq] at hlt heq
  have hkeep : ((Ord.compare l.rank r.rank == side || Ord.compare l.rank r.rank == .eq) = true) ↔
      place l ≤ place r := by
    rw [Bool.or_eq_true, beq_iff_eq, beq_iff_eq, hlt, heq, le_iff_lt_or_eq]
  rw [mergeBounds, compare?_eq kinds, horder]
  simp only [Except.map, hkeep, nearer]

end places

end Statistics

/-! ### How far a bound reaches -/

/-- What is known of a bound of some rows: there are no values, the bound is unknown, it is no
number, or it has a place. -/
inductive Reach (α : Type) where
  | nowhere
  | unknown
  | unordered (bound : Literal)
  | upTo (place : α)

namespace Reach

section bounds

variable {α : Type} (place : Literal → α)

/-- How far a bound of some values reaches, if it is known. -/
def ofBound : Option Literal → Reach α
  | none => unknown
  | some b => if b.isNaN then unordered b else upTo (place b)

theorem ofBound_number {b : Literal} (number : b.isNaN = false) :
    ofBound place (some b) = upTo (place b) := by
  rw [ofBound, number, if_neg Bool.false_ne_true]

/-- A bound of some values is unknown, no number, or has a place. -/
theorem ofBound_cases (x : Option Literal) :
    (x = none ∧ ofBound place x = unknown) ∨
      (∃ b, x = some b ∧ b.isNaN = true ∧ ofBound place x = unordered b) ∨
      ∃ b, x = some b ∧ b.isNaN = false ∧ ofBound place x = upTo (place b) := by
  cases x with
  | none => exact .inl ⟨rfl, rfl⟩
  | some b =>
      cases h : b.isNaN with
      | true => exact .inr (.inl ⟨b, rfl, h, by rw [ofBound, h, if_pos rfl]⟩)
      | false => exact .inr (.inr ⟨b, rfl, h, ofBound_number place h⟩)

end bounds

variable {α : Type} [LinearOrder α]

/-- What is known of a bound of two parts together. -/
def add : Reach α → Reach α → Reach α
  | nowhere, b => b
  | a, nowhere => a
  | upTo x, upTo y => upTo (min x y)
  | _, _ => unknown

instance : Zero (Reach α) := ⟨nowhere⟩

instance : Add (Reach α) := ⟨add⟩

instance : AddCommMonoid (Reach α) where
  nsmul := nsmulRec
  zero_add _ := rfl
  add_zero a := by cases a <;> rfl
  add_assoc a b c := by
    cases a <;> cases b <;> cases c <;> first
      | rfl
      | exact congrArg upTo (min_assoc _ _ _)
  add_comm a b := by
    cases a <;> cases b <;> first
      | rfl
      | exact congrArg upTo (min_comm _ _)

/-- Unless both bounds are numbers, nothing is known of the two together. -/
theorem ofBound_add_undecided (place : Literal → α) {x y : Option Literal}
    (undecided : ∀ l ∈ x, ∀ r ∈ y, l.isNaN = true ∨ r.isNaN = true) :
    ofBound place x + ofBound place y = unknown := by
  rcases ofBound_cases place x with ⟨-, hx⟩ | ⟨l, -, -, hx⟩ | ⟨l, hl, hln, hx⟩
  · rcases ofBound_cases place y with ⟨-, hy⟩ | ⟨r, -, -, hy⟩ | ⟨r, -, -, hy⟩ <;>
      rw [hx, hy] <;> rfl
  · rcases ofBound_cases place y with ⟨-, hy⟩ | ⟨r, -, -, hy⟩ | ⟨r, -, -, hy⟩ <;>
      rw [hx, hy] <;> rfl
  · rcases ofBound_cases place y with ⟨-, hy⟩ | ⟨r, -, -, hy⟩ | ⟨r, hr, hrn, -⟩
    · rw [hx, hy]
      rfl
    · rw [hx, hy]
      rfl
    · have hnan := undecided l hl r hr
      simp [hln, hrn] at hnan

end Reach

namespace Statistics

open Literal

/-- How far a bound of statistics reaches. -/
def reach {α : Type} (place : Literal → α) (bound : Statistics → Option Literal) (s : Statistics) :
    Reach α :=
  if s.count = 0 then .nowhere else .ofBound place (bound s)

section reach

variable {α : Type} [LinearOrder α] {place : Literal → α} {side : Ordering}
variable {bound : Statistics → Option Literal} {s t u : Statistics}

/-- Unless both bounds are numbers, the merged one is unknown. -/
theorem mergeBounds_undecided {x y z : Option Literal} (h : mergeBounds side x y = .ok z)
    (undecided : ∀ l ∈ x, ∀ r ∈ y, l.isNaN = true ∨ r.isNaN = true) : z = none := by
  cases x with
  | none => exact (Except.ok.inj h).symm
  | some l =>
      cases y with
      | none => exact (Except.ok.inj h).symm
      | some r =>
          obtain ⟨o, ho, rfl⟩ := map_eq_ok_iff.mp h
          obtain ⟨-, rfl⟩ := order?_of_compare? ho
          rw [order?_eq_none_iff.mpr (undecided l rfl r rfl)]

/-- The merged bound of two parts with values reaches as far as their bounds do together. -/
theorem ofBound_of_mergeBounds (orders : Orders place side) {x y z : Option Literal}
    (h : mergeBounds side x y = .ok z) :
    Reach.ofBound place z = Reach.ofBound place x + Reach.ofBound place y := by
  by_cases undecided : ∀ l ∈ x, ∀ r ∈ y, l.isNaN = true ∨ r.isNaN = true
  · rw [mergeBounds_undecided h undecided, Reach.ofBound_add_undecided place undecided]
    rfl
  simp only [not_forall, not_or, Bool.not_eq_true] at undecided
  obtain ⟨l, rfl, r, rfl, hl, hr⟩ := undecided
  obtain ⟨o, ho, -⟩ := map_eq_ok_iff.mp h
  rw [mergeBounds_numbers orders (kind_eq_of_compare?_eq_ok ho) hl hr] at h
  have hnumber : (nearer place l r).isNaN = false := by
    rw [nearer, apply_ite isNaN, hl, hr, ite_self]
  rw [← Except.ok.inj h, Reach.ofBound_number place hnumber, Reach.ofBound_number place hl,
    Reach.ofBound_number place hr, place_nearer place]
  rfl

/-- A merged bound reaches as far as those of both parts do together. -/
theorem reach_of_mergeBound (orders : Orders place side)
    (h : mergeBound side bound s t = .ok (bound u)) (count : u.count = s.count + t.count) :
    u.reach place bound = s.reach place bound + t.reach place bound := by
  unfold mergeBound at h
  by_cases hs : s.count = 0
  · rw [if_pos hs] at h
    rw [hs, Nat.zero_add] at count
    rw [reach, reach, reach, if_pos hs, count, ← Except.ok.inj h]
    rfl
  rw [if_neg hs] at h
  by_cases ht : t.count = 0
  · rw [if_pos ht] at h
    rw [ht, Nat.add_zero] at count
    rw [reach, reach, reach, if_pos ht, count, ← Except.ok.inj h]
    exact (add_zero _).symm
  · rw [if_neg ht] at h
    rw [reach, reach, reach, if_neg hs, if_neg ht, if_neg (by omega)]
    exact ofBound_of_mergeBounds orders h

end reach

/-! ### Statistics that are alike -/

/-- Whether statistics without values have no bounds. -/
def Bare (s : Statistics) : Prop := s.count = 0 → s.min = none ∧ s.max = none

instance (s : Statistics) : Decidable s.Bare := inferInstanceAs (Decidable (_ → _ ∧ _))

/-- Whether statistics differ at most in how equal bounds are written. -/
structure Alike (s t : Statistics) : Prop where
  hasNull : s.hasNull = t.hasNull
  count : s.count = t.count
  min : Option.Rel Literal.Alike s.min t.min
  max : Option.Rel Literal.Alike s.max t.max

/-- Bounds of one kind that reach equally far are alike. -/
theorem alike_of_reach {α : Type} [LinearOrder α] {place : Literal → α} {side : Ordering}
    (orders : Orders place side) {bound : Statistics → Option Literal} {s t : Statistics}
    {kind : Kind} (hs : ∀ b ∈ bound s, b.kind = kind) (ht : ∀ b ∈ bound t, b.kind = kind)
    (bare : s.count = 0 → bound s = none ∧ bound t = none) (count : s.count = t.count)
    (h : s.reach place bound = t.reach place bound) :
    Option.Rel Literal.Alike (bound s) (bound t) := by
  by_cases hcount : s.count = 0
  · obtain ⟨hs, ht⟩ := bare hcount
    rw [hs, ht]
    exact .none
  rw [reach, reach, if_neg hcount, if_neg (count ▸ hcount)] at h
  rcases Reach.ofBound_cases place (bound s) with ⟨hl, hx⟩ | ⟨l, hl, -, hx⟩ | ⟨l, hl, hln, hx⟩ <;>
    rcases Reach.ofBound_cases place (bound t) with ⟨hr, hy⟩ | ⟨r, hr, -, hy⟩ | ⟨r, hr, hrn, hy⟩ <;>
    rw [hx, hy] at h <;> rw [hl, hr] <;> try cases h
  · exact .none
  · exact .some (.refl _)
  · have horder := (orders l r hln hrn).2.mpr (Reach.upTo.inj h)
    exact .some ⟨(hs l hl).trans (ht r hr).symm, hln.trans hrn.symm,
      (order?_eq_eq_iff.mp horder).2.2⟩

end Statistics

/-! ### Truth over statistics that are alike -/

namespace Test

section bounds

variable {min max min' max' : Literal} (hmin : min.Alike min') (hmax : max.Alike max')

include hmin hmax

theorem isInRange_alike_bounds (ls : List Literal) :
    isInRange min max ls = isInRange min' max' ls := by
  induction ls with
  | nil => rfl
  | cons l ls ih => simp only [isInRange, hmin.compare?_right, hmax.compare?_right, ih]

theorem boundedTruth_alike_bounds (t : Test) (hasNull : Bool) :
    t.boundedTruth hasNull min max = t.boundedTruth hasNull min' max' := by
  cases t with
  | equals v | nullSafeEquals v =>
      simp only [boundedTruth, equalsTruth, hmin.compare?_right, hmax.compare?_right]
  | lessThan v => simp only [boundedTruth, lessThanTruth, hmin.compare?_left, hmax.compare?_left]
  | lessThanEquals v =>
      simp only [boundedTruth, lessThanEqualsTruth, hmin.compare?_left, hmax.compare?_left]
  | between lower upper =>
      simp only [boundedTruth, betweenTruth, hmin.compare?_left, hmax.compare?_left]
  | isNull => rfl
  | isIn first rest =>
      simp only [boundedTruth, isInTruth, hmin.compare?_left, hmax.compare?_right,
        isInConstant_alike_value hmin, isInRange_alike_bounds hmin hmax]

end bounds

theorem truth_alike_statistics {s t : Statistics} (h : s.Alike t) (test : Test) :
    test.truth s = test.truth t := by
  have hnull : isNullTruth s = isNullTruth t := by
    rw [isNullTruth, isNullTruth, h.hasNull, h.count]
  rw [truth, truth, hnull, h.count, h.hasNull]
  congr 2
  obtain ⟨_, _, sMin, sMax⟩ := s
  obtain ⟨_, _, tMin, tMax⟩ := t
  obtain ⟨-, -, hmin, hmax⟩ := h
  cases hmin with
  | none => rfl
  | some hmin =>
      cases hmax with
      | none => rfl
      | some hmax => exact boundedTruth_alike_bounds hmin hmax test _

end Test

/-! ### What merged statistics gather -/

namespace Statistics

open Literal

/-- Whether statistics of a kind say what some entries say together. -/
structure Gathers (kind : Kind) (entries : List Statistics) (u : Statistics) : Prop where
  ofKind : u.OfKind kind
  bare : u.Bare
  hasNull : u.hasNull = entries.any Statistics.hasNull
  count : u.count = (entries.map Statistics.count).sum
  min : u.reach rank Statistics.min = (entries.map (reach rank Statistics.min)).sum
  max : u.reach rankAbove Statistics.max = (entries.map (reach rankAbove Statistics.max)).sum

variable {kind : Kind} {s t : Statistics} {xs ys : List Statistics}

theorem gathers_single (ofKind : s.OfKind kind) (bare : s.Bare) : Gathers kind [s] s where
  ofKind := ofKind
  bare := bare
  hasNull := by simp
  count := by simp
  min := by simp
  max := by simp

theorem Gathers.merge (hs : Gathers kind xs s) (ht : Gathers kind ys t)
    (few : s.count + t.count < UInt64.size) :
    ∃ u, s.merge t = .ok u ∧ Gathers kind (xs ++ ys) u := by
  obtain ⟨u, hu, ofKind⟩ := merge_eq_ok hs.ofKind ht.ofKind
  obtain ⟨hmin, hmax, hnull, hcount⟩ := merge_eq_ok_iff.mp hu
  rw [Word.add_eq few] at hcount
  refine ⟨u, hu, ofKind, fun hzero => ?_, ?_, ?_, ?_, ?_⟩
  · rw [hcount] at hzero
    obtain ⟨hs₀, ht₀⟩ := Nat.add_eq_zero_iff.mp hzero
    obtain ⟨htmin, htmax⟩ := ht.bare ht₀
    rw [mergeBound, if_pos hs₀] at hmin hmax
    exact ⟨(Except.ok.inj hmin).symm.trans htmin, (Except.ok.inj hmax).symm.trans htmax⟩
  · rw [hnull, hs.hasNull, ht.hasNull, List.any_append]
  · rw [hcount, hs.count, ht.count, List.map_append, List.sum_append]
  · rw [reach_of_mergeBound orders_rank hmin hcount, hs.min, ht.min, List.map_append,
      List.sum_append]
  · rw [reach_of_mergeBound orders_rankAbove hmax hcount, hs.max, ht.max, List.map_append,
      List.sum_append]

/-- The order of the entries does not matter. -/
theorem Gathers.perm (h : Gathers kind xs s) (perm : xs.Perm ys) : Gathers kind ys s where
  ofKind := h.ofKind
  bare := h.bare
  hasNull := h.hasNull.trans perm.any_eq
  count := h.count.trans (perm.map _).sum_eq
  min := h.min.trans (perm.map _).sum_eq
  max := h.max.trans (perm.map _).sum_eq

/-- What gathers the same entries is alike. -/
theorem Gathers.alike (hs : Gathers kind xs s) (ht : Gathers kind xs t) : s.Alike t := by
  have count : s.count = t.count := hs.count.trans ht.count.symm
  refine ⟨hs.hasNull.trans ht.hasNull.symm, count, ?_, ?_⟩
  · exact alike_of_reach orders_rank hs.ofKind.min ht.ofKind.min
      (fun h => ⟨(hs.bare h).1, (ht.bare (count ▸ h)).1⟩) count (hs.min.trans ht.min.symm)
  · exact alike_of_reach orders_rankAbove hs.ofKind.max ht.ofKind.max
      (fun h => ⟨(hs.bare h).2, (ht.bare (count ▸ h)).2⟩) count (hs.max.trans ht.max.symm)

end Statistics

/-! ### Merging in any order and grouping -/

/-- An order and a grouping of statistics that are to be merged. -/
inductive Grouping where
  | single (s : Statistics)
  | join (left right : Grouping)

namespace Grouping

/-- The statistics of a grouping, from left to right. -/
def entries : Grouping → List Statistics
  | single s => [s]
  | join left right => left.entries ++ right.entries

/-- The statistics of a grouping merged as it says. -/
def merged : Grouping → Except Incomparable Statistics
  | single s => .ok s
  | join left right => do (← left.merged).merge (← right.merged)

/-- Merging as a grouping says succeeds and gathers its entries, if their counts do not overflow. -/
theorem merged_gathers {kind : Kind} (g : Grouping) (kinds : ∀ s ∈ g.entries, s.OfKind kind)
    (bare : ∀ s ∈ g.entries, s.Bare)
    (total : (g.entries.map Statistics.count).sum < UInt64.size) :
    ∃ u, g.merged = .ok u ∧ u.Gathers kind g.entries := by
  induction g with
  | single s =>
      have hmem : s ∈ (single s).entries := List.mem_singleton_self s
      exact ⟨s, rfl, Statistics.gathers_single (kinds s hmem) (bare s hmem)⟩
  | join left right ihl ihr =>
      rw [entries, List.map_append, List.sum_append] at total
      obtain ⟨s, hs, gathersLeft⟩ := ihl (fun s h => kinds s (List.mem_append_left _ h))
        (fun s h => bare s (List.mem_append_left _ h)) (by omega)
      obtain ⟨t, ht, gathersRight⟩ := ihr (fun s h => kinds s (List.mem_append_right _ h))
        (fun s h => bare s (List.mem_append_right _ h)) (by omega)
      rw [← gathersLeft.count, ← gathersRight.count] at total
      obtain ⟨u, hu, gathers⟩ := gathersLeft.merge gathersRight total
      exact ⟨u, by rw [merged, hs, ht, bind_ok, bind_ok, hu], gathers⟩

/-- In whichever order and grouping statistics of one kind are merged, if their counts do not
overflow in total, this succeeds, and the results say the same: they agree on nulls, each counts all
values, their bounds are both absent, both no number or equal, and every predicate of the kind has
one truth over both. -/
theorem merged_perm {kind : Kind} {ss : List Statistics} (kinds : ∀ s ∈ ss, s.OfKind kind)
    (bare : ∀ s ∈ ss, s.Bare) (total : (ss.map Statistics.count).sum < UInt64.size)
    {f g : Grouping} (hf : f.entries.Perm ss) (hg : g.entries.Perm ss) :
    ∃ u v, f.merged = .ok u ∧ g.merged = .ok v ∧ u.hasNull = v.hasNull ∧
      u.count = (ss.map Statistics.count).sum ∧ u.count = v.count ∧
      Option.Rel Literal.SameBound u.min v.min ∧ Option.Rel Literal.SameBound u.max v.max ∧
        ∀ p : Predicate, p.kind = kind → ∃ t, p.truth u = .ok t ∧ p.truth v = .ok t := by
  have merges {g : Grouping} (hg : g.entries.Perm ss) :
      ∃ u, g.merged = .ok u ∧ u.Gathers kind ss := by
    have hsum : (g.entries.map Statistics.count).sum = (ss.map Statistics.count).sum :=
      (hg.map _).sum_eq
    obtain ⟨u, hu, gathers⟩ := g.merged_gathers (fun s h => kinds s (hg.subset h))
      (fun s h => bare s (hg.subset h)) (hsum ▸ total)
    exact ⟨u, hu, gathers.perm hg⟩
  obtain ⟨u, hu, gathers⟩ := merges hf
  obtain ⟨v, hv, gathers'⟩ := merges hg
  have alike := gathers.alike gathers'
  refine ⟨u, v, hu, hv, alike.hasNull, gathers.count, alike.count,
    Literal.sameBound_of_alike alike.min,
    Literal.sameBound_of_alike alike.max, fun p hp => ?_⟩
  subst hp
  obtain ⟨t, ht⟩ := Test.truth_eq_ok gathers.ofKind p.literal_kinds
  exact ⟨t, ht, (Test.truth_alike_statistics alike p.test).symm.trans ht⟩

/-- Three prices from 1.0 on, of which the highest is not known. -/
def tenths : Statistics := ⟨false, 3, some (.decimal ⟨⟨10, by decide, by decide⟩, 1⟩), none⟩

/-- Two prices from 1.00 to 2.50. -/
def cents : Statistics :=
  .ofRange (.decimal ⟨⟨100, by decide, by decide⟩, 2⟩) (.decimal ⟨⟨250, by decide, by decide⟩, 2⟩) 2

/-- The two least prices are equal, and which of them is kept depends on the order. -/
theorem merged_perm_prices : ∃ u v,
    (join (join (single tenths) (single cents)) (single .allNull)).merged = .ok u ∧
      (join (single cents) (join (single .allNull) (single tenths))).merged = .ok v ∧
      u.min = tenths.min ∧ v.min = cents.min ∧ u.hasNull = v.hasNull ∧ u.count = 5 ∧
      u.count = v.count ∧
      Option.Rel Literal.SameBound u.min v.min ∧ Option.Rel Literal.SameBound u.max v.max ∧
      ∀ p : Predicate, p.kind = .decimal → ∃ t, p.truth u = .ok t ∧ p.truth v = .ok t := by
  have kinds : ∀ s ∈ [tenths, cents, .allNull], s.OfKind .decimal := by decide
  have bare : ∀ s ∈ [tenths, cents, .allNull], s.Bare := by decide
  obtain ⟨u, v, hu, hv, agree⟩ := merged_perm kinds bare (by decide)
    (f := join (join (single tenths) (single cents)) (single .allNull)) (.refl _)
    (g := join (single cents) (join (single .allNull) (single tenths))) (by decide)
  refine ⟨u, v, hu, hv, ?_, ?_, agree⟩
  · cases hu
    rfl
  · cases hv
    rfl

end Grouping

end StripeScan
