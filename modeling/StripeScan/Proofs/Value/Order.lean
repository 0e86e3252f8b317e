import Mathlib
import StripeScan.Value.Literal

/-! # The order of literals

Comparing literals follows one linear order: every literal has a rank, and two literals of one
kind, both of them numbers if they are floats, compare as their ranks do (`compare?_eq_rank`).
Strings are ranked by themselves and all other kinds by a rational number.

* The rank of a decimal is the number it stands for; `Decimal.compare_eq` says that rescaling,
  and deciding by sign where rescaling leaves the 128 bits, is exact.
* The rank of a float is its key, and that of an instant counts half nanoseconds of a second, so
  that leap seconds come last in theirs. -/

namespace StripeScan

/-- Two pairs that are ordered alike compare alike. -/
theorem compare_congr {α β : Type} [LinearOrder α] [LinearOrder β] {a b : α} {c d : β}
    (lt : a < b ↔ c < d) (gt : b < a ↔ d < c) : Ord.compare a b = Ord.compare c d := by
  rcases lt_trichotomy a b with h | h | h
  · rw [compare_lt_iff_lt.mpr h, compare_lt_iff_lt.mpr (lt.mp h)]
  · subst h
    have hcd : c = d := le_antisymm (not_lt.mp fun h => lt_irrefl _ (gt.mpr h))
      (not_lt.mp fun h => lt_irrefl _ (lt.mpr h))
    rw [hcd, compare_eq_iff_eq.mpr rfl, compare_eq_iff_eq.mpr rfl]
  · rw [compare_gt_iff_gt.mpr h, compare_gt_iff_gt.mpr (gt.mp h)]

theorem compare_intCast (a b : ℤ) : Ord.compare (a : ℚ) (b : ℚ) = Ord.compare a b :=
  compare_congr Int.cast_lt Int.cast_lt

/-- A positive factor does not change an order. -/
theorem compare_mul_pos {a b c : ℚ} (h : 0 < c) :
    Ord.compare (a * c) (b * c) = Ord.compare a b :=
  compare_congr (mul_lt_mul_iff_of_pos_right h) (mul_lt_mul_iff_of_pos_right h)

/-! ### Decimals -/

namespace Int128

/-- What rescaling cannot hold lies beyond every value, on the side of its sign. -/
theorem beyond_of_shift?_eq_none {v : Int128} {digits : ℕ} (h : v.shift? digits = none) :
    (0 < v.toInt → 0x80000000000000000000000000000000 ≤ v.toInt * 10 ^ digits) ∧
      (v.toInt < 0 → v.toInt * 10 ^ digits < -0x80000000000000000000000000000000) := by
  have hpow : ((Nat.pow 10 digits : ℕ) : ℤ) = 10 ^ digits := by
    exact_mod_cast rfl
  have hpos : (0 : ℤ) < 10 ^ digits := by positivity
  unfold shift? at h
  rw [hpow] at h
  cases hp : ofInt? (10 ^ digits) with
  | none =>
      have hbig : (10 : ℤ) ^ 39 ≤ 10 ^ digits := by
        by_contra hlt
        have hd : digits < 39 := by
          by_contra hge
          exact hlt (pow_le_pow_right₀ (by norm_num) (by omega))
        have hle : (10 : ℤ) ^ digits ≤ 10 ^ 38 := pow_le_pow_right₀ (by norm_num) (by omega)
        unfold ofInt? at hp
        rw [dif_pos ⟨by linarith, by norm_num at hle ⊢; linarith⟩] at hp
        cases hp
      norm_num at hbig
      constructor
      · intro hv
        nlinarith
      · intro hv
        nlinarith
  | some power =>
      rw [hp, Option.bind_some, toInt_of_ofInt? hp] at h
      unfold ofInt? at h
      split at h
      · cases h
      · rename_i hout
        constructor
        · intro hv
          have := mul_pos hv hpos
          omega
        · intro hv
          have := mul_neg_of_neg_of_pos hv hpos
          omega

theorem toInt_of_shift? {v w : Int128} {digits : ℕ} (h : v.shift? digits = some w) :
    w.toInt = v.toInt * 10 ^ digits := by
  unfold shift? at h
  obtain ⟨power, hp, hw⟩ := Option.bind_eq_some_iff.mp h
  rw [toInt_of_ofInt? hw, toInt_of_ofInt? hp]
  exact_mod_cast rfl

end Int128

namespace Decimal

/-- The number a decimal stands for. -/
def value (d : Decimal) : ℚ := d.unscaled.toInt * (10 : ℚ) ^ (-d.scale.toInt)

theorem power_pos (i : ℤ) : (0 : ℚ) < 10 ^ i := zpow_pos (by norm_num) i

theorem value_pos_iff (d : Decimal) : 0 < d.value ↔ 0 < d.unscaled.toInt := by
  unfold value
  rw [mul_pos_iff_of_pos_right (power_pos _), Int.cast_pos]

theorem value_neg_iff (d : Decimal) : d.value < 0 ↔ d.unscaled.toInt < 0 := by
  unfold value
  rw [← Int.cast_lt_zero (R := ℚ)]
  constructor
  · intro h
    by_contra hle
    exact absurd h (not_lt.mpr (mul_nonneg (not_lt.mp hle) (power_pos _).le))
  · intro h
    exact mul_neg_of_neg_of_pos h (power_pos _)

theorem value_eq_zero_iff (d : Decimal) : d.value = 0 ↔ d.unscaled.toInt = 0 := by
  unfold value
  rw [mul_eq_zero_iff_right (power_pos _).ne', Int.cast_eq_zero]

theorem sign_eq_zero_iff (d : Decimal) : d.sign = 0 ↔ d.unscaled.toInt = 0 :=
  Int.sign_eq_zero_iff_zero

/-- A decimal counted in units of a finer scale. -/
theorem value_eq_shifted {a b : Decimal} (h : a.scale.toInt ≤ b.scale.toInt) :
    a.value = ((a.unscaled.toInt * 10 ^ a.extraDigits b : ℤ) : ℚ) * 10 ^ (-b.scale.toInt) := by
  have hexp : (-a.scale.toInt) = (a.extraDigits b : ℤ) + -b.scale.toInt := by
    unfold extraDigits
    omega
  unfold value
  rw [hexp, zpow_add₀ (by norm_num), zpow_natCast]
  push_cast
  ring

theorem compare_sign (a b : Decimal) (h : a.sign = 0 ∨ b.sign = 0) :
    Ord.compare a.sign b.sign = Ord.compare a.value b.value := by
  rcases h with h | h
  · have ha : a.value = 0 := a.value_eq_zero_iff.mpr (a.sign_eq_zero_iff.mp h)
    rw [h, ha]
    refine compare_congr ?_ ?_
    · rw [value_pos_iff, sign, Int.sign_pos_iff]
    · rw [value_neg_iff, sign, Int.sign_neg_iff]
  · have hb : b.value = 0 := b.value_eq_zero_iff.mpr (b.sign_eq_zero_iff.mp h)
    rw [h, hb]
    refine compare_congr ?_ ?_
    · rw [value_neg_iff, sign, Int.sign_neg_iff]
    · rw [value_pos_iff, sign, Int.sign_pos_iff]

theorem compareCoarser_of_some {a b : Decimal} {w : Int128}
    (h : a.unscaled.shift? (a.extraDigits b) = some w) :
    a.compareCoarser b = Ord.compare w.toInt b.unscaled.toInt := by
  rw [compareCoarser, h, Option.elim_some]

theorem compareCoarser_of_none {a b : Decimal}
    (h : a.unscaled.shift? (a.extraDigits b) = none) :
    a.compareCoarser b = Ord.compare a.sign 0 := by
  rw [compareCoarser, h, Option.elim_none]

/-- Where rescaling leaves the 128 bits, the sign alone gives the right order. -/
theorem compare_sign_of_beyond {a b : Decimal} (nonzero : a.sign ≠ 0)
    (h : a.unscaled.shift? (a.extraDigits b) = none) :
    Ord.compare a.sign 0 =
      Ord.compare (a.unscaled.toInt * 10 ^ a.extraDigits b) b.unscaled.toInt := by
  obtain ⟨above, below⟩ := Int128.beyond_of_shift?_eq_none h
  have hne : a.unscaled.toInt ≠ 0 := fun h0 => nonzero (a.sign_eq_zero_iff.mpr h0)
  unfold sign
  rcases lt_or_gt_of_ne hne with hneg | hpos
  · have hlt : a.unscaled.toInt * 10 ^ a.extraDigits b < b.unscaled.toInt :=
      (below hneg).trans_le b.unscaled.lower
    rw [Int.sign_eq_neg_one_of_neg hneg, compare_lt_iff_lt.mpr hlt]
    rfl
  · have hgt : b.unscaled.toInt < a.unscaled.toInt * 10 ^ a.extraDigits b :=
      b.unscaled.upper.trans_le (above hpos)
    rw [Int.sign_eq_one_of_pos hpos, compare_gt_iff_gt.mpr hgt]
    rfl

theorem compareCoarser_eq {a b : Decimal} (nonzero : a.sign ≠ 0)
    (h : a.scale.toInt ≤ b.scale.toInt) :
    a.compareCoarser b = Ord.compare a.value b.value := by
  have hb : b.value = ((b.unscaled.toInt : ℤ) : ℚ) * 10 ^ (-b.scale.toInt) := rfl
  rw [value_eq_shifted h, hb, compare_mul_pos (power_pos _), compare_intCast]
  cases hs : a.unscaled.shift? (a.extraDigits b) with
  | some shifted => rw [compareCoarser_of_some hs, Int128.toInt_of_shift? hs]
  | none => rw [compareCoarser_of_none hs, compare_sign_of_beyond nonzero hs]

/-- Decimals are ordered as the numbers they stand for. -/
theorem compare_eq (a b : Decimal) : a.compare b = Ord.compare a.value b.value := by
  unfold compare
  split
  · exact compare_sign a b ‹_›
  · rename_i hsign
    obtain ⟨ha, hb⟩ := not_or.mp hsign
    split
    · rename_i hscale
      unfold value
      rw [hscale, compare_mul_pos (power_pos _), compare_intCast]
    · split
      · rename_i hlt
        exact compareCoarser_eq ha hlt.le
      · rename_i hne hge
        rw [compareCoarser_eq hb (not_lt.mp hge)]
        exact Std.OrientedOrd.eq_swap.symm

end Decimal

/-! ### Literals -/

namespace Literal

/-- Whether a literal is a float that is no number. -/
def isNaN : Literal → Bool
  | float x => x.isNaN
  | _ => false

/-- The place of a literal among those of its kind. -/
def rank : Literal → ℚ ×ₗ String
  | long v => toLex (v.toInt, "")
  | float v => toLex (v.key, "")
  | string v => toLex (0, v)
  | boolean v => toLex (if v then 1 else 0, "")
  | decimal v => toLex (v.value, "")
  | date v => toLex (v.day, "")
  | timestamp v => toLex (v.seconds * 2000000000 + v.nanos, "")

/-- The order of two literals of one kind. -/
def order? (a b : Literal) : Option Ordering :=
  if a.isNaN || b.isNaN then none else some (Ord.compare a.rank b.rank)

theorem compare_toLex_number (x y : ℚ) :
    Ord.compare (toLex (x, "")) (toLex (y, "")) = Ord.compare x y :=
  compare_congr (by simp [Prod.Lex.lt_iff]) (by simp [Prod.Lex.lt_iff])

theorem compare_toLex_string (x y : String) :
    Ord.compare (toLex ((0 : ℚ), x)) (toLex ((0 : ℚ), y)) = Ord.compare x y :=
  compare_congr (by simp [Prod.Lex.lt_iff]) (by simp [Prod.Lex.lt_iff])

theorem compare_toLex_int (x y : ℤ) :
    Ord.compare (toLex ((x : ℚ), "")) (toLex ((y : ℚ), "")) = Ord.compare x y := by
  rw [compare_toLex_number, compare_intCast]

theorem compare_toLex_bool (x y : Bool) :
    Ord.compare (toLex ((if x then 1 else 0 : ℚ), "")) (toLex ((if y then 1 else 0 : ℚ), "")) =
      Ord.compare x y := by
  rw [compare_toLex_number]
  cases x <;> cases y <;>
    exact compare_congr (by norm_num [Bool.lt_iff]) (by norm_num [Bool.lt_iff])

/-- Seconds before nanoseconds is the order of all half nanoseconds, as a second has fewer than
`2 * 10^9` nanoseconds even where a leap second follows it. -/
theorem compare_timestamp (a b : Timestamp) :
    a.compare b =
      Ord.compare (a.seconds * 2000000000 + a.nanos) (b.seconds * 2000000000 + b.nanos) := by
  obtain ⟨s, n, -, -, hn⟩ := a
  obtain ⟨t, m, -, -, hm⟩ := b
  unfold Timestamp.compare
  simp only
  rcases lt_trichotomy s t with h | h | h
  · have hlt : s * 2000000000 + (n : ℤ) < t * 2000000000 + m := by omega
    rw [compare_lt_iff_lt.mpr h, compare_lt_iff_lt.mpr hlt]
    rfl
  · subst h
    rw [compare_eq_iff_eq.mpr rfl]
    exact compare_congr (by omega) (by omega)
  · have hgt : t * 2000000000 + (m : ℤ) < s * 2000000000 + n := by omega
    rw [compare_gt_iff_gt.mpr h, compare_gt_iff_gt.mpr hgt]
    rfl

/-- Literals of one kind compare as their ranks do, unless one is no number. -/
theorem compare?_eq {a b : Literal} (kinds : a.kind = b.kind) :
    a.compare? b = .ok (a.order? b) := by
  cases a <;> cases b <;> cases kinds
  case long.long a b => exact congrArg (Except.ok ∘ some) (compare_toLex_int _ _).symm
  case float.float a b =>
    simp only [compare?, Binary64.compare?, order?, isNaN, rank]
    rw [compare_toLex_int]
    rfl
  case string.string a b => exact congrArg (Except.ok ∘ some) (compare_toLex_string _ _).symm
  case boolean.boolean a b => exact congrArg (Except.ok ∘ some) (compare_toLex_bool _ _).symm
  case decimal.decimal a b =>
    refine congrArg (Except.ok ∘ some) ?_
    rw [Decimal.compare_eq]
    exact (compare_toLex_number _ _).symm
  case date.date a b => exact congrArg (Except.ok ∘ some) (compare_toLex_int _ _).symm
  case timestamp.timestamp a b =>
    refine congrArg (Except.ok ∘ some) ?_
    rw [compare_timestamp, ← compare_intCast, ← compare_toLex_number]
    simp [rank]

theorem kind_eq_of_compare?_eq_ok {a b : Literal} {o : Option Ordering}
    (h : a.compare? b = .ok o) : a.kind = b.kind :=
  isOk_compare?_iff.mp ⟨o, h⟩

/-- A comparison that succeeds is of literals of one kind and gives their order. -/
theorem order?_of_compare? {a b : Literal} {o : Option Ordering} (h : a.compare? b = .ok o) :
    a.kind = b.kind ∧ a.order? b = o := by
  have kinds := kind_eq_of_compare?_eq_ok h
  rw [compare?_eq kinds, Except.ok.injEq] at h
  exact ⟨kinds, h⟩

theorem order?_eq_none_iff {a b : Literal} :
    a.order? b = none ↔ a.isNaN = true ∨ b.isNaN = true := by
  unfold order?
  split <;> simp_all

theorem order?_eq_some_iff {a b : Literal} {o : Ordering} :
    a.order? b = some o ↔
      a.isNaN = false ∧ b.isNaN = false ∧ Ord.compare a.rank b.rank = o := by
  unfold order?
  cases a.isNaN <;> cases b.isNaN <;> simp

theorem order?_eq_lt_iff {a b : Literal} :
    a.order? b = some .lt ↔ a.isNaN = false ∧ b.isNaN = false ∧ a.rank < b.rank := by
  rw [order?_eq_some_iff, compare_lt_iff_lt]

theorem order?_eq_eq_iff {a b : Literal} :
    a.order? b = some .eq ↔ a.isNaN = false ∧ b.isNaN = false ∧ a.rank = b.rank := by
  rw [order?_eq_some_iff, compare_eq_iff_eq]

theorem order?_eq_gt_iff {a b : Literal} :
    a.order? b = some .gt ↔ a.isNaN = false ∧ b.isNaN = false ∧ b.rank < a.rank := by
  rw [order?_eq_some_iff, compare_gt_iff_gt]

theorem isOrder_eq {a b : Literal} (kinds : a.kind = b.kind) (o : Ordering) :
    a.isOrder o b = .ok (a.order? b == some o) := by
  unfold isOrder
  rw [compare?_eq kinds]
  rfl

/-- The order of two literals is decided, and the first is not the greater. -/
def AtMost (a b : Literal) : Prop := ∃ order, a.compare? b = .ok (some order) ∧ order ≠ .gt

instance (a b : Literal) : Decidable (a.AtMost b) :=
  match h : a.compare? b with
  | .ok (some order) => decidable_of_iff (order ≠ .gt)
      ⟨fun hne => ⟨order, h, hne⟩, fun ⟨_, ho, hne⟩ => by rw [h] at ho; cases ho; exact hne⟩
  | .ok none => isFalse fun ⟨_, ho, _⟩ => by rw [h] at ho; cases ho
  | .error _ => isFalse fun ⟨_, ho, _⟩ => by rw [h] at ho; cases ho

theorem atMost_iff {a b : Literal} :
    a.AtMost b ↔ a.kind = b.kind ∧ a.isNaN = false ∧ b.isNaN = false ∧ a.rank ≤ b.rank := by
  constructor
  · rintro ⟨order, h, hne⟩
    obtain ⟨hk, h⟩ := order?_of_compare? h
    obtain ⟨ha, hb, rfl⟩ := order?_eq_some_iff.mp h
    exact ⟨hk, ha, hb, not_lt.mp fun hlt => hne (compare_gt_iff_gt.mpr hlt)⟩
  · rintro ⟨hk, ha, hb, hle⟩
    refine ⟨Ord.compare a.rank b.rank, ?_, fun h => ?_⟩
    · rw [compare?_eq hk, order?_eq_some_iff.mpr ⟨ha, hb, rfl⟩]
    · exact absurd (compare_gt_iff_gt.mp h) (not_lt.mpr hle)

end Literal

end StripeScan
