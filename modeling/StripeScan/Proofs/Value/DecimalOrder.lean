import StripeScan.Proofs.Value.Order

/-! # Comparing decimals in machine words

`Decimal.compareWords?` compares as machine words do: the scales are 8-bit integers whose difference
is taken in 32 bits, and everything else happens in 128.  A difference that left its 32 bits would
make it fail, but none does, since two scales differ by at most 255 (`Decimal.toNat_difference?`).
So it always succeeds, and its answer is the order of the numbers that the decimals stand for
(`Decimal.compare_exact`). -/

namespace StripeScan

namespace Decimal

/-- The difference of two 32-bit integers, if it is one. -/
def difference? (a b : Int32) : Option Int32 :=
  if (a - b).toInt = a.toInt - b.toInt then some (a - b) else none

/-- Order by value, in machine words; nothing if the difference of the scales overflows. -/
def compareWords? (a b : Decimal) : Option Ordering :=
  if a.sign = 0 ∨ b.sign = 0 then some (Ord.compare a.sign b.sign)
  else
    match Ord.compare a.scale.toInt b.scale.toInt with
    | .eq => some (Ord.compare a.unscaled.toInt b.unscaled.toInt)
    | .lt =>
      (difference? b.scale.toInt32 a.scale.toInt32).map fun digits =>
        (a.unscaled.shift? digits.toUInt32.toNat).elim (Ord.compare a.sign 0) fun shifted =>
          Ord.compare shifted.toInt b.unscaled.toInt
    | .gt =>
      (difference? a.scale.toInt32 b.scale.toInt32).map fun digits =>
        (b.unscaled.shift? digits.toUInt32.toNat).elim (Ord.compare 0 b.sign) fun shifted =>
          Ord.compare a.unscaled.toInt shifted.toInt

/-! ### The difference of two scales -/

/-- Two scales differ by at most 255, so their difference does not overflow, and neither does it
change when it is read without a sign. -/
theorem toNat_difference? {a b : Decimal} (h : a.scale.toInt ≤ b.scale.toInt) :
    ∃ digits, difference? b.scale.toInt32 a.scale.toInt32 = some digits ∧
      digits.toUInt32.toNat = a.extraDigits b := by
  have hlow := a.scale.le_toInt
  have hhigh := b.scale.toInt_lt
  have hdifference : (b.scale.toInt32 - a.scale.toInt32).toInt = b.scale.toInt - a.scale.toInt := by
    rw [Int32.toInt_sub, Int8.toInt_toInt32, Int8.toInt_toInt32]
    exact Int.bmod_eq_of_le (by omega) (by omega)
  have hnonneg : 0 ≤ b.scale.toInt32 - a.scale.toInt32 := by
    rw [Int32.le_iff_toInt_le, hdifference]
    exact Int.sub_nonneg_of_le h
  refine ⟨b.scale.toInt32 - a.scale.toInt32, ?_, ?_⟩
  · rw [difference?, Int8.toInt_toInt32, Int8.toInt_toInt32, if_pos hdifference]
  · rw [Int32.toNat_toUInt32_of_le hnonneg, Int32.toNatClampNeg, hdifference, extraDigits]

/-! ### Machine words are enough -/

theorem compareWords?_eq (a b : Decimal) : a.compareWords? b = some (a.compare b) := by
  unfold compareWords? compare
  by_cases hsign : a.sign = 0 ∨ b.sign = 0
  · rw [if_pos hsign, if_pos hsign]
  · rw [if_neg hsign, if_neg hsign]
    rcases lt_trichotomy a.scale.toInt b.scale.toInt with hlt | heq | hgt
    · obtain ⟨digits, hdigits, hcount⟩ := toNat_difference? hlt.le
      rw [compare_lt_iff_lt.mpr hlt, if_neg hlt.ne, if_pos hlt]
      simp only
      rw [hdigits, Option.map_some, hcount, compareCoarser]
    · rw [compare_eq_iff_eq.mpr heq, if_pos heq]
    · obtain ⟨digits, hdigits, hcount⟩ := toNat_difference? hgt.le
      rw [compare_gt_iff_gt.mpr hgt, if_neg hgt.ne', if_neg hgt.not_gt]
      simp only
      rw [hdigits, Option.map_some, hcount, compareCoarser]
      -- The coarser operand comes second here, so the answer is the other way around.
      cases b.unscaled.shift? (b.extraDigits a) with
      | some shifted => rw [Option.elim_some, Option.elim_some, ← Std.OrientedOrd.eq_swap]
      | none => rw [Option.elim_none, Option.elim_none, ← Std.OrientedOrd.eq_swap]

/-- Decimals compare as the numbers they stand for, in machine words and without overflow, whatever
their 128-bit values and their 8-bit scales.  So comparing is a total preorder: every decimal equals
itself, exchanging two decimals turns their order around, and "at most" is transitive across any
three scales. -/
theorem compare_exact (a b : Decimal) :
    a.compareWords? b = some (a.compare b) ∧
      a.compare b = Ord.compare ((a.unscaled.toInt : ℚ) * 10 ^ (-a.scale.toInt))
        ((b.unscaled.toInt : ℚ) * 10 ^ (-b.scale.toInt)) ∧
      a.compare a = .eq ∧
      b.compare a = (a.compare b).swap ∧
      ∀ c : Decimal, (a.compare b).isLE → (b.compare c).isLE → (a.compare c).isLE := by
  refine ⟨compareWords?_eq a b, compare_eq a b, ?_, ?_, fun c hab hbc => ?_⟩
  · rw [compare_eq, compare_eq_iff_eq]
  · rw [compare_eq, compare_eq]
    exact Std.OrientedOrd.eq_swap
  · rw [compare_eq] at hab hbc ⊢
    exact Std.TransOrd.isLE_trans hab hbc

/-- Scales as far apart as they can be: neither value can be rescaled to the finer scale, and signs
decide. -/
example :
    compareWords? ⟨⟨1, by decide, by decide⟩, -128⟩
        ⟨⟨0x7fffffffffffffffffffffffffffffff, by decide, by decide⟩, 127⟩ = some .gt ∧
      compareWords? ⟨⟨0x7fffffffffffffffffffffffffffffff, by decide, by decide⟩, 127⟩
        ⟨⟨-1, by decide, by decide⟩, -128⟩ = some .gt := by
  decide

end Decimal

end StripeScan
