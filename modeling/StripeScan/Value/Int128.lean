/-! # 128-bit signed integers

The unscaled values of decimals.  Arithmetic is done on `Int` and checked on the way back, so
overflow is always visible as `none`. -/

namespace StripeScan

/-- An integer in `[-2^127, 2^127)`. -/
structure Int128 where
  toInt : Int
  lower : -0x80000000000000000000000000000000 ≤ toInt
  upper : toInt < 0x80000000000000000000000000000000
deriving DecidableEq, Repr

namespace Int128

@[ext] theorem ext {a b : Int128} (h : a.toInt = b.toInt) : a = b := by
  cases a; cases b; cases h; rfl

/-- The integer `i`, if it fits. -/
def ofInt? (i : Int) : Option Int128 :=
  if h : -0x80000000000000000000000000000000 ≤ i ∧ i < 0x80000000000000000000000000000000 then
    some ⟨i, h.1, h.2⟩
  else none

/-- An integer fits exactly if some value stands for it. -/
theorem ofInt?_eq_some_iff {i : Int} {v : Int128} : ofInt? i = some v ↔ v.toInt = i := by
  constructor
  · intro h
    unfold ofInt? at h
    split at h
    · cases h; rfl
    · cases h
  · rintro rfl
    exact dif_pos ⟨v.lower, v.upper⟩

theorem toInt_of_ofInt? {i : Int} {v : Int128} (h : ofInt? i = some v) : v.toInt = i :=
  ofInt?_eq_some_iff.mp h

instance : Inhabited Int128 := ⟨⟨0, by decide, by decide⟩⟩

/-- `v * 10 ^ digits`, if both the power and the product fit. -/
def shift? (v : Int128) (digits : Nat) : Option Int128 :=
  (ofInt? (Nat.pow 10 digits)).bind fun power => ofInt? (v.toInt * power.toInt)

end Int128

end StripeScan
