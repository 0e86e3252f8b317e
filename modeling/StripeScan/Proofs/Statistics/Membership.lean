import StripeScan.Proofs.SearchArgument.Builder
import StripeScan.Proofs.Statistics.Coarser
import StripeScan.Proofs.Statistics.Constant

/-! # Membership and the order of a list

Whether a value between two bounds may be in a list is found by walking the list.  Over a range of
values the walk asks whether every literal lies outside, so that it does not matter how the list is
written (`Test.isInRange_eq`).

Over one value the walk ends at the first literal that settles the question (`Test.settling?`): one
that equals the value, or one that is no number.  The latter leaves the answer open although a later
literal may equal the value.  So the order of a list of floats shows in one case, and in no other
(`Predicate.truth_reordered`). -/

namespace StripeScan

open Literal

namespace Test

/-- The first literal of a list that settles whether a value is in it: one that equals the value, or
one that is no number. -/
def settling? (value : Literal) (ls : List Literal) : Option Literal :=
  ls.find? fun l => l.isNaN || l.order? value == some .eq

/-- What the settling literal says; without one the value is not in the list. -/
def settled : Option Literal → Truth
  | none => .no
  | some l => if l.isNaN then .yesNo else .yes

theorem isNeeded_settled (x : Option Literal) : (settled x).isNeeded = x.isSome := by
  cases x with
  | none => rfl
  | some l =>
      rw [settled]
      cases l.isNaN <;> rfl

/-- Two settling literals say the same, also with nulls, exactly if both are numbers or neither
is. -/
theorem withNulls_settled_eq_iff {x y : Option Literal} (hasNull : Bool) :
    (settled x).withNulls hasNull = (settled y).withNulls hasNull ↔ x.map isNaN = y.map isNaN := by
  have outcome (z : Option Literal) : settled z = match z.map isNaN with
      | none => .no
      | some true => .yesNo
      | some false => .yes := by
    cases z with
    | none => rfl
    | some l =>
        rw [settled, Option.map_some]
        cases l.isNaN <;> rfl
  rw [outcome, outcome]
  rcases x.map isNaN with _ | _ | _ <;> rcases y.map isNaN with _ | _ | _ <;> cases hasNull <;>
    simp [Truth.withNulls]

/-! ### Walking a list -/

section walks

variable {min max v : Literal} {ls ls' : List Literal} {kind : Kind}

theorem isInConstant_eq (number : v.isNaN = false) (kinds : ∀ l ∈ ls, l.kind = v.kind) :
    isInConstant v ls = .ok (settled (settling? v ls)) := by
  induction ls with
  | nil => rfl
  | cons l ls ih =>
      have hrest := ih fun w hw => kinds w (List.mem_cons_of_mem l hw)
      rw [isInConstant, compare?_eq (kinds l List.mem_cons_self), bind_ok, settling?,
        List.find?_cons]
      rcases l.order?_cases v with ⟨horder, hnan⟩ | ⟨hl, -, ⟨horder, -⟩ | ⟨horder, -⟩ | ⟨horder, -⟩⟩
      · have hl : l.isNaN = true := by simpa [number] using hnan
        simp [horder, hl, settled]
        rfl
      · simpa [horder, hl, settling?] using hrest
      · simp [horder, hl, settled]
        rfl
      · simpa [horder, hl, settling?] using hrest

/-- Over a range of values only the literals themselves matter, not their order. -/
theorem isInRange_eq (hmin : ∀ l ∈ ls, l.kind = min.kind) (hmax : ∀ l ∈ ls, l.kind = max.kind) :
    isInRange min max ls =
      .ok (if ∀ l ∈ ls, l.order? min = some .lt ∨ l.order? max = some .gt then .no
        else .yesNo) := by
  induction ls with
  | nil => rfl
  | cons l ls ih =>
      have hrest := ih (fun w hw => hmin w (List.mem_cons_of_mem l hw))
        fun w hw => hmax w (List.mem_cons_of_mem l hw)
      rw [isInRange, compare?_eq (hmin l List.mem_cons_self), bind_ok,
        compare?_eq (hmax l List.mem_cons_self), bind_ok]
      simp only [List.forall_mem_cons]
      by_cases hout : l.order? min = some .lt ∨ l.order? max = some .gt
      · rw [if_pos hout, hrest]
        simp only [hout, true_and]
      · rw [if_neg hout, if_neg fun h => hout h.1]
        rfl

/-- A bound of another kind fails the first comparison that meets it, whatever is in the list. -/
theorem isInTruth_foreign (nonempty : ls ≠ []) (kinds : ∀ l ∈ ls, l.kind = kind)
    (foreign : ¬ (min.kind = kind ∧ max.kind = kind)) :
    isInTruth ls min max =
      .error (if min.kind = max.kind then ⟨kind, min.kind⟩ else ⟨min.kind, max.kind⟩) := by
  by_cases hbounds : min.kind = max.kind
  · have hmin : min.kind ≠ kind := fun h => foreign ⟨h, hbounds ▸ h⟩
    cases ls with
    | nil => exact absurd rfl nonempty
    | cons l ls =>
        have hl := kinds l List.mem_cons_self
        have hfirst : l.compare? min = .error ⟨kind, min.kind⟩ := by
          rw [compare?_of_kind_ne (hl ▸ hmin.symm), hl]
        rw [isInTruth, compare?_eq hbounds, bind_ok, if_pos hbounds]
        split
        · rw [isInConstant, hfirst]
          rfl
        · rw [isInRange, hfirst]
          rfl
  · rw [isInTruth, compare?_of_kind_ne hbounds, if_neg hbounds]
    rfl

theorem isSome_settling?_congr (same : ∀ l, l ∈ ls ↔ l ∈ ls') :
    (settling? v ls).isSome = (settling? v ls').isSome := by
  rw [Bool.eq_iff_iff, settling?, settling?, List.find?_isSome, List.find?_isSome]
  simp only [same]

/-- Where every literal is a number, so is the one that settles. -/
theorem map_isNaN_settling?_congr (same : ∀ l, l ∈ ls ↔ l ∈ ls')
    (numbers : ∀ l ∈ ls, l.isNaN = false) :
    (settling? v ls).map isNaN = (settling? v ls').map isNaN := by
  have number {l : Literal} (h : settling? v ls = some l ∨ settling? v ls' = some l) :
      l.isNaN = false := by
    rcases h with h | h
    · exact numbers l (List.mem_of_find?_eq_some h)
    · exact numbers l ((same l).mpr (List.mem_of_find?_eq_some h))
  have hsome : (settling? v ls).isSome = (settling? v ls').isSome := isSome_settling?_congr same
  cases h : settling? v ls with
  | none =>
      rw [h, Option.isSome_none] at hsome
      rw [Option.isNone_iff_eq_none.mp (Option.isSome_eq_false_iff.mp hsome.symm)]
  | some l =>
      rw [h, Option.isSome_some] at hsome
      obtain ⟨l', h'⟩ := Option.isSome_iff_exists.mp hsome.symm
      rw [h', Option.map_some, Option.map_some, number (.inl h), number (.inr h')]

/-- Two ways to write a list are told apart over one value only, and there by what settles. -/
theorem isInTruth_cases (min max : Literal) (nonempty : ls ≠ []) (nonempty' : ls' ≠ [])
    (kinds : ∀ l ∈ ls, l.kind = kind) (same : ∀ l, l ∈ ls ↔ l ∈ ls') :
    (¬ (min.kind = kind ∧ min.compare? max = .ok (some .eq)) ∧
        isInTruth ls min max = isInTruth ls' min max) ∨
      (min.kind = kind ∧ min.compare? max = .ok (some .eq)) ∧
        isInTruth ls min max = .ok (settled (settling? min ls)) ∧
        isInTruth ls' min max = .ok (settled (settling? min ls')) := by
  have kinds' : ∀ l ∈ ls', l.kind = kind := fun l hl => kinds l ((same l).mpr hl)
  by_cases hbounds : min.kind = kind ∧ max.kind = kind
  · obtain ⟨hmin, hmax⟩ := hbounds
    have hcompare : min.compare? max = .ok (min.order? max) := compare?_eq (hmin.trans hmax.symm)
    by_cases hequal : min.order? max = some .eq
    · -- The bounds are one value, and a number.
      have number : min.isNaN = false := (order?_eq_eq_iff.mp hequal).1
      refine .inr ⟨⟨hmin, hcompare.trans (congrArg _ hequal)⟩, ?_, ?_⟩
      · rw [isInTruth, hcompare, bind_ok, if_pos hequal]
        exact isInConstant_eq number fun l hl => (kinds l hl).trans hmin.symm
      · rw [isInTruth, hcompare, bind_ok, if_pos hequal]
        exact isInConstant_eq number fun l hl => (kinds' l hl).trans hmin.symm
    · refine .inl ⟨fun h => hequal (Except.ok.inj (hcompare.symm.trans h.2)), ?_⟩
      rw [isInTruth, isInTruth, hcompare, bind_ok, bind_ok, if_neg hequal, if_neg hequal,
        isInRange_eq (fun l hl => (kinds l hl).trans hmin.symm)
          fun l hl => (kinds l hl).trans hmax.symm,
        isInRange_eq (fun l hl => (kinds' l hl).trans hmin.symm)
          fun l hl => (kinds' l hl).trans hmax.symm]
      simp only [same]
  · refine .inl ⟨fun h => hbounds ⟨h.1, ?_⟩, ?_⟩
    · exact (kind_eq_of_compare?_eq_ok h.2).symm.trans h.1
    · rw [isInTruth_foreign nonempty kinds hbounds, isInTruth_foreign nonempty' kinds' hbounds]

end walks

end Test

/-! ### Predicates -/

namespace Predicate

theorem exists_isIn {p : Predicate} (h : p.operator = .isIn) :
    ∃ first rest, p.test = .isIn first rest ∧ p.literals = first :: rest := by
  unfold operator at h
  unfold literals
  cases htest : p.test <;> rw [htest] at h <;> cases h
  exact ⟨_, _, rfl, rfl⟩

/-- A membership test reads its list only where there are values and both bounds. -/
theorem truth_of_isIn {p : Predicate} (h : p.operator = .isIn) (s : Statistics) :
    p.truth s = if s.count = 0 then .ok .no else match s.min, s.max with
      | some min, some max => (Test.isInTruth p.literals min max).map (·.withNulls s.hasNull)
      | _, _ => .ok .yesNoNull := by
  obtain ⟨first, rest, htest, hliterals⟩ := exists_isIn h
  rw [truth, Test.truth, htest, if_neg (by simp), hliterals]
  rfl

section reordered

variable {column column' : ColumnRef} {kind : Kind} {ls ls' : List Literal} {p q : Predicate}
variable (accepted : ofParts column .isIn kind ls = .ok p)
variable (accepted' : ofParts column' .isIn kind ls' = .ok q)
variable (same : ∀ l, l ∈ ls ↔ l ∈ ls') (s : Statistics)

include accepted accepted' same

/-- Only statistics whose bounds are one value can tell two ways to write a list apart. -/
theorem truth_isIn_cases :
    (¬ (0 < s.count ∧ ∃ min ∈ s.min, ∃ max ∈ s.max,
        min.kind = kind ∧ min.compare? max = .ok (some .eq)) ∧ p.truth s = q.truth s) ∨
      ∃ min max, s.min = some min ∧ s.max = some max ∧
        (0 < s.count ∧ min.kind = kind ∧ min.compare? max = .ok (some .eq)) ∧
        p.truth s = .ok ((Test.settled (Test.settling? min ls)).withNulls s.hasNull) ∧
        q.truth s = .ok ((Test.settled (Test.settling? min ls')).withNulls s.hasNull) := by
  obtain ⟨-, hp, hkind, rfl⟩ := parts_of_ofParts accepted
  obtain ⟨-, hq, -, rfl⟩ := parts_of_ofParts accepted'
  obtain ⟨first, rest, -, hliterals⟩ := exists_isIn hp
  obtain ⟨first', rest', -, hliterals'⟩ := exists_isIn hq
  rw [truth_of_isIn hp, truth_of_isIn hq]
  by_cases values : s.count = 0
  · exact .inl ⟨fun h => h.1.ne' values, by rw [if_pos values, if_pos values]⟩
  · rw [if_neg values, if_neg values]
    cases hmin : s.min with
    | none => exact .inl ⟨by simp, rfl⟩
    | some min =>
        cases hmax : s.max with
        | none => exact .inl ⟨by simp, rfl⟩
        | some max =>
            have nonempty : p.literals ≠ [] := hliterals ▸ List.cons_ne_nil first rest
            have nonempty' : q.literals ≠ [] := hliterals' ▸ List.cons_ne_nil first' rest'
            have kinds : ∀ l ∈ p.literals, l.kind = kind := fun l hl =>
              (p.literal_kinds l hl).trans hkind
            have hcases := Test.isInTruth_cases min max nonempty nonempty' kinds same
            rcases hcases with ⟨hpoint, heq⟩ | ⟨hpoint, heq, heq'⟩
            · refine .inl ⟨?_, by simp only [heq]⟩
              rintro ⟨-, _, ⟨⟩, _, ⟨⟩, hpoint'⟩
              exact hpoint hpoint'
            · refine .inr ⟨min, max, rfl, rfl, ⟨Nat.pos_of_ne_zero values, hpoint⟩, ?_, ?_⟩
              · simp only [heq, Except.map]
              · simp only [heq', Except.map]

/-- What is said of membership depends on how a list is written in one case only: all values are one
number, and the literal that settles whether it is in the list is that number in one list and no
number at all in the other.  So it never depends on it where all literals are numbers, as those of
every kind but float are; and whether the rows are needed never does. -/
theorem truth_reordered :
    (p.truth s = q.truth s ↔ ¬ (0 < s.count ∧ ∃ min ∈ s.min, ∃ max ∈ s.max, min.kind = kind ∧
        min.compare? max = .ok (some .eq) ∧
        (Test.settling? min ls).map isNaN ≠ (Test.settling? min ls').map isNaN)) ∧
      ((kind ≠ .float ∨ ∀ l ∈ ls, l.isNaN = false) → p.truth s = q.truth s) ∧
      ∀ t u, p.truth s = .ok t → q.truth s = .ok u → t.isNeeded = u.isNeeded := by
  rcases truth_isIn_cases accepted accepted' same s with
    ⟨hpoint, heq⟩ | ⟨min, max, hmin, hmax, ⟨values, hkind, hequal⟩, htruth, htruth'⟩
  · refine ⟨iff_of_true heq ?_, fun _ => heq, fun t u ht hu => ?_⟩
    · rintro ⟨values, min, hmin, max, hmax, hkind, hequal, -⟩
      exact hpoint ⟨values, min, hmin, max, hmax, hkind, hequal⟩
    · rw [heq, hu] at ht
      cases ht
      rfl
  · rw [htruth, htruth', Except.ok.injEq, Test.withNulls_settled_eq_iff, hmin, hmax]
    refine ⟨?_, fun hnumbers => ?_, ?_⟩
    · simp [values, hkind, hequal]
    · apply Test.map_isNaN_settling?_congr same
      rcases hnumbers with notFloat | numbers
      · intro l hl
        obtain ⟨-, -, rfl, rfl⟩ := parts_of_ofParts accepted
        exact isNaN_eq_false (p.literal_kinds l hl ▸ notFloat)
      · exact numbers
    · rintro t u ⟨⟩ ⟨⟩
      rw [Truth.isNeeded_withNulls, Truth.isNeeded_withNulls, Test.isNeeded_settled,
        Test.isNeeded_settled, Test.isSome_settling?_congr same]

end reordered

/-- Two rows that both hold five, looked up in a list of five and what is no number. -/
theorem truth_reordered_noneAndFive :
    ∃ p q, ofParts (.name "x") .isIn .float [.float .nan, .float ⟨0x4014000000000000⟩] = .ok p ∧
      ofParts (.name "x") .isIn .float
        [.float ⟨0x4014000000000000⟩, .float .nan, .float ⟨0x4014000000000000⟩] = .ok q ∧
      p.truth (.ofRange (.float ⟨0x4014000000000000⟩) (.float ⟨0x4014000000000000⟩) 2) =
        .ok .yesNo ∧
      q.truth (.ofRange (.float ⟨0x4014000000000000⟩) (.float ⟨0x4014000000000000⟩) 2) =
        .ok .yes ∧
      p.truth (.ofRange (.float ⟨0x4014000000000000⟩) (.float ⟨0x4014000000000000⟩) 2) ≠
        q.truth (.ofRange (.float ⟨0x4014000000000000⟩) (.float ⟨0x4014000000000000⟩) 2) := by
  have accepted : ofParts (.name "x") .isIn .float
      [.float .nan, .float ⟨0x4014000000000000⟩] = .ok _ := rfl
  have accepted' : ofParts (.name "x") .isIn .float
      [.float ⟨0x4014000000000000⟩, .float .nan, .float ⟨0x4014000000000000⟩] = .ok _ := rfl
  refine ⟨_, _, accepted, accepted', rfl, rfl, fun heq => ?_⟩
  have hnot := (truth_reordered accepted accepted' (by simp [or_comm]) _).1.mp heq
  exact hnot ⟨by decide, _, rfl, _, rfl, rfl, rfl, by decide⟩

end Predicate

end StripeScan
