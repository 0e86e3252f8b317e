import StripeScan.Proofs.Logic.Nulls
import StripeScan.Proofs.SearchArgument.Building
import StripeScan.Proofs.Statistics.Sharpness

/-! # Ranges and lists spelled out

A range test says of statistics what "not less than the lower limit, and at most the upper one" says
of them, and a membership test what the disjunction of its equalities says
(`Predicate.truth_expanded`).  The limits may be in any order.

Statistics without values, or without both bounds, have one truth for all these tests
(`Test.truth_cases`).  Between two bounds the tests are compared by what they exclude, before nulls
are announced (`Test.betweenTruth_expanded`, `Test.isInTruth_expanded`). -/

namespace StripeScan

open Literal

/-! ### Between two bounds -/

namespace Test

section plain

variable {v min max : Literal} {t : Truth}

theorem lessThanTruth_plain (h : lessThanTruth v min max = .ok t) : t.Plain := by
  unfold lessThanTruth at h
  obtain ⟨-, -, rfl⟩ := eq_of_compare h
  split
  · split_ifs <;> decide
  · decide

theorem lessThanEqualsTruth_plain (h : lessThanEqualsTruth v min max = .ok t) : t.Plain := by
  unfold lessThanEqualsTruth at h
  obtain ⟨-, -, rfl⟩ := eq_of_compare h
  split
  · split_ifs <;> decide
  · decide

theorem betweenTruth_plain {lower upper : Literal} (h : betweenTruth lower upper min max = .ok t) :
    t.Plain := by
  obtain ⟨_, -, h⟩ := bind_eq_ok_iff.mp h
  obtain ⟨_, -, h⟩ := bind_eq_ok_iff.mp h
  obtain ⟨-, -, rfl⟩ := eq_of_compare h
  split_ifs <;> decide

theorem isInConstant_plain {ls : List Literal} (h : isInConstant v ls = .ok t) : t.Plain := by
  induction ls with
  | nil =>
      cases h
      decide
  | cons l ls ih =>
      obtain ⟨order, -, h⟩ := bind_eq_ok_iff.mp h
      match order, h with
      | some .lt, h => exact ih h
      | some .gt, h => exact ih h
      | some .eq, h =>
          cases h
          decide
      | none, h =>
          cases h
          decide

theorem isInRange_plain {ls : List Literal} (h : isInRange min max ls = .ok t) : t.Plain := by
  induction ls with
  | nil =>
      cases h
      decide
  | cons l ls ih =>
      obtain ⟨_, -, h⟩ := bind_eq_ok_iff.mp h
      obtain ⟨_, -, h⟩ := bind_eq_ok_iff.mp h
      split at h
      · exact ih h
      · cases h
        decide

theorem isInTruth_plain {ls : List Literal} (h : isInTruth ls min max = .ok t) : t.Plain := by
  obtain ⟨_, -, h⟩ := bind_eq_ok_iff.mp h
  split at h
  · exact isInConstant_plain h
  · exact isInRange_plain h

end plain

section expanded

variable {kind : Kind} (notFloat : kind ≠ .float) {min max : Literal}
variable (hmin : min.kind = kind) (hmax : max.kind = kind)

include notFloat hmin hmax

theorem betweenTruth_expanded (ordered : min.rank ≤ max.rank) {lower upper : Literal}
    (hlower : lower.kind = kind) (hupper : upper.kind = kind) {below atMost : Truth}
    (hbelow : lessThanTruth lower min max = .ok below)
    (hatMost : lessThanEqualsTruth upper min max = .ok atMost) :
    betweenTruth lower upper min max = .ok (below.not.and atMost) := by
  obtain ⟨t, ht⟩ := betweenTruth_eq_ok hmin hmax hlower hupper
  obtain ⟨-, -, hno, hyes⟩ := betweenTruth_decided ht
  obtain ⟨-, -, hnoBelow, hyesBelow⟩ := lessThanTruth_decided hbelow
  obtain ⟨-, -, hnoAtMost, hyesAtMost⟩ := lessThanEqualsTruth_decided hatMost
  simp only [number_of_kind notFloat, hlower, hupper, hmin, hmax, true_and]
    at hno hyes hnoBelow hyesBelow hnoAtMost hyesAtMost
  have hplain : (below.not.and atMost).Plain :=
    (lessThanTruth_plain hbelow).not.and (lessThanEqualsTruth_plain hatMost)
  rw [ht, (betweenTruth_plain ht).eq hplain]
  · rw [Truth.isNeeded_and, Bool.and_eq_false_iff, hno, hyesBelow, hnoAtMost]
    refine or_congr_right (iff_self_and.mpr fun hlt => ?_)
    exact hlt.trans_le ordered
  · rw [Truth.not_and, Truth.not_not, Truth.isNeeded_or, Bool.or_eq_false_iff, hyes, hnoBelow,
      hyesAtMost]
    constructor
    · rintro ⟨hmax', -, hmin', hle⟩
      exact ⟨⟨hmin', hmax'⟩, hle⟩
    · rintro ⟨⟨hmin', hmax'⟩, hle⟩
      exact ⟨hmax', ordered.trans hle, hmin', hle⟩

theorem isInTruth_expanded {ls : List Literal} (kinds : ∀ l ∈ ls, l.kind = kind)
    {equal : Literal → Truth} (hequal : ∀ l ∈ ls, equalsTruth l min max = .ok (equal l)) :
    isInTruth ls min max = .ok ((ls.map equal).foldl Truth.or .no) := by
  obtain ⟨t, ht⟩ := isInTruth_eq_ok hmin hmax kinds
  obtain ⟨hno, hyes⟩ := isInTruth_decided notFloat hmin hmax kinds ht
  have hplain : ((ls.map equal).foldl Truth.or .no).Plain := by
    refine Truth.Plain.foldl_or (fun u hu => ?_) (.inl rfl)
    obtain ⟨l, hl, rfl⟩ := List.mem_map.mp hu
    exact equalsTruth_cases (hequal l hl)
  have decided {l : Literal} (hl : l ∈ ls) :
      ((equal l).isNeeded = false ↔ l.rank < min.rank ∨ max.rank < l.rank) ∧
        ((equal l).not.isNeeded = false ↔ l.rank = min.rank ∧ l.rank = max.rank) := by
    obtain ⟨-, -, h⟩ := equalsTruth_decided (hequal l hl)
    simpa only [number_of_kind notFloat, kinds l hl, hmin, hmax, true_and] using h
  rw [ht, (isInTruth_plain ht).eq hplain]
  · rw [hno, Truth.isNeeded_foldl_or, List.any_map, Bool.or_eq_false_iff, List.any_eq_false]
    refine Iff.trans (forall₂_congr fun l hl => ?_) (and_iff_right rfl).symm
    rw [Function.comp_apply, Bool.not_eq_true, (decided hl).1]
  · rw [hyes, Truth.not_foldl_or, Truth.isNeeded_foldl_and, List.map_map, List.all_map,
      Bool.and_eq_false_iff, List.all_eq_false]
    constructor
    · rintro ⟨hpoint, l, hl, hrank⟩
      have hcertain := (decided hl).2.mpr ⟨hrank, hrank.trans hpoint⟩
      exact .inr ⟨l, hl, Bool.eq_false_iff.mp hcertain⟩
    · rintro (hnone | ⟨l, hl, hcertain⟩)
      · cases hnone
      · obtain ⟨hlow, hhigh⟩ := (decided hl).2.mp (Bool.eq_false_of_not_eq_true hcertain)
        exact ⟨hlow.symm.trans hhigh, l, hl, hlow⟩

end expanded

/-! ### Statistics -/

/-- Statistics that do not bound values say one and the same of all tests of values. -/
theorem truth_cases (s : Statistics) :
    (∃ t, t.not.and t = t ∧ ∀ test : Test, test ≠ .isNull → test.truth s = .ok t) ∨
      ∃ min max, s.min = some min ∧ s.max = some max ∧
        ∀ test : Test, test ≠ .isNull → test.truth s = test.boundedTruth s.hasNull min max := by
  by_cases hcount : s.count = 0
  · refine .inl ⟨.no, rfl, fun test hnull => ?_⟩
    rw [truth, if_neg hnull, if_pos hcount]
  · cases hmin : s.min with
    | none =>
        refine .inl ⟨.yesNoNull, rfl, fun test hnull => ?_⟩
        rw [truth, if_neg hnull, if_neg hcount, hmin]
    | some min =>
        cases hmax : s.max with
        | none =>
            refine .inl ⟨.yesNoNull, rfl, fun test hnull => ?_⟩
            rw [truth, if_neg hnull, if_neg hcount, hmin, hmax]
        | some max =>
            refine .inr ⟨min, max, rfl, rfl, fun test hnull => ?_⟩
            rw [truth, if_neg hnull, if_neg hcount, hmin, hmax]

section statistics

variable {kind : Kind} (notFloat : kind ≠ .float) {s : Statistics} (kinds : s.OfKind kind)

include notFloat kinds

theorem truth_between (ordered : s.Ordered) {lower upper : Literal} (hlower : lower.kind = kind)
    (hupper : upper.kind = kind) :
    ∃ below atMost, (lessThan lower).truth s = .ok below ∧
      (lessThanEquals upper).truth s = .ok atMost ∧
      (between lower upper).truth s = .ok (below.not.and atMost) := by
  rcases truth_cases s with ⟨t, hsame, htruth⟩ | ⟨min, max, hmin, hmax, htruth⟩
  · refine ⟨t, t, htruth _ (by simp), htruth _ (by simp), ?_⟩
    rw [hsame]
    exact htruth _ (by simp)
  · have kmin : min.kind = kind := kinds.min min hmin
    have kmax : max.kind = kind := kinds.max max hmax
    have hrank : min.rank ≤ max.rank := (ordered min hmin max hmax).rank_le (kmin.trans kmax.symm)
      (number_of_kind notFloat kmin) (number_of_kind notFloat kmax)
    obtain ⟨below, hbelow⟩ := lessThanTruth_eq_ok kmin kmax hlower
    obtain ⟨atMost, hatMost⟩ := lessThanEqualsTruth_eq_ok kmin kmax hupper
    have hbetween :=
      betweenTruth_expanded notFloat kmin kmax hrank hlower hupper hbelow hatMost
    refine ⟨below.withNulls s.hasNull, atMost.withNulls s.hasNull, ?_, ?_, ?_⟩
    · rw [htruth _ (by simp), boundedTruth, hbelow]
      rfl
    · rw [htruth _ (by simp), boundedTruth, hatMost]
      rfl
    · rw [htruth _ (by simp), boundedTruth, hbetween, ← Truth.withNulls_not, ← Truth.withNulls_and]
      rfl

theorem truth_isIn {first : Literal} {rest : List Literal}
    (hls : ∀ l ∈ first :: rest, l.kind = kind) :
    ∃ equal : Literal → Truth, (∀ l ∈ first :: rest, (equals l).truth s = .ok (equal l)) ∧
      (isIn first rest).truth s = .ok (((first :: rest).map equal).foldl Truth.or .no) := by
  have nonempty : first :: rest ≠ [] := List.cons_ne_nil first rest
  rcases truth_cases s with ⟨t, -, htruth⟩ | ⟨min, max, hmin, hmax, htruth⟩
  · refine ⟨fun _ => t, fun l _ => htruth _ (by simp), ?_⟩
    rw [Truth.foldl_or_const nonempty]
    exact htruth _ (by simp)
  · have kmin : min.kind = kind := kinds.min min hmin
    have kmax : max.kind = kind := kinds.max max hmax
    have hequal : ∀ l ∈ first :: rest, ∃ t, equalsTruth l min max = .ok t := fun l hl =>
      equalsTruth_eq_ok kmin kmax (hls l hl)
    choose! equal hequal using hequal
    have hin := isInTruth_expanded notFloat kmin kmax hls hequal
    refine ⟨fun l => (equal l).withNulls s.hasNull, fun l hl => ?_, ?_⟩
    · rw [htruth _ (by simp), boundedTruth, hequal l hl]
      rfl
    · have hparts : (first :: rest).map equal ≠ [] := by simp
      have hnulls := Truth.withNulls_foldl_or hparts s.hasNull
      rw [List.map_map] at hnulls
      rw [htruth _ (by simp), boundedTruth, hin]
      exact congrArg Except.ok hnulls

end statistics

end Test

/-! ### Formulas over atoms -/

namespace Formula

variable {α : Type}

theorem truth_not_and (value : α → Truth) (a b : α) :
    (Formula.and [.not (.atom a), .atom b]).truth value = (value a).not.and (value b) := by
  simp only [truth, truthList, List.foldl_cons, List.foldl_nil, Truth.yes_and]

theorem truth_or_atoms (value : α → Truth) (xs : List α) :
    (Formula.or (xs.map .atom)).truth value = (xs.map value).foldl Truth.or .no := by
  rw [truth, truthList_eq_map, List.map_map]
  rfl

theorem atoms_or_atoms (xs : List α) : (Formula.or (xs.map .atom)).atoms = xs := by
  rw [atoms, atomsList_eq_flatMap, List.flatMap_map]
  exact List.flatMap_singleton' xs

/-- The values of all atoms that pass a check. -/
theorem exists_passes {ε γ : Type} [Inhabited γ] (check : α → Except ε γ) :
    ∃ value : α → γ, (∀ a y, check a = .ok y → value a = y) ∧
      ∀ f : Formula α, (∀ a ∈ f.atoms, ∃ y, check a = .ok y) → f.Passes check value := by
  have hvalue (a : α) (y : γ) (h : check a = .ok y) : ((check a).toOption.getD default) = y := by
    rw [h]
    rfl
  refine ⟨fun a => (check a).toOption.getD default, hvalue, fun f h a ha => ?_⟩
  obtain ⟨y, hy⟩ := h a ha
  exact hy.trans (congrArg Except.ok (hvalue a y hy).symm)

end Formula

/-! ### Predicates -/

namespace Predicate

theorem exists_ofParts (column : ColumnRef) {kind : Kind} (test : Test)
    (kinds : ∀ v ∈ test.literals, v.kind = kind) :
    ∃ p, ofParts column test.operator kind test.literals = .ok p ∧ p.test = test :=
  ⟨⟨column, kind, test, kinds⟩, ofParts_self ⟨column, kind, test, kinds⟩, rfl⟩

theorem test_of_ofParts {column : ColumnRef} {operator : Operator} {kind : Kind}
    {literals : List Literal} {p : Predicate} (h : ofParts column operator kind literals = .ok p) :
    Test.ofLiterals? operator literals = some p.test ∧ ∀ v ∈ literals, v.kind = kind := by
  obtain ⟨-, hoperator, rfl, rfl⟩ := parts_of_ofParts h
  exact ⟨Test.ofLiterals?_eq_some_iff.mpr ⟨hoperator, rfl⟩, p.literal_kinds⟩

/-- A range test has the truth of "not less than the lower limit, and at most the upper one", if the
bounds are in order.  A membership test has that of the disjunction of its equalities. -/
theorem truth_expanded {column : ColumnRef} {kind : Kind} (notFloat : kind ≠ .float)
    {s : Statistics} (kinds : s.OfKind kind) :
    (s.Ordered → ∀ lower upper p, ofParts column .between kind [lower, upper] = .ok p →
      ∃ below atMost, ofParts column .lessThan kind [lower] = .ok below ∧
        ofParts column .lessThanEquals kind [upper] = .ok atMost ∧
        ∃ value, (Formula.and [.not (.atom below), .atom atMost]).Passes (·.truth s) value ∧
          p.truth s = .ok ((Formula.and [.not (.atom below), .atom atMost]).truth value)) ∧
    ∀ literals p, ofParts column .isIn kind literals = .ok p →
      ∃ equals, literals.mapM (fun v => ofParts column .equals kind [v]) = .ok equals ∧
        ∃ value, (Formula.or (equals.map .atom)).Passes (·.truth s) value ∧
          p.truth s = .ok ((Formula.or (equals.map .atom)).truth value) := by
  obtain ⟨value, hvalue, hpasses⟩ := Formula.exists_passes fun p : Predicate => p.truth s
  constructor
  · intro ordered lower upper p hp
    obtain ⟨htest, hls⟩ := test_of_ofParts hp
    have hlower : lower.kind = kind := hls lower (by simp)
    have hupper : upper.kind = kind := hls upper (by simp)
    obtain ⟨t, u, ht, hu, hbetween⟩ := Test.truth_between notFloat kinds ordered hlower hupper
    obtain ⟨below, hbelow, hbelow'⟩ :=
      exists_ofParts column (.lessThan lower) (by simpa [Test.literals])
    obtain ⟨atMost, hatMost, hatMost'⟩ :=
      exists_ofParts column (.lessThanEquals upper) (by simpa [Test.literals])
    have ht : below.truth s = .ok t := by rw [truth, hbelow', ht]
    have hu : atMost.truth s = .ok u := by rw [truth, hatMost', hu]
    refine ⟨below, atMost, hbelow, hatMost, value, hpasses _ ?_, ?_⟩
    · simp only [Formula.atoms, Formula.atomsList, List.append_nil, List.singleton_append,
        List.mem_cons, List.not_mem_nil, or_false]
      rintro q (rfl | rfl)
      · exact ⟨t, ht⟩
      · exact ⟨u, hu⟩
    · rw [truth, ← Option.some.inj htest, hbetween, Formula.truth_not_and, hvalue below t ht,
        hvalue atMost u hu]
  · intro literals p hp
    obtain ⟨htest, hls⟩ := test_of_ofParts hp
    cases literals with
    | nil => cases htest
    | cons first rest =>
        obtain ⟨equal, hequal, hin⟩ := Test.truth_isIn notFloat kinds hls
        obtain ⟨equals, hequals, hrelated⟩ := exists_mapM_forall₂
          (f := fun v => ofParts column .equals kind [v])
          (R := fun v q => q.truth s = .ok (equal v)) fun v hv => by
            obtain ⟨q, hq, htest⟩ :=
              exists_ofParts column (.equals v) (by simpa [Test.literals] using hls v hv)
            exact ⟨q, hq, by rw [truth, htest, hequal v hv]⟩
        have hmap : (first :: rest).map equal = equals.map value := by
          rw [← List.forall₂_eq_eq_eq, List.forall₂_map_left_iff, List.forall₂_map_right_iff]
          exact hrelated.imp fun v q hq => (hvalue q _ hq).symm
        refine ⟨equals, hequals, value, hpasses _ ?_, ?_⟩
        · rw [Formula.atoms_or_atoms]
          intro q hq
          obtain ⟨v, -, hq⟩ := exists_of_mem_mapM hequals hq
          obtain ⟨-, -, rfl, -⟩ := parts_of_ofParts hq
          exact Test.truth_eq_ok kinds q.literal_kinds
        · rw [truth, ← Option.some.inj htest, hin, hmap, Formula.truth_or_atoms]

/-- Four values from five to seven among nulls, and the range from nine to three. -/
theorem truth_expanded_nineToThree :
    ∃ p below atMost value, ofParts (.name "x") .between .long [.long 9, .long 3] = .ok p ∧
      ofParts (.name "x") .lessThan .long [.long 9] = .ok below ∧
      ofParts (.name "x") .lessThanEquals .long [.long 3] = .ok atMost ∧
      (Formula.and [.not (.atom below), .atom atMost]).Passes
        (·.truth (Statistics.ofRange (.long 5) (.long 7) 4).withNulls) value ∧
      (Formula.and [.not (.atom below), .atom atMost]).truth value = .noNull := by
  have kinds : (Statistics.ofRange (.long 5) (.long 7) 4).withNulls.OfKind .long := by decide
  have ordered : (Statistics.ofRange (.long 5) (.long 7) 4).withNulls.Ordered := by
    rintro _ ⟨⟩ _ ⟨⟩ _ ⟨⟩
    decide
  have accepted : ofParts (.name "x") .between .long [.long 9, .long 3] = .ok _ := rfl
  obtain ⟨below, atMost, hbelow, hatMost, value, hpasses, htruth⟩ :=
    (truth_expanded (by decide) kinds).1 ordered _ _ _ accepted
  exact ⟨_, below, atMost, value, accepted, hbelow, hatMost, hpasses,
    (Except.ok.inj htruth).symm⟩

end Predicate

end StripeScan
