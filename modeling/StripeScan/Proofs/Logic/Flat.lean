import StripeScan.Proofs.Logic.Meaning

/-! # Flat formulas

A formula is flat if no conjunction within it has a conjunction as a part and no disjunction a
disjunction (`Formula.Flat`).

Flattening makes every formula flat (`flat_flatten`) and leaves a flat formula alone
(`flatten_of_flat`): the parts that it lifts out of a flattened group are themselves flat and no
groups of that sort, so nothing is left to lift.  Hence the flat formulas are exactly those that
flattening does not change.  The truths, the verdicts and the atoms of a formula do not show
whether it was flattened (`flatten_normal`). -/

namespace StripeScan

namespace Formula

variable {α : Type}

/-- Whether a formula is a conjunction. -/
def IsAnd (f : Formula α) : Prop := ∃ parts, f = .and parts

/-- Whether a formula is a disjunction. -/
def IsOr (f : Formula α) : Prop := ∃ parts, f = .or parts

/-- Whether no conjunction within a formula has a conjunction as a part, and no disjunction a
disjunction. -/
inductive Flat : Formula α → Prop
  | atom (a : α) : Flat (.atom a)
  | and {parts : List (Formula α)} (flat : ∀ f ∈ parts, Flat f) (unlike : ∀ f ∈ parts, ¬ f.IsAnd) :
      Flat (.and parts)
  | or {parts : List (Formula α)} (flat : ∀ f ∈ parts, Flat f) (unlike : ∀ f ∈ parts, ¬ f.IsOr) :
      Flat (.or parts)
  | not {part : Formula α} (flat : Flat part) : Flat (.not part)

/-! ### What a part contributes -/

section contributions

variable {f g : Formula α}

theorem conjuncts_of_not_isAnd (h : ¬ f.IsAnd) : f.conjuncts = [f] := by
  cases f with
  | and parts => exact absurd ⟨parts, rfl⟩ h
  | atom a => rfl
  | or parts => rfl
  | not part => rfl

theorem disjuncts_of_not_isOr (h : ¬ f.IsOr) : f.disjuncts = [f] := by
  cases f with
  | or parts => exact absurd ⟨parts, rfl⟩ h
  | atom a => rfl
  | and parts => rfl
  | not part => rfl

/-- What a flat formula contributes to a conjunction is flat and no conjunction. -/
theorem Flat.conjuncts (h : f.Flat) (hg : g ∈ f.conjuncts) : g.Flat ∧ ¬ g.IsAnd := by
  by_cases hand : f.IsAnd
  · obtain ⟨parts, rfl⟩ := hand
    cases h with
    | and flat unlike => exact ⟨flat g hg, unlike g hg⟩
  · rw [conjuncts_of_not_isAnd hand, List.mem_singleton] at hg
    rw [hg]
    exact ⟨h, hand⟩

/-- What a flat formula contributes to a disjunction is flat and no disjunction. -/
theorem Flat.disjuncts (h : f.Flat) (hg : g ∈ f.disjuncts) : g.Flat ∧ ¬ g.IsOr := by
  by_cases hor : f.IsOr
  · obtain ⟨parts, rfl⟩ := hor
    cases h with
    | or flat unlike => exact ⟨flat g hg, unlike g hg⟩
  · rw [disjuncts_of_not_isOr hor, List.mem_singleton] at hg
    rw [hg]
    exact ⟨h, hor⟩

end contributions

/-! ### Flattening -/

theorem flat_flatten (f : Formula α) : f.flatten.Flat := by
  -- The groups that are spliced in were flattened before, so what they hold needs no more splicing.
  have spliced {parts : List (Formula α)} {contribution : Formula α → List (Formula α)}
      {g : Formula α} (hg : g ∈ (flattenList parts).flatMap contribution) :
      ∃ f ∈ parts, g ∈ contribution f.flatten := by
    rw [flattenList_eq_map, List.flatMap_map] at hg
    exact List.mem_flatMap.mp hg
  induction f using Formula.induction with
  | atom a =>
      rw [flatten]
      exact .atom a
  | and parts ih =>
      rw [flatten]
      apply Flat.and
      · intro g hg
        obtain ⟨f, hf, hg⟩ := spliced hg
        exact ((ih f hf).conjuncts hg).1
      · intro g hg
        obtain ⟨f, hf, hg⟩ := spliced hg
        exact ((ih f hf).conjuncts hg).2
  | or parts ih =>
      rw [flatten]
      apply Flat.or
      · intro g hg
        obtain ⟨f, hf, hg⟩ := spliced hg
        exact ((ih f hf).disjuncts hg).1
      · intro g hg
        obtain ⟨f, hf, hg⟩ := spliced hg
        exact ((ih f hf).disjuncts hg).2
  | not part ih =>
      rw [flatten]
      exact .not ih

theorem flatten_of_flat {f : Formula α} (h : f.Flat) : f.flatten = f := by
  have unchanged {parts : List (Formula α)} {contribution : Formula α → List (Formula α)}
      (ih : ∀ f ∈ parts, f.flatten = f) (alone : ∀ f ∈ parts, contribution f = [f]) :
      (flattenList parts).flatMap contribution = parts := by
    rw [flattenList_eq_map, List.map_congr_left ih, List.map_id', List.flatMap_def,
      List.map_congr_left alone, ← List.flatMap_def, List.flatMap_singleton']
  induction h with
  | atom a => rw [flatten]
  | and _ unlike ih =>
      rw [flatten, unchanged ih]
      intro f hf
      exact conjuncts_of_not_isAnd (unlike f hf)
  | or _ unlike ih =>
      rw [flatten, unchanged ih]
      intro f hf
      exact disjuncts_of_not_isOr (unlike f hf)
  | not _ ih => rw [flatten, ih]

theorem flatten_eq_self_iff {f : Formula α} : f.flatten = f ↔ f.Flat := by
  constructor
  · intro h
    rw [← h]
    exact f.flat_flatten
  · exact flatten_of_flat

/-- Flattening is a normal form that keeps the meaning.  Over any list of truths, however short, and
on any row the flattened formula has the value of the formula, where numbers beyond the end of the
list stand for what is not known.  It has the same atoms in the same order.  It is flat, so that
flattening again changes nothing, and only flat formulas are not changed at all. -/
theorem flatten_normal (f : Formula ℕ) :
    (∀ values : List Truth, (f.flatten.truth fun i => values.getD i .yesNoNull) =
        f.truth fun i => values.getD i .yesNoNull) ∧
      (∀ row : List Verdict, (f.flatten.verdict fun i => (row[i]?).join) =
        f.verdict fun i => (row[i]?).join) ∧
      f.flatten.atoms = f.atoms ∧
      f.flatten.Flat ∧
      f.flatten.flatten = f.flatten ∧
      (f.flatten = f ↔ f.Flat) := by
  refine ⟨fun values => ?_, fun row => ?_, f.atoms_flatten, f.flat_flatten, ?_, ?_⟩
  · exact truth_flatten _ f
  · exact verdict_flatten _ f
  · exact flatten_of_flat f.flat_flatten
  · exact flatten_eq_self_iff

/-- Groups without parts vanish into groups of their own sort. -/
example : (and [.atom 0, .and [.and [], .or [.atom 2, .or [.atom 3]]]]).flatten =
    and [.atom 0, .or [.atom 2, .atom 3]] := by
  decide

end Formula

end StripeScan
