import StripeScan.Proofs.SearchArgument.Builder
import StripeScan.Proofs.SearchArgument.Evaluation
import StripeScan.Proofs.SearchArgument.Rows

/-! # Building keeps the meaning

Building a search argument out of formulas over predicates numbers the predicates, shares the
numbers of those that are written alike, leaves out the conjunction around a single condition and
flattens the rest.  None of this changes the meaning: the argument has, over every partition and on
every row, the value of the conjunction of the formulas (`ofCalls_meaning`). -/

namespace StripeScan

/-- Whether each atom of a formula passes a check with its value. -/
def Formula.Passes {α ε γ : Type} (f : Formula α) (check : α → Except ε γ) (value : α → γ) :
    Prop :=
  ∀ a ∈ f.atoms, check a = .ok (value a)

namespace SearchArgument

open Builder

/-- Whether an argument means the same as a formula over numbered predicates, where the numbers
refer to predicates of the argument that are alike. -/
structure Numbering (a : SearchArgument) (h : Formula (ℕ × Predicate)) : Prop where
  refers : ∀ x ∈ h.atoms, ∃ q, a.predicates[x.1]? = some q ∧ q.Alike x.2
  mem : ∀ p ∈ a.predicates, p ∈ (h.map Prod.snd).atoms
  truth : ∀ value, a.formula.truth value = (h.map Prod.fst).truth value
  verdict : ∀ value, a.formula.verdict value = (h.map Prod.fst).verdict value

/-- The calls that spell formulas build an argument with the meaning of their conjunction. -/
theorem exists_numbering {trees : List (Formula Predicate)} (nonempty : trees ≠ [])
    (proper : ∀ f ∈ trees, f.Proper) :
    ∃ a h, ofCalls (trees.flatMap Formula.spell) = .ok a ∧ h.map Prod.snd = .and trees ∧
      a.Numbering h := by
  have hadds : Adds (Formula.spellList trees) trees :=
    adds_of_spells (spells_spellList fun f hf => spells_spell (proper f hf))
  rw [← Formula.spellList_eq_flatMap]
  obtain ⟨new, hs, hrun, htrees, hnumbers⟩ := hadds Builder.empty
  rw [show Builder.empty = ⟨[], [], []⟩ from rfl, foldl_add_top] at hrun
  simp only [List.nil_append] at hrun
  obtain ⟨a, hbuild⟩ := build_succeeds (b := ⟨new, [], hs.map (Formula.map Prod.fst)⟩) rfl
    (map_ne_nil htrees nonempty)
  obtain ⟨root, rfl, hroot⟩ := exists_root_of_build hbuild
  have hfst : (Formula.and hs).map Prod.fst = .and (hs.map (Formula.map Prod.fst)) := by
    rw [Formula.map, Formula.mapList_eq_map]
  have hsnd : (Formula.and hs).map Prod.snd = .and trees := by
    rw [Formula.map, Formula.mapList_eq_map, htrees]
  refine ⟨⟨new, root.flatten⟩, .and hs, ?_, hsnd, ?_, ?_, fun value => ?_, fun value => ?_⟩
  · rw [ofCalls, show Builder.empty = ⟨[], [], []⟩ from rfl, hrun, bind_ok, hbuild]
  · intro x hx
    rw [Formula.atoms, Formula.atomsList_eq_flatMap] at hx
    exact hnumbers.refers hx
  · intro p hp
    rw [Formula.atoms_map, Formula.atoms, Formula.atomsList_eq_flatMap]
    exact hnumbers.mem p hp
  · rw [hfst]
    exact root_value (Formula.compositional_truth value) Truth.merges_and Truth.merges_or hroot
  · rw [hfst]
    exact root_value (Formula.compositional_verdict value) Verdict.merges_all Verdict.merges_any
      hroot

/-! ### Values of numbers -/

section values

variable {a : SearchArgument} {h : Formula (ℕ × Predicate)} {ε γ : Type}
variable {check : Predicate → Except ε γ} {value : Predicate → γ} (hn : a.Numbering h)

include hn

theorem Numbering.passes_predicates (hp : (h.map Prod.snd).Passes check value) :
    a.predicates.mapM check = .ok (a.predicates.map value) :=
  mapM_eq_ok_map fun p hmem => hp p (hn.mem p hmem)

variable (respects : ∀ {p q : Predicate}, p.Alike q → check p = check q)

include respects

/-- A number has the value of the predicate that was written. -/
theorem Numbering.value_eq (hp : (h.map Prod.snd).Passes check value) {x : ℕ × Predicate}
    (hx : x ∈ h.atoms) : (a.predicates.map value)[x.1]? = some (value x.2) := by
  obtain ⟨q, hq, halike⟩ := hn.refers x hx
  have hwritten : check x.2 = .ok (value x.2) := by
    apply hp
    rw [Formula.atoms_map]
    exact List.mem_map_of_mem hx
  have hshared : check q = .ok (value q) := hp q (hn.mem q (List.mem_of_getElem? hq))
  rw [respects halike, hwritten] at hshared
  rw [List.getElem?_map, hq, Option.map_some, Except.ok.inj hshared]

/-- All predicates of the argument pass a check exactly if all that were written do. -/
theorem Numbering.mapM_eq_ok_iff [Inhabited γ] {xs : List γ} :
    a.predicates.mapM check = .ok xs ↔
      ∃ value, (h.map Prod.snd).Passes check value ∧ xs = a.predicates.map value := by
  constructor
  · intro hxs
    have hpasses : ∀ p ∈ (h.map Prod.snd).atoms, ∃ y, check p = .ok y := by
      intro p hp
      rw [Formula.atoms_map] at hp
      obtain ⟨x, hx, rfl⟩ := List.mem_map.mp hp
      obtain ⟨q, hq, halike⟩ := hn.refers x hx
      obtain ⟨y, -, hy⟩ := exists_of_mem_left_mapM hxs (List.mem_of_getElem? hq)
      exact ⟨y, respects halike ▸ hy⟩
    choose! value hvalue using hpasses
    have hall := hn.passes_predicates hvalue
    rw [hxs] at hall
    exact ⟨value, hvalue, Except.ok.inj hall⟩
  · rintro ⟨value, hvalue, rfl⟩
    exact hn.passes_predicates hvalue

end values

theorem Numbering.truth_eq {a : SearchArgument} {h : Formula (ℕ × Predicate)} (hn : a.Numbering h)
    {value : Predicate → Truth}
    (hvalue : ∀ x ∈ h.atoms, (a.predicates.map value)[x.1]? = some (value x.2)) :
    a.truth (a.predicates.map value) = (h.map Prod.snd).truth value := by
  rw [SearchArgument.truth, hn.truth, Formula.truth_map, Formula.truth_map]
  apply Formula.truth_congr
  intro x hx
  rw [List.getD_eq_getElem?_getD, hvalue x hx, Option.getD_some]

theorem Numbering.verdict_eq {a : SearchArgument} {h : Formula (ℕ × Predicate)}
    (hn : a.Numbering h) {value : Predicate → Verdict}
    (hvalue : ∀ x ∈ h.atoms, (a.predicates.map value)[x.1]? = some (value x.2)) :
    (a.formula.verdict fun i => ((a.predicates.map value)[i]?).join) =
      (h.map Prod.snd).verdict value := by
  rw [hn.verdict, Formula.verdict_map, Formula.verdict_map]
  apply Formula.verdict_congr
  intro x hx
  rw [hvalue x hx, Option.join_some]

/-! ### Evaluating what was built -/

/-- A search argument whose predicates know their columns. -/
def placed (a : SearchArgument) (columns : ColumnRef → ℕ) : BoundSearchArgument :=
  ⟨a.predicates.map fun p => ⟨p, columns p.column⟩, a.formula⟩

theorem mapM_placed {ε γ : Type} {a : SearchArgument} {columns : ColumnRef → ℕ}
    {check : BoundPredicate → Except ε γ} :
    (a.placed columns).predicates.mapM check =
      a.predicates.mapM fun p => check ⟨p, columns p.column⟩ := by
  rw [placed, List.mapM_map]
  rfl

theorem argument_placed (a : SearchArgument) (columns : ColumnRef → ℕ) :
    (a.placed columns).argument = a := by
  rw [BoundSearchArgument.argument, placed, List.map_map]
  simp [Function.comp_def]

theorem bindWith_eq_ok {a : SearchArgument} {resolve : ColumnRef → Option (ℕ × Kind)}
    {columns : ColumnRef → ℕ}
    (resolves : ∀ p ∈ a.predicates, resolve p.column = some (columns p.column, p.kind)) :
    a.bindWith resolve = .ok (a.placed columns) := by
  have hbind : a.predicates.mapM (Predicate.bind resolve) =
      .ok (a.predicates.map fun p => ⟨p, columns p.column⟩) := by
    apply mapM_eq_ok_map
    intro p hp
    rw [Predicate.bind, resolves p hp]
    exact if_pos rfl
  rw [bindWith, hbind]
  rfl

/-- Building keeps the meaning.  The calls that spell formulas over predicates build an argument.
Where the columns of the predicates resolve, it binds; over any statistics it has a truth exactly if
each predicate that was written has one, and then that of the conjunction of the formulas; likewise
for the verdict on any row. -/
theorem ofCalls_meaning {trees : List (Formula Predicate)} (nonempty : trees ≠ [])
    (proper : ∀ f ∈ trees, f.Proper) :
    ∃ a, ofCalls (trees.flatMap Formula.spell) = .ok a ∧
      ∀ (resolve : ColumnRef → Option (ℕ × Kind)) (columns : ColumnRef → ℕ),
        (∀ p ∈ (Formula.and trees).atoms, resolve p.column = some (columns p.column, p.kind)) →
        ∃ b, a.bindWith resolve = .ok b ∧
          (∀ (stats : ℕ → Option Statistics) (σ : Type) (s : σ) (t : Truth),
            (b.evaluate fun c => pure (stats c)).run s = (.ok t, s) ↔
              ∃ value, (Formula.and trees).Passes
                  (fun p => p.truthOptional (stats (columns p.column))) value ∧
                t = (Formula.and trees).truth value) ∧
          ∀ (row : ℕ → Option Literal) (v : Verdict), b.verdict row = .ok v ↔
            ∃ value, (Formula.and trees).Passes
                (fun p => p.verdict (row (columns p.column))) value ∧
              v = (Formula.and trees).verdict value := by
  obtain ⟨a, h, hcalls, htrees, hn⟩ := exists_numbering nonempty proper
  rw [← htrees]
  refine ⟨a, hcalls, fun resolve columns resolves => ⟨a.placed columns, ?_, ?_, ?_⟩⟩
  · exact bindWith_eq_ok fun p hp => resolves p (hn.mem p hp)
  · intro stats σ s t
    have respects {p q : Predicate} (halike : p.Alike q) :
        p.truthOptional (stats (columns p.column)) =
          q.truthOptional (stats (columns q.column)) := by
      rw [halike.column, halike.truthOptional]
    simp only [BoundSearchArgument.run_evaluate_pure_eq_ok_iff, mapM_placed, argument_placed]
    constructor
    · rintro ⟨ts, hts, rfl⟩
      obtain ⟨value, hvalue, rfl⟩ := (hn.mapM_eq_ok_iff respects).mp hts
      exact ⟨value, hvalue, hn.truth_eq fun x hx => hn.value_eq respects hvalue hx⟩
    · rintro ⟨value, hvalue, rfl⟩
      exact ⟨_, hn.passes_predicates hvalue,
        (hn.truth_eq fun x hx => hn.value_eq respects hvalue hx).symm⟩
  · intro row v
    have respects {p q : Predicate} (halike : p.Alike q) :
        p.verdict (row (columns p.column)) = q.verdict (row (columns q.column)) := by
      rw [halike.column, halike.verdict]
    simp only [BoundSearchArgument.verdict, BoundSearchArgument.verdicts, mapM_placed,
      bind_eq_ok_iff]
    constructor
    · rintro ⟨vs, hvs, hv⟩
      obtain ⟨value, hvalue, rfl⟩ := (hn.mapM_eq_ok_iff respects).mp hvs
      rw [← Except.ok.inj hv]
      exact ⟨value, hvalue, hn.verdict_eq fun x hx => hn.value_eq respects hvalue hx⟩
    · rintro ⟨value, hvalue, rfl⟩
      refine ⟨_, hn.passes_predicates hvalue, congrArg Except.ok ?_⟩
      exact hn.verdict_eq fun x hx => hn.value_eq respects hvalue hx

theorem kinds_lessThan_nan : ∀ v ∈ (Test.lessThan (.float .nan)).literals, v.kind = .float := by
  simp [Test.literals, Literal.kind]

/-- A float column that is to be equal to one zero or not to the other, and another that is twice to
be less than what is no number. -/
def zerosAndNone : List (Formula Predicate) :=
  let zero : Predicate := ⟨.name "x", .float, .equals (.float ⟨0⟩), by
    simp [Test.literals, Literal.kind]⟩
  let negativeZero : Predicate := ⟨.name "x", .float, .equals (.float ⟨0x8000000000000000⟩), by
    simp [Test.literals, Literal.kind]⟩
  let belowNone : Predicate := ⟨.name "y", .float, .lessThan (.float .nan), kinds_lessThan_nan⟩
  [.or [.atom zero, .not (.atom negativeZero)], .and [.atom belowNone, .or [.atom belowNone]]]

/-- The places of the two columns. -/
def zerosAndNoneColumns (column : ColumnRef) : ℕ := if column = .name "x" then 0 else 1

/-- Statistics of two rows that both hold zero in the first column. -/
def zerosAndNoneStatistics (column : ℕ) : Option Statistics :=
  if column = 0 then some (.ofRange (.float ⟨0⟩) (.float ⟨0⟩) 2) else none

/-- The zeros share a number, and what is no number gets one each time. -/
theorem ofCalls_meaning_zerosAndNone :
    ∃ a b, ofCalls (zerosAndNone.flatMap Formula.spell) = .ok a ∧ a.predicates.length = 3 ∧
      a.bindWith (fun column => some (zerosAndNoneColumns column, .float)) = .ok b ∧
      (b.evaluate fun column => pure (zerosAndNoneStatistics column)).run () =
        (.ok .yesNoNull, ()) := by
  have nonempty : zerosAndNone ≠ [] := by simp [zerosAndNone]
  have proper : ∀ f ∈ zerosAndNone, f.Proper := by simp [zerosAndNone]
  obtain ⟨a, ha, hmeaning⟩ := ofCalls_meaning nonempty proper
  have hlength : (ofCalls (zerosAndNone.flatMap Formula.spell)).map (·.predicates.length) =
      .ok 3 := rfl
  rw [ha] at hlength
  have hatoms : ∀ p ∈ (Formula.and zerosAndNone).atoms, p.kind = .float := by
    simp [zerosAndNone, Formula.atoms, Formula.atomsList]
  obtain ⟨b, hb, heval, -⟩ := hmeaning (fun column => some (zerosAndNoneColumns column, .float))
    zerosAndNoneColumns fun p hp => by rw [hatoms p hp]
  refine ⟨a, b, ha, Except.ok.inj hlength, hb, (heval zerosAndNoneStatistics Unit () _).mpr ?_⟩
  refine ⟨fun p => if p.column = .name "x" then .yes else .yesNoNull, ?_, rfl⟩
  intro p hp
  simp only [zerosAndNone, Formula.atoms, Formula.atomsList, List.append_nil,
    List.cons_append, List.nil_append, List.mem_cons, List.not_mem_nil, or_false] at hp
  rcases hp with rfl | rfl | rfl | rfl <;> rfl

end SearchArgument

end StripeScan
