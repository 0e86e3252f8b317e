import StripeScan.Proofs.SearchArgument.Acceptance
import StripeScan.Proofs.SearchArgument.Building

/-! # The table of predicates

A search argument refers to its predicates by number.  In one that calls build, the numbers and the
list of predicates fit together (`SearchArgument.Tabulates`): the numbers are used for the first
time in ascending order and without gaps, no two predicates of the list are written alike, and
every number stands for the predicate that was passed in its place (`ofCalls_tabulates`).

What is not a number is the corner: no predicate that holds it is written like any, itself
included, so that it gets a number of its own each time (`Predicate.same_self_iff`). -/

namespace StripeScan

/-! ### Formulas with parts -/

namespace Formula

variable {α β : Type}

@[simp] theorem proper_map_iff {g : α → β} {f : Formula α} : (f.map g).Proper ↔ f.Proper := by
  induction f using Formula.induction with
  | atom a => simp [map]
  | and parts ih =>
      rw [map, mapList_eq_map, Proper.and_iff, Proper.and_iff, List.forall_mem_map]
      exact and_congr (by simp) (forall₂_congr ih)
  | or parts ih =>
      rw [map, mapList_eq_map, Proper.or_iff, Proper.or_iff, List.forall_mem_map]
      exact and_congr (by simp) (forall₂_congr ih)
  | not part ih => rw [map, Proper.not_iff, Proper.not_iff, ih]

theorem Proper.joined {parts : List (Formula α)} (nonempty : parts ≠ [])
    (proper : ∀ f ∈ parts, f.Proper) : (joined parts).Proper := by
  match parts, nonempty with
  | [f], _ => exact proper f List.mem_cons_self
  | f :: f' :: fs, _ => exact .and (List.cons_ne_nil f _) proper

/-- A proper formula contributes at least one part to a conjunction, and proper parts only. -/
theorem Proper.conjuncts {f : Formula α} (h : f.Proper) :
    f.conjuncts ≠ [] ∧ ∀ g ∈ f.conjuncts, g.Proper := by
  cases h with
  | and nonempty proper => exact ⟨nonempty, proper⟩
  | atom a => exact ⟨List.cons_ne_nil _ _, List.forall_mem_singleton.mpr (.atom a)⟩
  | or nonempty proper =>
      exact ⟨List.cons_ne_nil _ _, List.forall_mem_singleton.mpr (.or nonempty proper)⟩
  | not proper => exact ⟨List.cons_ne_nil _ _, List.forall_mem_singleton.mpr (.not proper)⟩

theorem Proper.disjuncts {f : Formula α} (h : f.Proper) :
    f.disjuncts ≠ [] ∧ ∀ g ∈ f.disjuncts, g.Proper := by
  cases h with
  | or nonempty proper => exact ⟨nonempty, proper⟩
  | atom a => exact ⟨List.cons_ne_nil _ _, List.forall_mem_singleton.mpr (.atom a)⟩
  | and nonempty proper =>
      exact ⟨List.cons_ne_nil _ _, List.forall_mem_singleton.mpr (.and nonempty proper)⟩
  | not proper => exact ⟨List.cons_ne_nil _ _, List.forall_mem_singleton.mpr (.not proper)⟩

/-- Splicing groups into groups leaves no group empty. -/
theorem Proper.flatten {f : Formula α} (h : f.Proper) : f.flatten.Proper := by
  have spliced {parts : List (Formula α)} {contribution : Formula α → List (Formula α)}
      (nonempty : parts ≠ []) (ih : ∀ f ∈ parts, contribution f.flatten ≠ [] ∧
        ∀ g ∈ contribution f.flatten, g.Proper) :
      (flattenList parts).flatMap contribution ≠ [] ∧
        ∀ g ∈ (flattenList parts).flatMap contribution, g.Proper := by
    rw [flattenList_eq_map, List.flatMap_map]
    constructor
    · obtain ⟨f, fs, rfl⟩ := List.exists_cons_of_ne_nil nonempty
      intro hnil
      exact (ih f List.mem_cons_self).1 (List.flatMap_eq_nil_iff.mp hnil f List.mem_cons_self)
    · intro g hg
      obtain ⟨f, hf, hg⟩ := List.mem_flatMap.mp hg
      exact (ih f hf).2 g hg
  induction h with
  | atom a =>
      rw [Formula.flatten]
      exact .atom a
  | and nonempty _ ih =>
      rw [Formula.flatten, and_iff]
      exact spliced nonempty fun f hf => (ih f hf).conjuncts
  | or nonempty _ ih =>
      rw [Formula.flatten, or_iff]
      exact spliced nonempty fun f hf => (ih f hf).disjuncts
  | not _ ih =>
      rw [Formula.flatten]
      exact .not ih

end Formula

/-! ### Predicates written alike -/

theorem Binary64.same_eq_true_iff {x y : Binary64} :
    x.same y = true ↔ x.isNaN = false ∧ y.isNaN = false ∧ x.key = y.key := by
  cases hx : x.isNaN <;> cases hy : y.isNaN <;> simp [same, compare?, hx, hy]

namespace Literal

theorem same_comm (a b : Literal) : a.same b = b.same a := by
  cases a <;> cases b <;> simp only [same] <;> try exact Bool.beq_comm
  rename_i x y
  rw [Bool.eq_iff_iff, Binary64.same_eq_true_iff, Binary64.same_eq_true_iff, and_left_comm,
    eq_comm (a := x.key)]

/-- A literal is written like itself unless it is no number. -/
theorem same_self_iff {a : Literal} : a.same a = true ↔ a.isNaN = false := by
  cases a <;> simp [same, isNaN, Binary64.same_eq_true_iff]

end Literal

namespace Predicate

/-- Whether some literal of a predicate is no number. -/
def HoldsNaN (p : Predicate) : Prop := ∃ v ∈ p.literals, v.isNaN = true

/-- Whether a predicate may be listed for one that was passed: it is written alike, or it is that
very predicate, which holds what is no number. -/
def StandsFor (q p : Predicate) : Prop := q.same p = true ∨ p.HoldsNaN ∧ q = p

theorem same_symm {p q : Predicate} (h : p.same q = true) : q.same p = true := by
  obtain ⟨hcolumn, hkind, hoperator, hliterals⟩ := same_eq_true_iff.mp h
  refine same_eq_true_iff.mpr ⟨hcolumn.symm, hkind.symm, hoperator.symm, .flip ?_⟩
  exact hliterals.imp fun v w hvw => (w.same_comm v).trans hvw

theorem same_comm (p q : Predicate) : p.same q = q.same p :=
  Bool.eq_iff_iff.mpr ⟨same_symm, same_symm⟩

/-- A predicate is written like itself unless it holds what is no number. -/
theorem same_self_iff {p : Predicate} : p.same p = true ↔ ¬p.HoldsNaN := by
  rw [same_eq_true_iff, List.forall₂_same]
  simp only [true_and, Literal.same_self_iff, HoldsNaN, not_exists, not_and, Bool.not_eq_true]

theorem standsFor_self (p : Predicate) : p.StandsFor p := by
  by_cases h : p.HoldsNaN
  · exact .inr ⟨h, rfl⟩
  · exact .inl (same_self_iff.mpr h)

end Predicate

/-! ### Numbers in order -/

theorem eraseDups_range (n : ℕ) : (List.range n).eraseDups = List.range n := by
  induction n with
  | zero => rfl
  | succ n ih =>
      have hnew : [n].removeAll (List.range n) = [n] := by simp [List.cons_removeAll]
      rw [List.range_succ, List.eraseDups_append, ih, hnew]
      rfl

namespace Numbers

variable {known new : List Predicate} {xs : List (ℕ × Predicate)}

/-- If no predicate that is known is written like an earlier one, no new one is either. -/
theorem pairwise (h : Numbers known xs new)
    (distinct : known.Pairwise fun p q => p.same q = false) :
    (known ++ new).Pairwise fun p q => p.same q = false := by
  induction h with
  | nil known => rwa [List.append_nil]
  | shared _ _ ih => exact ih distinct
  | fresh missing _ ih =>
      rw [List.append_cons]
      apply ih
      rw [List.pairwise_append]
      refine ⟨distinct, List.pairwise_singleton _ _, fun p hp q hq => ?_⟩
      rw [List.mem_singleton.mp hq]
      exact List.findIdx?_eq_none_iff.mp missing p hp

/-- After the numbers that are known, each number follows on the one before when it is first
used. -/
theorem eraseDups_eq (h : Numbers known xs new) :
    (List.range known.length ++ xs.map Prod.fst).eraseDups =
      List.range (known ++ new).length := by
  induction h with
  | nil known => rw [List.map_nil, List.append_nil, List.append_nil, eraseDups_range]
  | @shared known new i p xs found _ ih =>
      obtain ⟨hi, -⟩ := List.findIdx?_eq_some_iff_getElem.mp found
      have hseen : (List.range known.length).contains i = true := by simpa using hi
      rw [← ih, List.map_cons, List.eraseDups_append, List.eraseDups_append, List.cons_removeAll,
        hseen, if_neg (by simp)]
  | @fresh known new p xs missing _ ih =>
      rw [List.length_append, List.length_singleton, List.range_succ, List.append_assoc,
        List.singleton_append] at ih
      rw [List.map_cons, List.append_cons known, ih]

end Numbers

/-! ### The table -/

namespace SearchArgument

/-- The predicate that a call passes, if it passes one that is well formed. -/
def Call.predicate? : Call → Option Predicate
  | .test column operator kind literals =>
    (Predicate.ofParts column operator kind literals).toOption
  | _ => none

/-- Calls that spell conditions pass the atoms of the conditions from left to right. -/
theorem predicates_of_spells {calls : List Call} {parts : List (Formula Predicate)}
    (h : Spells calls parts) :
    calls.filterMap Call.predicate? = parts.flatMap Formula.atoms := by
  induction h with
  | nil => rfl
  | test checked => simp [Call.predicate?, checked, Except.toOption, Formula.atoms]
  | and _ _ ih | or _ _ ih =>
      simp [List.filterMap_cons, Call.predicate?, ih, Formula.atoms, Formula.atomsList_eq_flatMap]
  | not _ ih => simp [List.filterMap_cons, Call.predicate?, ih, Formula.atoms]
  | append _ _ ih ih' => rw [List.filterMap_append, ih, ih', List.flatMap_append]

theorem proper_of_spells {calls : List Call} {parts : List (Formula Predicate)}
    (h : Spells calls parts) : ∀ f ∈ parts, f.Proper := by
  induction h with
  | nil => simp
  | test _ => simp
  | and _ nonempty ih => simpa using ⟨nonempty, ih⟩
  | or _ nonempty ih => simpa using ⟨nonempty, ih⟩
  | not _ ih => simpa using ih
  | append _ _ ih ih' =>
      intro f hf
      rcases List.mem_append.mp hf with hf | hf
      · exact ih f hf
      · exact ih' f hf

/-- Whether the numbers in an argument fit its list of predicates, where the given predicates were
passed for the numbers from left to right. -/
structure Tabulates (a : SearchArgument) (passed : List Predicate) : Prop where
  /-- Every number is that of a listed predicate. -/
  in_range : ∀ i ∈ a.formula.atoms, i < a.predicates.length
  /-- Every listed predicate is used. -/
  used : ∀ i < a.predicates.length, i ∈ a.formula.atoms
  /-- Without its later repetitions, the sequence of numbers is `0`, `1`, `2` and so on. -/
  first_uses : a.formula.atoms.eraseDups = List.range a.predicates.length
  /-- No two listed predicates are written alike. -/
  distinct : ∀ (i j : ℕ) (p q : Predicate), a.predicates[i]? = some p →
    a.predicates[j]? = some q → i ≠ j → p.same q = false
  /-- Every number refers to a predicate that stands for the one passed in its place. -/
  occurrences : List.Forall₂ (fun i p => ∃ q, a.predicates[i]? = some q ∧ q.StandsFor p)
    a.formula.atoms passed
  /-- No group is empty. -/
  proper : a.formula.Proper

theorem Writes.tabulates {a : SearchArgument} {f : Formula Predicate} (h : a.Writes f)
    (proper : f.Proper) : a.Tabulates f.atoms := by
  obtain ⟨g, rfl, hformula, hnumbers⟩ := h
  have hatoms : a.formula.atoms = g.atoms.map Prod.fst := by
    rw [hformula, Formula.atoms_flatten, Formula.atoms_map]
  have huses : a.formula.atoms.eraseDups = List.range a.predicates.length := by
    rw [hatoms]
    exact hnumbers.eraseDups_eq
  have hmem (i : ℕ) : i ∈ a.formula.atoms ↔ i < a.predicates.length := by
    rw [← List.mem_eraseDups, huses, List.mem_range]
  have hpairwise := hnumbers.pairwise List.Pairwise.nil
  refine ⟨fun i => (hmem i).mp, fun i => (hmem i).mpr, huses, ?_, ?_, ?_⟩
  · intro i j p q hp hq hne
    obtain ⟨hi, rfl⟩ := List.getElem?_eq_some_iff.mp hp
    obtain ⟨hj, rfl⟩ := List.getElem?_eq_some_iff.mp hq
    rcases Nat.lt_or_gt_of_ne hne with hlt | hlt
    · exact List.pairwise_iff_getElem.mp hpairwise i j hi hj hlt
    · rw [Predicate.same_comm]
      exact List.pairwise_iff_getElem.mp hpairwise j i hj hi hlt
  · rw [hatoms, Formula.atoms_map, List.forall₂_map_left_iff, List.forall₂_map_right_iff,
      List.forall₂_same]
    intro x hx
    obtain ⟨q, hq, hsame | rfl⟩ := hnumbers.same_or_eq hx
    · exact ⟨q, hq, .inl hsame⟩
    · exact ⟨x.2, hq, x.2.standsFor_self⟩
  · rw [hformula]
    exact (Formula.proper_map_iff.mpr (Formula.proper_map_iff.mp proper)).flatten

/-- The table of an argument that calls build fits the predicates that the calls pass.  So with a
truth for each listed predicate, the truth of the argument does not depend on what stands in for
truths that are missing, and neither does what it evaluates to over a partition. -/
theorem ofCalls_tabulates {calls : List Call} {a : SearchArgument} (h : ofCalls calls = .ok a) :
    a.Tabulates (calls.filterMap Call.predicate?) ∧
      (∀ (values : List Truth) (fallback : ℕ → Truth), a.predicates.length ≤ values.length →
        (a.formula.truth fun i => values.getD i (fallback i)) = a.truth values) ∧
      ∀ (resolve : ColumnRef → Option (ℕ × Kind)) (b : BoundSearchArgument),
        a.bindWith resolve = .ok b →
        ∀ (σ : Type) (fetch : ℕ → Access σ (Option Statistics)) (s s' : σ) (t : Truth),
          (b.evaluate fetch).run s = (.ok t, s') →
          ∃ values : List Truth, values.length = a.predicates.length ∧
            ∀ fallback : ℕ → Truth,
              (a.formula.truth fun i => values.getD i (fallback i)) = t := by
  obtain ⟨parts, nonempty, hspells, hwrites⟩ := ofCalls_eq_ok_iff.mp h
  have htable : a.Tabulates (calls.filterMap Call.predicate?) := by
    rw [predicates_of_spells hspells, ← Formula.atoms_joined]
    exact hwrites.tabulates (.joined nonempty (proper_of_spells hspells))
  have hvalues (values : List Truth) (fallback : ℕ → Truth)
      (hlength : a.predicates.length ≤ values.length) :
      (a.formula.truth fun i => values.getD i (fallback i)) = a.truth values := by
    apply Formula.truth_congr
    intro i hi
    have hlt := (htable.in_range i hi).trans_le hlength
    rw [List.getD_eq_getElem _ _ hlt, List.getD_eq_getElem _ _ hlt]
  refine ⟨htable, hvalues, fun resolve b hbind σ fetch s s' t heval => ?_⟩
  obtain ⟨predicates, hpredicates, hb⟩ := bind_eq_ok_iff.mp hbind
  cases hb
  obtain ⟨values, rfl, hlength⟩ := BoundSearchArgument.evaluate_eq_ok (P := fun _ _ => True)
    (fun _ _ _ _ _ _ => trivial) heval
  have hcount : values.length = a.predicates.length :=
    hlength.length_eq.symm.trans (mapM_eq_ok_iff.mp hpredicates).length_eq.symm
  exact ⟨values, hcount, fun fallback => hvalues values fallback hcount.ge⟩

/-- The zeros share the first number, and the predicate with what is no number has one for each
time it is passed. -/
theorem ofCalls_tabulates_zerosAndNone :
    ∃ a, ofCalls (zerosAndNone.flatMap Formula.spell) = .ok a ∧
      a.formula.atoms = [0, 0, 1, 2] ∧
      a.Tabulates ((zerosAndNone.flatMap Formula.spell).filterMap Call.predicate?) := by
  obtain ⟨a, ha⟩ : ∃ a, ofCalls (zerosAndNone.flatMap Formula.spell) = .ok a := ⟨_, rfl⟩
  have hatoms : (ofCalls (zerosAndNone.flatMap Formula.spell)).map (·.formula.atoms) =
      .ok [0, 0, 1, 2] := rfl
  rw [ha] at hatoms
  exact ⟨a, ha, Except.ok.inj hatoms, (ofCalls_tabulates ha).1⟩

end SearchArgument

end StripeScan
