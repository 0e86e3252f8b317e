import StripeScan.Proofs.SearchArgument.Acceptance
import StripeScan.Proofs.SearchArgument.Building

/-! # Shared numbers

Predicates that are written alike share a number, so that an argument may list fewer predicates
than were written.  This cannot be seen from outside:

* a check of all listed predicates ends as a check of all that were written would, with the first
  error among them (`SearchArgument.Writes.outcome_mapM`);
* evaluating the listed predicates asks for the same statistics in the same order as evaluating all
  that were written, as those of a predicate that shares its number are known by then
  (`Numbers.truths_eq`).

So the truth of an argument is determined by the shape of what was written, its tests and the
places of its columns, one by one (`SearchArgument.Writes.evaluate_eq`). -/

namespace StripeScan

/-! ### Checking with shared numbers -/

namespace Numbers

variable {known new : List Predicate} {xs : List (ℕ × Predicate)}

/-- A predicate that shares its number is like one that has passed already. -/
theorem outcome_mapM {ε γ : Type} {check : Predicate → Except ε γ} (h : Numbers known xs new)
    (respects : ∀ {p q : Predicate}, p.Alike q → (∃ y, check p = .ok y) → ∃ y, check q = .ok y)
    (passed : ∀ q ∈ known, ∃ y, check q = .ok y) :
    outcome (new.mapM check) = outcome ((xs.map Prod.snd).mapM check) := by
  induction h with
  | nil known => rfl
  | @shared known new i p xs found _ ih =>
      obtain ⟨hi, hsame, -⟩ := List.findIdx?_eq_some_iff_getElem.mp found
      obtain ⟨y, hy⟩ :=
        respects (Predicate.alike_of_same hsame) (passed known[i] (List.getElem_mem hi))
      rw [List.map_cons, outcome_mapM_cons_of_ok hy]
      exact ih passed
  | @fresh known new p xs missing _ ih =>
      rw [List.map_cons]
      cases hp : check p with
      | error e => rw [mapM_cons_of_error hp, mapM_cons_of_error hp]
      | ok y =>
          rw [outcome_mapM_cons_of_ok hp, outcome_mapM_cons_of_ok hp]
          refine ih fun q hq => ?_
          rcases List.mem_append.mp hq with hq | hq
          · exact passed q hq
          · rw [List.mem_singleton.mp hq]
            exact ⟨y, hp⟩

end Numbers

/-! ### Evaluating with shared numbers -/

namespace BoundSearchArgument

variable {σ : Type} {fetch : ℕ → Access σ (Option Statistics)} {cache : Known}
variable {b : BoundPredicate} {s : Option Statistics}

theorem truths_cons_of_known (h : cache.lookup b.column = some s) (rest : List BoundPredicate) :
    truths fetch cache (b :: rest) =
      b.predicate.check s >>= fun t => (t :: ·) <$> truths fetch cache rest := by
  simp only [truths, statisticsOf, h, pure_bind, bind_pure_comp]

/-- A column that is asked for the first time is known from then on. -/
theorem truths_cons_of_unknown (h : cache.lookup b.column = none) (rest : List BoundPredicate) :
    truths fetch cache (b :: rest) =
      fetch b.column >>= fun s => truths fetch ((b.column, s) :: cache) (b :: rest) := by
  simp only [truths, statisticsOf, h, List.lookup_cons_self, bind_assoc, pure_bind]

/-- Truths depend on the columns and tests of the predicates only. -/
theorem truths_congr {bs bs' : List BoundPredicate}
    (h : List.Forall₂ (fun b b' => b.column = b'.column ∧ b.predicate.test = b'.predicate.test)
      bs bs') : truths fetch cache bs = truths fetch cache bs' := by
  induction h generalizing cache with
  | nil => rfl
  | @cons b b' _ _ hb _ ih =>
      have hcheck (s : Option Statistics) :
          (b.predicate.check s : Access σ Truth) = b'.predicate.check s := by
        cases s with
        | none => rfl
        | some s => simp only [Predicate.check, Predicate.truthOptional, Predicate.truth, hb.2]
      simp only [truths, hb.1, hcheck, ih]

end BoundSearchArgument

open BoundSearchArgument

/-- A predicate at the place of its column. -/
def Predicate.at (columns : ColumnRef → ℕ) (p : Predicate) : BoundPredicate := ⟨p, columns p.column⟩

/-- Whether the statistics of a predicate's column are known, and the truth over them. -/
def Predicate.Evaluated (columns : ColumnRef → ℕ) (cache : Known) (p : Predicate) (t : Truth) :
    Prop :=
  ∃ s, cache.lookup (columns p.column) = some s ∧ p.truthOptional s = .ok t

namespace Predicate

variable {columns : ColumnRef → ℕ} {cache : Known} {p q : Predicate} {t : Truth}

theorem Alike.evaluated (h : p.Alike q) (hp : p.Evaluated columns cache t) :
    q.Evaluated columns cache t := by
  obtain ⟨s, hlookup, ht⟩ := hp
  exact ⟨s, h.column ▸ hlookup, h.truthOptional s ▸ ht⟩

/-- What is known stays known when a further column is. -/
theorem Evaluated.cons (h : p.Evaluated columns cache t) {c : ℕ} (new : cache.lookup c = none)
    (s : Option Statistics) : p.Evaluated columns ((c, s) :: cache) t := by
  obtain ⟨s', hlookup, ht⟩ := h
  refine ⟨s', ?_, ht⟩
  have hne : columns p.column ≠ c := by
    rintro rfl
    rw [new] at hlookup
    cases hlookup
  rw [List.lookup_cons, beq_false_of_ne hne, hlookup]

theorem check_of_ok {σ : Type} {s : Option Statistics} (h : p.truthOptional s = .ok t) :
    (p.check s : Access σ Truth) = pure t := by
  rw [check, h]
  rfl

theorem check_of_error {σ : Type} {s : Option Statistics} {e : Incomparable}
    (h : p.truthOptional s = .error e) :
    (p.check s : Access σ Truth) = .fail (.argument (.incomparable e)) := by
  rw [check, h]
  rfl

end Predicate

namespace Numbers

variable {σ : Type} {fetch : ℕ → Access σ (Option Statistics)} {columns : ColumnRef → ℕ}
variable {known new : List Predicate} {xs : List (ℕ × Predicate)}

/-- Evaluating each predicate that was written is evaluating those that get a new number: a shared
number has its truth already, from statistics that are known. -/
theorem truths_eq (h : Numbers known xs new) {cache : Known} {ts : List Truth}
    (done : List.Forall₂ (Predicate.Evaluated columns cache) known ts) :
    truths fetch cache (xs.map fun x => x.2.at columns) =
      (fun us => xs.map fun x => (ts ++ us).getD x.1 .yesNoNull) <$>
        truths fetch cache (new.map (Predicate.at columns)) := by
  -- On the numbers, for anything known and any truths so far.
  induction h generalizing cache ts with
  | nil known => simp [truths]
  | @shared known new i p xs found _ ih =>
      obtain ⟨hi, hsame, -⟩ := List.findIdx?_eq_some_iff_getElem.mp found
      have hi' : i < ts.length := done.length_eq ▸ hi
      obtain ⟨s, hlookup, ht⟩ := (Predicate.alike_of_same hsame).evaluated (done.get hi hi')
      rw [List.map_cons, truths_cons_of_known hlookup, Predicate.at, Predicate.check_of_ok ht,
        pure_bind, ih done, ← comp_map]
      congr 1
      funext us
      simp [List.getElem?_append_left hi', List.getElem?_eq_getElem hi']
  | @fresh known new p xs missing _ ih =>
      have hstep {cache : Known} {s : Option Statistics}
          (hlookup : cache.lookup (columns p.column) = some s)
          (done : List.Forall₂ (Predicate.Evaluated columns cache) known ts) :
          truths fetch cache (((known.length, p) :: xs).map fun x => x.2.at columns) =
            (fun us => ((known.length, p) :: xs).map fun x => (ts ++ us).getD x.1 .yesNoNull) <$>
              truths fetch cache ((p :: new).map (Predicate.at columns)) := by
        rw [List.map_cons, List.map_cons, truths_cons_of_known hlookup,
          truths_cons_of_known hlookup]
        cases ht : p.truthOptional s with
        | error e =>
            rw [Predicate.at, Predicate.check_of_error ht]
            rfl
        | ok t =>
            have done' : List.Forall₂ (Predicate.Evaluated columns cache) (known ++ [p])
                (ts ++ [t]) := List.rel_append done (.cons ⟨s, hlookup, ht⟩ .nil)
            rw [Predicate.at, Predicate.check_of_ok ht, pure_bind, pure_bind, ih done',
              ← comp_map, ← comp_map]
            congr 1
            funext us
            simp [done.length_eq]
      cases hlookup : cache.lookup (columns p.column) with
      | some s => exact hstep hlookup done
      | none =>
          rw [List.map_cons, List.map_cons, truths_cons_of_unknown hlookup,
            truths_cons_of_unknown hlookup, map_bind]
          congr 1
          funext s
          refine hstep List.lookup_cons_self (done.imp fun q t hq => hq.cons hlookup s)

end Numbers

/-! ### Checking and evaluating what was written -/

namespace SearchArgument

variable {a a' : SearchArgument} {f f' : Formula Predicate}

/-- A check of the predicates of an argument ends as one of all that were written. -/
theorem Writes.outcome_mapM (h : a.Writes f) {ε γ : Type} {check : Predicate → Except ε γ}
    (respects : ∀ {p q : Predicate}, p.Alike q → (∃ y, check p = .ok y) → ∃ y, check q = .ok y) :
    outcome (a.predicates.mapM check) = outcome (f.atoms.mapM check) := by
  obtain ⟨g, rfl, -, hnumbers⟩ := h
  rw [Formula.atoms_map]
  exact hnumbers.outcome_mapM respects fun q hq => absurd hq List.not_mem_nil

/-- The truth of an argument is fixed by the shape of what was written, and by the tests and the
places of the columns there, one by one. -/
theorem Writes.evaluate_eq (h : a.Writes f) (h' : a'.Writes f') {columns columns' : ColumnRef → ℕ}
    (shape : f.shape = f'.shape)
    (atoms : List.Forall₂ (fun p p' => columns p.column = columns' p'.column ∧ p.test = p'.test)
      f.atoms f'.atoms) {σ : Type} (fetch : ℕ → Access σ (Option Statistics)) :
    (a.placed columns).evaluate fetch = (a'.placed columns').evaluate fetch := by
  obtain ⟨g, rfl, hformula, hnumbers⟩ := h
  obtain ⟨g', rfl, hformula', hnumbers'⟩ := h'
  rw [Formula.shape_map, Formula.shape_map] at shape
  rw [Formula.atoms_map, Formula.atoms_map] at atoms
  have hwritten : truths fetch [] (g.atoms.map fun x => x.2.at columns) =
      truths fetch [] (g'.atoms.map fun x => x.2.at columns') := by
    apply truths_congr
    rw [List.forall₂_map_left_iff, List.forall₂_map_right_iff] at atoms ⊢
    exact atoms
  rw [hnumbers.truths_eq .nil, hnumbers'.truths_eq .nil] at hwritten
  simp only [BoundSearchArgument.evaluate, argument_placed, bind_pure_comp]
  refine Access.map_eq_map (fun us us' hus => ?_) hwritten
  rw [SearchArgument.truth, SearchArgument.truth, hformula, hformula', Formula.truth_flatten,
    Formula.truth_flatten]
  have hvalues : g.map (fun x => us.getD x.1 .yesNoNull) =
      g'.map fun x => us'.getD x.1 .yesNoNull := by
    apply Formula.eq_of_shape
    · rw [Formula.shape_map, Formula.shape_map, shape]
    · rw [Formula.atoms_map, Formula.atoms_map]
      exact hus
  have htruth := congrArg (Formula.truth id) hvalues
  rw [Formula.truth_map, Formula.truth_map] at htruth ⊢
  exact htruth

end SearchArgument

end StripeScan
