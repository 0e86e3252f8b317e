import Mathlib
import StripeScan.Proofs.Logic.Soundness

/-! # Formulas that mean the same

The truth over a partition, the verdict on a row and the list of atoms are all found part by part:
the value of a group depends on the values of its parts only (`Formula.Compositional`).  Such a
value is fixed by those of the atoms (`Compositional.eq_of_atoms`).

Where moreover a group of groups is worth as much as one group of all their parts (`Merges`),
flattening keeps the value (`Compositional.flatten`).

A formula is its shape with its atoms put in from left to right (`Formula.eq_of_shape`). -/

namespace StripeScan

/-- Whether collecting values in groups first makes no difference. -/
structure Merges {γ : Type} (collect : List γ → γ) : Prop where
  singleton (c : γ) : collect [c] = c
  flatten (css : List (List γ)) : collect css.flatten = collect (css.map collect)

/-- A group within a group is worth as much as its parts in its place. -/
theorem Merges.splice {γ : Type} {collect : List γ → γ} (h : Merges collect) (cs ds es : List γ) :
    collect (cs ++ ds ++ es) = collect (cs ++ collect ds :: es) := by
  have alone (fs : List γ) : (fs.map ([·])).flatten = fs := by
    rw [← List.flatMap_def, List.flatMap_singleton']
  have hparts := h.flatten (cs.map ([·]) ++ ds :: es.map ([·]))
  simpa [alone, Function.comp_def, h.singleton] using hparts

/-- Folding with an associative operation from its unit. -/
theorem merges_foldl {γ : Type} {op : γ → γ → γ} {unit : γ}
    (assoc : ∀ a b c, op (op a b) c = op a (op b c)) (unit_op : ∀ a, op unit a = a)
    (op_unit : ∀ a, op a unit = a) : Merges fun cs : List γ => cs.foldl op unit where
  singleton := unit_op
  flatten css := by
    have : Std.Associative op := ⟨assoc⟩
    have hfold (cs : List γ) (c : γ) : cs.foldl op c = op c (cs.foldl op unit) := by
      have h : cs.foldl op (op c unit) = op c (cs.foldl op unit) := List.foldl_assoc
      rwa [op_unit] at h
    rw [List.foldl_flatten, List.foldl_map]
    simp only [← hfold]

namespace Truth

theorem merges_and : Merges fun ts : List Truth => ts.foldl and yes :=
  merges_foldl and_assoc (fun t => by cases t <;> rfl) (fun t => by cases t <;> rfl)

theorem merges_or : Merges fun ts : List Truth => ts.foldl or no :=
  merges_foldl or_assoc (fun t => by cases t <;> rfl) (fun t => by cases t <;> rfl)

end Truth

namespace Verdict

theorem not_not (v : Verdict) : not (not v) = v := by rcases v with _ | _ | _ <;> rfl

theorem all_eq_some_false_iff {vs : List Verdict} : all vs = some false ↔ some false ∈ vs := by
  constructor
  · exact mem_of_all_eq_some_false
  · intro h
    rw [all, if_pos (List.contains_iff_mem.mpr h)]

theorem merges_all : Merges all where
  singleton v := by rcases v with _ | _ | _ <;> rfl
  flatten vss := by
    have htrue : all vss.flatten = some true ↔ all (vss.map all) = some true := by
      simp only [all_eq_some_true_iff, List.mem_flatten, List.mem_map]
      constructor
      · rintro h _ ⟨vs, hvs, rfl⟩
        exact all_eq_some_true_iff.mpr fun v hv => h v ⟨vs, hvs, hv⟩
      · rintro h v ⟨vs, hvs, hv⟩
        exact all_eq_some_true_iff.mp (h _ ⟨vs, hvs, rfl⟩) v hv
    have hfalse : all vss.flatten = some false ↔ all (vss.map all) = some false := by
      simp only [all_eq_some_false_iff, List.mem_flatten, List.mem_map]
    -- What is neither true nor false is unknown on both sides.
    rcases hl : all vss.flatten with _ | _ | _
    · rcases hr : all (vss.map all) with _ | _ | _
      · rfl
      · rw [hfalse.mpr hr] at hl
        cases hl
      · rw [htrue.mpr hr] at hl
        cases hl
    · exact (hfalse.mp hl).symm
    · exact (htrue.mp hl).symm

theorem merges_any : Merges any where
  singleton v := by rcases v with _ | _ | _ <;> rfl
  flatten vss := by
    have hparts : ((vss.map any).map not) = (vss.map (List.map not)).map all := by
      simp only [List.map_map]
      apply List.map_congr_left
      intro vs _
      show not (any vs) = all (vs.map not)
      rw [any_eq_not_all_not, not_not]
    rw [any_eq_not_all_not, any_eq_not_all_not, hparts, List.map_flatten, merges_all.flatten]

end Verdict

theorem merges_flatten {α : Type} : Merges (@List.flatten α) where
  singleton _ := List.flatten_singleton
  flatten _ := List.flatten_flatten

namespace Formula

variable {α β γ : Type}

/-- Whether a value of formulas is found from those of the parts, by these operations. -/
structure Compositional (eval : Formula α → γ) (all any : List γ → γ) (neg : γ → γ) : Prop where
  and (parts : List (Formula α)) : eval (.and parts) = all (parts.map eval)
  or (parts : List (Formula α)) : eval (.or parts) = any (parts.map eval)
  not (part : Formula α) : eval (.not part) = neg (eval part)

/-! ### Values that are found part by part -/

theorem compositional_truth (value : α → Truth) :
    Compositional (truth value) (·.foldl Truth.and .yes) (·.foldl Truth.or .no) Truth.not where
  and parts := by rw [truth, truthList_eq_map]
  or parts := by rw [truth, truthList_eq_map]
  not _ := by rw [truth]

theorem compositional_verdict (value : α → Verdict) :
    Compositional (verdict value) Verdict.all Verdict.any Verdict.not where
  and parts := by rw [verdict, verdictList_eq_map]
  or parts := by rw [verdict, verdictList_eq_map]
  not _ := by rw [verdict]

theorem compositional_atoms : Compositional (@atoms α) List.flatten List.flatten id where
  and parts := by rw [atoms, atomsList_eq_flatMap, List.flatMap_def]
  or parts := by rw [atoms, atomsList_eq_flatMap, List.flatMap_def]
  not _ := by rw [atoms, id_eq]

theorem Compositional.map {eval : Formula β → γ} {all any : List γ → γ} {neg : γ → γ}
    (h : Compositional eval all any neg) (g : α → β) :
    Compositional (fun f => eval (f.map g)) all any neg where
  and parts := by rw [Formula.map, mapList_eq_map, h.and, List.map_map]; rfl
  or parts := by rw [Formula.map, mapList_eq_map, h.or, List.map_map]; rfl
  not _ := by rw [Formula.map, h.not]

section evaluation

variable {eval eval' : Formula α → γ} {all any : List γ → γ} {neg : γ → γ}

/-- Two values that are found alike agree where they agree on the atoms. -/
theorem Compositional.eq_of_atoms (h : Compositional eval all any neg)
    (h' : Compositional eval' all any neg) {f : Formula α}
    (hatoms : ∀ a ∈ f.atoms, eval (.atom a) = eval' (.atom a)) : eval f = eval' f := by
  induction f using Formula.induction with
  | atom a =>
      apply hatoms
      rw [atoms]
      exact List.mem_singleton_self a
  | and parts ih =>
      rw [h.and, h'.and]
      congr 1
      apply List.map_congr_left
      intro f hf
      exact ih f hf fun a ha => hatoms a (mem_atoms_and hf ha)
  | or parts ih =>
      rw [h.or, h'.or]
      congr 1
      apply List.map_congr_left
      intro f hf
      exact ih f hf fun a ha => hatoms a (mem_atoms_or hf ha)
  | not part ih =>
      rw [h.not, h'.not, ih fun a ha => hatoms a (by rwa [atoms])]

variable (h : Compositional eval all any neg)

include h

theorem Compositional.conjuncts (hall : Merges all) (f : Formula α) :
    all (f.conjuncts.map eval) = eval f := by
  cases f with
  | and parts => exact (h.and parts).symm
  | atom a => exact hall.singleton _
  | or parts => exact hall.singleton _
  | not part => exact hall.singleton _

theorem Compositional.disjuncts (hany : Merges any) (f : Formula α) :
    any (f.disjuncts.map eval) = eval f := by
  cases f with
  | or parts => exact (h.or parts).symm
  | atom a => exact hany.singleton _
  | and parts => exact hany.singleton _
  | not part => exact hany.singleton _

/-- Merging groups into the groups around them keeps the value. -/
theorem Compositional.flatten (hall : Merges all) (hany : Merges any) (f : Formula α) :
    eval f.flatten = eval f := by
  induction f using Formula.induction with
  | atom a => rw [Formula.flatten]
  | and parts ih =>
      rw [Formula.flatten, flattenList_eq_map, h.and, h.and, List.map_flatMap, List.flatMap_def,
        hall.flatten, List.map_map, List.map_map]
      congr 1
      apply List.map_congr_left
      intro f hf
      exact (h.conjuncts hall f.flatten).trans (ih f hf)
  | or parts ih =>
      rw [Formula.flatten, flattenList_eq_map, h.or, h.or, List.map_flatMap, List.flatMap_def,
        hany.flatten, List.map_map, List.map_map]
      congr 1
      apply List.map_congr_left
      intro f hf
      exact (h.disjuncts hany f.flatten).trans (ih f hf)
  | not part ih => rw [Formula.flatten, h.not, h.not, ih]

end evaluation

/-! ### Truths, verdicts and atoms -/

theorem truth_congr {v w : α → Truth} {f : Formula α} (h : ∀ a ∈ f.atoms, v a = w a) :
    f.truth v = f.truth w := by
  apply (compositional_truth v).eq_of_atoms (compositional_truth w)
  intro a ha
  rw [truth, truth, h a ha]

theorem verdict_congr {v w : α → Verdict} {f : Formula α} (h : ∀ a ∈ f.atoms, v a = w a) :
    f.verdict v = f.verdict w := by
  apply (compositional_verdict v).eq_of_atoms (compositional_verdict w)
  intro a ha
  rw [verdict, verdict, h a ha]

theorem truth_map (g : α → β) (v : β → Truth) (f : Formula α) :
    (f.map g).truth v = f.truth fun a => v (g a) := by
  apply ((compositional_truth v).map g).eq_of_atoms (compositional_truth fun a => v (g a))
  intro a _
  rw [map, truth, truth]

theorem verdict_map (g : α → β) (v : β → Verdict) (f : Formula α) :
    (f.map g).verdict v = f.verdict fun a => v (g a) := by
  apply ((compositional_verdict v).map g).eq_of_atoms (compositional_verdict fun a => v (g a))
  intro a _
  rw [map, verdict, verdict]

theorem atoms_map (g : α → β) (f : Formula α) : (f.map g).atoms = f.atoms.map g := by
  have hmap : Compositional (fun f : Formula α => f.atoms.map g) List.flatten List.flatten id :=
    ⟨fun parts => by rw [compositional_atoms.and, List.map_flatten, List.map_map]; rfl,
      fun parts => by rw [compositional_atoms.or, List.map_flatten, List.map_map]; rfl,
      fun part => by rw [compositional_atoms.not]; rfl⟩
  apply (compositional_atoms.map g).eq_of_atoms hmap
  intro a _
  rw [map, atoms, atoms, List.map_singleton]

theorem truth_flatten (v : α → Truth) (f : Formula α) : f.flatten.truth v = f.truth v :=
  (compositional_truth v).flatten Truth.merges_and Truth.merges_or f

theorem verdict_flatten (v : α → Verdict) (f : Formula α) : f.flatten.verdict v = f.verdict v :=
  (compositional_verdict v).flatten Verdict.merges_all Verdict.merges_any f

theorem atoms_flatten (f : Formula α) : f.flatten.atoms = f.atoms :=
  compositional_atoms.flatten merges_flatten merges_flatten f

/-! ### Shapes -/

/-- A formula with nothing left of its atoms but their places. -/
def shape (f : Formula α) : Formula Unit := f.map fun _ => ()

theorem shape_and (parts : List (Formula α)) : (and parts).shape = .and (parts.map shape) := by
  rw [shape, map, mapList_eq_map]
  rfl

theorem shape_or (parts : List (Formula α)) : (or parts).shape = .or (parts.map shape) := by
  rw [shape, map, mapList_eq_map]
  rfl

theorem shape_not (part : Formula α) : (not part).shape = .not part.shape := by
  rw [shape, map]
  rfl

theorem shape_map (g : α → β) (f : Formula α) : (f.map g).shape = f.shape := by
  have hmap : Compositional (fun f : Formula α => (f.map g).shape) .and .or .not :=
    ⟨fun parts => by rw [map, mapList_eq_map, shape_and, List.map_map]; rfl,
      fun parts => by rw [map, mapList_eq_map, shape_or, List.map_map]; rfl,
      fun part => by rw [map, shape_not]⟩
  apply hmap.eq_of_atoms ⟨shape_and, shape_or, shape_not⟩
  intro a _
  rw [map, shape, shape, map, map]

theorem length_atoms_of_shape {f : Formula α} {g : Formula β} (h : f.shape = g.shape) :
    f.atoms.length = g.atoms.length := by
  have hatoms := congrArg (fun f => f.atoms.length) h
  simpa [shape, atoms_map] using hatoms

theorem eq_of_shapes {fs gs : List (Formula α)}
    (parts : ∀ f ∈ fs, ∀ g, f.shape = g.shape → f.atoms = g.atoms → f = g)
    (hshape : fs.map shape = gs.map shape) (hatoms : fs.flatMap atoms = gs.flatMap atoms) :
    fs = gs := by
  induction fs generalizing gs with
  | nil => simpa using hshape.symm
  | cons f fs ih =>
      cases gs with
      | nil => simp at hshape
      | cons g gs =>
          rw [List.map_cons, List.map_cons, List.cons.injEq] at hshape
          rw [List.flatMap_cons, List.flatMap_cons] at hatoms
          -- The shapes say where the atoms of the first part end.
          obtain ⟨hf, hfs⟩ := List.append_inj hatoms (length_atoms_of_shape hshape.1)
          rw [parts f List.mem_cons_self g hshape.1 hf,
            ih (fun f hf => parts f (List.mem_cons_of_mem _ hf)) hshape.2 hfs]

/-- A formula is fixed by its shape and its atoms. -/
theorem eq_of_shape {f g : Formula α} (hshape : f.shape = g.shape) (hatoms : f.atoms = g.atoms) :
    f = g := by
  induction f using Formula.induction generalizing g with
  | atom a =>
      cases g with
      | atom b =>
          rw [atoms, atoms, List.singleton_inj] at hatoms
          rw [hatoms]
      | _ => simp [shape, map] at hshape
  | and fs ih =>
      cases g with
      | and gs =>
          rw [shape_and, shape_and, Formula.and.injEq] at hshape
          rw [atoms, atoms, atomsList_eq_flatMap, atomsList_eq_flatMap] at hatoms
          rw [eq_of_shapes (fun f hf g => ih f hf) hshape hatoms]
      | _ => simp [shape, map] at hshape
  | or fs ih =>
      cases g with
      | or gs =>
          rw [shape_or, shape_or, Formula.or.injEq] at hshape
          rw [atoms, atoms, atomsList_eq_flatMap, atomsList_eq_flatMap] at hatoms
          rw [eq_of_shapes (fun f hf g => ih f hf) hshape hatoms]
      | _ => simp [shape, map] at hshape
  | not f ih =>
      cases g with
      | not g =>
          rw [shape_not, shape_not, Formula.not.injEq] at hshape
          rw [atoms, atoms] at hatoms
          rw [ih hshape hatoms]
      | _ => simp [shape, map] at hshape

end Formula

end StripeScan
