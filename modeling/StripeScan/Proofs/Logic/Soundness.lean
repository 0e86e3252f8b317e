import Mathlib
import StripeScan.Logic.Formula

/-! # Sound truth values

A truth value over a partition is sound for a row if it allows the verdict on that row: a
partition of truth `no` or `noNull` has no row of which the condition is true, and one of truth
`yes` or `yesNull` no row of which it is false.  Negation exchanges the two halves, so neither can
be carried through a formula alone; `Truth.Allows` states both.

Soundness passes from the atoms of a formula to the formula (`Formula.allows`).  So does allowing
all that another truth allows (`Formula.within`), and so does being decided: where every atom is
certainly true or certainly false, and every row says the same, the formula is as well
(`Formula.exists_decided`). -/

namespace StripeScan

namespace Truth

/-- Whether a partition of this truth may have a row with this verdict. -/
def Allows (t : Truth) : Verdict → Prop
  | some true => t.isNeeded = true
  | some false => t.not.isNeeded = true
  | none => True

theorem allows_yesNoNull (v : Verdict) : yesNoNull.Allows v := by
  rcases v with _ | _ | _
  · trivial
  · rfl
  · rfl

theorem allows_yesNo (v : Verdict) : yesNo.Allows v := by
  rcases v with _ | _ | _
  · trivial
  · rfl
  · rfl

theorem allows_true_iff {t : Truth} : t.Allows (some true) ↔ t ≠ no ∧ t ≠ noNull := by
  cases t <;> simp [Allows, isNeeded]

theorem allows_false_iff {t : Truth} : t.Allows (some false) ↔ t ≠ yes ∧ t ≠ yesNull := by
  cases t <;> simp [Allows, isNeeded, Truth.not]

theorem Allows.not {t : Truth} {v : Verdict} (h : t.Allows v) : t.not.Allows v.not := by
  rcases v with _ | _ | _
  · trivial
  · exact h
  · show t.not.not.isNeeded = true
    rw [not_not]
    exact h

/-- Nulls in a partition keep a truth sound for the rows that hold none. -/
theorem Allows.withNulls {t : Truth} {v : Verdict} (h : t.Allows v) (hasNull : Bool) :
    (t.withNulls hasNull).Allows v := by
  rcases v with _ | _ | _
  · trivial
  · cases t <;> cases hasNull <;> first | rfl | exact h
  · cases t <;> cases hasNull <;> first | rfl | exact h

/-- What a truth value must grant to be sound for a row that decides the condition. -/
theorem allows_some {t : Truth} {b : Bool} (needed : t.isNeeded = false → b = false)
    (doubtful : t.not.isNeeded = false → b = true) : t.Allows (some b) := by
  cases b with
  | true =>
      by_contra h
      cases needed (Bool.eq_false_of_not_eq_true h)
  | false =>
      by_contra h
      cases doubtful (Bool.eq_false_of_not_eq_true h)

/-! ### Conjunctions and disjunctions -/

theorem isNeeded_and (a b : Truth) : (a.and b).isNeeded = (a.isNeeded && b.isNeeded) := by
  cases a <;> cases b <;> rfl

theorem isNeeded_or (a b : Truth) : (a.or b).isNeeded = (a.isNeeded || b.isNeeded) := by
  cases a <;> cases b <;> rfl

theorem isNeeded_foldl_and (ts : List Truth) (t : Truth) :
    (ts.foldl and t).isNeeded = (t.isNeeded && ts.all isNeeded) := by
  induction ts generalizing t with
  | nil => simp
  | cons u ts ih => rw [List.foldl_cons, ih, isNeeded_and, List.all_cons, Bool.and_assoc]

theorem isNeeded_foldl_or (ts : List Truth) (t : Truth) :
    (ts.foldl or t).isNeeded = (t.isNeeded || ts.any isNeeded) := by
  induction ts generalizing t with
  | nil => simp
  | cons u ts ih => rw [List.foldl_cons, ih, isNeeded_or, List.any_cons, Bool.or_assoc]

theorem not_foldl_and (ts : List Truth) (t : Truth) :
    (ts.foldl and t).not = (ts.map not).foldl or t.not := by
  induction ts generalizing t with
  | nil => rfl
  | cons u ts ih => rw [List.foldl_cons, ih, not_and, List.map_cons, List.foldl_cons]

end Truth

theorem Verdict.mem_of_all_eq_some_false {vs : List Verdict} (h : all vs = some false) :
    some false ∈ vs := by
  unfold all at h
  split at h
  · exact List.contains_iff_mem.mp ‹_›
  · split at h <;> cases h

section lists

variable {ι : Type} {truth : ι → Truth} {verdict : ι → Verdict} {parts : List ι}

/-- A conjunction of sound truths is sound: it is needed only if all parts are, and its negation
as soon as that of one part is. -/
theorem allows_foldl_and (sound : ∀ f ∈ parts, (truth f).Allows (verdict f)) :
    ((parts.map truth).foldl Truth.and .yes).Allows (Verdict.all (parts.map verdict)) := by
  rcases h : Verdict.all (parts.map verdict) with _ | _ | _
  · trivial
  -- One part is false: its negation is needed, and so is the disjunction that holds it.
  · obtain ⟨f, hf, hv⟩ := List.mem_map.mp (Verdict.mem_of_all_eq_some_false h)
    have hneeded := sound f hf
    rw [hv] at hneeded
    show Truth.isNeeded (Truth.not _) = true
    rw [Truth.not_foldl_and, Truth.isNeeded_foldl_or, Bool.or_eq_true]
    refine .inr (List.any_eq_true.mpr ⟨(truth f).not, ?_, hneeded⟩)
    exact List.mem_map_of_mem (List.mem_map_of_mem hf)
  · have hall := Verdict.all_eq_some_true_iff.mp h
    show Truth.isNeeded _ = true
    rw [Truth.isNeeded_foldl_and, Bool.and_eq_true]
    refine ⟨rfl, List.all_eq_true.mpr fun t ht => ?_⟩
    obtain ⟨f, hf, rfl⟩ := List.mem_map.mp ht
    have hneeded := sound f hf
    rw [hall _ (List.mem_map_of_mem hf)] at hneeded
    exact hneeded

/-- A disjunction of sound truths is sound, as the dual of a conjunction. -/
theorem allows_foldl_or (sound : ∀ f ∈ parts, (truth f).Allows (verdict f)) :
    ((parts.map truth).foldl Truth.or .no).Allows (Verdict.any (parts.map verdict)) := by
  have h : ((parts.map fun f => (truth f).not).foldl Truth.and .yes).Allows
      (Verdict.all (parts.map fun f => (verdict f).not)) :=
    allows_foldl_and fun f hf => (sound f hf).not
  have hnot := h.not
  rw [Truth.not_foldl_and, List.map_map] at hnot
  rw [Verdict.any_eq_not_all_not, List.map_map]
  have hid : Truth.not ∘ (fun f => (truth f).not) = truth := by
    funext f
    exact Truth.not_not _
  rw [hid] at hnot
  exact hnot

end lists

/-- A formula is sound for a row if its atoms are. -/
theorem Formula.allows {α : Type} {value : α → Truth} {row : α → Verdict}
    (sound : ∀ a, (value a).Allows (row a)) (f : Formula α) :
    (f.truth value).Allows (f.verdict row) := by
  induction f using Formula.induction with
  | atom a => exact sound a
  | and parts ih =>
      rw [truth, verdict, truthList_eq_map, verdictList_eq_map]
      exact allows_foldl_and ih
  | or parts ih =>
      rw [truth, verdict, truthList_eq_map, verdictList_eq_map]
      exact allows_foldl_or ih
  | not part ih =>
      rw [truth, verdict]
      exact ih.not

/-! ### Truths that exclude no more than others -/

namespace Truth

/-- Whether every verdict that a truth allows is allowed by another one as well. -/
def Within (t u : Truth) : Prop := ∀ v, t.Allows v → u.Allows v

theorem Within.refl (t : Truth) : t.Within t := fun _ h => h

theorem within_yesNoNull (t : Truth) : t.Within yesNoNull := fun v _ => allows_yesNoNull v

theorem within_of {t u : Truth} (needed : u.isNeeded = false → t.isNeeded = false)
    (doubtful : u.not.isNeeded = false → t.not.isNeeded = false) : t.Within u := by
  rintro (_ | _ | _) h
  · trivial
  · by_contra hu
    exact absurd h (Bool.eq_false_iff.mp (doubtful (Bool.eq_false_iff.mpr hu)))
  · by_contra hu
    exact absurd h (Bool.eq_false_iff.mp (needed (Bool.eq_false_iff.mpr hu)))

variable {t t' u u' : Truth}

theorem Within.isNeeded (h : t.Within u) (ht : t.isNeeded = true) : u.isNeeded = true :=
  h (some true) ht

theorem Within.not (h : t.Within u) : t.not.Within u.not := by
  intro v hv
  have hnot := h v.not (by simpa [not_not] using hv.not)
  simpa [Verdict.not, Function.comp_def] using hnot.not

theorem Within.and (h : t.Within u) (h' : t'.Within u') : (t.and t').Within (u.and u') := by
  rintro (_ | _ | _) hv
  · trivial
  · show (u.and u').not.isNeeded = true
    have hv : (t.and t').not.isNeeded = true := hv
    rw [not_and, isNeeded_or, Bool.or_eq_true] at hv ⊢
    exact hv.imp (h (some false)) (h' (some false))
  · show (u.and u').isNeeded = true
    have hv : (t.and t').isNeeded = true := hv
    rw [isNeeded_and, Bool.and_eq_true] at hv ⊢
    exact hv.imp (h (some true)) (h' (some true))

theorem Within.or (h : t.Within u) (h' : t'.Within u') : (t.or t').Within (u.or u') := by
  have hand := (h.not.and h'.not).not
  rwa [not_and, not_and, not_not, not_not, not_not, not_not] at hand

theorem isNeeded_withNulls (t : Truth) (hasNull : Bool) :
    (t.withNulls hasNull).isNeeded = t.isNeeded := by cases t <;> cases hasNull <;> rfl

theorem isNeeded_not_withNulls (t : Truth) (hasNull : Bool) :
    (t.withNulls hasNull).not.isNeeded = t.not.isNeeded := by cases t <;> cases hasNull <;> rfl

/-- Nulls exclude nothing. -/
theorem Within.withNulls (h : t.Within u) (x y : Bool) :
    (t.withNulls x).Within (u.withNulls y) := by
  rintro (_ | _ | _) hv
  · trivial
  · show (u.withNulls y).not.isNeeded = true
    have hv : (t.withNulls x).not.isNeeded = true := hv
    rw [isNeeded_not_withNulls] at hv ⊢
    exact h (some false) hv
  · show (u.withNulls y).isNeeded = true
    have hv : (t.withNulls x).isNeeded = true := hv
    rw [isNeeded_withNulls] at hv ⊢
    exact h (some true) hv

end Truth

/-- A formula excludes no more if its atoms do not. -/
theorem Formula.within {α : Type} {value value' : α → Truth}
    (within : ∀ a, (value a).Within (value' a)) (f : Formula α) :
    (f.truth value).Within (f.truth value') := by
  have parted {parts : List (Formula α)}
      (ih : ∀ f ∈ parts, (f.truth value).Within (f.truth value')) :
      List.Forall₂ Truth.Within (parts.map (truth value)) (parts.map (truth value')) := by
    rw [List.forall₂_map_left_iff, List.forall₂_map_right_iff, List.forall₂_same]
    exact ih
  induction f using Formula.induction with
  | atom a => exact within a
  | and parts ih =>
      rw [truth, truth, truthList_eq_map, truthList_eq_map]
      exact List.rel_foldl (fun _ _ h _ _ h' => h.and h') (.refl .yes) (parted ih)
  | or parts ih =>
      rw [truth, truth, truthList_eq_map, truthList_eq_map]
      exact List.rel_foldl (fun _ _ h _ _ h' => h.or h') (.refl .no) (parted ih)
  | not part ih =>
      rw [truth, truth]
      exact ih.not

/-! ### Decided truth values -/

/-- The truth over a partition of which every row has this verdict. -/
def Truth.ofBool (b : Bool) : Truth := if b then .yes else .no

namespace Truth

theorem not_ofBool (b : Bool) : (ofBool b).not = ofBool (!b) := by cases b <;> rfl

theorem foldl_and_ofBool (bs : List Bool) (b : Bool) :
    (bs.map ofBool).foldl and (ofBool b) = ofBool (b && bs.all id) := by
  induction bs generalizing b with
  | nil => simp
  | cons c bs ih =>
      have hand : (ofBool b).and (ofBool c) = ofBool (b && c) := by cases b <;> cases c <;> rfl
      rw [List.map_cons, List.foldl_cons, hand, ih, List.all_cons, id_eq, Bool.and_assoc]

theorem foldl_or_ofBool (bs : List Bool) (b : Bool) :
    (bs.map ofBool).foldl or (ofBool b) = ofBool (b || bs.any id) := by
  induction bs generalizing b with
  | nil => simp
  | cons c bs ih =>
      have hor : (ofBool b).or (ofBool c) = ofBool (b || c) := by cases b <;> cases c <;> rfl
      rw [List.map_cons, List.foldl_cons, hor, ih, List.any_cons, id_eq, Bool.or_assoc]

end Truth

namespace Verdict

theorem all_map_some (bs : List Bool) : all (bs.map some) = some (bs.all id) := by
  have hfalse : (bs.map some).contains (some false) = !bs.all id := by
    induction bs with
    | nil => rfl
    | cons b bs ih => cases b <;> simp_all
  have hnone : (bs.map some).contains none = false := by simp
  rw [all, hfalse, hnone]
  cases bs.all id <;> rfl

theorem any_map_some (bs : List Bool) : any (bs.map some) = some (bs.any id) := by
  have htrue : (bs.map some).contains (some true) = bs.any id := by
    induction bs with
    | nil => rfl
    | cons b bs ih => cases b <;> simp_all
  have hnone : (bs.map some).contains none = false := by simp
  rw [any, htrue, hnone]
  cases bs.any id <;> rfl

end Verdict

theorem Formula.mem_atoms_and {α : Type} {parts : List (Formula α)} {f : Formula α} {a : α}
    (hf : f ∈ parts) (ha : a ∈ f.atoms) : a ∈ (Formula.and parts).atoms := by
  rw [atoms, atomsList_eq_flatMap]
  exact List.mem_flatMap.mpr ⟨f, hf, ha⟩

theorem Formula.mem_atoms_or {α : Type} {parts : List (Formula α)} {f : Formula α} {a : α}
    (hf : f ∈ parts) (ha : a ∈ f.atoms) : a ∈ (Formula.or parts).atoms := by
  rw [atoms, atomsList_eq_flatMap]
  exact List.mem_flatMap.mpr ⟨f, hf, ha⟩

/-- A formula is decided for a row if its atoms are. -/
theorem Formula.exists_decided {α : Type} {value : α → Truth} {row : α → Verdict} {f : Formula α}
    (decided : ∀ a ∈ f.atoms, ∃ x, value a = .ofBool x ∧ row a = some x) :
    ∃ x, f.truth value = .ofBool x ∧ f.verdict row = some x := by
  induction f using Formula.induction with
  | atom a => exact decided a (by simp [atoms])
  | and parts ih =>
      have hparts : ∀ f ∈ parts, ∃ x, f.truth value = .ofBool x ∧ f.verdict row = some x := by
        intro f hf
        exact ih f hf fun a ha => decided a (mem_atoms_and hf ha)
      choose! x htruth hverdict using hparts
      refine ⟨true && (parts.map x).all id, ?_, ?_⟩
      · rw [truth, truthList_eq_map, List.map_congr_left htruth, ← Truth.foldl_and_ofBool,
          List.map_map]
        rfl
      · rw [verdict, verdictList_eq_map, List.map_congr_left hverdict, Bool.true_and,
          ← Verdict.all_map_some, List.map_map]
        rfl
  | or parts ih =>
      have hparts : ∀ f ∈ parts, ∃ x, f.truth value = .ofBool x ∧ f.verdict row = some x := by
        intro f hf
        exact ih f hf fun a ha => decided a (mem_atoms_or hf ha)
      choose! x htruth hverdict using hparts
      refine ⟨false || (parts.map x).any id, ?_, ?_⟩
      · rw [truth, truthList_eq_map, List.map_congr_left htruth, ← Truth.foldl_or_ofBool,
          List.map_map]
        rfl
      · rw [verdict, verdictList_eq_map, List.map_congr_left hverdict, Bool.false_or,
          ← Verdict.any_map_some, List.map_map]
        rfl
  | not part ih =>
      obtain ⟨x, htruth, hverdict⟩ := ih fun a ha => decided a (by rwa [atoms])
      refine ⟨!x, ?_, ?_⟩
      · rw [truth, htruth, Truth.not_ofBool]
      · rw [verdict, hverdict]
        rfl

end StripeScan
