/-! # Three-valued logic of rows

A condition on one row is true, false or, where a null takes part, unknown (`none`).  A
conjunction is false as soon as one side is false, a disjunction true as soon as one side is
true; otherwise an unknown side makes the whole unknown. -/

namespace StripeScan

/-- The value of a condition on one row; `none` is unknown. -/
abbrev Verdict := Option Bool

namespace Verdict

/-- Negation keeps the unknown. -/
def not (v : Verdict) : Verdict := v.map (!·)

/-- The conjunction of a list; true if it is empty. -/
def all (vs : List Verdict) : Verdict :=
  if vs.contains (some false) then some false
  else if vs.contains none then none
  else some true

/-- The disjunction of a list; false if it is empty. -/
def any (vs : List Verdict) : Verdict :=
  if vs.contains (some true) then some true
  else if vs.contains none then none
  else some false

theorem all_eq_some_true_iff {vs : List Verdict} :
    all vs = some true ↔ ∀ v ∈ vs, v = some true := by
  unfold all
  constructor
  · intro h v hv
    split at h
    · simp at h
    · rename_i noFalse
      split at h
      · simp at h
      · rename_i noNone
        match v, hv with
        | some true, _ => rfl
        | some false, hv => exact absurd (List.contains_iff_mem.2 hv) noFalse
        | none, hv => exact absurd (List.contains_iff_mem.2 hv) noNone
  · intro h
    have noFalse : vs.contains (some false) = false := by
      simpa using fun hv => by simpa using h _ hv
    have noNone : vs.contains none = false := by
      simpa using fun hv => by simpa using h _ hv
    rw [noFalse, noNone]
    rfl

theorem any_eq_not_all_not (vs : List Verdict) : any vs = not (all (vs.map not)) := by
  have mem_iff : ∀ w : Verdict, (vs.map not).contains w = vs.contains (not w) := by
    intro w
    rw [Bool.eq_iff_iff, List.contains_iff_mem, List.contains_iff_mem, List.mem_map]
    constructor
    · rintro ⟨v, hv, rfl⟩
      rwa [show not (not v) = v from by rcases v with _ | _ | _ <;> rfl]
    · intro hv
      exact ⟨not w, hv, by rcases w with _ | _ | _ <;> rfl⟩
  unfold any all
  rw [mem_iff, mem_iff]
  simp only [not, Option.map_some, Option.map_none, Bool.not_false]
  split
  · rfl
  · split <;> simp_all

end Verdict

end StripeScan
