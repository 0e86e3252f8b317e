import StripeScan.Proofs.Logic.Soundness

/-! # Truths and nulls

A truth is fixed by what it excludes, a row that satisfies the condition or one that does not, and
by whether it speaks of nulls.  Truths that do not speak of them (`Truth.Plain`) are equal if they
exclude the same (`Truth.Plain.eq`).

Announcing nulls goes through negation, conjunction and disjunction (`Truth.withNulls_and`,
`Truth.withNulls_or`), also of a list, provided it is not empty (`Truth.withNulls_foldl_or`). -/

namespace StripeScan

namespace Truth

/-! ### What a truth excludes -/

theorem eq_no_or_noNull_iff {t : Truth} : t = no ∨ t = noNull ↔ t.isNeeded = false := by
  cases t <;> decide

theorem eq_yes_or_yesNull_iff {t : Truth} : t = yes ∨ t = yesNull ↔ t.not.isNeeded = false := by
  cases t <;> decide

theorem isNeeded_ofBool (b : Bool) : (ofBool b).isNeeded = b := by cases b <;> rfl

theorem not_foldl_or (ts : List Truth) (t : Truth) :
    (ts.foldl or t).not = (ts.map not).foldl and t.not := by
  induction ts generalizing t with
  | nil => rfl
  | cons u ts ih => rw [List.foldl_cons, ih, not_or, List.map_cons, List.foldl_cons]

/-! ### Truths that leave nulls aside -/

/-- Whether a truth does not speak of nulls. -/
def Plain (t : Truth) : Prop := t = no ∨ t = yes ∨ t = yesNo

instance (t : Truth) : Decidable t.Plain :=
  inferInstanceAs (Decidable (t = no ∨ t = yes ∨ t = yesNo))

variable {t u : Truth}

theorem Plain.not (h : t.Plain) : t.not.Plain := by
  rcases h with rfl | rfl | rfl <;> decide

theorem Plain.and (ht : t.Plain) (hu : u.Plain) : (t.and u).Plain := by
  rcases ht with rfl | rfl | rfl <;> rcases hu with rfl | rfl | rfl <;> decide

theorem Plain.or (ht : t.Plain) (hu : u.Plain) : (t.or u).Plain := by
  rw [← not_not (t.or u), not_or]
  exact (ht.not.and hu.not).not

theorem Plain.foldl_or {ts : List Truth} (h : ∀ u ∈ ts, u.Plain) (ht : t.Plain) :
    (ts.foldl Truth.or t).Plain := by
  induction ts generalizing t with
  | nil => exact ht
  | cons u ts ih =>
      exact ih (fun v hv => h v (List.mem_cons_of_mem u hv)) (ht.or (h u List.mem_cons_self))

/-- Truths that leave nulls aside are known from what they exclude. -/
theorem Plain.eq (ht : t.Plain) (hu : u.Plain) (needed : t.isNeeded = false ↔ u.isNeeded = false)
    (doubtful : t.not.isNeeded = false ↔ u.not.isNeeded = false) : t = u := by
  rcases ht with rfl | rfl | rfl <;> rcases hu with rfl | rfl | rfl <;>
    simp_all [isNeeded, Truth.not]

/-! ### Announcing nulls -/

theorem withNulls_not (t : Truth) (hasNull : Bool) :
    t.not.withNulls hasNull = (t.withNulls hasNull).not := by
  cases t <;> cases hasNull <;> rfl

theorem withNulls_and (t u : Truth) (hasNull : Bool) :
    (t.and u).withNulls hasNull = (t.withNulls hasNull).and (u.withNulls hasNull) := by
  cases hasNull <;> cases t <;> cases u <;> rfl

theorem withNulls_or (t u : Truth) (hasNull : Bool) :
    (t.or u).withNulls hasNull = (t.withNulls hasNull).or (u.withNulls hasNull) := by
  cases hasNull <;> cases t <;> cases u <;> rfl

theorem yes_and (t : Truth) : yes.and t = t := by cases t <;> rfl

theorem no_or (t : Truth) : no.or t = t := by cases t <;> rfl

theorem or_self (t : Truth) : t.or t = t := by cases t <;> rfl

/-- A disjunction with a part does not show the truth of none. -/
theorem withNulls_foldl_or {ts : List Truth} (nonempty : ts ≠ []) (hasNull : Bool) :
    (ts.foldl or no).withNulls hasNull = (ts.map (·.withNulls hasNull)).foldl or no := by
  have hfold (us : List Truth) (t : Truth) : (us.foldl or t).withNulls hasNull =
      (us.map (·.withNulls hasNull)).foldl or (t.withNulls hasNull) := by
    induction us generalizing t with
    | nil => rfl
    | cons u us ih => rw [List.foldl_cons, ih, withNulls_or, List.map_cons, List.foldl_cons]
  cases ts with
  | nil => exact absurd rfl nonempty
  | cons t ts => rw [List.foldl_cons, List.map_cons, List.foldl_cons, no_or, no_or, hfold]

theorem foldl_or_const {α : Type} {xs : List α} (nonempty : xs ≠ []) (t : Truth) :
    (xs.map fun _ => t).foldl or no = t := by
  have hfold (ys : List α) : (ys.map fun _ => t).foldl or t = t := by
    induction ys with
    | nil => rfl
    | cons y ys ih => rw [List.map_cons, List.foldl_cons, or_self, ih]
  cases xs with
  | nil => exact absurd rfl nonempty
  | cons x xs => rw [List.map_cons, List.foldl_cons, no_or, hfold]

end Truth

end StripeScan
