import StripeScan.Proofs.Statistics.Merging

/-! # Statistics as a monoid

Statistics that are derived from values of one kind, of which none is a float, know their bounds:
these are there exactly if there are values (`Statistics.Definite`).  As long as the count does not
overflow, merging such statistics is addition in a monoid (`Definite.merge_eq`), and so is observing
a row: it adds the summary of that row alone (`Definite.observe_eq`).

Therefore the summary of some rows is a sum over the rows (`ofValues_eq`), and rows may be cut
anywhere: both the running scan and the pairwise merging keep the first of several equal values. -/

namespace StripeScan

/-! ### Sums -/

theorem Literal.nearer_assoc {α : Type} [LinearOrder α] (place : Literal → α) (a b c : Literal) :
    nearer place (nearer place a b) c = nearer place a (nearer place b c) := by
  unfold nearer
  grind

instance {α : Type} [LinearOrder α] (place : Literal → α) :
    Std.Associative (Literal.nearer place) :=
  ⟨Literal.nearer_assoc place⟩

namespace Statistics

open Literal

/-- The summary of two sets of rows together, where both know their bounds and the count does not
overflow. -/
def add (s t : Statistics) : Statistics :=
  ⟨s.hasNull || t.hasNull, s.count + t.count, s.min.merge (nearer rank) t.min,
    s.max.merge (nearer rankAbove) t.max⟩

instance : Zero Statistics := ⟨empty⟩

instance : Add Statistics := ⟨add⟩

instance : AddMonoid Statistics where
  nsmul := nsmulRec
  zero_add s := by
    show add empty s = s
    simp [add, empty]
  add_zero s := by
    show add s empty = s
    simp [add, empty]
  add_assoc s t u := by
    show add (add s t) u = add s (add t u)
    simp only [add, Std.Associative.assoc]

/-- The summary of one row. -/
def ofRow : Option Literal → Statistics
  | none => allNull
  | some v => ofRange v v 1

/-- The summary of some rows, as a sum over the rows. -/
def total (rows : List (Option Literal)) : Statistics := (rows.map ofRow).sum

theorem total_append (xs ys : List (Option Literal)) :
    total (xs ++ ys) = total xs + total ys := by
  rw [total, List.map_append, List.sum_append]
  rfl

/-- The sum over some rows counts their values. -/
theorem total_count (rows : List (Option Literal)) :
    (total rows).count = rows.reduceOption.length := by
  induction rows with
  | nil => rfl
  | cons row rest ih =>
      have hcount : (total (row :: rest)).count = (ofRow row).count + (total rest).count := rfl
      rw [hcount, ih]
      cases row with
      | none => exact Nat.zero_add _
      | some v => exact Nat.add_comm 1 _

/-! ### Statistics that know their bounds -/

/-- Whether statistics have bounds of a kind exactly if there are values. -/
structure Definite (kind : Kind) (s : Statistics) : Prop where
  ofKind : s.OfKind kind
  min : s.min = none ↔ s.count = 0
  max : s.max = none ↔ s.count = 0

section definite

variable {kind : Kind} {s t : Statistics}

/-- Statistics without values are definite if they have no bounds. -/
theorem definite_of_none (count : s.count = 0) (hmin : s.min = none) (hmax : s.max = none) :
    s.Definite kind where
  ofKind := ⟨fun _ hb => by simp [hmin] at hb, fun _ hb => by simp [hmax] at hb⟩
  min := iff_of_true hmin count
  max := iff_of_true hmax count

theorem definite_ofRow {row : Option Literal} (hrow : ∀ v ∈ row, v.kind = kind) :
    (ofRow row).Definite kind := by
  cases row with
  | none => exact definite_of_none rfl rfl rfl
  | some v => exact ⟨⟨hrow, hrow⟩, by simp [ofRow, ofRange], by simp [ofRow, ofRange]⟩

/-- The nearer bound is one of the two. -/
theorem kind_of_nearer {α : Type} [LinearOrder α] (place : Literal → α) {x y : Option Literal}
    (hx : ∀ b ∈ x, b.kind = kind) (hy : ∀ b ∈ y, b.kind = kind) :
    ∀ b ∈ x.merge (nearer place) y, b.kind = kind := by
  intro b hb
  cases x with
  | none =>
      rw [Option.merge_none_left] at hb
      exact hy b hb
  | some l =>
      cases y with
      | none =>
          rw [Option.merge_none_right] at hb
          exact hx b hb
      | some r =>
          rw [Option.merge_some_some, Option.mem_some_iff, nearer] at hb
          split at hb
          · exact hb ▸ hx l rfl
          · exact hb ▸ hy r rfl

theorem Definite.add (hs : s.Definite kind) (ht : t.Definite kind) : (s + t).Definite kind where
  ofKind := ⟨kind_of_nearer rank hs.ofKind.min ht.ofKind.min,
    kind_of_nearer rankAbove hs.ofKind.max ht.ofKind.max⟩
  min := by
    show s.min.merge _ t.min = none ↔ s.count + t.count = 0
    rw [Option.merge_eq_none_iff, hs.min, ht.min, Nat.add_eq_zero_iff]
  max := by
    show s.max.merge _ t.max = none ↔ s.count + t.count = 0
    rw [Option.merge_eq_none_iff, hs.max, ht.max, Nat.add_eq_zero_iff]

variable (notFloat : kind ≠ .float)

include notFloat

section bounds

variable {α : Type} [LinearOrder α] {place : Literal → α} {side : Ordering}
variable (orders : Orders place side)

include orders

/-- Merging definite bounds keeps the nearer one. -/
theorem mergeBound_definite {bound : Statistics → Option Literal}
    (hs : bound s = none ↔ s.count = 0) (ht : bound t = none ↔ t.count = 0)
    (ks : ∀ b ∈ bound s, b.kind = kind) (kt : ∀ b ∈ bound t, b.kind = kind) :
    mergeBound side bound s t = .ok ((bound s).merge (nearer place) (bound t)) := by
  cases hl : bound s with
  | none => rw [mergeBound, if_pos (hs.mp hl), Option.merge_none_left]
  | some l =>
      have hcount : s.count ≠ 0 := fun hzero => by simp [hs.mpr hzero] at hl
      rw [mergeBound, if_neg hcount]
      cases hr : bound t with
      | none => rw [if_pos (ht.mp hr), hl, Option.merge_none_right]
      | some r =>
          have hcount' : t.count ≠ 0 := fun hzero => by simp [ht.mpr hzero] at hr
          have hlKind := ks l hl
          have hrKind := kt r hr
          rw [if_neg hcount', hl, Option.merge_some_some,
            mergeBounds_numbers orders (hlKind.trans hrKind.symm)
              (isNaN_eq_false (hlKind ▸ notFloat)) (isNaN_eq_false (hrKind ▸ notFloat))]

/-- A further value replaces a bound exactly if merging would. -/
theorem extendBound_eq {bound : Option Literal} {v : Literal} (kinds : ∀ b ∈ bound, b.kind = kind)
    (hv : v.kind = kind) :
    extendBound side bound v = .ok (bound.merge (nearer place) (some v)) := by
  cases bound with
  | none => rfl
  | some b =>
      have hb := kinds b rfl
      have hlt := (orders v b (isNaN_eq_false (hv ▸ notFloat)) (isNaN_eq_false (hb ▸ notFloat))).1
      rw [extendBound, isOrder_eq (hv.trans hb.symm), Option.merge_some_some, nearer]
      by_cases hbeyond : place v < place b
      · rw [if_neg (not_le.mpr hbeyond), hlt.mpr hbeyond, beq_self_eq_true]
        rfl
      · rw [if_pos (not_lt.mp hbeyond), beq_eq_false_iff_ne.mpr (mt hlt.mp hbeyond)]
        rfl

end bounds

theorem Definite.merge_eq (hs : s.Definite kind) (ht : t.Definite kind)
    (few : s.count + t.count < UInt64.size) : s.merge t = .ok (s + t) := by
  rw [merge, Word.add_eq few,
    mergeBound_definite notFloat orders_rank hs.min ht.min hs.ofKind.min ht.ofKind.min, bind_ok,
    mergeBound_definite notFloat orders_rankAbove hs.max ht.max hs.ofKind.max ht.ofKind.max]
  rfl

/-- Observing a row adds its summary. -/
theorem Definite.observe_eq (hs : s.Definite kind) {row : Option Literal}
    (hrow : ∀ v ∈ row, v.kind = kind) (few : s.count + (ofRow row).count < UInt64.size) :
    s.observe row = .ok (s + ofRow row) := by
  cases row with
  | none =>
      show Except.ok s.withNulls = .ok (Statistics.add s allNull)
      simp [withNulls, Statistics.add, allNull]
  | some v =>
      have hv := hrow v rfl
      have hcount : Word.add s.count 1 = s.count + 1 := Word.add_eq few
      rw [observe, hcount, extendBound_eq notFloat orders_rank hs.ofKind.min hv, bind_ok,
        extendBound_eq notFloat orders_rankAbove hs.ofKind.max hv]
      show _ = Except.ok (Statistics.add s (ofRange v v 1))
      rw [Statistics.add, ofRange, Bool.or_false]
      rfl

/-- The summary of rows of one kind is the sum over the rows, if the number of values is a word. -/
theorem ofValues_eq {rows : List (Option Literal)}
    (kinds : ∀ v ∈ rows.reduceOption, v.kind = kind)
    (few : rows.reduceOption.length < UInt64.size) :
    ofValues rows = .ok (total rows) ∧ (total rows).Definite kind := by
  have hfold : ∃ s, ofValues rows = .ok s ∧ s = total rows ∧ s.Definite kind := by
    refine foldlM_eq_ok (P := fun done s => s = total done ∧ s.Definite kind)
      ⟨rfl, definite_of_none rfl rfl rfl⟩ fun done row hdone s ⟨hs, definite⟩ => ?_
    have hrow : row ∈ rows := hdone.subset (List.mem_append_right done List.mem_cons_self)
    have hkind : ∀ v ∈ row, v.kind = kind := fun v hv =>
      kinds v (List.reduceOption_mem_iff.mpr (Option.mem_def.mp hv ▸ hrow))
    have htotal : s + ofRow row = total (done ++ [row]) := by
      rw [hs, total_append, total, total, List.map_singleton, List.sum_singleton]
    have hcount : (s + ofRow row).count < UInt64.size := by
      rw [htotal, total_count]
      exact (hdone.sublist.filterMap id).length_le.trans_lt few
    exact ⟨_, definite.observe_eq notFloat hkind hcount, htotal,
      definite.add (definite_ofRow hkind)⟩
  obtain ⟨s, hs, rfl, definite⟩ := hfold
  exact ⟨hs, definite⟩

end definite

end Statistics

end StripeScan
