import StripeScan.Proofs.Statistics.Covering
import StripeScan.Proofs.Statistics.Kinds

/-! # Statistics that are derived from rows

Summarising rows of one kind never fails (`Statistics.ofValues_eq_ok`).  A derived bound is one of
the values and no value lies beyond it; it is no number exactly if the first value is none.

A value that is no number and comes after a number leaves no trace in the bounds.  So derived
statistics admit all of their rows exactly if the rows are `Statistics.Boundable`
(`Summarises.admits`, `Summarises.exists_missed`).  Merging keeps what is admitted
(`merge_admits`). -/

namespace StripeScan

/-- Only an infinity has the key of an infinity. -/
theorem Binary64.eq_infinity_of_key {x : Binary64} {negative : Bool}
    (h : x.key = (infinity negative).key) : x = infinity negative := by
  have hmagnitude : x.magnitude = x.bits.toNat % 0x8000000000000000 := rfl
  have hsign : x.isNegative = true ↔ 0x8000000000000000 ≤ x.bits.toNat := decide_eq_true_iff
  have hbound := x.bits.toNat_lt
  have hword : x.bits.toNat = (infinity negative).bits.toNat := by
    cases negative with
    | true =>
        have hkey : (infinity true).key = -0x7ff0000000000000 := by decide
        have hbits : (infinity true).bits.toNat = 0xfff0000000000000 := by decide
        rw [hkey, key] at h
        rw [hbits]
        split at h
        · have := hsign.mp ‹_›
          omega
        · omega
    | false =>
        have hkey : (infinity false).key = 0x7ff0000000000000 := by decide
        have hbits : (infinity false).bits.toNat = 0x7ff0000000000000 := by decide
        rw [hkey, key] at h
        rw [hbits]
        split at h
        · omega
        · have := mt hsign.mpr ‹_›
          omega
  exact congrArg Binary64.mk (UInt64.toNat_inj.mp hword)

namespace Literal

/-- Only an infinity has the rank of an infinity. -/
theorem eq_infinity_of_rank {v : Literal} {negative : Bool} (kind : v.kind = .float)
    (h : v.rank = (infinity negative).rank) : v = infinity negative := by
  cases v <;> cases kind
  have hkey := congrArg (fun r => (ofLex r).1) h
  exact congrArg float (Binary64.eq_infinity_of_key (Int.cast_injective (α := ℚ) hkey))

theorem kind_eq_of_isNaN {v : Literal} (h : v.isNaN = true) : v.kind = .float := by
  cases v <;> first | rfl | cases h

/-- A bound that the value does not undercut is a lower bound, unless the value is no number. -/
theorem boundsBelow_of_order? {b v : Literal} (kinds : b.kind = v.kind) (h : v.order? b ≠ some .lt)
    (unordered : v.isNaN = true → b.isNaN = true ∨ b = infinity true) : b.BoundsBelow v := by
  cases hb : b.isNaN with
  | true => exact .inl hb
  | false =>
      cases hv : v.isNaN with
      | true =>
          refine .inr (.inr ⟨hv, (unordered hv).resolve_left ?_⟩)
          rw [hb]
          exact Bool.false_ne_true
      | false =>
          refine .inr (.inl (atMost_iff.mpr ⟨kinds, hb, hv, not_lt.mp fun hlt => h ?_⟩))
          exact order?_eq_lt_iff.mpr ⟨hv, hb, hlt⟩

theorem boundsAbove_of_order? {b v : Literal} (kinds : b.kind = v.kind) (h : v.order? b ≠ some .gt)
    (unordered : v.isNaN = true → b.isNaN = true ∨ b = infinity false) : b.BoundsAbove v := by
  cases hb : b.isNaN with
  | true => exact .inl hb
  | false =>
      cases hv : v.isNaN with
      | true =>
          refine .inr (.inr ⟨hv, (unordered hv).resolve_left ?_⟩)
          rw [hb]
          exact Bool.false_ne_true
      | false =>
          refine .inr (.inl (atMost_iff.mpr ⟨kinds.symm, hv, hb, not_lt.mp fun hlt => h ?_⟩))
          exact order?_eq_gt_iff.mpr ⟨hv, hb, hlt⟩

section widening

variable {a b v : Literal} (ha : a.isNaN = false) (hb : b.isNaN = false) (kinds : a.kind = b.kind)

include ha hb kinds

/-- What does not lie above a lower bound is a lower bound as well. -/
theorem BoundsBelow.widen (h : b.BoundsBelow v) (hab : b.order? a ≠ some .lt) :
    a.BoundsBelow v := by
  have hle : a.rank ≤ b.rank := not_lt.mp fun hlt => hab (order?_eq_lt_iff.mpr ⟨hb, ha, hlt⟩)
  rcases h with h | h | ⟨hv, rfl⟩
  · rw [hb] at h
    cases h
  · obtain ⟨hk, -, hv, hrank⟩ := atMost_iff.mp h
    exact .inr (.inl (atMost_iff.mpr ⟨kinds.trans hk, ha, hv, hle.trans hrank⟩))
  · have heq := le_antisymm hle (rank_mem_of_number kinds ha).1
    exact .inr (.inr ⟨hv, eq_infinity_of_rank kinds heq⟩)

theorem BoundsAbove.widen (h : b.BoundsAbove v) (hab : b.order? a ≠ some .gt) :
    a.BoundsAbove v := by
  have hle : b.rank ≤ a.rank := not_lt.mp fun hlt => hab (order?_eq_gt_iff.mpr ⟨hb, ha, hlt⟩)
  rcases h with h | h | ⟨hv, rfl⟩
  · rw [hb] at h
    cases h
  · obtain ⟨hk, hv, -, hrank⟩ := atMost_iff.mp h
    exact .inr (.inl (atMost_iff.mpr ⟨hk.trans kinds.symm, hv, ha, hrank.trans hle⟩))
  · have heq := le_antisymm (rank_mem_of_number kinds ha).2 hle
    exact .inr (.inr ⟨hv, eq_infinity_of_rank kinds heq⟩)

end widening

/-- Lying beyond on one side is transitive. -/
theorem order?_trans {a b c : Literal} {side : Ordering} (hab : a.order? b = some side)
    (hbc : b.order? c = some side) : a.order? c = some side := by
  obtain ⟨ha, hb, h⟩ := order?_eq_some_iff.mp hab
  obtain ⟨-, hc, h'⟩ := order?_eq_some_iff.mp hbc
  refine order?_eq_some_iff.mpr ⟨ha, hc, ?_⟩
  cases side with
  | lt => exact compare_lt_iff_lt.mpr ((compare_lt_iff_lt.mp h).trans (compare_lt_iff_lt.mp h'))
  | eq => exact compare_eq_iff_eq.mpr ((compare_eq_iff_eq.mp h).trans (compare_eq_iff_eq.mp h'))
  | gt => exact compare_gt_iff_gt.mpr ((compare_gt_iff_gt.mp h').trans (compare_gt_iff_gt.mp h))

/-- Nothing lies beyond itself. -/
theorem order?_self_ne {a : Literal} {side : Ordering} (hside : side ≠ .eq) :
    a.order? a ≠ some side := by
  intro h
  obtain ⟨-, -, h⟩ := order?_eq_some_iff.mp h
  rw [compare_eq_iff_eq.mpr rfl] at h
  exact hside h.symm

end Literal

namespace Statistics

open Literal

/-! ### Derived bounds -/

/-- A bound of some values on one side: one of them that no other lies beyond, and no number exactly
if the first of them is none. -/
structure Extreme (side : Ordering) (vs : List Literal) (b : Literal) : Prop where
  mem : b ∈ vs
  unbeaten : ∀ v ∈ vs, v.order? b ≠ some side
  first : ∀ v ∈ vs.head?, b.isNaN = v.isNaN

/-- Whether a bound is derived from some values; there is none only if there are no values. -/
def IsBound (side : Ordering) (vs : List Literal) : Option Literal → Prop
  | none => vs = []
  | some b => Extreme side vs b

/-- One more value keeps a derived bound derived. -/
theorem extendBound_eq_ok {side : Ordering} (hside : side ≠ .eq) {vs : List Literal}
    {bound : Option Literal} {v : Literal} (kinds : ∀ w ∈ vs, w.kind = v.kind)
    (h : IsBound side vs bound) :
    ∃ b, extendBound side bound v = .ok (some b) ∧ Extreme side (vs ++ [v]) b := by
  cases bound with
  | none =>
      have hnil : vs = [] := h
      subst hnil
      refine ⟨v, rfl, List.mem_singleton_self v, fun w hw => ?_, fun w hw => ?_⟩
      · rw [List.mem_singleton.mp hw]
        exact order?_self_ne hside
      · cases hw
        rfl
  | some b =>
      obtain ⟨hmem, hunbeaten, hfirst⟩ := h
      have hhead : (vs ++ [v]).head? = vs.head? := by
        rw [List.head?_append_of_ne_nil _ (List.ne_nil_of_mem hmem)]
      rw [extendBound, isOrder_eq (kinds b hmem).symm]
      cases hbeyond : v.order? b == some side with
      | true =>
          rw [beq_iff_eq] at hbeyond
          obtain ⟨hv, hb, -⟩ := order?_eq_some_iff.mp hbeyond
          refine ⟨v, rfl, List.mem_append_right vs (List.mem_singleton_self v), fun w hw hlt => ?_,
            fun w hw => ?_⟩
          · rcases List.mem_append.mp hw with hw | hw
            · exact hunbeaten w hw (order?_trans hlt hbeyond)
            · rw [List.mem_singleton.mp hw] at hlt
              exact order?_self_ne hside hlt
          · rw [hhead] at hw
            rw [hv, ← hb]
            exact hfirst w hw
      | false =>
          refine ⟨b, rfl, List.mem_append_left [v] hmem, fun w hw => ?_, fun w hw => ?_⟩
          · rcases List.mem_append.mp hw with hw | hw
            · exact hunbeaten w hw
            · rw [List.mem_singleton.mp hw]
              exact beq_eq_false_iff_ne.mp hbeyond
          · exact hfirst w (hhead ▸ hw)

/-! ### Summaries -/

/-- What statistics derived from rows say: whether there are nulls, how many values there are, and
how far they reach. -/
structure Summarises (s : Statistics) (rows : List (Option Literal)) : Prop where
  hasNull : s.hasNull = true ↔ none ∈ rows
  count : s.count = rows.reduceOption.length
  min : IsBound .lt rows.reduceOption s.min
  max : IsBound .gt rows.reduceOption s.max

theorem empty_summarises : empty.Summarises [] where
  hasNull := by decide
  count := rfl
  min := rfl
  max := rfl

/-- One more row. -/
theorem observe_eq_ok {s : Statistics} {rows : List (Option Literal)} {row : Option Literal}
    (kinds : ∀ v ∈ row, ∀ w ∈ rows.reduceOption, w.kind = v.kind)
    (few : (rows ++ [row]).reduceOption.length < UInt64.size) (h : s.Summarises rows) :
    ∃ t, s.observe row = .ok t ∧ t.Summarises (rows ++ [row]) := by
  cases row with
  | none =>
      have hvalues : (rows ++ [none]).reduceOption = rows.reduceOption := by
        simp [List.reduceOption_append]
      refine ⟨s.withNulls, rfl, ?_, ?_, ?_, ?_⟩
      · simp [withNulls]
      · rw [hvalues]
        exact h.count
      · rw [hvalues]
        exact h.min
      · rw [hvalues]
        exact h.max
  | some v =>
      have hvalues : (rows ++ [some v]).reduceOption = rows.reduceOption ++ [v] := by
        simp [List.reduceOption_append]
      obtain ⟨min, hmin, low⟩ := extendBound_eq_ok (by decide) (kinds v rfl) h.min
      obtain ⟨max, hmax, high⟩ := extendBound_eq_ok (by decide) (kinds v rfl) h.max
      rw [hvalues, List.length_append, ← h.count, List.length_singleton] at few
      refine ⟨⟨s.hasNull, s.count + 1, some min, some max⟩, ?_, ?_, ?_, ?_, ?_⟩
      · rw [observe, hmin, bind_ok, hmax, Word.add_eq few]
        rfl
      · simp [h.hasNull]
      · rw [hvalues, List.length_append, ← h.count]
        rfl
      · rw [hvalues]
        exact low
      · rw [hvalues]
        exact high

/-- Rows whose values are of one kind have a summary, if their number is a word. -/
theorem ofValues_eq_ok {rows : List (Option Literal)} {kind : Kind}
    (kinds : ∀ v ∈ rows.reduceOption, v.kind = kind)
    (few : rows.reduceOption.length < UInt64.size) :
    ∃ s, ofValues rows = .ok s ∧ s.Summarises rows := by
  refine foldlM_eq_ok (P := fun done s => Summarises s done) empty_summarises
    fun done row hdone s h => ?_
  have hvalues := hdone.sublist.filterMap id
  refine observe_eq_ok (fun v hv w hw => ?_) (hvalues.length_le.trans_lt few) h
  have hrow : v ∈ (done ++ [row]).reduceOption := by
    rw [List.reduceOption_mem_iff, List.mem_append]
    exact .inr (List.mem_singleton.mpr hv.symm)
  have hbefore : w ∈ (done ++ [row]).reduceOption := by
    rw [List.reduceOption_append, List.mem_append]
    exact .inl hw
  exact (kinds w (hvalues.subset hbefore)).trans (kinds v (hvalues.subset hrow)).symm

/-! ### What derived statistics admit -/

/-- Whether derived bounds reach over all values of some rows: no value is none of the numbers, or
the first is, or both infinities are among them. -/
def Boundable (rows : List (Option Literal)) : Prop :=
  (∃ v ∈ rows.reduceOption, v.isNaN = true) →
    (∃ v ∈ rows.reduceOption.head?, v.isNaN = true) ∨
      (infinity true ∈ rows.reduceOption ∧ infinity false ∈ rows.reduceOption)

instance (rows : List (Option Literal)) : Decidable (Boundable rows) :=
  inferInstanceAs (Decidable (_ → _ ∨ _ ∧ _))

/-- Whether the bounds are floats and numbers, and an infinity lies outside. -/
def LeavesOut (s : Statistics) (negative : Bool) : Prop :=
  s.count ≠ 0 ∧ ∃ min max, s.min = some min ∧ s.max = some max ∧ min.kind = .float ∧
    max.kind = .float ∧ min.isNaN = false ∧ max.isNaN = false ∧ min.rank ≤ max.rank ∧
    if negative then (infinity true).rank < min.rank else max.rank < (infinity false).rank

/-- An infinity among the values is their bound, if the bound is a number. -/
theorem Extreme.eq_infinity {side : Ordering} {vs : List Literal} {b : Literal} {negative : Bool}
    (h : Extreme side vs b) (hside : side = if negative then .lt else .gt)
    (number : b.isNaN = false) (kinds : ∀ v ∈ vs, v.kind = .float)
    (hmem : infinity negative ∈ vs) : b = infinity negative := by
  refine eq_infinity_of_rank (kinds b h.mem) ?_
  have hne := h.unbeaten _ hmem
  obtain ⟨hlow, hhigh⟩ := rank_mem_of_number (kinds b h.mem) number
  rw [hside] at hne
  cases negative with
  | true =>
      refine le_antisymm (not_lt.mp fun hlt => hne ?_) hlow
      exact order?_eq_lt_iff.mpr ⟨rfl, number, hlt⟩
  | false =>
      refine le_antisymm hhigh (not_lt.mp fun hlt => hne ?_)
      exact order?_eq_gt_iff.mpr ⟨rfl, number, hlt⟩

/-- With no infinity among the values, a bound that is a number lies short of it. -/
theorem Extreme.infinity_lt {side : Ordering} {vs : List Literal} {b : Literal}
    (h : Extreme side vs b) (number : b.isNaN = false) (kinds : ∀ v ∈ vs, v.kind = .float)
    (missing : infinity true ∉ vs) : (infinity true).rank < b.rank := by
  obtain ⟨hlow, -⟩ := rank_mem_of_number (kinds b h.mem) number
  refine lt_of_le_of_ne hlow fun heq => missing ?_
  rw [← eq_infinity_of_rank (kinds b h.mem) heq.symm]
  exact h.mem

theorem Extreme.lt_infinity {side : Ordering} {vs : List Literal} {b : Literal}
    (h : Extreme side vs b) (number : b.isNaN = false) (kinds : ∀ v ∈ vs, v.kind = .float)
    (missing : infinity false ∉ vs) : b.rank < (infinity false).rank := by
  obtain ⟨-, hhigh⟩ := rank_mem_of_number (kinds b h.mem) number
  refine lt_of_le_of_ne hhigh fun heq => missing ?_
  rw [← eq_infinity_of_rank (kinds b h.mem) heq]
  exact h.mem

section summaries

variable {s : Statistics} {rows : List (Option Literal)} {kind : Kind}
variable (h : s.Summarises rows) (kinds : ∀ v ∈ rows.reduceOption, v.kind = kind)

include h

theorem Summarises.extreme_min {b : Literal} (hb : b ∈ s.min) :
    Extreme .lt rows.reduceOption b := by
  have hmin := h.min
  rwa [Option.mem_def.mp hb] at hmin

theorem Summarises.extreme_max {b : Literal} (hb : b ∈ s.max) :
    Extreme .gt rows.reduceOption b := by
  have hmax := h.max
  rwa [Option.mem_def.mp hb] at hmax

/-- Bounds are there as soon as a value is. -/
theorem Summarises.exists_bounds (hne : rows.reduceOption ≠ []) : ∃ min max, s.min = some min ∧
    s.max = some max ∧ Extreme .lt rows.reduceOption min ∧ Extreme .gt rows.reduceOption max := by
  obtain ⟨min, hmin⟩ : ∃ min, s.min = some min := by
    refine Option.ne_none_iff_exists'.mp fun hnone => hne ?_
    have hbound := h.min
    rwa [hnone] at hbound
  obtain ⟨max, hmax⟩ : ∃ max, s.max = some max := by
    refine Option.ne_none_iff_exists'.mp fun hnone => hne ?_
    have hbound := h.max
    rwa [hnone] at hbound
  exact ⟨min, max, hmin, hmax, h.extreme_min hmin, h.extreme_max hmax⟩

include kinds

theorem Summarises.ofKind : s.OfKind kind where
  min b hb := kinds b (h.extreme_min hb).mem
  max b hb := kinds b (h.extreme_max hb).mem

/-- Derived statistics admit the rows that they are derived from, if these are boundable. -/
theorem Summarises.admits (boundable : Boundable rows) {row : Option Literal} (hrow : row ∈ rows) :
    s.Admits row := by
  cases row with
  | none => exact h.hasNull.mpr hrow
  | some v =>
      have hv : v ∈ rows.reduceOption := List.reduceOption_mem_iff.mpr hrow
      have reaches {side : Ordering} {b : Literal} {negative : Bool}
          (extreme : Extreme side rows.reduceOption b)
          (hside : side = if negative then .lt else .gt)
          (hinfinity : infinity true ∈ rows.reduceOption ∧ infinity false ∈ rows.reduceOption →
            infinity negative ∈ rows.reduceOption)
          (hnan : v.isNaN = true) : b.isNaN = true ∨ b = infinity negative := by
        have hfloat : kind = .float := (kinds v hv).symm.trans (kind_eq_of_isNaN hnan)
        subst hfloat
        rcases boundable ⟨v, hv, hnan⟩ with ⟨first, hfirst, hnone⟩ | hboth
        · exact .inl ((extreme.first first hfirst).trans hnone)
        · cases hb : b.isNaN with
          | true => exact .inl rfl
          | false => exact .inr (extreme.eq_infinity hside hb kinds (hinfinity hboth))
      refine ⟨?_, fun b hb => ?_, fun b hb => ?_⟩
      · rw [h.count]
        exact (List.length_pos_of_mem hv).ne'
      · have extreme := h.extreme_min hb
        exact boundsBelow_of_order? ((kinds b extreme.mem).trans (kinds v hv).symm)
          (extreme.unbeaten v hv) (reaches extreme rfl And.left)
      · have extreme := h.extreme_max hb
        exact boundsAbove_of_order? ((kinds b extreme.mem).trans (kinds v hv).symm)
          (extreme.unbeaten v hv) (reaches extreme rfl And.right)

/-- Where rows are not boundable, a value is no number and the bounds leave out an infinity. -/
theorem Summarises.exists_missed (missed : ¬Boundable rows) :
    ∃ v ∈ rows.reduceOption, v.isNaN = true ∧ kind = .float ∧ ∃ negative, s.LeavesOut negative := by
  obtain ⟨⟨v, hv, hnan⟩, hmissed⟩ := Classical.not_imp.mp missed
  obtain ⟨hfirst, hinfinities⟩ := not_or.mp hmissed
  have hfloat : kind = .float := (kinds v hv).symm.trans (kind_eq_of_isNaN hnan)
  subst hfloat
  have hne : rows.reduceOption ≠ [] := List.ne_nil_of_mem hv
  -- The first value is a number, and with it both bounds.
  obtain ⟨first, hhead⟩ := Option.ne_none_iff_exists'.mp (mt List.head?_eq_none_iff.mp hne)
  have hnumber : first.isNaN = false :=
    Bool.eq_false_iff.mpr fun hnone => hfirst ⟨first, hhead, hnone⟩
  obtain ⟨min, max, hmin, hmax, low, high⟩ := h.exists_bounds hne
  have hminNumber : min.isNaN = false := (low.first first hhead).trans hnumber
  have hmaxNumber : max.isNaN = false := (high.first first hhead).trans hnumber
  have hle : min.rank ≤ max.rank := not_lt.mp fun hlt =>
    high.unbeaten min low.mem (order?_eq_gt_iff.mpr ⟨hminNumber, hmaxNumber, hlt⟩)
  have hcount : s.count ≠ 0 := h.count ▸ (List.length_pos_of_mem hv).ne'
  have leavesOut {negative : Bool} (hbeyond : if negative then (infinity true).rank < min.rank
      else max.rank < (infinity false).rank) : s.LeavesOut negative :=
    ⟨hcount, min, max, hmin, hmax, kinds min low.mem, kinds max high.mem, hminNumber, hmaxNumber,
      hle, hbeyond⟩
  refine ⟨v, hv, hnan, rfl, ?_⟩
  rcases not_and_or.mp hinfinities with hmissing | hmissing
  · exact ⟨true, leavesOut (low.infinity_lt hminNumber kinds hmissing)⟩
  · exact ⟨false, leavesOut (high.lt_infinity hmaxNumber kinds hmissing)⟩

end summaries

/-! ### Merging -/

section merging

variable {s t : Statistics} {kind : Kind}

/-- The merged bound is one of the two and lies beyond both; it is missing if the two are not
comparable. -/
theorem mergeBounds_cases {side : Ordering} {l r : Literal} {u : Option Literal}
    (h : mergeBounds side (some l) (some r) = .ok u) {b : Literal} (hb : b ∈ u)
    (hside : side ≠ .eq) :
    b.kind = l.kind ∧ b.kind = r.kind ∧ b.isNaN = false ∧ l.isNaN = false ∧ r.isNaN = false ∧
      l.order? b ≠ some side ∧ r.order? b ≠ some side := by
  obtain ⟨o, ho, hu⟩ := map_eq_ok_iff.mp h
  obtain ⟨kinds, rfl⟩ := order?_of_compare? ho
  cases horder : l.order? r with
  | none =>
      rw [horder] at hu
      subst hu
      cases hb
  | some o =>
      rw [horder] at hu
      obtain ⟨hl, hr, -⟩ := order?_eq_some_iff.mp horder
      simp only at hu
      split at hu
      · rename_i hkeep
        subst hu
        cases hb
        refine ⟨rfl, kinds, hl, hl, hr, order?_self_ne hside, fun hlt => ?_⟩
        rw [order?_swap, horder] at hlt
        cases o <;> cases side <;> simp_all
      · rename_i hdrop
        subst hu
        cases hb
        refine ⟨kinds.symm, rfl, hr, hl, hr, fun hlt => ?_, order?_self_ne hside⟩
        rw [horder] at hlt
        cases hlt
        simp at hdrop

/-- Merging bounds of one kind succeeds. -/
theorem mergeBound_eq_ok (side : Ordering) {bound : Statistics → Option Literal}
    (hs : ∀ b ∈ bound s, b.kind = kind) (ht : ∀ b ∈ bound t, b.kind = kind) :
    ∃ u, mergeBound side bound s t = .ok u ∧ ∀ b ∈ u, b.kind = kind := by
  unfold mergeBound
  split
  · exact ⟨_, rfl, ht⟩
  · split
    · exact ⟨_, rfl, hs⟩
    · cases hl : bound s with
      | none => exact ⟨none, rfl, fun b hb => (nomatch hb)⟩
      | some l =>
          cases hr : bound t with
          | none => exact ⟨none, rfl, fun b hb => (nomatch hb)⟩
          | some r =>
              rw [mergeBounds, compare?_eq ((hs l hl).trans (ht r hr).symm)]
              refine ⟨_, rfl, fun b hb => ?_⟩
              cases ho : l.order? r with
              | none =>
                  rw [ho] at hb
                  cases hb
              | some o =>
                  rw [ho] at hb
                  simp only at hb
                  split at hb
                  · cases hb
                    exact hs l hl
                  · cases hb
                    exact ht r hr

theorem merge_eq_ok (hs : s.OfKind kind) (ht : t.OfKind kind) :
    ∃ u, s.merge t = .ok u ∧ u.OfKind kind := by
  obtain ⟨min, hmin, kmin⟩ := mergeBound_eq_ok .lt hs.min ht.min
  obtain ⟨max, hmax, kmax⟩ := mergeBound_eq_ok .gt hs.max ht.max
  refine ⟨⟨s.hasNull || t.hasNull, Word.add s.count t.count, min, max⟩, ?_, kmin, kmax⟩
  rw [merge, hmin, bind_ok, hmax]
  rfl

/-- The merged bound of two sides bounds what the bound of a side with values does. -/
theorem mergeBound_bounds {side : Ordering} (hside : side ≠ .eq) {R : Literal → Literal → Prop}
    (widen : ∀ {a b v}, a.isNaN = false → b.isNaN = false → a.kind = b.kind → R b v →
      b.order? a ≠ some side → R a v)
    {bound : Statistics → Option Literal} {u : Option Literal}
    (h : mergeBound side bound s t = .ok u) {v : Literal}
    (hv : (s.count ≠ 0 ∧ ∀ b ∈ bound s, R b v) ∨ (t.count ≠ 0 ∧ ∀ b ∈ bound t, R b v)) :
    ∀ b ∈ u, R b v := by
  intro b hb
  unfold mergeBound at h
  split at h
  · rename_i hzero
    cases h
    exact (hv.resolve_left fun hs => hs.1 hzero).2 b hb
  · split at h
    · rename_i hzero
      cases h
      exact (hv.resolve_right fun ht => ht.1 hzero).2 b hb
    · cases hl : bound s with
      | none =>
          rw [hl] at h
          cases h
          cases hb
      | some l =>
          cases hr : bound t with
          | none =>
              rw [hl, hr] at h
              cases h
              cases hb
          | some r =>
              rw [hl, hr] at h
              obtain ⟨kl, kr, hn, hln, hrn, hleft, hright⟩ := mergeBounds_cases h hb hside
              rcases hv with hv | hv
              · exact widen hn hln kl (hv.2 l hl) hleft
              · exact widen hn hrn kr (hv.2 r hr) hright

theorem merge_count {u : Statistics} (h : s.merge t = .ok u)
    (few : s.count + t.count < UInt64.size) : u.count = s.count + t.count := by
  obtain ⟨min, -, h⟩ := bind_eq_ok_iff.mp h
  obtain ⟨max, -, h⟩ := bind_eq_ok_iff.mp h
  cases h
  exact Word.add_eq few

/-- Merged statistics admit what either side admits, if the count does not overflow. -/
theorem merge_admits {u : Statistics} (h : s.merge t = .ok u)
    (few : s.count + t.count < UInt64.size) {row : Option Literal}
    (hrow : s.Admits row ∨ t.Admits row) : u.Admits row := by
  have hcount := merge_count h few
  obtain ⟨min, hmin, h⟩ := bind_eq_ok_iff.mp h
  obtain ⟨max, hmax, h⟩ := bind_eq_ok_iff.mp h
  cases h
  cases row with
  | none =>
      show (s.hasNull || t.hasNull) = true
      exact (Bool.or_eq_true _ _).mpr hrow
  | some v =>
      refine ⟨?_, ?_, ?_⟩
      · rw [hcount]
        rcases hrow with hrow | hrow
        · exact Nat.ne_of_gt (Nat.add_pos_left (Nat.pos_of_ne_zero hrow.1) _)
        · exact Nat.ne_of_gt (Nat.add_pos_right _ (Nat.pos_of_ne_zero hrow.1))
      · exact mergeBound_bounds (R := BoundsBelow) (by decide)
          (fun ha hb kinds => BoundsBelow.widen ha hb kinds) hmin
          (hrow.imp (fun h => ⟨h.1, h.2.1⟩) fun h => ⟨h.1, h.2.1⟩)
      · exact mergeBound_bounds (R := BoundsAbove) (by decide)
          (fun ha hb kinds => BoundsAbove.widen ha hb kinds) hmax
          (hrow.imp (fun h => ⟨h.1, h.2.2⟩) fun h => ⟨h.1, h.2.2⟩)

end merging

end Statistics

end StripeScan
