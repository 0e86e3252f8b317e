import StripeScan.Proofs.Scan.Planning
import StripeScan.Scan.Cursor

/-! # Cursors stand before the next retained row

A position is a row number and nothing else.  `Plan.firstFrom?` is the first row of the plan that is
not before a position, and `Plan.rangeEnd` the end of its range.  `Cursor.At` says that a cursor
stands at a position: before that row, in its range, or past all ranges.  Starting, seeking and
advancing put the cursor at the position that they should. -/

namespace StripeScan

namespace Plan

variable {p : Plan}

/-- Whether a row is to be read. -/
def retains (p : Plan) (row : ℕ) : Bool := p.ranges.any (·.contains row)

/-- The first row to be read from a position on. -/
def firstFrom? (p : Plan) (row : ℕ) : Option ℕ :=
  (List.range' row (p.totalRows - row)).find? p.retains

/-- The end of the range that holds a row. -/
def rangeEnd (p : Plan) (row : ℕ) : ℕ :=
  ((p.ranges.find? (·.contains row)).map RowRange.stop).getD row

theorem retains_iff {row : ℕ} :
    p.retains row = true ↔ ∃ r ∈ p.ranges, r.start ≤ row ∧ row < r.stop := by
  rw [retains, List.any_eq_true]
  simp only [RowRange.contains_iff]

theorem find?_range'_eq_some_iff {f : ℕ → Bool} {a n b : ℕ} :
    (List.range' a n).find? f = some b ↔
      a ≤ b ∧ b < a + n ∧ f b = true ∧ ∀ c, a ≤ c → c < b → f c = false := by
  induction n generalizing a with
  | zero =>
      simp only [List.range'_zero, List.find?_nil, reduceCtorEq, false_iff]
      omega
  | succ n ih =>
      rw [List.range'_succ, List.find?_cons]
      cases ha : f a with
      | true =>
          simp only [Option.some.injEq]
          constructor
          · rintro rfl
            exact ⟨le_rfl, by omega, ha, fun c hc hlt => by omega⟩
          · rintro ⟨hle, -, -, hbefore⟩
            by_contra hne
            have := hbefore a le_rfl (by omega)
            rw [ha] at this
            cases this
      | false =>
          simp only
          rw [ih]
          constructor
          · rintro ⟨hle, hlt, hb, hbefore⟩
            refine ⟨by omega, by omega, hb, fun c hc hcb => ?_⟩
            rcases Nat.eq_or_lt_of_le hc with rfl | hlt'
            · exact ha
            · exact hbefore c hlt' hcb
          · rintro ⟨hle, hlt, hb, hbefore⟩
            have hne : a ≠ b := by
              rintro rfl
              rw [ha] at hb
              cases hb
            exact ⟨by omega, by omega, hb, fun c hc => hbefore c (by omega)⟩

section wellFormed

variable (wf : p.WellFormed)

include wf

theorem lt_of_retains {row : ℕ} (h : p.retains row = true) : row < p.totalRows := by
  obtain ⟨r, hr, -, hlt⟩ := retains_iff.mp h
  exact hlt.trans_le (wf.bounds hr).2

theorem firstFrom?_eq_some_iff {row f : ℕ} :
    p.firstFrom? row = some f ↔
      row ≤ f ∧ p.retains f = true ∧ ∀ q, row ≤ q → q < f → p.retains q = false := by
  rw [firstFrom?, find?_range'_eq_some_iff]
  refine and_congr_right fun hle => ⟨fun h => h.2, fun h => ⟨?_, h⟩⟩
  have := lt_of_retains wf h.1
  omega

theorem firstFrom?_eq_none_iff {row : ℕ} :
    p.firstFrom? row = none ↔ ∀ q, row ≤ q → p.retains q = false := by
  rw [firstFrom?, List.find?_eq_none]
  constructor
  · intro h q hq
    by_contra hretains
    rw [Bool.not_eq_false] at hretains
    have := lt_of_retains wf hretains
    exact h q (List.mem_range'_1.mpr ⟨hq, by omega⟩) hretains
  · intro h q hq
    rw [h q (List.mem_range'_1.mp hq).1]
    exact Bool.false_ne_true

/-- No row is in two ranges. -/
theorem eq_of_contains {r t : RowRange} (hr : r ∈ p.ranges) (ht : t ∈ p.ranges) {row : ℕ}
    (h : r.contains row = true) (h' : t.contains row = true) : r = t := by
  rw [RowRange.contains_iff] at h h'
  obtain ⟨i, hi, rfl⟩ := List.getElem_of_mem hr
  obtain ⟨j, hj, rfl⟩ := List.getElem_of_mem ht
  have hpair := List.pairwise_iff_getElem.mp wf.ascending
  rcases lt_trichotomy i j with hij | rfl | hij
  · have := hpair i j hi hj hij
    omega
  · rfl
  · have := hpair j i hj hi hij
    omega

theorem rangeEnd_eq {r : RowRange} (hr : r ∈ p.ranges) {row : ℕ} (h : r.contains row = true) :
    p.rangeEnd row = r.stop := by
  rw [rangeEnd]
  cases hfind : p.ranges.find? (·.contains row) with
  | none => exact absurd h (List.find?_eq_none.mp hfind r hr)
  | some t =>
      have hcontains := List.find?_some (p := fun t : RowRange => t.contains row) hfind
      rw [eq_of_contains wf hr (List.mem_of_find?_eq_some hfind) h hcontains]
      rfl

/-- The first range that ends after a position holds the first row from there on. -/
theorem firstFrom?_of_locate {row i : ℕ} (h : p.locate row = some i) :
    ∃ r, p.ranges[i]? = some r ∧ r.contains (max row r.start) = true ∧
      p.firstFrom? row = some (max row r.start) := by
  obtain ⟨hi, hlt, hbefore⟩ := List.findIdx?_eq_some_iff_getElem.mp h
  simp only [decide_eq_true_eq, not_lt] at hlt hbefore
  have hmem := List.getElem_mem hi
  have hbounds := (wf.bounds hmem).1
  have hcontains : p.ranges[i].contains (max row p.ranges[i].start) = true := by
    rw [RowRange.contains_iff]
    omega
  refine ⟨_, List.getElem?_eq_getElem hi, hcontains, (firstFrom?_eq_some_iff wf).mpr
    ⟨le_max_left _ _, List.any_eq_true.mpr ⟨_, hmem, hcontains⟩, fun q hq hqf => ?_⟩⟩
  by_contra hretains
  rw [Bool.not_eq_false] at hretains
  obtain ⟨r, hr, hstart, hstop⟩ := retains_iff.mp hretains
  obtain ⟨j, hj, rfl⟩ := List.getElem_of_mem hr
  have hpair := List.pairwise_iff_getElem.mp wf.ascending
  -- A row before this range is in an earlier one, and those end before the row that is sought.
  rcases lt_trichotomy i j with hij | rfl | hij
  · have := hpair i j hi hj hij
    omega
  · omega
  · have := hbefore j hij
    omega

theorem firstFrom?_of_locate_none {row : ℕ} (h : p.locate row = none) :
    p.firstFrom? row = none := by
  rw [firstFrom?_eq_none_iff wf]
  intro q hq
  by_contra hretains
  rw [Bool.not_eq_false] at hretains
  obtain ⟨r, hr, -, hstop⟩ := retains_iff.mp hretains
  have := List.findIdx?_eq_none_iff.mp h r hr
  rw [decide_eq_false_iff_not] at this
  omega

end wellFormed

end Plan

namespace Cursor

/-- A cursor at a position: before the first row from there on and in its range, or, if there is no
such row, at the end of the file or past all ranges. -/
def At (c : Cursor) (plan : Plan) (position : ℕ) : Prop :=
  match plan.firstFrom? position with
  | some f => c.state ≠ .exhausted ∧ c.next = f ∧
      ∃ r, plan.ranges[c.rangeIndex]? = some r ∧ r.contains f = true
  | none => c.state = .exhausted ∧ c.current = plan.totalRows ∧ c.next = plan.totalRows ∨
      c.state ≠ .exhausted ∧ plan.ranges[c.rangeIndex]? = none

theorem isExhausted_iff {c : Cursor} : c.isExhausted = true ↔ c.state = .exhausted := beq_iff_eq

variable {plan : Plan}

theorem settle?_eq_some (wf : plan.WellFormed) (c : Cursor) {row f : ℕ}
    (h : plan.firstFrom? row = some f) :
    ∃ d, c.settle? plan row = some d ∧ d.state = c.state ∧ d.current = c.current ∧ d.next = f ∧
      ∃ r, plan.ranges[d.rangeIndex]? = some r ∧ r.contains f = true := by
  cases hlocate : plan.locate row with
  | none =>
      rw [Plan.firstFrom?_of_locate_none wf hlocate] at h
      cases h
  | some i =>
      obtain ⟨r, hr, hcontains, hfirst⟩ := Plan.firstFrom?_of_locate wf hlocate
      rw [hfirst, Option.some.injEq] at h
      subst h
      have hsettle : c.settle? plan row = some { c with
          rangeIndex := i
          next := max row r.start
          stripe := some r.stripe
          group := (plan.stripes[r.stripe]?).map fun s =>
            (s.groupOf plan.stride (max row r.start)).1 } := by
        rw [settle?, hlocate, Option.bind_eq_bind, Option.bind_some, hr]
        rfl
      exact ⟨_, hsettle, rfl, rfl, rfl, r, hr, hcontains⟩

theorem settle?_eq_none (wf : plan.WellFormed) (c : Cursor) {row : ℕ}
    (h : plan.firstFrom? row = none) : c.settle? plan row = none := by
  cases hlocate : plan.locate row with
  | none =>
      rw [settle?, hlocate]
      rfl
  | some i =>
      obtain ⟨r, -, -, hfirst⟩ := Plan.firstFrom?_of_locate wf hlocate
      rw [h] at hfirst
      cases hfirst

theorem exhaust_at {row : ℕ} (h : plan.firstFrom? row = none) : (exhaust plan).At plan row := by
  rw [At, h]
  exact .inl ⟨rfl, rfl, rfl⟩

theorem firstFrom?_total (plan : Plan) : plan.firstFrom? plan.totalRows = none := by
  rw [Plan.firstFrom?, Nat.sub_self]
  rfl

/-- A scan starts at the first row. -/
theorem start_at (wf : plan.WellFormed) :
    (start plan).At plan 0 ∧ (start plan).current = (plan.firstFrom? 0).getD plan.totalRows ∧
      (start plan).next = (plan.firstFrom? 0).getD plan.totalRows := by
  unfold start
  cases h : plan.firstFrom? 0 with
  | none =>
      rw [settle?_eq_none wf _ h]
      exact ⟨exhaust_at h, rfl, rfl⟩
  | some f =>
      obtain ⟨d, hd, hstate, -, hnext, hrange⟩ :=
        settle?_eq_some wf ⟨.notStarted, none, none, 0, 0, 0⟩ h
      rw [hd]
      refine ⟨?_, hnext, hnext⟩
      rw [At, h]
      refine ⟨?_, hnext, hrange⟩
      show d.state ≠ _
      rw [hstate]
      decide

/-- Seeking leads to the row that is sought, from anywhere. -/
theorem seek_at (wf : plan.WellFormed) (c : Cursor) (target : ℕ) :
    (c.seek plan target).At plan target ∧
      (c.seek plan target).current = (plan.firstFrom? target).getD plan.totalRows ∧
      (c.seek plan target).next = (plan.firstFrom? target).getD plan.totalRows := by
  unfold seek
  cases h : plan.firstFrom? target with
  | none =>
      rw [settle?_eq_none wf _ h]
      exact ⟨exhaust_at h, rfl, rfl⟩
  | some f =>
      obtain ⟨d, hd, -, -, hnext, hrange⟩ := settle?_eq_some wf c h
      rw [hd]
      refine ⟨?_, hnext, hnext⟩
      rw [At, h]
      refine ⟨?_, hnext, hrange⟩
      show (if d.state = .exhausted then ScanState.scanning else d.state) ≠ _
      split
      · decide
      · assumption

/-- A batch moves the cursor to its end. -/
theorem advance_at (wf : plan.WellFormed) (c : Cursor) {first rows : ℕ}
    (hlt : first + rows < UInt64.size) :
    (c.advance plan first rows).At plan (first + rows) ∧
      (c.advance plan first rows).current = first ∧
      (c.advance plan first rows).next =
        (plan.firstFrom? (first + rows)).getD (first + rows) := by
  unfold advance
  rw [Word.add_eq hlt]
  cases h : plan.firstFrom? (first + rows) with
  | none =>
      simp only [settle?_eq_none wf _ h, Option.getD_none]
      refine ⟨?_, trivial, trivial⟩
      rw [At, h]
      exact .inr ⟨ScanState.noConfusion, List.getElem?_eq_none le_rfl⟩
  | some f =>
      obtain ⟨d, hd, hstate, hcurrent, hnext, hrange⟩ :=
        settle?_eq_some wf { c with state := .scanning, current := first } h
      simp only [hd, Option.getD_some]
      refine ⟨?_, hcurrent, hnext⟩
      rw [At, h]
      refine ⟨?_, hnext, hrange⟩
      rw [hstate]
      exact ScanState.noConfusion

end Cursor

end StripeScan
