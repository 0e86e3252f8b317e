import StripeScan.Proofs.SearchArgument.Builder
import StripeScan.Proofs.SearchArgument.Evaluation
import StripeScan.Proofs.Statistics.Constant

/-! # Evaluation over constant rows

Where every column that takes part holds one value, no null and no float, evaluating the statistics
is as good as reading the rows: the truth is certain, and it is the verdict on every row
(`evaluate_constant`). -/

namespace StripeScan

namespace BoundSearchArgument

/-- Whether every number in the formula has a predicate. -/
def InRange (b : BoundSearchArgument) : Prop := ∀ i ∈ b.formula.atoms, i < b.predicates.length

theorem inRange_of_bindWith {calls : List SearchArgument.Call} {a : SearchArgument}
    {resolve : ColumnRef → Option (ℕ × Kind)} {b : BoundSearchArgument}
    (hcalls : SearchArgument.ofCalls calls = .ok a) (h : a.bindWith resolve = .ok b) :
    b.InRange := by
  obtain ⟨predicates, hpredicates, hb⟩ := bind_eq_ok_iff.mp h
  cases hb
  intro i hi
  have hlength : a.predicates.length = predicates.length :=
    (mapM_eq_ok_iff.mp hpredicates).length_eq
  exact hlength ▸ SearchArgument.ofCalls_inRange hcalls i hi

/-- Whether the columns that take part hold the given values, up to the spelling of decimals. -/
def Holds (b : BoundSearchArgument) (value : ℕ → Literal) (row : ℕ → Option Literal) : Prop :=
  ∀ p ∈ b.predicates, ∃ w, row p.column = some w ∧ w.compare? (value p.column) = .ok (some .eq)

/-- Whether the given values are of the kinds that the predicates declare, none of them float. -/
structure Suits (b : BoundSearchArgument) (value : ℕ → Literal) : Prop where
  kind : ∀ p ∈ b.predicates, (value p.column).kind = p.predicate.kind
  notFloat : ∀ p ∈ b.predicates, p.predicate.kind ≠ .float

section constant

variable {σ : Type} {b : BoundSearchArgument} {value : ℕ → Literal} {row : ℕ → Option Literal}
variable (suits : b.Suits value)

include suits

theorem Suits.truth_eq {p : BoundPredicate} (hp : p ∈ b.predicates) {s : Statistics}
    (h : s.Constant (value p.column)) :
    p.predicate.truthOptional (some s) =
      .ok (.ofBool (p.predicate.test.holds (value p.column))) := by
  have kinds : ∀ l ∈ p.predicate.test.literals, l.kind = (value p.column).kind := by
    intro l hl
    rw [suits.kind p hp]
    exact p.predicate.literal_kinds l hl
  apply Test.truth_constant h kinds
  rw [suits.kind p hp]
  exact suits.notFloat p hp

theorem Suits.fits (holds : b.Holds value row) : b.Fits row := by
  intro p hp v hv
  obtain ⟨w, hw, hequal⟩ := holds p hp
  rw [Option.mem_def, hw] at hv
  cases hv
  rw [← suits.kind p hp]
  exact Literal.kind_eq_of_compare?_eq_ok hequal

omit suits in
/-- The answer on a row of the given values does not depend on the row. -/
theorem Holds.answer_eq (holds : b.Holds value row) :
    b.answer row = b.formula.verdict fun i =>
      (b.predicates[i]?).map fun p => p.predicate.test.holds (value p.column) := by
  have hanswer (i : ℕ) : ((b.predicates[i]?).bind fun p => p.predicate.answer (row p.column)) =
      (b.predicates[i]?).map fun p => p.predicate.test.holds (value p.column) := by
    cases hp : b.predicates[i]? with
    | none => rfl
    | some p =>
        obtain ⟨w, hw, hequal⟩ := holds p (List.mem_of_getElem? hp)
        have halike := (Literal.compare?_eq_eq_iff.mp hequal).1
        rw [Option.bind_some, Option.map_some, hw, ← Test.holds_alike halike]
        rfl
  rw [answer]
  simp only [hanswer]

/-- A truth that is found over constant rows is certain, and it is the verdict on each of them. -/
theorem evaluate_constant (inRange : b.InRange) {fetch : ℕ → Access σ (Option Statistics)}
    (constant : ∀ p ∈ b.predicates, ∀ x u u', (fetch p.column).run u = (.ok x, u') →
      ∃ st, x = some st ∧ st.Constant (value p.column))
    {t : Truth} {s s' : σ} (h : (b.evaluate fetch).run s = (.ok t, s')) :
    ∃ x, t = .ofBool x ∧
      ∀ row, b.Holds value row → b.answer row = some x ∧ b.verdict row = .ok (some x) := by
  obtain ⟨ts, rfl, hts⟩ :=
    evaluate_eq_ok (P := fun c x => ∃ st, x = some st ∧ st.Constant (value c)) constant h
  have decided : ∀ i ∈ b.formula.atoms, ∃ x, ts.getD i .yesNoNull = .ofBool x ∧
      ((b.predicates[i]?).map fun p => p.predicate.test.holds (value p.column)) = some x := by
    intro i hi
    have hlt := inRange i hi
    have hlt' : i < ts.length := hts.length_eq ▸ hlt
    obtain ⟨_, ⟨st, rfl, hst⟩, ht⟩ := hts.get hlt hlt'
    have heval := suits.truth_eq (List.getElem_mem hlt) hst
    refine ⟨_, ?_, by rw [List.getElem?_eq_getElem hlt, Option.map_some]⟩
    rw [List.getD_eq_getElem _ _ hlt']
    exact Except.ok.inj (ht.symm.trans heval)
  obtain ⟨x, htruth, hverdict⟩ := Formula.exists_decided decided
  refine ⟨x, htruth, fun row holds => ?_⟩
  have hanswer : b.answer row = some x := holds.answer_eq.trans hverdict
  exact ⟨hanswer, hanswer ▸ verdict_eq (suits.fits holds)⟩

/-- Over constant rows, with their statistics at hand, evaluation succeeds. -/
theorem exists_evaluate_constant (inRange : b.InRange) {stats : ℕ → Statistics}
    (constant : ∀ p ∈ b.predicates, (stats p.column).Constant (value p.column)) (s : σ) :
    ∃ x, (b.evaluate fun c => pure (some (stats c))).run s = (.ok (.ofBool x), s) ∧
      ∀ row, b.Holds value row → b.verdict row = .ok (some x) := by
  have hchecks : b.predicates.mapM (fun p => p.predicate.truthOptional (some (stats p.column))) =
      .ok (b.predicates.map fun p => .ofBool (p.predicate.test.holds (value p.column))) :=
    mapM_eq_ok_map fun p hp => suits.truth_eq hp (constant p hp)
  have hrun : (b.evaluate fun c => pure (some (stats c))).run s = (.ok _, s) :=
    run_evaluate_pure_eq_ok_iff.mpr ⟨_, hchecks, rfl⟩
  obtain ⟨x, htruth, hrows⟩ := evaluate_constant suits inRange (fun p hp x u u' hx => by
    obtain ⟨rfl, -⟩ := Access.run_pure_eq_ok_iff.mp hx
    exact ⟨_, rfl, constant p hp⟩) hrun
  exact ⟨x, htruth ▸ hrun, fun row hrow => (hrows row hrow).2⟩

end constant

end BoundSearchArgument

end StripeScan
