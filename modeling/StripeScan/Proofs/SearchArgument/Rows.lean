import StripeScan.Proofs.Outcome
import StripeScan.Proofs.Value.Order
import StripeScan.SearchArgument.Rows

/-! # Verdicts on rows

On a row whose values are of the kinds that the predicates declare, no comparison fails: the
verdict of a search argument exists and is that of its formula over the plain answers of its
predicates (`BoundSearchArgument.verdict_eq`).  Binding sees to the kinds (`bind_kinds`).  A verdict
on any other row is the same, if there is one (`BoundSearchArgument.eq_answer_of_verdict`). -/

namespace StripeScan

/-- Whether a test holds of a value of the kind of its literals. -/
def Test.holds (v : Literal) : Test → Bool
  | .isNull => false
  | .equals l | .nullSafeEquals l => v.order? l == some .eq
  | .lessThan l => v.order? l == some .lt
  | .lessThanEquals l => !(v.order? l == some .gt)
  | .between lower upper => !(v.order? lower == some .lt) && !(v.order? upper == some .gt)
  | .isIn first rest => (first :: rest).any fun l => v.order? l == some .eq

theorem Test.anyEqual_eq {v : Literal} {ls : List Literal} (kinds : ∀ l ∈ ls, l.kind = v.kind) :
    anyEqual v ls = .ok (ls.any fun l => v.order? l == some .eq) := by
  induction ls with
  | nil => rfl
  | cons l ls ih =>
      rw [anyEqual, Literal.isOrder_eq (kinds l List.mem_cons_self).symm,
        ih fun l hl => kinds l (List.mem_cons_of_mem _ hl)]
      rfl

theorem Test.accepts_eq {v : Literal} {t : Test} (kinds : ∀ l ∈ t.literals, l.kind = v.kind) :
    t.accepts v = .ok (t.holds v) := by
  have order (o : Ordering) {l : Literal} (hl : l ∈ t.literals) :
      v.isOrder o l = .ok (v.order? l == some o) := Literal.isOrder_eq (kinds l hl).symm o
  cases t with
  | isNull => rfl
  | equals l => exact order .eq List.mem_cons_self
  | nullSafeEquals l => exact order .eq List.mem_cons_self
  | lessThan l => exact order .lt List.mem_cons_self
  | lessThanEquals l =>
      rw [accepts, order .gt List.mem_cons_self]
      rfl
  | between lower upper =>
      rw [accepts, order .lt List.mem_cons_self,
        order .gt (List.mem_cons_of_mem _ List.mem_cons_self), holds]
      cases v.order? lower == some .lt <;> rfl
  | isIn first rest => exact anyEqual_eq kinds

/-- A test that could be made of a value compared it with a literal of its kind, unless it is the
null test. -/
theorem Test.exists_kind_of_accepts {v : Literal} {t : Test} {b : Bool} (h : t.accepts v = .ok b) :
    t = .isNull ∨ ∃ l ∈ t.literals, l.kind = v.kind := by
  have compared {o : Ordering} {l : Literal} {x : Bool} (h : v.isOrder o l = .ok x) :
      l.kind = v.kind := by
    obtain ⟨_, h, -⟩ := map_eq_ok_iff.mp h
    exact (Literal.kind_eq_of_compare?_eq_ok h).symm
  cases t with
  | isNull => exact .inl rfl
  | equals l => exact .inr ⟨l, List.mem_cons_self, compared h⟩
  | nullSafeEquals l => exact .inr ⟨l, List.mem_cons_self, compared h⟩
  | lessThan l => exact .inr ⟨l, List.mem_cons_self, compared h⟩
  | lessThanEquals l =>
      obtain ⟨_, h, -⟩ := map_eq_ok_iff.mp h
      exact .inr ⟨l, List.mem_cons_self, compared h⟩
  | between lower upper =>
      obtain ⟨_, h, -⟩ := bind_eq_ok_iff.mp h
      exact .inr ⟨lower, List.mem_cons_self, compared h⟩
  | isIn first rest =>
      obtain ⟨_, h, -⟩ := bind_eq_ok_iff.mp h
      exact .inr ⟨first, List.mem_cons_self, compared h⟩

namespace Predicate

/-- The answer of a predicate to a value of its kind, or to a null. -/
def answer (p : Predicate) : Option Literal → Verdict
  | none => p.test.ofNull
  | some v => some (p.test.holds v)

theorem verdict_eq {p : Predicate} {v : Option Literal} (kind : ∀ w ∈ v, w.kind = p.kind) :
    p.verdict v = .ok (p.answer v) := by
  cases v with
  | none => rfl
  | some w =>
      have kinds : ∀ l ∈ p.test.literals, l.kind = w.kind := fun l hl =>
        (p.literal_kinds l hl).trans (kind w rfl).symm
      rw [verdict, Test.accepts_eq kinds]
      rfl

/-- A verdict that exists is the answer: a value of another kind than its literals has one from the
null test only. -/
theorem eq_answer_of_verdict {p : Predicate} {v : Option Literal} {x : Verdict}
    (h : p.verdict v = .ok x) : x = p.answer v := by
  cases v with
  | none =>
      cases h
      rfl
  | some w =>
      obtain ⟨b, haccepts, rfl⟩ := map_eq_ok_iff.mp h
      rcases Test.exists_kind_of_accepts haccepts with hnull | ⟨l, hl, hkind⟩
      · rw [hnull] at haccepts
        cases haccepts
        rw [answer, hnull]
        rfl
      · have kind : w.kind = p.kind := hkind.symm.trans (p.literal_kinds l hl)
        rw [verdict_eq (by simpa using kind)] at h
        cases h
        rfl

end Predicate

namespace BoundSearchArgument

/-- Whether the values of a row are of the kinds that the predicates declare. -/
def Fits (b : BoundSearchArgument) (row : Nat → Option Literal) : Prop :=
  ∀ p ∈ b.predicates, ∀ v ∈ row p.column, v.kind = p.predicate.kind

/-- The verdict of a search argument on a row of the right kinds. -/
def answer (b : BoundSearchArgument) (row : Nat → Option Literal) : Verdict :=
  b.formula.verdict fun i => (b.predicates[i]?).bind fun p => p.predicate.answer (row p.column)

/-- Where each predicate has its answer for a verdict, so has the argument. -/
theorem verdict_of_answers {b : BoundSearchArgument} {row : Nat → Option Literal}
    (answers : ∀ p ∈ b.predicates,
      p.predicate.verdict (row p.column) = .ok (p.predicate.answer (row p.column))) :
    b.verdict row = .ok (b.answer row) := by
  have hverdicts : b.verdicts row =
      .ok (b.predicates.map fun p => p.predicate.answer (row p.column)) := mapM_eq_ok_map answers
  have hvalue (i : ℕ) : ((b.predicates.map fun p => p.predicate.answer (row p.column))[i]?).join =
      (b.predicates[i]?).bind fun p => p.predicate.answer (row p.column) := by
    rw [List.getElem?_map]
    cases b.predicates[i]? <;> rfl
  rw [verdict, hverdicts, bind_ok, answer]
  simp only [hvalue]
  rfl

/-- A row of the right kinds always has a verdict. -/
theorem verdict_eq {b : BoundSearchArgument} {row : Nat → Option Literal} (fits : b.Fits row) :
    b.verdict row = .ok (b.answer row) :=
  verdict_of_answers fun p hp => Predicate.verdict_eq (fits p hp)

/-- A verdict that exists is the answer, whatever the kinds of the values. -/
theorem eq_answer_of_verdict {b : BoundSearchArgument} {row : Nat → Option Literal} {v : Verdict}
    (h : b.verdict row = .ok v) : v = b.answer row := by
  obtain ⟨_, hverdicts, -⟩ := bind_eq_ok_iff.mp h
  have hanswer : b.verdict row = .ok (b.answer row) := by
    apply verdict_of_answers
    intro p hp
    obtain ⟨x, -, hx⟩ := exists_of_mem_left_mapM hverdicts hp
    rw [hx, Predicate.eq_answer_of_verdict hx]
  rw [h] at hanswer
  exact Except.ok.inj hanswer

end BoundSearchArgument

/-! ### Binding -/

theorem Predicate.bind_eq_ok {resolve : ColumnRef → Option (Nat × Kind)} {p : Predicate}
    {q : BoundPredicate} (h : p.bind resolve = .ok q) :
    q.predicate = p ∧ resolve p.column = some (q.column, p.kind) := by
  unfold Predicate.bind at h
  split at h
  · cases h
  · rename_i ordinal kind hresolve
    split at h
    · rename_i hkind
      cases h
      rw [← hkind]
      exact ⟨rfl, hresolve⟩
    · cases h

theorem Schema.kind?_of_resolve {s : Schema} {column : ColumnRef} {ordinal : ℕ} {kind : Kind}
    (h : s.resolve column = some (ordinal, kind)) : s.kind? ordinal = some kind := by
  cases column with
  | ordinal i =>
      obtain ⟨k, hk, h⟩ := Option.bind_eq_some_iff.mp h
      cases h
      exact hk
  | name n =>
      obtain ⟨i, -, h⟩ := Option.bind_eq_some_iff.mp h
      obtain ⟨k, hk, h⟩ := Option.bind_eq_some_iff.mp h
      cases h
      exact hk

/-- The columns of a bound search argument are of the kinds that its predicates declare. -/
theorem SearchArgument.bind_kinds {a : SearchArgument} {schema : Schema} {b : BoundSearchArgument}
    (h : a.bind schema = .ok b) :
    ∀ p ∈ b.predicates, schema.kind? p.column = some p.predicate.kind := by
  obtain ⟨predicates, hps, hb⟩ := bind_eq_ok_iff.mp h
  cases hb
  intro q hq
  obtain ⟨p, -, hbound⟩ := exists_of_mem_mapM hps hq
  obtain ⟨rfl, hres⟩ := Predicate.bind_eq_ok hbound
  exact Schema.kind?_of_resolve hres

end StripeScan
