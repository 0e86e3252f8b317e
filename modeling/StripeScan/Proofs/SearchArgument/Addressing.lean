import StripeScan.Proofs.SearchArgument.Sharing

/-! # Columns by name or by place

A column can be referred to by its name or by its place.  Calls that are the same up to their
references (`Call.UpTo`) spell the same conditions up to their references (`Spells.upTo`), so that
building fails for both or for neither.

If each reference is the same or the place that a name stands for (`ColumnRef.Readdressed`), the
references resolve alike.  Although different predicates may then share a number, binding fails for
both, and with errors that are the same up to references, or for neither (`Writes.bind_upTo`), and
what is bound has the same truth over every partition, from statistics that are fetched in the same
order (`ofCalls_upTo`). -/

namespace StripeScan

/-! ### Related formulas -/

section related

variable {α β : Type}

/-- A list related to two lists that are joined consists of two parts, each related to one. -/
theorem exists_append_of_forall₂ {R : α → β → Prop} {xs ys : List α} {zs : List β}
    (h : List.Forall₂ R (xs ++ ys) zs) :
    ∃ xs' ys', zs = xs' ++ ys' ∧ List.Forall₂ R xs xs' ∧ List.Forall₂ R ys ys' := by
  have hflip : List.Forall₂ (flip R) zs (xs ++ ys) := List.Forall₂.flip h
  refine ⟨zs.take xs.length, zs.drop xs.length, (List.take_append_drop _ _).symm, ?_, ?_⟩
  · exact (List.forall₂_take_append zs xs ys hflip).flip
  · exact (List.forall₂_drop_append zs xs ys hflip).flip

theorem ne_nil_of_forall₂ {R : α → β → Prop} {xs : List α} {ys : List β}
    (h : List.Forall₂ R xs ys) (nonempty : xs ≠ []) : ys ≠ [] := by
  rintro rfl
  exact nonempty (List.forall₂_nil_right_iff.mp h)

namespace Formula

/-- Whether two formulas have the same shape, and related atoms at the same places. -/
structure Relates (R : α → β → Prop) (f : Formula α) (g : Formula β) : Prop where
  shape : f.shape = g.shape
  atoms : List.Forall₂ R f.atoms g.atoms

namespace Relates

variable {R : α → β → Prop} {f : Formula α} {g : Formula β} {fs : List (Formula α)}
variable {gs : List (Formula β)}

theorem atom {a : α} {b : β} (h : R a b) : Relates R (.atom a) (.atom b) := by
  constructor
  · rfl
  · rw [Formula.atoms, Formula.atoms]
    exact .cons h .nil

theorem parts (h : List.Forall₂ (Relates R) fs gs) : fs.map Formula.shape = gs.map Formula.shape ∧
    List.Forall₂ R (fs.flatMap Formula.atoms) (gs.flatMap Formula.atoms) := by
  induction h with
  | nil => exact ⟨rfl, .nil⟩
  | cons hfg _ ih =>
      rw [List.map_cons, List.map_cons, List.flatMap_cons, List.flatMap_cons, hfg.shape, ih.1]
      exact ⟨rfl, List.rel_append hfg.atoms ih.2⟩

theorem and (h : List.Forall₂ (Relates R) fs gs) : Relates R (.and fs) (.and gs) := by
  constructor
  · rw [shape_and, shape_and, (parts h).1]
  · rw [Formula.atoms, Formula.atoms, atomsList_eq_flatMap, atomsList_eq_flatMap]
    exact (parts h).2

theorem or (h : List.Forall₂ (Relates R) fs gs) : Relates R (.or fs) (.or gs) := by
  constructor
  · rw [shape_or, shape_or, (parts h).1]
  · rw [Formula.atoms, Formula.atoms, atomsList_eq_flatMap, atomsList_eq_flatMap]
    exact (parts h).2

theorem not (h : Relates R f g) : Relates R (.not f) (.not g) := by
  constructor
  · rw [shape_not, shape_not, h.shape]
  · rw [Formula.atoms, Formula.atoms]
    exact h.atoms

theorem joined (h : List.Forall₂ (Relates R) fs gs) :
    Relates R (.joined fs) (.joined gs) := by
  cases h with
  | nil => exact .and .nil
  | cons hfg hrest =>
      cases hrest with
      | nil => exact hfg
      | cons hfg' hrest => exact .and (.cons hfg (.cons hfg' hrest))

end Relates

end Formula

end related

/-! ### Calls that differ in their references -/

/-- Whether two predicates are the same up to their columns, which are related. -/
structure Predicate.UpTo (R : ColumnRef → ColumnRef → Prop) (p q : Predicate) : Prop where
  column : R p.column q.column
  kind : p.kind = q.kind
  test : p.test = q.test

namespace SearchArgument

/-- Whether two calls are the same up to the columns of their tests, which are related. -/
inductive Call.UpTo (R : ColumnRef → ColumnRef → Prop) : Call → Call → Prop
  | start (connective : Connective) : UpTo R (.start connective) (.start connective)
  | finish : UpTo R .finish .finish
  | test {column column' : ColumnRef} (h : R column column') (operator : Operator) (kind : Kind)
      (literals : List Literal) :
      UpTo R (.test column operator kind literals) (.test column' operator kind literals)

theorem Call.UpTo.swap {R : ColumnRef → ColumnRef → Prop} {call call' : Call}
    (h : call.UpTo R call') : call'.UpTo (flip R) call := by
  cases h with
  | start connective => exact .start connective
  | finish => exact .finish
  | test h operator kind literals => exact .test (R := flip R) h operator kind literals

end SearchArgument

open SearchArgument

section calls

variable {R : ColumnRef → ColumnRef → Prop} {calls calls' : List Call}
variable {parts : List (Formula Predicate)}

/-- The checks of a predicate do not depend on its column. -/
theorem Predicate.exists_ofParts_upTo {column column' : ColumnRef} {operator : Operator}
    {kind : Kind} {literals : List Literal} {p : Predicate} (h : R column column')
    (checked : Predicate.ofParts column operator kind literals = .ok p) :
    ∃ p', Predicate.ofParts column' operator kind literals = .ok p' ∧ p.UpTo R p' := by
  obtain ⟨rfl, rfl, rfl, rfl⟩ := Predicate.parts_of_ofParts checked
  let p' : Predicate := { p with column := column' }
  exact ⟨p', p'.ofParts_self, h, rfl, rfl⟩

/-- The calls of a closed group correspond to those of a group with the same connective. -/
theorem exists_group_of_upTo {connective : Connective}
    (h : List.Forall₂ (Call.UpTo R) (.start connective :: (calls ++ [.finish])) calls') :
    ∃ inner, calls' = .start connective :: (inner ++ [.finish]) ∧
      List.Forall₂ (Call.UpTo R) calls inner := by
  obtain ⟨_, rest, hstart, hrest, rfl⟩ := List.forall₂_cons_left_iff.mp h
  obtain ⟨inner, last, rfl, hinner, hlast⟩ := exists_append_of_forall₂ hrest
  obtain ⟨_, _, hfinish, hnil, rfl⟩ := List.forall₂_cons_left_iff.mp hlast
  cases hstart
  cases hfinish
  cases hnil
  exact ⟨inner, rfl, hinner⟩

/-- Calls that are the same up to columns spell the same conditions up to columns. -/
theorem Spells.upTo (h : Spells calls parts) (hcalls : List.Forall₂ (Call.UpTo R) calls calls') :
    ∃ parts', Spells calls' parts' ∧
      List.Forall₂ (Formula.Relates (Predicate.UpTo R)) parts parts' := by
  induction h generalizing calls' with
  | nil =>
      cases hcalls
      exact ⟨[], .nil, .nil⟩
  | test checked =>
      obtain ⟨_, _, hcall, hnil, rfl⟩ := List.forall₂_cons_left_iff.mp hcalls
      cases hnil
      cases hcall with
      | test hcolumn operator kind literals =>
          obtain ⟨p', checked', hp⟩ := Predicate.exists_ofParts_upTo hcolumn checked
          exact ⟨[.atom p'], .test checked', .cons (.atom hp) .nil⟩
  | and _ nonempty ih =>
      obtain ⟨inner, rfl, hinner⟩ := exists_group_of_upTo hcalls
      obtain ⟨parts', hspells, hparts⟩ := ih hinner
      have nonempty' := ne_nil_of_forall₂ hparts nonempty
      exact ⟨[.and parts'], .and hspells nonempty', .cons (.and hparts) .nil⟩
  | or _ nonempty ih =>
      obtain ⟨inner, rfl, hinner⟩ := exists_group_of_upTo hcalls
      obtain ⟨parts', hspells, hparts⟩ := ih hinner
      have nonempty' := ne_nil_of_forall₂ hparts nonempty
      exact ⟨[.or parts'], .or hspells nonempty', .cons (.or hparts) .nil⟩
  | not _ ih =>
      obtain ⟨inner, rfl, hinner⟩ := exists_group_of_upTo hcalls
      obtain ⟨_, hspells, hparts⟩ := ih hinner
      obtain ⟨part', _, hpart, hnil, rfl⟩ := List.forall₂_cons_left_iff.mp hparts
      cases hnil
      exact ⟨[.not part'], .not hspells, .cons (.not hpart) .nil⟩
  | append _ _ ih ih' =>
      obtain ⟨first, second, rfl, hfirst, hsecond⟩ := exists_append_of_forall₂ hcalls
      obtain ⟨parts₁, hspells₁, hparts₁⟩ := ih hfirst
      obtain ⟨parts₂, hspells₂, hparts₂⟩ := ih' hsecond
      exact ⟨parts₁ ++ parts₂, hspells₁.append hspells₂, List.rel_append hparts₁ hparts₂⟩

/-- If calls build an argument, so do calls that are the same up to columns, and what both write is
the same up to columns. -/
theorem SearchArgument.exists_ofCalls_of_upTo {a : SearchArgument} (ha : ofCalls calls = .ok a)
    (h : List.Forall₂ (Call.UpTo R) calls calls') :
    ∃ a' f f', ofCalls calls' = .ok a' ∧ a.Writes f ∧ a'.Writes f' ∧
      f.Relates (Predicate.UpTo R) f' := by
  obtain ⟨parts, nonempty, hspells, hwrites⟩ := ofCalls_eq_ok_iff.mp ha
  obtain ⟨parts', hspells', hparts⟩ := hspells.upTo h
  obtain ⟨a', ha', hwrites'⟩ := ofCalls_of_spells hspells' (ne_nil_of_forall₂ hparts nonempty)
  exact ⟨a', _, _, ha', hwrites, hwrites', .joined hparts⟩

end calls

/-! ### References that resolve alike -/

/-- Whether a reference is another one, or the place that this one stands for as a name. -/
inductive ColumnRef.Readdressed (schema : Schema) : ColumnRef → ColumnRef → Prop
  | same (column : ColumnRef) : Readdressed schema column column
  | place {name : String} {i : ℕ} {kind : Kind} (h : schema.resolve (.name name) = some (i, kind)) :
      Readdressed schema (.name name) (.ordinal i)

/-- The place of a column; any, if there is no such column. -/
def Schema.place (schema : Schema) (column : ColumnRef) : ℕ :=
  ((schema.resolve column).map Prod.fst).getD 0

variable {schema : Schema}

theorem ColumnRef.Readdressed.resolve {column column' : ColumnRef}
    (h : column.Readdressed schema column') : schema.resolve column = schema.resolve column' := by
  cases h with
  | same => rfl
  | place h =>
      rename_i i kind
      have hkind := Schema.kind?_of_resolve h
      rw [h]
      show _ = (do let kind ← schema.kind? i; return (i, kind))
      rw [hkind]
      rfl

theorem ColumnRef.Readdressed.eq_of_unresolved {column column' : ColumnRef}
    (h : column.Readdressed schema column') (unresolved : schema.resolve column = none) :
    column = column' := by
  cases h with
  | same => rfl
  | place h =>
      rw [h] at unresolved
      cases unresolved

/-- Whether two errors of binding are the same up to columns, which are related. -/
inductive SearchArgumentError.UpTo (R : ColumnRef → ColumnRef → Prop) :
    SearchArgumentError → SearchArgumentError → Prop
  | unresolvedColumn (column : ColumnRef) :
      UpTo R (.unresolvedColumn column) (.unresolvedColumn column)
  | columnKind {p q : Predicate} (h : p.UpTo R q) (actual : Kind) :
      UpTo R (.malformed (.columnKind p actual)) (.malformed (.columnKind q actual))

theorem Predicate.exists_bind_iff {resolve : ColumnRef → Option (ℕ × Kind)} {p : Predicate} :
    (∃ q, p.bind resolve = .ok q) ↔ ∃ i, resolve p.column = some (i, p.kind) := by
  constructor
  · rintro ⟨q, hq⟩
    exact ⟨q.column, (bind_eq_ok hq).2⟩
  · rintro ⟨i, hi⟩
    refine ⟨⟨p, i⟩, ?_⟩
    rw [Predicate.bind, hi]
    exact if_pos rfl

theorem Predicate.UpTo.bind {p q : Predicate} (h : p.UpTo (ColumnRef.Readdressed schema) q) :
    (∃ e e', p.bind schema.resolve = .error e ∧ q.bind schema.resolve = .error e' ∧
        e.UpTo (ColumnRef.Readdressed schema) e') ∨
      ∃ x y, p.bind schema.resolve = .ok x ∧ q.bind schema.resolve = .ok y := by
  have hresolve := h.column.resolve
  unfold Predicate.bind
  rw [← hresolve, ← h.kind]
  cases hp : schema.resolve p.column with
  | none =>
      rw [h.column.eq_of_unresolved hp]
      exact .inl ⟨_, _, rfl, rfl, .unresolvedColumn _⟩
  | some found =>
      obtain ⟨i, kind⟩ := found
      by_cases hkind : kind = p.kind
      · simp [hkind]
      · simp only [hkind, if_false]
        exact .inl ⟨_, _, rfl, rfl, .columnKind h kind⟩

namespace SearchArgument

variable {a a' : SearchArgument} {f f' : Formula Predicate}

/-- Binding ends as it would for all predicates that were written. -/
theorem Writes.outcome_bind (h : a.Writes f) :
    outcome (a.predicates.mapM (Predicate.bind schema.resolve)) =
      outcome (f.atoms.mapM (Predicate.bind schema.resolve)) := by
  apply h.outcome_mapM
  intro p q halike hp
  rw [Predicate.exists_bind_iff] at hp ⊢
  rwa [← halike.column, ← halike.kind]

theorem Writes.bind_of_error (h : a.Writes f) {e : SearchArgumentError}
    (he : f.atoms.mapM (Predicate.bind schema.resolve) = .error e) : a.bind schema = .error e := by
  have hpredicates : a.predicates.mapM (Predicate.bind schema.resolve) = .error e := by
    rw [← outcome_eq_error_iff, h.outcome_bind, outcome_eq_error_iff, he]
  rw [bind, bindWith, hpredicates]
  rfl

theorem Writes.bind_of_ok (h : a.Writes f) {xs : List BoundPredicate}
    (hxs : f.atoms.mapM (Predicate.bind schema.resolve) = .ok xs) :
    a.bind schema = .ok (a.placed schema.place) := by
  have hbound : ∃ ys, a.predicates.mapM (Predicate.bind schema.resolve) = .ok ys := by
    rw [← outcome_eq_ok_iff, h.outcome_bind, outcome_eq_ok_iff]
    exact ⟨xs, hxs⟩
  obtain ⟨ys, hys⟩ := hbound
  apply bindWith_eq_ok
  intro p hp
  obtain ⟨q, -, hq⟩ := exists_of_mem_left_mapM hys hp
  obtain ⟨-, hresolve⟩ := Predicate.bind_eq_ok hq
  rw [Schema.place, hresolve]
  rfl

/-- Arguments that write the same up to references fail to bind with errors that are the same up to
references, or both bind. -/
theorem Writes.bind_upTo (h : a.Writes f) (h' : a'.Writes f')
    (hf : f.Relates (Predicate.UpTo (ColumnRef.Readdressed schema)) f') :
    (∃ e e', a.bind schema = .error e ∧ a'.bind schema = .error e' ∧
        e.UpTo (ColumnRef.Readdressed schema) e') ∨
      a.bind schema = .ok (a.placed schema.place) ∧
        a'.bind schema = .ok (a'.placed schema.place) := by
  rcases mapM_ends_alike hf.atoms fun p q hpq => hpq.bind with
    ⟨e, e', he, he', hupTo⟩ | ⟨xs, ys, hxs, hys⟩
  · exact .inl ⟨e, e', h.bind_of_error he, h'.bind_of_error he', hupTo⟩
  · exact .inr ⟨h.bind_of_ok hxs, h'.bind_of_ok hys⟩

/-- Calls that are the same up to readdressed columns both fail to build an argument, or build
arguments that both fail to bind, or bind to arguments with the same evaluation. -/
theorem ofCalls_upTo {calls calls' : List Call}
    (h : List.Forall₂ (Call.UpTo (ColumnRef.Readdressed schema)) calls calls') :
    (∃ e e', ofCalls calls = .error e ∧ ofCalls calls' = .error e') ∨
      ∃ a a', ofCalls calls = .ok a ∧ ofCalls calls' = .ok a' ∧
        ((∃ e e', a.bind schema = .error e ∧ a'.bind schema = .error e' ∧
            e.UpTo (ColumnRef.Readdressed schema) e') ∨
          ∃ b b', a.bind schema = .ok b ∧ a'.bind schema = .ok b' ∧
            ∀ (σ : Type) (fetch : ℕ → Access σ (Option Statistics)),
              b.evaluate fetch = b'.evaluate fetch) := by
  cases ha : ofCalls calls with
  | error e =>
      cases ha' : ofCalls calls' with
      | error e' => exact .inl ⟨e, e', rfl, rfl⟩
      | ok a' =>
          have hflip : List.Forall₂ (Call.UpTo (flip (ColumnRef.Readdressed schema)))
              calls' calls := List.Forall₂.flip (h.imp fun _ _ => Call.UpTo.swap)
          obtain ⟨a, -, -, ha'', -⟩ := exists_ofCalls_of_upTo ha' hflip
          rw [ha] at ha''
          cases ha''
  | ok a =>
      obtain ⟨a', f, f', ha', hwrites, hwrites', hf⟩ := exists_ofCalls_of_upTo ha h
      refine .inr ⟨a, a', rfl, ha', ?_⟩
      rcases hwrites.bind_upTo hwrites' hf with herror | ⟨hb, hb'⟩
      · exact .inl herror
      · refine .inr ⟨_, _, hb, hb', fun σ fetch => ?_⟩
        apply hwrites.evaluate_eq hwrites' hf.shape
        refine hf.atoms.imp fun p q hpq => ⟨?_, hpq.test⟩
        rw [Schema.place, Schema.place, hpq.column.resolve]

end SearchArgument

end StripeScan
