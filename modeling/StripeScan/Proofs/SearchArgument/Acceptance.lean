import StripeScan.Proofs.SearchArgument.Builder

/-! # Which calls build a search argument

The rules of building, stated of the calls alone.  `Spells` is the grammar of calls whose groups are
all closed, `LeavesOpen` that of calls with groups left open, and `Breaks` says which call breaks a
rule after which others, and with what error.

Every sequence of calls is of one of three sorts (`calls_cases`): it spells conditions, it leaves
groups open, or some call in it is the first to break a rule.  The sort decides what is built
(`ofCalls_of_spells`, `ofCalls_of_leavesOpen`, `ofCalls_of_breaks`), so that exactly the
well-formed sequences are accepted, and any other is refused for its first fault
(`ofCalls_exact`). -/

namespace StripeScan

namespace Formula

variable {α β : Type}

/-- Several conditions in one formula; a single one stays as it is. -/
def joined : List (Formula α) → Formula α
  | [f] => f
  | fs => .and fs

theorem map_joined (g : α → β) (fs : List (Formula α)) :
    (joined fs).map g = joined (fs.map (map g)) := by
  match fs with
  | [] => simp [joined, map, mapList]
  | [f] => rfl
  | f :: f' :: fs => simp [joined, map, mapList_eq_map]

theorem atoms_joined (fs : List (Formula α)) : (joined fs).atoms = fs.flatMap atoms := by
  match fs with
  | [] => simp [joined, atoms, atomsList]
  | [f] => simp [joined]
  | f :: f' :: fs => simp [joined, atoms, atomsList_eq_flatMap]

end Formula

namespace SearchArgument

/-! ### The rules -/

/-- Calls that break no rule and leave this many groups open. -/
inductive LeavesOpen : List Call → ℕ → Prop
  | closed {calls : List Call} {parts : List (Formula Predicate)} (h : Spells calls parts) :
      LeavesOpen calls 0
  | opened {outer inner : List Call} {n : ℕ} {parts : List (Formula Predicate)}
      (connective : Connective) (h : LeavesOpen outer n) (parts : Spells inner parts) :
      LeavesOpen (outer ++ .start connective :: inner) (n + 1)

/-- Whether a call that is made after others breaks a rule: a predicate does not pass its checks,
no group is open that could be closed, or the group that is closed has too few or too many parts. -/
inductive Breaks : List Call → Call → Malformed → Prop
  | test {before : List Call} {column : ColumnRef} {operator : Operator} {kind : Kind}
      {literals : List Literal} {e : Malformed}
      (refused : Predicate.ofParts column operator kind literals = .error e) :
      Breaks before (.test column operator kind literals) e
  | unmatchedEnd {before : List Call} {parts : List (Formula Predicate)}
      (h : Spells before parts) : Breaks before .finish .unmatchedEnd
  | emptyGroup {outer inner : List Call} (connective : Connective) (h : Spells inner []) :
      Breaks (outer ++ .start connective :: inner) .finish (.emptyGroup connective)
  | negatedParts {outer inner : List Call} {parts : List (Formula Predicate)}
      (h : Spells inner parts) (several : 1 < parts.length) :
      Breaks (outer ++ .start .not :: inner) .finish (.negatedParts parts.length)

/-- Whether no call breaks a rule. -/
def KeepsRules (calls : List Call) : Prop :=
  ∀ before call after, calls = before ++ call :: after → ∀ e, ¬ Breaks before call e

/-- Whether an argument is a formula over predicates, flattened, with the predicates numbered in the
order in which the formula names them. -/
def Writes (a : SearchArgument) (f : Formula Predicate) : Prop :=
  ∃ h : Formula (ℕ × Predicate), h.map Prod.snd = f ∧
    a.formula = (h.map Prod.fst).flatten ∧ Numbers [] h.atoms a.predicates

theorem Writes.unique {a a' : SearchArgument} {f : Formula Predicate} (h : a.Writes f)
    (h' : a'.Writes f) : a = a' := by
  obtain ⟨g, hf, hformula, hnumbers⟩ := h
  obtain ⟨g', hf', hformula', hnumbers'⟩ := h'
  have hshape : g.shape = g'.shape := by
    rw [← Formula.shape_map Prod.snd g, ← Formula.shape_map Prod.snd g', hf, hf']
  have hpredicates : g.atoms.map Prod.snd = g'.atoms.map Prod.snd := by
    rw [← Formula.atoms_map, ← Formula.atoms_map, hf, hf']
  obtain ⟨hatoms, hnew⟩ := hnumbers.unique hnumbers' hpredicates
  obtain rfl := Formula.eq_of_shape hshape hatoms
  obtain ⟨predicates, formula⟩ := a
  obtain ⟨predicates', formula'⟩ := a'
  simp only at hformula hformula' hnew
  rw [hformula, hformula', hnew]

theorem LeavesOpen.append {calls more : List Call} {n : ℕ} {parts : List (Formula Predicate)}
    (h : LeavesOpen calls n) (hmore : Spells more parts) : LeavesOpen (calls ++ more) n := by
  cases h with
  | closed h => exact .closed (h.append hmore)
  | opened connective outer inner =>
      rw [List.append_assoc, List.cons_append]
      exact .opened connective outer (inner.append hmore)

/-! ### What the calls leave in the builder -/

open Builder

variable {calls outer inner : List Call} {parts : List (Formula Predicate)} {b : Builder}

theorem run_of_spells (h : Spells calls parts) (b : Builder) :
    ∃ (predicates : List Predicate) (gs : List (Formula ℕ)), gs.length = parts.length ∧
      calls.foldlM step b = .ok (gs.foldl add { b with predicates := predicates }) := by
  obtain ⟨new, hs, hrun, rfl, -⟩ := adds_of_spells h b
  exact ⟨_, hs.map (Formula.map Prod.fst), by rw [List.length_map, List.length_map], hrun⟩

/-- Calls with all groups closed leave none open. -/
theorem groups_of_spells (h : Spells calls parts) (hrun : calls.foldlM step .empty = .ok b) :
    b.groups = [] ∧ b.top.length = parts.length := by
  obtain ⟨predicates, gs, hlength, hgs⟩ := run_of_spells h .empty
  rw [hrun, show Builder.empty = ⟨[], [], []⟩ from rfl, foldl_add_top] at hgs
  cases hgs
  exact ⟨rfl, by rw [List.nil_append, hlength]⟩

/-- A group that is open holds what the calls since its start spell. -/
theorem groups_of_opened {connective : Connective} (h : Spells inner parts)
    (hrun : (outer ++ .start connective :: inner).foldlM step .empty = .ok b) :
    ∃ b₀ gs, outer.foldlM step .empty = .ok b₀ ∧ gs.length = parts.length ∧
      b.groups = ⟨connective, gs⟩ :: b₀.groups := by
  rw [List.foldlM_append] at hrun
  obtain ⟨b₀, houter, hrun⟩ := bind_eq_ok_iff.mp hrun
  obtain ⟨predicates, gs, hlength, hgs⟩ :=
    run_of_spells h { b₀ with groups := ⟨connective, []⟩ :: b₀.groups }
  rw [List.foldlM_cons, step, bind_ok, hgs, foldl_add_group, List.nil_append] at hrun
  cases hrun
  exact ⟨b₀, gs, houter, hlength, rfl⟩

theorem LeavesOpen.run {n : ℕ} (h : LeavesOpen calls n) :
    ∃ b, calls.foldlM step .empty = .ok b ∧ b.groups.length = n := by
  induction h with
  | closed h =>
      obtain ⟨predicates, gs, -, hrun⟩ := run_of_spells h .empty
      exact ⟨_, hrun, by rw [(groups_of_spells h hrun).1, List.length_nil]⟩
  | @opened outer inner n parts connective _ hinner ih =>
      obtain ⟨b₀, houter, rfl⟩ := ih
      obtain ⟨predicates, gs, -, hgs⟩ :=
        run_of_spells hinner { b₀ with groups := ⟨connective, []⟩ :: b₀.groups }
      rw [foldl_add_group] at hgs
      refine ⟨⟨predicates, ⟨connective, [] ++ gs⟩ :: b₀.groups, b₀.top⟩, ?_, rfl⟩
      rw [List.foldlM_append, houter, bind_ok, List.foldlM_cons, step, bind_ok, hgs]

/-! ### Single calls -/

theorem step_finish_of_error {group : Group} {rest : List Group} {e : Malformed}
    (hgroups : b.groups = group :: rest) (hclose : close group = .error e) :
    b.step .finish = .error e := by
  rw [step, hgroups]
  show (close group).map _ = _
  rw [hclose]
  rfl

/-- Closing a group fails with the error of the rule that it breaks. -/
theorem Breaks.step_eq {before : List Call} {call : Call} {e : Malformed}
    (h : Breaks before call e) (hrun : before.foldlM step .empty = .ok b) :
    b.step call = .error e := by
  cases h with
  | test refused =>
      rw [step, refused]
      rfl
  | unmatchedEnd hspells => rw [step, (groups_of_spells hspells hrun).1]
  | emptyGroup connective hspells =>
      obtain ⟨b₀, gs, -, hlength, hgroups⟩ := groups_of_opened hspells hrun
      obtain rfl := List.length_eq_zero_iff.mp hlength
      exact step_finish_of_error hgroups (by cases connective <;> rfl)
  | negatedParts hspells several =>
      obtain ⟨b₀, gs, -, hlength, hgroups⟩ := groups_of_opened hspells hrun
      rw [← hlength] at several ⊢
      cases gs with
      | nil => cases several
      | cons g gs =>
          cases gs with
          | nil => simp at several
          | cons g' rest => exact step_finish_of_error hgroups rfl

/-- The calls of a group that is closed spell a formula, or its end breaks a rule. -/
theorem spells_or_breaks (connective : Connective) (outer : List Call) (h : Spells inner parts) :
    (∃ g, Spells (.start connective :: (inner ++ [.finish])) [g]) ∨
      ∃ e, Breaks (outer ++ .start connective :: inner) .finish e := by
  match parts, h with
  | [], h => exact .inr ⟨_, .emptyGroup connective h⟩
  | f :: fs, h =>
      cases connective with
      | and => exact .inl ⟨_, .and h (List.cons_ne_nil f fs)⟩
      | or => exact .inl ⟨_, .or h (List.cons_ne_nil f fs)⟩
      | not =>
          match fs, h with
          | [], h => exact .inl ⟨_, .not h⟩
          | f' :: fs, h => exact .inr ⟨_, .negatedParts h (by simp)⟩

/-- A call after others that break no rule breaks none either, or is the first to break one. -/
theorem LeavesOpen.call {before : List Call} {n : ℕ} (h : LeavesOpen before n) (call : Call) :
    (∃ m, LeavesOpen (before ++ [call]) m) ∨ ∃ e, Breaks before call e := by
  cases call with
  | start connective => exact .inl ⟨n + 1, .opened connective h .nil⟩
  | test column operator kind literals =>
      cases hp : Predicate.ofParts column operator kind literals with
      | ok p => exact .inl ⟨n, h.append (.test hp)⟩
      | error e => exact .inr ⟨e, .test hp⟩
  | finish =>
      cases h with
      | closed h => exact .inr ⟨_, .unmatchedEnd h⟩
      | @opened outer inner n parts connective houter hinner =>
          rcases spells_or_breaks connective outer hinner with ⟨g, hg⟩ | hbreaks
          · rw [List.append_assoc, List.cons_append]
            exact .inl ⟨n, houter.append hg⟩
          · exact .inr hbreaks

/-! ### The three sorts of sequences -/

/-- Calls break no rule, or one of them is the first to break one. -/
theorem leavesOpen_or_breaks (calls : List Call) :
    (∃ n, LeavesOpen calls n) ∨ ∃ before call after n e,
      calls = before ++ call :: after ∧ LeavesOpen before n ∧ Breaks before call e := by
  -- On the calls from the first on: a fault stays the first whatever follows.
  induction calls using List.reverseRecOn with
  | nil => exact .inl ⟨0, .closed .nil⟩
  | append_singleton calls call ih =>
      rcases ih with ⟨n, h⟩ | ⟨before, call', after, n, e, rfl, h, hbreaks⟩
      · rcases h.call call with hopen | ⟨e, hbreaks⟩
        · exact .inl hopen
        · exact .inr ⟨calls, call, [], n, e, rfl, h, hbreaks⟩
      · exact .inr ⟨before, call', after ++ [call], n, e, by simp, h, hbreaks⟩

theorem calls_cases (calls : List Call) :
    (∃ parts, Spells calls parts) ∨ (∃ n, LeavesOpen calls (n + 1)) ∨
      ∃ before call after n e,
        calls = before ++ call :: after ∧ LeavesOpen before n ∧ Breaks before call e := by
  rcases leavesOpen_or_breaks calls with ⟨n, h⟩ | hbreaks
  · cases h with
    | closed h => exact .inl ⟨_, h⟩
    | opened connective outer inner => exact .inr (.inl ⟨_, .opened connective outer inner⟩)
  · exact .inr (.inr hbreaks)

theorem keepsRules_iff {calls : List Call} : KeepsRules calls ↔ ∃ n, LeavesOpen calls n := by
  constructor
  · intro h
    rcases leavesOpen_or_breaks calls with hopen | ⟨before, call, after, n, e, hcalls, -, he⟩
    · exact hopen
    · exact absurd he (h before call after hcalls e)
  · rintro ⟨n, h⟩ before call after rfl e hbreaks
    obtain ⟨b, hrun, -⟩ := h.run
    rw [List.foldlM_append] at hrun
    obtain ⟨b₀, hbefore, hrun⟩ := bind_eq_ok_iff.mp hrun
    rw [List.foldlM_cons, hbreaks.step_eq hbefore] at hrun
    cases hrun

/-! ### What is built -/

theorem ofCalls_of_spells_nil (h : Spells calls []) : ofCalls calls = .error .empty := by
  obtain ⟨b, hrun, -⟩ := (LeavesOpen.closed h).run
  obtain ⟨hgroups, htop⟩ := groups_of_spells h hrun
  rw [ofCalls, hrun, bind_ok, build, hgroups, List.length_eq_zero_iff.mp htop]

theorem ofCalls_of_spells (h : Spells calls parts) (nonempty : parts ≠ []) :
    ∃ a, ofCalls calls = .ok a ∧ a.Writes (.joined parts) := by
  obtain ⟨new, hs, hrun, hparts, hnumbers⟩ := adds_of_spells h .empty
  rw [show Builder.empty = ⟨[], [], []⟩ from rfl, foldl_add_top] at hrun
  simp only [List.nil_append] at hrun
  have hbuild : build ⟨new, [], hs.map (Formula.map Prod.fst)⟩ =
      .ok ⟨new, (Formula.joined (hs.map (Formula.map Prod.fst))).flatten⟩ := by
    match hs, map_ne_nil (g := id) hparts nonempty with
    | [f], _ => rfl
    | f :: f' :: fs, _ => rfl
  refine ⟨⟨new, (Formula.joined (hs.map (Formula.map Prod.fst))).flatten⟩, ?_,
    .joined hs, ?_, ?_, ?_⟩
  · rw [ofCalls, show Builder.empty = ⟨[], [], []⟩ from rfl, hrun, bind_ok, hbuild]
  · rw [Formula.map_joined, hparts]
  · rw [Formula.map_joined]
  · rw [Formula.atoms_joined]
    exact hnumbers

theorem ofCalls_of_leavesOpen {n : ℕ} (h : LeavesOpen calls (n + 1)) :
    ofCalls calls = .error (.openGroups (n + 1)) := by
  obtain ⟨b, hrun, hlength⟩ := h.run
  rw [ofCalls, hrun, bind_ok, build]
  match hgroups : b.groups, hlength with
  | g :: gs, hlength => rw [← hlength]

theorem ofCalls_of_breaks {before after : List Call} {call : Call} {n : ℕ} {e : Malformed}
    (h : LeavesOpen before n) (hbreaks : Breaks before call e) :
    ofCalls (before ++ call :: after) = .error e := by
  obtain ⟨b, hrun, -⟩ := h.run
  rw [ofCalls, List.foldlM_append, hrun, bind_ok, List.foldlM_cons, hbreaks.step_eq hrun]
  rfl

/-- Calls build the argument that writes what they spell. -/
theorem ofCalls_eq_ok_iff {a : SearchArgument} : ofCalls calls = .ok a ↔
    ∃ parts, parts ≠ [] ∧ Spells calls parts ∧ a.Writes (.joined parts) := by
  constructor
  · intro ha
    rcases calls_cases calls with
      ⟨parts, h⟩ | ⟨n, h⟩ | ⟨before, call, after, n, e, rfl, h, hbreaks⟩
    · have nonempty : parts ≠ [] := by
        rintro rfl
        rw [ofCalls_of_spells_nil h] at ha
        cases ha
      obtain ⟨a', ha', hwrites⟩ := ofCalls_of_spells h nonempty
      rw [ha, Except.ok.injEq] at ha'
      exact ⟨parts, nonempty, h, ha' ▸ hwrites⟩
    · rw [ofCalls_of_leavesOpen h] at ha
      cases ha
    · rw [ofCalls_of_breaks h hbreaks] at ha
      cases ha
  · rintro ⟨parts, nonempty, h, hwrites⟩
    obtain ⟨a', ha', hwrites'⟩ := ofCalls_of_spells h nonempty
    rw [ha', hwrites.unique hwrites']

theorem exists_ofCalls_iff :
    (∃ a, ofCalls calls = .ok a) ↔ ∃ parts, parts ≠ [] ∧ Spells calls parts := by
  constructor
  · rintro ⟨a, ha⟩
    obtain ⟨parts, nonempty, h, -⟩ := ofCalls_eq_ok_iff.mp ha
    exact ⟨parts, nonempty, h⟩
  · rintro ⟨parts, nonempty, h⟩
    obtain ⟨a, ha, -⟩ := ofCalls_of_spells h nonempty
    exact ⟨a, ha⟩

/-- Exactly the well-formed sequences of calls are accepted.  Calls build an argument exactly if
they spell at least one condition, and then it writes the conditions that they spell.  Otherwise the
error is that of the first call that breaks a rule, whatever follows; if none does, it tells how
many groups are left open, and only if none is, that there is no condition. -/
theorem ofCalls_exact (calls : List Call) :
    ((∃ a, ofCalls calls = .ok a) ↔ ∃ parts, parts ≠ [] ∧ Spells calls parts) ∧
      (∀ a, ofCalls calls = .ok a ↔
        ∃ parts, parts ≠ [] ∧ Spells calls parts ∧ a.Writes (.joined parts)) ∧
      ∀ e, ofCalls calls = .error e ↔
        (∃ before call after, calls = before ++ call :: after ∧ KeepsRules before ∧
          Breaks before call e) ∨
        (KeepsRules calls ∧ ∃ n, LeavesOpen calls (n + 1) ∧ e = .openGroups (n + 1)) ∨
        (KeepsRules calls ∧ Spells calls [] ∧ e = .empty) := by
  refine ⟨exists_ofCalls_iff, fun a => ofCalls_eq_ok_iff, fun e => ⟨fun he => ?_, ?_⟩⟩
  · rcases calls_cases calls with
      ⟨parts, h⟩ | ⟨n, h⟩ | ⟨before, call, after, n, e', rfl, h, hbreaks⟩
    · by_cases nonempty : parts = []
      · subst nonempty
        rw [ofCalls_of_spells_nil h, Except.error.injEq] at he
        exact .inr (.inr ⟨keepsRules_iff.mpr ⟨0, .closed h⟩, h, he.symm⟩)
      · obtain ⟨a, ha, -⟩ := ofCalls_of_spells h nonempty
        rw [ha] at he
        cases he
    · rw [ofCalls_of_leavesOpen h, Except.error.injEq] at he
      exact .inr (.inl ⟨keepsRules_iff.mpr ⟨_, h⟩, n, h, he.symm⟩)
    · rw [ofCalls_of_breaks h hbreaks, Except.error.injEq] at he
      subst he
      exact .inl ⟨before, call, after, rfl, keepsRules_iff.mpr ⟨n, h⟩, hbreaks⟩
  · rintro (⟨before, call, after, rfl, hkeeps, hbreaks⟩ | ⟨-, n, h, rfl⟩ | ⟨-, h, rfl⟩)
    · obtain ⟨n, h⟩ := keepsRules_iff.mp hkeeps
      exact ofCalls_of_breaks h hbreaks
    · exact ofCalls_of_leavesOpen h
    · exact ofCalls_of_spells_nil h

/-- The end without a start is the first fault; the group left open is not. -/
example : ofCalls [.finish, .start .not, .start .and] = .error .unmatchedEnd := rfl

end SearchArgument

end StripeScan
