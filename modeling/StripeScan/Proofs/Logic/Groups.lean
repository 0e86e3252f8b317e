import StripeScan.Proofs.Logic.Meaning
import StripeScan.Proofs.Logic.Nulls

/-! # Groups of many parts

The truth of a conjunction or disjunction is found by folding, one part after the other.  It can
also be said of all parts at once: one truth decides the group, then a second one, a third one adds
nothing, and otherwise the group is what all its parts are (`Truth.combined`).  Both agree for
every list (`Truth.foldl_and_eq_combined`, `Truth.foldl_or_eq_combined`).

What carries this is that folding with a commutative, associative and idempotent operation depends
on the members of the list only (`foldl_congr_of_mem_iff`): a part whose truth decides the group may
as well stand at its end.  For the same reason parts may be permuted, repeated and regrouped
(`Formula.Rearranged.eval_eq`).

Exchanging conjunctions and disjunctions throughout a formula and negating its atoms negates it
(`Formula.truth_dual`).  `Formula.truth_groups` puts these together. -/

namespace StripeScan

/-- Folding with a commutative, associative and idempotent operation does not show in which order
and how often the members of a list occur. -/
theorem foldl_congr_of_mem_iff {γ : Type} {op : γ → γ → γ} (comm : ∀ a b, op a b = op b a)
    (assoc : ∀ a b c, op (op a b) c = op a (op b c)) (idem : ∀ a, op a a = a) {cs ds : List γ}
    (same : ∀ c, c ∈ cs ↔ c ∈ ds) (start : γ) : cs.foldl op start = ds.foldl op start := by
  classical
  have : Std.Commutative op := ⟨comm⟩
  have : Std.Associative op := ⟨assoc⟩
  have : Std.IdempotentOp op := ⟨idem⟩
  have once (es : List γ) : es.foldl op start = (es : Multiset γ).dedup.fold op start := by
    rw [Multiset.fold_dedup_idem, Multiset.coe_fold_l]
  have hdedup : (cs : Multiset γ).dedup = (ds : Multiset γ).dedup := by
    rw [Multiset.dedup_ext]
    exact same
  rw [once cs, once ds, hdedup]

namespace Truth

/-! ### All parts at once -/

/-- What all truths of a list are: `idle` if there are none, `yesNoNull` if they differ. -/
def shared (idle : Truth) : List Truth → Truth
  | [] => idle
  | t :: ts => if ∀ u ∈ ts, u = t then t else yesNoNull

/-- The truth of a group from those of all its parts.  A part that is `decisive` decides it, then
one that is `weak`; parts that are `idle` are ignored, and it is what all others are. -/
def combined (decisive weak idle : Truth) (ts : List Truth) : Truth :=
  if decisive ∈ ts then decisive
  else if weak ∈ ts then weak
  else shared idle (ts.filter (· ≠ idle))

theorem not_injective : Function.Injective not := Function.LeftInverse.injective not_not

theorem not_shared (idle : Truth) (ts : List Truth) :
    (shared idle ts).not = shared idle.not (ts.map not) := by
  cases ts with
  | nil => rfl
  | cons t ts =>
      rw [List.map_cons, shared, shared, apply_ite not]
      simp only [List.forall_mem_map, not_injective.eq_iff]
      rfl

/-- Negating all parts negates a group in which the negated truths play the same roles. -/
theorem not_combined (decisive weak idle : Truth) (ts : List Truth) :
    (combined decisive weak idle ts).not =
      combined decisive.not weak.not idle.not (ts.map not) := by
  have hfilter : (ts.map not).filter (· ≠ idle.not) = (ts.filter (· ≠ idle)).map not := by
    rw [List.filter_map]
    simp only [Function.comp_def, ne_eq, not_injective.eq_iff]
  rw [combined, combined, hfilter, ← not_shared, apply_ite not, apply_ite not]
  simp only [List.mem_map_of_injective not_injective]

/-! ### Folding conjunctions -/

theorem and_self (t : Truth) : t.and t = t := by cases t <;> rfl

theorem no_and (t : Truth) : no.and t = no := by cases t <;> rfl

variable {t u : Truth} {ts us : List Truth}

theorem noNull_and (h : t ≠ no) : noNull.and t = noNull := by
  cases t with
  | no => exact absurd rfl h
  | _ => rfl

theorem and_ne_no (ht : t ≠ no) (hu : u ≠ no) : t.and u ≠ no := by
  cases t <;> cases u <;> simp_all [and]

/-- Parts that decide nothing and differ leave everything open. -/
theorem and_of_ne (ht : t.isNeeded = true) (hu : u.isNeeded = true) (ht' : t ≠ yes) (hu' : u ≠ yes)
    (hne : u ≠ t) : t.and u = yesNoNull := by
  cases t <;> cases u <;> simp_all [and, isNeeded]

theorem yesNoNull_and (h : t.isNeeded = true) : yesNoNull.and t = yesNoNull := by
  cases t <;> simp_all [and, isNeeded]

theorem foldl_and_congr (same : ∀ t, t ∈ ts ↔ t ∈ us) : ts.foldl and yes = us.foldl and yes :=
  foldl_congr_of_mem_iff and_comm and_assoc and_self same yes

theorem foldl_or_congr (same : ∀ t, t ∈ ts ↔ t ∈ us) : ts.foldl or no = us.foldl or no :=
  foldl_congr_of_mem_iff or_comm or_assoc or_self same no

/-- A conjunction already says what each of its parts says. -/
theorem and_foldl_and_of_mem (h : t ∈ ts) : t.and (ts.foldl and yes) = ts.foldl and yes := by
  calc t.and (ts.foldl and yes) = (ts ++ [t]).foldl and yes := by
        rw [and_comm, List.foldl_append]
        rfl
    _ = ts.foldl and yes := by
        apply foldl_and_congr
        intro u
        rw [List.mem_append, List.mem_singleton]
        exact or_iff_left_of_imp fun hu => hu ▸ h

theorem foldl_and_ne_no (ht : t ≠ no) (h : no ∉ ts) : ts.foldl and t ≠ no := by
  induction ts generalizing t with
  | nil => exact ht
  | cons u ts ih =>
      exact ih (and_ne_no ht (List.ne_of_not_mem_cons h).symm) (List.not_mem_of_not_mem_cons h)

/-- Parts of truth `yes` do not show in a conjunction. -/
theorem foldl_and_filter (ts : List Truth) :
    (ts.filter (· ≠ yes)).foldl and yes = ts.foldl and yes := by
  have h : (yes :: ts.filter (· ≠ yes)).foldl and yes = (yes :: ts).foldl and yes := by
    apply foldl_and_congr
    intro t
    by_cases ht : t = yes <;> simp [ht]
  exact h

theorem isNeeded_foldl_and_yes (h : ∀ t ∈ ts, t.isNeeded = true) :
    (ts.foldl and yes).isNeeded = true := by
  rw [isNeeded_foldl_and, List.all_eq_true.mpr h]
  rfl

/-- A conjunction is what all its parts are if none decides it and none leaves it to the others. -/
theorem foldl_and_eq_shared (needed : ∀ t ∈ ts, t.isNeeded = true) (notYes : ∀ t ∈ ts, t ≠ yes) :
    ts.foldl and yes = shared yes ts := by
  cases ts with
  | nil => rfl
  | cons t ts =>
      rw [shared]
      split
      case isTrue hsame =>
        calc (t :: ts).foldl and yes = [t].foldl and yes := by
              apply foldl_and_congr
              intro u
              rw [List.mem_cons, List.mem_singleton]
              exact or_iff_left_of_imp (hsame u)
          _ = t := yes_and t
      case isFalse hdiffer =>
        obtain ⟨u, hu, hne⟩ : ∃ u ∈ ts, u ≠ t := by simpa using hdiffer
        have ht := List.mem_cons_self (a := t) (l := ts)
        have hu := List.mem_cons_of_mem t hu
        -- The conjunction says what both parts say, and together they leave everything open.
        rw [← and_foldl_and_of_mem ht, ← and_foldl_and_of_mem hu, ← and_assoc,
          and_of_ne (needed t ht) (needed u hu) (notYes t ht) (notYes u hu) hne,
          yesNoNull_and (isNeeded_foldl_and_yes needed)]

/-- Folding finds the truth of a conjunction of any number of parts. -/
theorem foldl_and_eq_combined (ts : List Truth) :
    ts.foldl and yes = combined no noNull yes ts := by
  rw [combined]
  split
  case isTrue h =>
    rw [← and_foldl_and_of_mem h, no_and]
  case isFalse hno =>
    split
    case isTrue h =>
      rw [← and_foldl_and_of_mem h, noNull_and (foldl_and_ne_no (by decide) hno)]
    case isFalse hnoNull =>
      rw [← foldl_and_filter]
      apply foldl_and_eq_shared
      · intro t ht
        have ht := List.mem_of_mem_filter ht
        exact allows_true_iff.mpr ⟨fun h => hno (h ▸ ht), fun h => hnoNull (h ▸ ht)⟩
      · intro t ht
        simpa using List.of_mem_filter ht

/-- Folding finds the truth of a disjunction of any number of parts. -/
theorem foldl_or_eq_combined (ts : List Truth) :
    ts.foldl or no = combined yes yesNull no ts := by
  apply not_injective
  calc (ts.foldl or no).not = (ts.map not).foldl and yes := not_foldl_or ts no
    _ = combined no noNull yes (ts.map not) := foldl_and_eq_combined _
    _ = (combined yes yesNull no ts).not := (not_combined yes yesNull no ts).symm

end Truth

namespace Formula

variable {α γ : Type}

/-! ### Rearranging the parts of a group -/

/-- Whether lists of parts arise from each other by permuting parts, repeating them and collecting
some of them in a group of their own. -/
inductive Rearranged (group : List (Formula α) → Formula α) :
    List (Formula α) → List (Formula α) → Prop
  | permuted {fs gs : List (Formula α)} (h : fs.Perm gs) : Rearranged group fs gs
  | repeated {f : Formula α} {fs : List (Formula α)} (h : f ∈ fs) : Rearranged group fs (f :: fs)
  | regrouped (fs gs hs : List (Formula α)) :
      Rearranged group (fs ++ gs ++ hs) (fs ++ group gs :: hs)
  | symm {fs gs : List (Formula α)} (h : Rearranged group fs gs) : Rearranged group gs fs
  | trans {fs gs hs : List (Formula α)} (h : Rearranged group fs gs)
      (h' : Rearranged group gs hs) : Rearranged group fs hs

/-- A value of groups that depends on the members of a list only, and not on whether some of them
are collected first, does not show how the parts are arranged. -/
theorem Rearranged.eval_eq {group : List (Formula α) → Formula α} {eval : Formula α → γ}
    {collect : List γ → γ} (found : ∀ parts, eval (group parts) = collect (parts.map eval))
    (merges : Merges collect)
    (members : ∀ {cs ds : List γ}, (∀ c, c ∈ cs ↔ c ∈ ds) → collect cs = collect ds)
    {fs gs : List (Formula α)} (h : Rearranged group fs gs) :
    eval (group fs) = eval (group gs) := by
  induction h with
  | permuted h =>
      rw [found, found]
      exact members fun c => (h.map eval).mem_iff
  | @repeated f fs h =>
      rw [found, found]
      apply members
      intro c
      rw [List.map_cons, List.mem_cons]
      exact (or_iff_right_of_imp fun hc => hc ▸ List.mem_map_of_mem h).symm
  | regrouped fs gs hs =>
      rw [found, found, List.map_append, List.map_append, List.map_append, List.map_cons, found,
        merges.splice]
  | symm _ ih => exact ih.symm
  | trans _ _ ih ih' => exact ih.trans ih'

/-! ### Duality -/

mutual
/-- The formula with conjunctions and disjunctions exchanged. -/
def dual : Formula α → Formula α
  | .atom a => .atom a
  | .and parts => .or (dualList parts)
  | .or parts => .and (dualList parts)
  | .not part => .not (dual part)
/-- The formulas with conjunctions and disjunctions exchanged. -/
def dualList : List (Formula α) → List (Formula α)
  | [] => []
  | f :: fs => dual f :: dualList fs
end

theorem dualList_eq_map (fs : List (Formula α)) : dualList fs = fs.map dual := by
  induction fs with
  | nil => rfl
  | cons f fs ih => rw [dualList, ih, List.map_cons]

/-- A value found part by part is found on the dual with the operations exchanged. -/
theorem Compositional.dual {eval : Formula α → γ} {all any : List γ → γ} {neg : γ → γ}
    (h : Compositional eval all any neg) :
    Compositional (fun f => eval f.dual) any all neg where
  and parts := by rw [Formula.dual, dualList_eq_map, h.or, List.map_map]; rfl
  or parts := by rw [Formula.dual, dualList_eq_map, h.and, List.map_map]; rfl
  not _ := by rw [Formula.dual, h.not]

/-- The negated truth is found part by part, conjunctions as disjunctions of what is negated. -/
theorem compositional_not_truth (value : α → Truth) :
    Compositional (fun f => (truth value f).not) (·.foldl Truth.or .no) (·.foldl Truth.and .yes)
      Truth.not where
  and parts := by rw [truth, truthList_eq_map, Truth.not_foldl_and, List.map_map]; rfl
  or parts := by rw [truth, truthList_eq_map, Truth.not_foldl_or, List.map_map]; rfl
  not _ := by rw [truth]

/-- Duality goes through the whole formula. -/
theorem truth_dual (value : α → Truth) (f : Formula α) :
    f.dual.truth (fun a => (value a).not) = (f.truth value).not := by
  apply (compositional_truth _).dual.eq_of_atoms (compositional_not_truth value)
  intro a _
  rw [dual, truth, truth]

/-- Negations stay where they are. -/
example : (and [.atom 0, .not (.or [.atom 1, .and []])]).dual =
    or [.atom 0, .not (.and [.atom 1, .or []])] := by
  decide

/-- What a group is worth.  Folding gives what all parts give at once: a part that is false of every
row decides a conjunction, then one that is false or unknown, parts that are true add nothing, and
the conjunction is what all others are, if they are the same; dually for disjunctions.  So the value
of a group stays when its parts are permuted, repeated and regrouped.  And a formula with
conjunctions and disjunctions exchanged and all truths negated has the negated value, also where
numbers beyond the end of the list stand for what is not known. -/
theorem truth_groups :
    (∀ ts : List Truth, ts.foldl Truth.and .yes = .combined .no .noNull .yes ts ∧
        ts.foldl Truth.or .no = .combined .yes .yesNull .no ts) ∧
      (∀ (value : ℕ → Truth) (fs gs : List (Formula ℕ)),
        (Rearranged and fs gs → (and fs).truth value = (and gs).truth value) ∧
          (Rearranged or fs gs → (or fs).truth value = (or gs).truth value)) ∧
      ∀ (values : List Truth) (f : Formula ℕ),
        (f.dual.truth fun i => (values.map Truth.not).getD i .yesNoNull) =
          (f.truth fun i => values.getD i .yesNoNull).not := by
  refine ⟨fun ts => ⟨Truth.foldl_and_eq_combined ts, Truth.foldl_or_eq_combined ts⟩,
    fun value fs gs => ?_, fun values f => ?_⟩
  · have parted := compositional_truth value
    constructor
    · exact Rearranged.eval_eq parted.and Truth.merges_and Truth.foldl_and_congr
    · exact Rearranged.eval_eq parted.or Truth.merges_or Truth.foldl_or_congr
  · rw [← truth_dual]
    congr 1
    funext i
    -- What is not known is its own negation.
    exact List.getD_map values .yesNoNull Truth.not

/-- Two parts that differ, in the other order and one of them twice, two of them in a group. -/
theorem truth_groups_twoParts :
    (Rearranged and [.atom 0, .atom 1] [and [.atom 1, .atom 0], .atom 0] ∧
        ((and [.atom 0, .atom 1]).truth fun i => [Truth.yesNo, .noNull].getD i .yesNoNull) =
          (and [and [.atom 1, .atom 0], .atom 0]).truth fun i =>
            [Truth.yesNo, .noNull].getD i .yesNoNull) ∧
      Rearranged or [.atom 0, .atom 1] [or [.atom 1, .atom 0], .atom 0] ∧
        ((or [.atom 0, .atom 1]).truth fun i => [Truth.yesNo, .noNull].getD i .yesNoNull) =
          (or [or [.atom 1, .atom 0], .atom 0]).truth fun i =>
            [Truth.yesNo, .noNull].getD i .yesNoNull := by
  have arranged (group : List (Formula ℕ) → Formula ℕ) :
      Rearranged group [.atom 0, .atom 1] [group [.atom 1, .atom 0], .atom 0] := by
    apply Rearranged.trans (.permuted (List.Perm.swap _ _ _))
    apply Rearranged.trans (.repeated (f := .atom 0) (by simp))
    apply Rearranged.trans (.permuted (List.Perm.swap _ _ _))
    exact .regrouped [] [.atom 1, .atom 0] [.atom 0]
  have hvalue := truth_groups.2.1 (fun i => [Truth.yesNo, .noNull].getD i .yesNoNull)
  exact ⟨⟨arranged and, (hvalue _ _).1 (arranged and)⟩, arranged or,
    (hvalue _ _).2 (arranged or)⟩

end Formula

end StripeScan
