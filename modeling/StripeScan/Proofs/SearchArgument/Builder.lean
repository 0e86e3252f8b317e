import StripeScan.Proofs.Logic.Meaning
import StripeScan.Proofs.Outcome
import StripeScan.Proofs.SearchArgument.Alike
import StripeScan.SearchArgument.Basic

/-! # Builders

`Spells` is the grammar of calls: which calls spell which formulas over predicates.
`Formula.spell` lists the calls that spell a formula, depth first (`spells_spell`).

Building replaces each predicate by a number, that of an earlier one written alike if there is one.
Calls add to any builder the formulas that they spell with numbers in place of predicates
(`Builder.adds_of_spells`), where every number refers to a predicate that is alike
(`Numbers.refers`).

Whatever the calls, every number in a formula that is built has a predicate (`ofCalls_inRange`). -/

namespace StripeScan

/-- If a list is not empty after one map, it is not after another. -/
theorem map_ne_nil {α β γ : Type} {f : α → β} {g : α → γ} {xs : List α} {ys : List β}
    (h : xs.map f = ys) (hys : ys ≠ []) : xs.map g ≠ [] := by
  intro hnil
  rw [List.map_eq_nil_iff.mp hnil] at h
  exact hys h.symm

/-! ### Spelling a formula -/

/-- Whether every conjunction and every disjunction within a formula has a part. -/
inductive Formula.Proper {α : Type} : Formula α → Prop
  | atom (a : α) : Proper (.atom a)
  | and {parts : List (Formula α)} (nonempty : parts ≠ []) (proper : ∀ f ∈ parts, Proper f) :
      Proper (.and parts)
  | or {parts : List (Formula α)} (nonempty : parts ≠ []) (proper : ∀ f ∈ parts, Proper f) :
      Proper (.or parts)
  | not {part : Formula α} (proper : Proper part) : Proper (.not part)

namespace Formula.Proper

variable {α : Type}

@[simp] theorem atom_iff (a : α) : Proper (.atom a) ↔ True := iff_true_intro (.atom a)

@[simp] theorem and_iff {parts : List (Formula α)} :
    Proper (.and parts) ↔ parts ≠ [] ∧ ∀ f ∈ parts, Proper f :=
  ⟨fun | .and nonempty proper => ⟨nonempty, proper⟩, fun h => .and h.1 h.2⟩

@[simp] theorem or_iff {parts : List (Formula α)} :
    Proper (.or parts) ↔ parts ≠ [] ∧ ∀ f ∈ parts, Proper f :=
  ⟨fun | .or nonempty proper => ⟨nonempty, proper⟩, fun h => .or h.1 h.2⟩

@[simp] theorem not_iff {part : Formula α} : Proper (.not part) ↔ Proper part :=
  ⟨fun | .not proper => proper, .not⟩

end Formula.Proper

open SearchArgument

mutual
/-- The calls that spell a formula, depth first. -/
def Formula.spell : Formula Predicate → List Call
  | .atom p => [.test p.column p.operator p.kind p.literals]
  | .and parts => .start .and :: (spellList parts ++ [.finish])
  | .or parts => .start .or :: (spellList parts ++ [.finish])
  | .not part => .start .not :: (spell part ++ [.finish])
/-- The calls that spell the formulas of a list one after the other. -/
def Formula.spellList : List (Formula Predicate) → List Call
  | [] => []
  | f :: fs => spell f ++ spellList fs
end

theorem Formula.spellList_eq_flatMap (fs : List (Formula Predicate)) :
    spellList fs = fs.flatMap spell := by
  induction fs with
  | nil => rfl
  | cons f fs ih => rw [spellList, ih, List.flatMap_cons]

/-- A predicate passes the checks that its parts undergo. -/
theorem Predicate.ofParts_self (p : Predicate) :
    ofParts p.column p.operator p.kind p.literals = .ok p := by
  have htest : Test.ofLiterals? p.operator p.literals = some p.test :=
    Test.ofLiterals?_eq_some_iff.mpr ⟨rfl, rfl⟩
  have hkinds : (p.test.literals.find? fun v => v.kind != p.kind) = none := by
    simpa using p.literal_kinds
  unfold ofParts
  split
  · rename_i hnone
    rw [htest] at hnone
    cases hnone
  · rename_i test hsome
    rw [htest] at hsome
    cases hsome
    split
    · rename_i bad hbad
      rw [hkinds] at hbad
      cases hbad
    · rfl

/-- A predicate that passes the checks has the parts that were checked. -/
theorem Predicate.parts_of_ofParts {column : ColumnRef} {operator : Operator} {kind : Kind}
    {literals : List Literal} {p : Predicate} (h : ofParts column operator kind literals = .ok p) :
    p.column = column ∧ p.operator = operator ∧ p.kind = kind ∧ p.literals = literals := by
  unfold ofParts at h
  split at h
  · cases h
  · rename_i test htest
    obtain ⟨hoperator, hliterals⟩ := Test.ofLiterals?_eq_some_iff.mp htest
    split at h
    · cases h
    · cases h
      exact ⟨rfl, hoperator, rfl, hliterals⟩

/-! ### The grammar of calls -/

/-- Calls that spell conditions one after the other: each of them is one checked predicate or a
group around calls that spell its parts. -/
inductive Spells : List Call → List (Formula Predicate) → Prop
  | nil : Spells [] []
  | test {column : ColumnRef} {operator : Operator} {kind : Kind} {literals : List Literal}
      {p : Predicate} (checked : Predicate.ofParts column operator kind literals = .ok p) :
      Spells [.test column operator kind literals] [.atom p]
  | and {calls : List Call} {parts : List (Formula Predicate)} (inner : Spells calls parts)
      (nonempty : parts ≠ []) : Spells (.start .and :: (calls ++ [.finish])) [.and parts]
  | or {calls : List Call} {parts : List (Formula Predicate)} (inner : Spells calls parts)
      (nonempty : parts ≠ []) : Spells (.start .or :: (calls ++ [.finish])) [.or parts]
  | not {calls : List Call} {part : Formula Predicate} (inner : Spells calls [part]) :
      Spells (.start .not :: (calls ++ [.finish])) [.not part]
  | append {calls calls' : List Call} {parts parts' : List (Formula Predicate)}
      (h : Spells calls parts) (h' : Spells calls' parts') :
      Spells (calls ++ calls') (parts ++ parts')

theorem spells_spellList {fs : List (Formula Predicate)} (h : ∀ f ∈ fs, Spells f.spell [f]) :
    Spells (Formula.spellList fs) fs := by
  induction fs with
  | nil => exact .nil
  | cons f fs ih =>
      have hrest := ih fun g hg => h g (List.mem_cons_of_mem f hg)
      exact (h f List.mem_cons_self).append hrest

/-- The calls that spell a formula are in the grammar. -/
theorem spells_spell {f : Formula Predicate} (proper : f.Proper) : Spells f.spell [f] := by
  induction proper with
  | atom p => exact .test p.ofParts_self
  | and nonempty _ ih => exact .and (spells_spellList ih) nonempty
  | or nonempty _ ih => exact .or (spells_spellList ih) nonempty
  | not _ ih => exact .not ih

/-! ### Numbered predicates -/

/-- Predicates with the numbers that they get one after the other, where some are known already: a
predicate has the number of the first known one that is the same, and is new if there is none. -/
inductive Numbers : List Predicate → List (ℕ × Predicate) → List Predicate → Prop
  | nil (known : List Predicate) : Numbers known [] []
  | shared {known new : List Predicate} {i : ℕ} {p : Predicate} {xs : List (ℕ × Predicate)}
      (found : known.findIdx? (·.same p) = some i) (rest : Numbers known xs new) :
      Numbers known ((i, p) :: xs) new
  | fresh {known new : List Predicate} {p : Predicate} {xs : List (ℕ × Predicate)}
      (missing : known.findIdx? (·.same p) = none) (rest : Numbers (known ++ [p]) xs new) :
      Numbers known ((known.length, p) :: xs) (p :: new)

namespace Numbers

variable {known new new' : List Predicate} {xs ys : List (ℕ × Predicate)}

theorem append (h : Numbers known xs new) (h' : Numbers (known ++ new) ys new') :
    Numbers known (xs ++ ys) (new ++ new') := by
  induction h with
  | nil known =>
      rw [List.append_nil] at h'
      exact h'
  | shared found _ ih => exact .shared found (ih h')
  | @fresh known new p xs missing _ ih =>
      rw [List.append_cons] at h'
      exact .fresh missing (ih h')

/-- A number refers to a predicate that is the same, or to the very one that was numbered. -/
theorem same_or_eq (h : Numbers known xs new) {x : ℕ × Predicate} (hx : x ∈ xs) :
    ∃ q, (known ++ new)[x.1]? = some q ∧ (q.same x.2 = true ∨ q = x.2) := by
  induction h with
  | nil known => cases hx
  | @shared known new i p xs found _ ih =>
      rcases List.mem_cons.mp hx with rfl | hx
      · obtain ⟨hi, hsame, -⟩ := List.findIdx?_eq_some_iff_getElem.mp found
        refine ⟨known[i], ?_, .inl hsame⟩
        rw [List.getElem?_append_left hi, List.getElem?_eq_getElem hi]
      · exact ih hx
  | @fresh known new p xs missing _ ih =>
      rw [List.append_cons]
      rcases List.mem_cons.mp hx with rfl | hx
      · exact ⟨p, by simp, .inr rfl⟩
      · exact ih hx

/-- A number refers to a predicate that is alike. -/
theorem refers (h : Numbers known xs new) {x : ℕ × Predicate} (hx : x ∈ xs) :
    ∃ q, (known ++ new)[x.1]? = some q ∧ q.Alike x.2 := by
  obtain ⟨q, hq, hsame | rfl⟩ := h.same_or_eq hx
  · exact ⟨q, hq, Predicate.alike_of_same hsame⟩
  · exact ⟨x.2, hq, .refl x.2⟩

theorem mem (h : Numbers known xs new) : ∀ p ∈ new, p ∈ xs.map Prod.snd := by
  induction h with
  | nil known => simp
  | shared _ _ ih => exact fun q hq => List.mem_cons_of_mem _ (ih q hq)
  | fresh _ _ ih =>
      intro q hq
      rcases List.mem_cons.mp hq with rfl | hq
      · exact List.mem_cons_self
      · exact List.mem_cons_of_mem _ (ih q hq)

/-- The numbers are fixed by the predicates and their order. -/
theorem unique (h : Numbers known xs new) (h' : Numbers known ys new')
    (predicates : xs.map Prod.snd = ys.map Prod.snd) : xs = ys ∧ new = new' := by
  induction h generalizing ys new' with
  | nil known =>
      obtain rfl := List.map_eq_nil_iff.mp predicates.symm
      cases h'
      exact ⟨rfl, rfl⟩
  | shared found _ ih =>
      cases h' with
      | nil => cases predicates
      | shared found' rest' =>
          obtain ⟨rfl, hrest⟩ := List.cons.inj predicates
          rw [found, Option.some.injEq] at found'
          obtain ⟨rfl, rfl⟩ := ih rest' hrest
          exact ⟨by rw [found'], rfl⟩
      | fresh missing' _ =>
          obtain ⟨rfl, -⟩ := List.cons.inj predicates
          rw [found] at missing'
          cases missing'
  | fresh missing _ ih =>
      cases h' with
      | nil => cases predicates
      | shared found' _ =>
          obtain ⟨rfl, -⟩ := List.cons.inj predicates
          rw [missing] at found'
          cases found'
      | fresh missing' rest' =>
          obtain ⟨rfl, hrest⟩ := List.cons.inj predicates
          obtain ⟨rfl, rfl⟩ := ih rest' hrest
          exact ⟨rfl, rfl⟩

end Numbers

namespace SearchArgument.Builder

theorem number_eq (b : Builder) (p : Predicate) :
    ∃ i new, b.number p = (i, b.predicates ++ new) ∧ Numbers b.predicates [(i, p)] new := by
  unfold number
  cases hfind : b.predicates.findIdx? (·.same p) with
  | some i => exact ⟨i, [], by simp, .shared hfind (.nil _)⟩
  | none => exact ⟨b.predicates.length, [p], rfl, .fresh hfind (.nil _)⟩

/-! ### Single calls -/

theorem step_test {b : Builder} {p : Predicate} {i : ℕ} {ps : List Predicate}
    (h : b.number p = (i, ps)) : b.step (.test p.column p.operator p.kind p.literals) =
      .ok (add { b with predicates := ps } (.atom i)) := by
  rw [step, Predicate.ofParts_self]
  simp only [Except.map, h]

theorem step_finish {b : Builder} {group : Group} {rest : List Group} {g : Formula ℕ}
    (hgroups : b.groups = group :: rest) (hclose : close group = .ok g) :
    b.step .finish = .ok (add { b with groups := rest } g) := by
  rw [step, hgroups]
  show (close group).map _ = _
  rw [hclose]
  rfl

theorem close_and {parts : List (Formula ℕ)} (h : parts ≠ []) :
    close ⟨.and, parts⟩ = .ok (.and parts) := by
  cases parts with
  | nil => exact absurd rfl h
  | cons f fs => rfl

theorem close_or {parts : List (Formula ℕ)} (h : parts ≠ []) :
    close ⟨.or, parts⟩ = .ok (.or parts) := by
  cases parts with
  | nil => exact absurd rfl h
  | cons f fs => rfl

/-! ### What calls add -/

theorem foldl_add_top (ps : List Predicate) (top gs : List (Formula ℕ)) :
    gs.foldl add ⟨ps, [], top⟩ = ⟨ps, [], top ++ gs⟩ := by
  induction gs generalizing top with
  | nil => simp
  | cons g gs ih =>
      have hstep : add ⟨ps, [], top⟩ g = ⟨ps, [], top ++ [g]⟩ := rfl
      rw [List.foldl_cons, hstep, ih, List.append_assoc, List.singleton_append]

theorem foldl_add_group (ps : List Predicate) (connective : Connective) (rest : List Group)
    (top parts gs : List (Formula ℕ)) :
    gs.foldl add ⟨ps, ⟨connective, parts⟩ :: rest, top⟩ =
      ⟨ps, ⟨connective, parts ++ gs⟩ :: rest, top⟩ := by
  induction gs generalizing parts with
  | nil => simp
  | cons g gs ih =>
      have hstep : add ⟨ps, ⟨connective, parts⟩ :: rest, top⟩ g =
          ⟨ps, ⟨connective, parts ++ [g]⟩ :: rest, top⟩ := rfl
      rw [List.foldl_cons, hstep, ih, List.append_assoc, List.singleton_append]

theorem add_predicates (b : Builder) (ps : List Predicate) (g : Formula ℕ) :
    add { b with predicates := ps } g = { add b g with predicates := ps } := by
  unfold add
  cases b.groups <;> rfl

theorem foldl_add_predicates (b : Builder) (ps : List Predicate) (gs : List (Formula ℕ)) :
    gs.foldl add { b with predicates := ps } = { gs.foldl add b with predicates := ps } := by
  induction gs generalizing b with
  | nil => rfl
  | cons g gs ih => rw [List.foldl_cons, List.foldl_cons, add_predicates, ih]

/-- Whether calls add formulas to any builder, with the numbers of the predicates in their place. -/
def Adds (calls : List Call) (fs : List (Formula Predicate)) : Prop :=
  ∀ b : Builder, ∃ (new : List Predicate) (hs : List (Formula (ℕ × Predicate))),
    calls.foldlM step b = .ok ((hs.map (Formula.map Prod.fst)).foldl add
      { b with predicates := b.predicates ++ new }) ∧
    hs.map (Formula.map Prod.snd) = fs ∧
    Numbers b.predicates (hs.flatMap Formula.atoms) new

theorem adds_nil : Adds [] [] := by
  intro b
  refine ⟨[], [], ?_, rfl, .nil _⟩
  rw [List.append_nil]
  rfl

theorem adds_test (p : Predicate) :
    Adds [.test p.column p.operator p.kind p.literals] [.atom p] := by
  intro b
  obtain ⟨i, new, hnumber, hnumbers⟩ := b.number_eq p
  refine ⟨new, [.atom (i, p)], ?_, rfl, ?_⟩
  · rw [List.foldlM_cons, step_test hnumber]
    rfl
  · rw [List.flatMap_singleton, Formula.atoms]
    exact hnumbers

theorem Adds.append {calls calls' : List Call} {fs fs' : List (Formula Predicate)}
    (h : Adds calls fs) (h' : Adds calls' fs') : Adds (calls ++ calls') (fs ++ fs') := by
  intro b
  obtain ⟨new, hs, hrun, hfs, hnumbers⟩ := h b
  obtain ⟨new', hs', hrun', hfs', hnumbers'⟩ :=
    h' ((hs.map (Formula.map Prod.fst)).foldl add { b with predicates := b.predicates ++ new })
  rw [foldl_add_predicates] at hrun' hnumbers'
  refine ⟨new ++ new', hs ++ hs', ?_, ?_, ?_⟩
  · rw [List.foldlM_append, hrun, bind_ok, foldl_add_predicates, hrun']
    simp only [List.map_append, List.foldl_append, foldl_add_predicates, List.append_assoc]
  · rw [List.map_append, hfs, hfs']
  · rw [List.flatMap_append]
    exact hnumbers.append hnumbers'

/-- Calls within a group add one formula, made of the formulas that they add to the group. -/
theorem Adds.group {calls : List Call} {fs : List (Formula Predicate)} {f : Formula Predicate}
    (connective : Connective) (h : Adds calls fs)
    (hclose : ∀ hs : List (Formula (ℕ × Predicate)), hs.map (Formula.map Prod.snd) = fs →
      ∃ g : Formula (ℕ × Predicate), g.map Prod.snd = f ∧ g.atoms = hs.flatMap Formula.atoms ∧
        close ⟨connective, hs.map (Formula.map Prod.fst)⟩ = .ok (g.map Prod.fst)) :
    Adds (.start connective :: (calls ++ [.finish])) [f] := by
  intro b
  obtain ⟨new, hs, hrun, hfs, hnumbers⟩ :=
    h { b with groups := ⟨connective, []⟩ :: b.groups }
  obtain ⟨g, hg, hatoms, hclose⟩ := hclose hs hfs
  refine ⟨new, [g], ?_, by rw [List.map_singleton, hg], ?_⟩
  · rw [List.foldlM_cons, step, bind_ok, List.foldlM_append, hrun, bind_ok, foldl_add_group,
      List.nil_append, List.foldlM_cons, step_finish rfl hclose]
    rfl
  · rw [List.flatMap_singleton, hatoms]
    exact hnumbers

theorem Adds.and {calls : List Call} {parts : List (Formula Predicate)} (h : Adds calls parts)
    (nonempty : parts ≠ []) : Adds (.start .and :: (calls ++ [.finish])) [.and parts] := by
  apply h.group .and
  intro hs hparts
  refine ⟨.and hs, ?_, ?_, ?_⟩
  · rw [Formula.map, Formula.mapList_eq_map, hparts]
  · rw [Formula.atoms, Formula.atomsList_eq_flatMap]
  · rw [Formula.map, Formula.mapList_eq_map, close_and (map_ne_nil hparts nonempty)]

theorem Adds.or {calls : List Call} {parts : List (Formula Predicate)} (h : Adds calls parts)
    (nonempty : parts ≠ []) : Adds (.start .or :: (calls ++ [.finish])) [.or parts] := by
  apply h.group .or
  intro hs hparts
  refine ⟨.or hs, ?_, ?_, ?_⟩
  · rw [Formula.map, Formula.mapList_eq_map, hparts]
  · rw [Formula.atoms, Formula.atomsList_eq_flatMap]
  · rw [Formula.map, Formula.mapList_eq_map, close_or (map_ne_nil hparts nonempty)]

theorem Adds.not {calls : List Call} {part : Formula Predicate} (h : Adds calls [part]) :
    Adds (.start .not :: (calls ++ [.finish])) [.not part] := by
  apply h.group .not
  intro hs hpart
  obtain ⟨g, rfl, hg⟩ := List.map_eq_singleton_iff.mp hpart
  refine ⟨.not g, ?_, ?_, rfl⟩
  · rw [Formula.map, hg]
  · rw [Formula.atoms, List.flatMap_singleton]

/-- Calls add what they spell. -/
theorem adds_of_spells {calls : List Call} {parts : List (Formula Predicate)}
    (h : Spells calls parts) : Adds calls parts := by
  induction h with
  | nil => exact adds_nil
  | test checked =>
      obtain ⟨rfl, rfl, rfl, rfl⟩ := Predicate.parts_of_ofParts checked
      exact adds_test _
  | and _ nonempty ih => exact ih.and nonempty
  | or _ nonempty ih => exact ih.or nonempty
  | not _ ih => exact ih.not
  | append _ _ ih ih' => exact ih.append ih'

/-! ### Building -/

theorem build_succeeds {b : Builder} (hgroups : b.groups = []) (htop : b.top ≠ []) :
    ∃ a, b.build = .ok a := by
  obtain ⟨predicates, groups, top⟩ := b
  subst hgroups
  match top, htop with
  | [part], _ => exact ⟨_, rfl⟩
  | part :: next :: rest, _ => exact ⟨_, rfl⟩

/-- What is built is the only condition at the top level, or the conjunction of all of them,
flattened. -/
theorem exists_root_of_build {b : Builder} {a : SearchArgument} (h : b.build = .ok a) :
    ∃ root : Formula ℕ, a = ⟨b.predicates, root.flatten⟩ ∧
      (b.top = [root] ∨ root = .and b.top) := by
  unfold build at h
  split at h
  · cases h
  · cases h
  · rename_i part _ htop
    cases h
    exact ⟨part, rfl, .inl htop⟩
  · cases h
    exact ⟨.and b.top, rfl, .inr rfl⟩

/-- The formula that is built is worth as much as the conjunction of the conditions. -/
theorem root_value {γ : Type} {eval : Formula ℕ → γ} {all any : List γ → γ} {neg : γ → γ}
    (h : Formula.Compositional eval all any neg) (hall : Merges all) (hany : Merges any)
    {gs : List (Formula ℕ)} {root : Formula ℕ} (hroot : gs = [root] ∨ root = .and gs) :
    eval root.flatten = eval (.and gs) := by
  rw [h.flatten hall hany]
  rcases hroot with rfl | rfl
  · rw [h.and, List.map_singleton, hall.singleton]
  · rfl

/-! ### Numbers in range -/

/-- Whether every number within a builder has a predicate. -/
structure InRange (b : Builder) : Prop where
  top : ∀ f ∈ b.top, ∀ i ∈ f.atoms, i < b.predicates.length
  groups : ∀ g ∈ b.groups, ∀ f ∈ g.parts, ∀ i ∈ f.atoms, i < b.predicates.length

variable {b b' : Builder}

theorem InRange.add (h : b.InRange) {part : Formula ℕ}
    (hpart : ∀ i ∈ part.atoms, i < b.predicates.length) : (b.add part).InRange := by
  obtain ⟨predicates, groups, top⟩ := b
  cases groups with
  | nil =>
      refine ⟨fun f hf => ?_, h.groups⟩
      rcases List.mem_append.mp hf with hf | hf
      · exact h.top f hf
      · rw [List.mem_singleton.mp hf]
        exact hpart
  | cons g rest =>
      refine ⟨h.top, fun g' hg' f hf => ?_⟩
      rcases List.mem_cons.mp hg' with rfl | hg'
      · rcases List.mem_append.mp hf with hf | hf
        · exact h.groups g List.mem_cons_self f hf
        · rw [List.mem_singleton.mp hf]
          exact hpart
      · exact h.groups g' (List.mem_cons_of_mem g hg') f hf

theorem InRange.append (h : b.InRange) (new : List Predicate) :
    InRange { b with predicates := b.predicates ++ new } := by
  have hle : b.predicates.length ≤ (b.predicates ++ new).length := by
    rw [List.length_append]
    omega
  refine ⟨fun f hf i hi => ?_, fun g hg f hf i hi => ?_⟩
  · exact (h.top f hf i hi).trans_le hle
  · exact (h.groups g hg f hf i hi).trans_le hle

/-- A group that is closed keeps the atoms of its parts. -/
theorem atoms_of_close {g : Group} {f : Formula ℕ} (h : close g = .ok f) :
    f.atoms = g.parts.flatMap Formula.atoms := by
  unfold close at h
  split at h
  · cases h
  · cases h
    rw [Formula.atoms, Formula.atomsList_eq_flatMap]
  · cases h
    rw [Formula.atoms, Formula.atomsList_eq_flatMap]
  · rename_i part hparts
    cases h
    rw [Formula.atoms, hparts, List.flatMap_singleton]
  · cases h

/-- Every call keeps the numbers in range. -/
theorem InRange.step (h : b.InRange) {call : Call} (hstep : b.step call = .ok b') :
    b'.InRange := by
  cases call with
  | start connective =>
      cases hstep
      refine ⟨h.top, fun g hg => ?_⟩
      rcases List.mem_cons.mp hg with rfl | hg
      · intro f hf
        cases hf
      · exact h.groups g hg
  | finish =>
      cases hgroups : b.groups with
      | nil =>
          rw [Builder.step, hgroups] at hstep
          cases hstep
      | cons g rest =>
          rw [Builder.step, hgroups] at hstep
          obtain ⟨part, hclose, rfl⟩ := map_eq_ok_iff.mp hstep
          have hrest : InRange { b with groups := rest } := by
            refine ⟨h.top, fun g' hg' => h.groups g' ?_⟩
            rw [hgroups]
            exact List.mem_cons_of_mem g hg'
          apply hrest.add
          intro i hi
          rw [atoms_of_close hclose] at hi
          obtain ⟨f, hf, hi⟩ := List.mem_flatMap.mp hi
          apply h.groups g _ f hf i hi
          rw [hgroups]
          exact List.mem_cons_self
  | test column operator kind literals =>
      obtain ⟨p, -, rfl⟩ := map_eq_ok_iff.mp hstep
      obtain ⟨i, new, hnumber, hnumbers⟩ := b.number_eq p
      obtain ⟨q, hq, -⟩ := hnumbers.refers List.mem_cons_self
      rw [hnumber]
      apply (h.append new).add
      intro j hj
      rw [Formula.atoms, List.mem_singleton] at hj
      rw [hj]
      exact (List.getElem?_eq_some_iff.mp hq).1

end SearchArgument.Builder

/-- Every number in an argument that is built has a predicate. -/
theorem SearchArgument.ofCalls_inRange {calls : List Call} {a : SearchArgument}
    (h : ofCalls calls = .ok a) : ∀ i ∈ a.formula.atoms, i < a.predicates.length := by
  obtain ⟨b, hcalls, hbuild⟩ := bind_eq_ok_iff.mp h
  have hempty : Builder.empty.InRange := ⟨fun f hf => (nomatch hf), fun g hg => (nomatch hg)⟩
  have hrange : b.InRange := foldlM_preserves (P := fun _ b => b.InRange) hcalls hempty
    fun _ _ _ _ hstep hb => hb.step hstep
  obtain ⟨root, rfl, hroot⟩ := Builder.exists_root_of_build hbuild
  intro i hi
  have hatoms := Builder.root_value Formula.compositional_atoms merges_flatten merges_flatten hroot
  rw [hatoms, Formula.atoms, Formula.atomsList_eq_flatMap] at hi
  obtain ⟨f, hf, hi⟩ := List.mem_flatMap.mp hi
  exact hrange.top f hf i hi

end StripeScan
