import Mathlib
import StripeScan.Access

/-! # Outcomes of computations

How a computation that ended well is taken apart into its steps: a sequence succeeds exactly if
each of its steps does, and then every step hands on its result and, for an access to a medium,
the state of the medium.

Sequences whose steps end alike, with success or with related errors, end alike
(`mapM_ends_alike`). -/

namespace StripeScan

section except

variable {ε α β : Type}

theorem bind_eq_ok_iff {x : Except ε α} {f : α → Except ε β} {b : β} :
    x >>= f = .ok b ↔ ∃ a, x = .ok a ∧ f a = .ok b := by
  cases x with
  | error e => exact ⟨fun h => (nomatch h), fun ⟨_, h, _⟩ => (nomatch h)⟩
  | ok a =>
      constructor
      · intro h
        exact ⟨a, rfl, h⟩
      · rintro ⟨_, ⟨⟩, h⟩
        exact h

theorem bind_ok (a : α) (f : α → Except ε β) : (Except.ok a >>= f) = f a := rfl

theorem map_eq_ok_iff {x : Except ε α} {f : α → β} {b : β} :
    x.map f = .ok b ↔ ∃ a, x = .ok a ∧ f a = b := by
  cases x with
  | error e => exact ⟨fun h => (nomatch h), fun ⟨_, h, _⟩ => (nomatch h)⟩
  | ok a =>
      constructor
      · intro h
        exact ⟨a, rfl, Except.ok.inj h⟩
      · rintro ⟨_, ⟨⟩, rfl⟩
        rfl

theorem mapError_eq_ok_iff {ε' : Type} {x : Except ε α} {f : ε → ε'} {a : α} :
    x.mapError f = .ok a ↔ x = .ok a := by
  cases x with
  | error e => exact ⟨fun h => (nomatch h), fun h => (nomatch h)⟩
  | ok b => exact ⟨fun h => congrArg _ (Except.ok.inj h), fun h => congrArg _ (Except.ok.inj h)⟩

theorem bind_eq_error_iff {x : Except ε α} {f : α → Except ε β} {e : ε} :
    x >>= f = .error e ↔ x = .error e ∨ ∃ a, x = .ok a ∧ f a = .error e := by
  cases x with
  | error e' =>
      constructor
      · intro h
        exact .inl (congrArg _ (Except.error.inj h))
      · rintro (h | ⟨_, h, -⟩)
        · exact congrArg _ (Except.error.inj h)
        · cases h
  | ok a =>
      constructor
      · intro h
        exact .inr ⟨a, rfl, h⟩
      · rintro (h | ⟨_, h, he⟩)
        · cases h
        · cases h
          exact he

/-- A list of steps succeeds exactly if each step does. -/
theorem mapM_eq_ok_iff {f : α → Except ε β} {xs : List α} {ys : List β} :
    xs.mapM f = .ok ys ↔ List.Forall₂ (fun x y => f x = .ok y) xs ys := by
  induction xs generalizing ys with
  | nil =>
      rw [List.mapM_nil, List.forall₂_nil_left_iff]
      exact ⟨fun h => (Except.ok.inj h).symm, fun h => congrArg _ h.symm⟩
  | cons x xs ih =>
      rw [List.mapM_cons, bind_eq_ok_iff, List.forall₂_cons_left_iff]
      constructor
      · rintro ⟨y, hy, h⟩
        obtain ⟨ys', hys, h⟩ := bind_eq_ok_iff.mp h
        exact ⟨y, ys', hy, ih.mp hys, (Except.ok.inj h).symm⟩
      · rintro ⟨y, ys', hy, hys, rfl⟩
        exact ⟨y, hy, bind_eq_ok_iff.mpr ⟨ys', ih.mpr hys, rfl⟩⟩

/-- Every result comes from a step. -/
theorem exists_of_mem_mapM {f : α → Except ε β} {xs : List α} {ys : List β}
    (h : xs.mapM f = .ok ys) {y : β} (hy : y ∈ ys) : ∃ x ∈ xs, f x = .ok y := by
  rw [mapM_eq_ok_iff] at h
  induction h with
  | nil => cases hy
  | cons hxy hrest ih =>
      rcases List.mem_cons.mp hy with rfl | hy
      · exact ⟨_, List.mem_cons_self, hxy⟩
      · obtain ⟨x, hx, hf⟩ := ih hy
        exact ⟨x, List.mem_cons_of_mem _ hx, hf⟩

/-- Every step has a result. -/
theorem exists_of_mem_left_mapM {f : α → Except ε β} {xs : List α} {ys : List β}
    (h : xs.mapM f = .ok ys) {x : α} (hx : x ∈ xs) : ∃ y ∈ ys, f x = .ok y := by
  rw [mapM_eq_ok_iff] at h
  induction h with
  | nil => cases hx
  | cons hxy hrest ih =>
      rcases List.mem_cons.mp hx with rfl | hx
      · exact ⟨_, List.mem_cons_self, hxy⟩
      · obtain ⟨y, hy, hf⟩ := ih hx
        exact ⟨y, List.mem_cons_of_mem _ hy, hf⟩

/-- A list of steps that succeed one by one. -/
theorem mapM_eq_ok_map {f : α → Except ε β} {g : α → β} {xs : List α}
    (h : ∀ x ∈ xs, f x = .ok (g x)) : xs.mapM f = .ok (xs.map g) := by
  rw [mapM_eq_ok_iff, List.forall₂_map_right_iff, List.forall₂_same]
  exact h

theorem filterAuxM_eq_ok {f : α → Except ε Bool} {g : α → Bool} {xs acc : List α}
    (h : ∀ x ∈ xs, f x = .ok (g x)) :
    xs.filterAuxM f acc = .ok ((xs.filter g).reverse ++ acc) := by
  induction xs generalizing acc with
  | nil => rfl
  | cons x xs ih =>
      rw [List.filterAuxM, h x List.mem_cons_self, bind_ok,
        ih fun z hz => h z (List.mem_cons_of_mem x hz), List.filter_cons]
      cases g x <;> simp

theorem filterM_eq_ok {f : α → Except ε Bool} {g : α → Bool} {xs : List α}
    (h : ∀ x ∈ xs, f x = .ok (g x)) : xs.filterM f = .ok (xs.filter g) := by
  rw [List.filterM, filterAuxM_eq_ok h, List.append_nil, bind_ok, List.reverse_reverse]
  rfl

/-- A list of steps that fails does so at one of them. -/
theorem exists_of_mapM_eq_error {f : α → Except ε β} {xs : List α} {e : ε}
    (h : xs.mapM f = .error e) : ∃ x ∈ xs, f x = .error e := by
  induction xs with
  | nil => cases h
  | cons x xs ih =>
      rw [List.mapM_cons] at h
      rcases bind_eq_error_iff.mp h with hx | ⟨y, -, h⟩
      · exact ⟨x, List.mem_cons_self, hx⟩
      · rcases bind_eq_error_iff.mp h with hxs | ⟨ys, -, h⟩
        · obtain ⟨z, hz, he⟩ := ih hxs
          exact ⟨z, List.mem_cons_of_mem x hz, he⟩
        · cases h

theorem forM_eq_ok_iff {f : α → Except ε Unit} {xs : List α} :
    xs.forM f = .ok () ↔ ∀ x ∈ xs, f x = .ok () := by
  induction xs with
  | nil => exact iff_of_true rfl fun x hx => absurd hx List.not_mem_nil
  | cons x xs ih =>
      rw [List.forM, bind_eq_ok_iff, List.forall_mem_cons, ← ih]
      exact ⟨fun ⟨_, hx, hxs⟩ => ⟨hx, hxs⟩, fun ⟨hx, hxs⟩ => ⟨(), hx, hxs⟩⟩

theorem exists_of_forM_eq_error {f : α → Except ε Unit} {xs : List α} {e : ε}
    (h : xs.forM f = .error e) : ∃ x ∈ xs, f x = .error e := by
  induction xs with
  | nil => cases h
  | cons x xs ih =>
      rcases bind_eq_error_iff.mp h with hx | ⟨_, -, hxs⟩
      · exact ⟨x, List.mem_cons_self, hx⟩
      · obtain ⟨z, hz, he⟩ := ih hxs
        exact ⟨z, List.mem_cons_of_mem x hz, he⟩

/-- A list of steps that can each succeed with a result that is related. -/
theorem exists_mapM_forall₂ {f : α → Except ε β} {R : α → β → Prop} {xs : List α}
    (h : ∀ x ∈ xs, ∃ y, f x = .ok y ∧ R x y) :
    ∃ ys, xs.mapM f = .ok ys ∧ List.Forall₂ R xs ys := by
  induction xs with
  | nil => exact ⟨[], rfl, .nil⟩
  | cons x xs ih =>
      obtain ⟨y, hy, hr⟩ := h x List.mem_cons_self
      obtain ⟨ys, hys, hrs⟩ := ih fun z hz => h z (List.mem_cons_of_mem x hz)
      exact ⟨y :: ys, mapM_eq_ok_iff.mpr (.cons hy (mapM_eq_ok_iff.mp hys)), .cons hr hrs⟩

/-- Folding with steps that succeed, where `P` says what holds after a part of the list. -/
theorem foldlM_eq_ok {f : β → α → Except ε β} {P : List α → β → Prop} {xs : List α} {b : β}
    (start : P [] b)
    (step : ∀ done x, done ++ [x] <+: xs → ∀ b, P done b →
      ∃ b', f b x = .ok b' ∧ P (done ++ [x]) b') :
    ∃ b', xs.foldlM f b = .ok b' ∧ P xs b' := by
  have hfold : ∀ (rest done : List α) (b : β), done ++ rest = xs → P done b →
      ∃ b', rest.foldlM f b = .ok b' ∧ P xs b' := by
    intro rest
    induction rest with
    | nil =>
        intro done b hxs h
        rw [List.append_nil] at hxs
        exact ⟨b, rfl, hxs ▸ h⟩
    | cons x rest ih =>
        intro done b hxs h
        rw [← List.singleton_append, ← List.append_assoc] at hxs
        obtain ⟨b₁, hb₁, h₁⟩ := step done x ⟨rest, hxs⟩ b h
        obtain ⟨b', hb', h'⟩ := ih (done ++ [x]) b₁ hxs h₁
        exact ⟨b', by rw [List.foldlM_cons, hb₁, bind_ok, hb'], h'⟩
  exact hfold xs [] b (List.nil_append xs) start

/-- What every step of a fold keeps, where `P` says what holds after a part of the list. -/
theorem foldlM_preserves {f : β → α → Except ε β} {P : List α → β → Prop} {xs : List α} {b b' : β}
    (h : xs.foldlM f b = .ok b') (start : P [] b)
    (step : ∀ done x b b', f b x = .ok b' → P done b → P (done ++ [x]) b') : P xs b' := by
  have hfold : ∀ (rest done : List α) (b : β), rest.foldlM f b = .ok b' → P done b →
      P (done ++ rest) b' := by
    intro rest
    induction rest with
    | nil =>
        intro done b h hb
        cases h
        exact (List.append_nil done).symm ▸ hb
    | cons x rest ih =>
        intro done b h hb
        rw [List.foldlM_cons] at h
        obtain ⟨b₁, hb₁, h⟩ := bind_eq_ok_iff.mp h
        have hrest := ih (done ++ [x]) b₁ h (step done x b b₁ hb₁ hb)
        rwa [List.append_assoc, List.singleton_append] at hrest
  exact hfold xs [] b h start

end except

/-! ### How computations end -/

section ends

variable {α α' β β' ε ε' γ : Type}

/-- How a computation ends, without its result. -/
def outcome (x : Except ε α) : Except ε Unit := x.map fun _ => ()

theorem outcome_eq_error_iff {x : Except ε α} {e : ε} : outcome x = .error e ↔ x = .error e := by
  cases x with
  | error e' => simp [outcome, Except.map]
  | ok a => simp [outcome, Except.map]

theorem outcome_eq_ok_iff {x : Except ε α} : outcome x = .ok () ↔ ∃ a, x = .ok a := by
  cases x with
  | error e => simp [outcome, Except.map]
  | ok a => simp [outcome, Except.map]

theorem outcome_mapM_cons_of_ok {f : α → Except ε β} {x : α} {y : β} (h : f x = .ok y)
    (xs : List α) : outcome ((x :: xs).mapM f) = outcome (xs.mapM f) := by
  rw [List.mapM_cons, h, bind_ok]
  cases xs.mapM f <;> rfl

theorem mapM_cons_of_error {f : α → Except ε β} {x : α} {e : ε} (h : f x = .error e)
    (xs : List α) : (x :: xs).mapM f = .error e := by
  rw [List.mapM_cons, h]
  rfl

/-- Two lists of steps that end alike one by one end alike. -/
theorem mapM_ends_alike {R : α → α' → Prop} {E : ε → ε' → Prop} {f : α → Except ε β}
    {g : α' → Except ε' β'} {xs : List α} {ys : List α'} (h : List.Forall₂ R xs ys)
    (step : ∀ x y, R x y → (∃ e e', f x = .error e ∧ g y = .error e' ∧ E e e') ∨
      ∃ z w, f x = .ok z ∧ g y = .ok w) :
    (∃ e e', xs.mapM f = .error e ∧ ys.mapM g = .error e' ∧ E e e') ∨
      ∃ zs ws, xs.mapM f = .ok zs ∧ ys.mapM g = .ok ws := by
  induction h with
  | nil => exact .inr ⟨[], [], rfl, rfl⟩
  | @cons x y xs ys hxy _ ih =>
      rcases step x y hxy with ⟨e, e', hx, hy, hlike⟩ | ⟨z, w, hx, hy⟩
      · exact .inl ⟨e, e', mapM_cons_of_error hx xs, mapM_cons_of_error hy ys, hlike⟩
      · rcases ih with ⟨e, e', hxs, hys, hlike⟩ | ⟨zs, ws, hxs, hys⟩
        · refine .inl ⟨e, e', ?_, ?_, hlike⟩
          · rw [← outcome_eq_error_iff, outcome_mapM_cons_of_ok hx, outcome_eq_error_iff, hxs]
          · rw [← outcome_eq_error_iff, outcome_mapM_cons_of_ok hy, outcome_eq_error_iff, hys]
        · refine .inr ⟨z :: zs, w :: ws, ?_, ?_⟩
          · rw [List.mapM_cons, hx, bind_ok, hxs]
            rfl
          · rw [List.mapM_cons, hy, bind_ok, hys]
            rfl

/-- A result can be read off two others that agree. -/
theorem map_eq_map {f : α → β} {f' : α' → β} {g : α → γ} {g' : α' → γ}
    (hread : ∀ a a', f a = f' a' → g a = g' a') {x : Except ε α} {x' : Except ε α'}
    (h : x.map f = x'.map f') : x.map g = x'.map g' := by
  cases x with
  | error e =>
      cases x' with
      | error e' =>
          cases h
          rfl
      | ok a' => cases h
  | ok a =>
      cases x' with
      | error e' => cases h
      | ok a' => exact congrArg Except.ok (hread a a' (Except.ok.inj h))

end ends

namespace Access

variable {σ τ α β : Type}

theorem run_bind_eq_ok_iff {x : Access σ α} {f : α → Access σ β} {b : β} {s u : σ} :
    run (x >>= f) s = (.ok b, u) ↔
      ∃ a t, run x s = (.ok a, t) ∧ run (f a) t = (.ok b, u) := by
  rw [run_bind]
  rcases hx : run x s with ⟨e | a, t⟩
  · simp
  · simp

theorem run_pure_eq_ok_iff {a b : α} {s t : σ} :
    run (pure a) s = (.ok b, t) ↔ a = b ∧ s = t := by
  rw [run_pure, Prod.mk.injEq, Except.ok.injEq]

theorem run_map (f : α → β) (x : Access σ α) (s : σ) :
    run (f <$> x) s = ((run x s).1.map f, (run x s).2) := by
  rw [← bind_pure_comp, run_bind]
  rcases run x s with ⟨_ | _, _⟩ <;> rfl

/-- A result can be read off two others that agree. -/
theorem map_eq_map {α' γ : Type} {f : α → β} {f' : α' → β} {g : α → γ} {g' : α' → γ}
    (hread : ∀ a a', f a = f' a' → g a = g' a') {x : Access σ α} {x' : Access σ α'}
    (h : f <$> x = f' <$> x') : g <$> x = g' <$> x' := by
  funext s
  have hs := congrArg (fun y => run y s) h
  show run _ s = run _ s
  simp only [run_map, Prod.mk.injEq] at hs ⊢
  exact ⟨StripeScan.map_eq_map hread hs.1, hs.2⟩

theorem run_map_eq_ok_iff {x : Access σ α} {f : α → β} {b : β} {s t : σ} :
    run (f <$> x) s = (.ok b, t) ↔ ∃ a, run x s = (.ok a, t) ∧ f a = b := by
  rw [← bind_pure_comp, run_bind_eq_ok_iff]
  constructor
  · rintro ⟨a, t', hx, h⟩
    obtain ⟨rfl, rfl⟩ := run_pure_eq_ok_iff.mp h
    exact ⟨a, hx, rfl⟩
  · rintro ⟨a, hx, rfl⟩
    exact ⟨a, t, hx, rfl⟩

@[simp] theorem run_ofExcept (x : Except ScanError α) (s : σ) : run (ofExcept x) s = (x, s) := by
  cases x <;> rfl

@[simp] theorem run_modify (f : σ → σ) (s : σ) : run (modify f) s = (.ok (), f s) := rfl

theorem run_mapM_nil_eq_ok_iff {f : α → Access σ β} {ys : List β} {s t : σ} :
    run ([].mapM f) s = (.ok ys, t) ↔ [] = ys ∧ s = t := by
  rw [List.mapM_nil, run_pure_eq_ok_iff]

theorem run_mapM_cons_eq_ok_iff {f : α → Access σ β} {x : α} {xs : List α} {zs : List β}
    {s u : σ} :
    run ((x :: xs).mapM f) s = (.ok zs, u) ↔
      ∃ y t ys, run (f x) s = (.ok y, t) ∧ run (xs.mapM f) t = (.ok ys, u) ∧ y :: ys = zs := by
  rw [List.mapM_cons, run_bind_eq_ok_iff]
  constructor
  · rintro ⟨y, t, hy, h⟩
    obtain ⟨ys, u', hys, h⟩ := run_bind_eq_ok_iff.mp h
    obtain ⟨rfl, rfl⟩ := run_pure_eq_ok_iff.mp h
    exact ⟨y, t, ys, hy, hys, rfl⟩
  · rintro ⟨y, t, ys, hy, hys, rfl⟩
    exact ⟨y, t, hy, run_bind_eq_ok_iff.mpr ⟨ys, u, hys, rfl⟩⟩

/-- Steps that leave the medium alone. -/
theorem run_mapM_ofExcept (f : α → Except ScanError β) (xs : List α) (s : σ) :
    run (xs.mapM fun x => ofExcept (f x)) s = (xs.mapM f, s) := by
  induction xs with
  | nil => rfl
  | cons x xs ih =>
      rw [List.mapM_cons, List.mapM_cons, run_bind, run_ofExcept]
      cases f x with
      | error e => rfl
      | ok y =>
          show run (_ >>= _) s = _
          rw [run_bind, ih]
          cases xs.mapM f <;> rfl

/-- What holds of every step that succeeds holds of a sequence of steps, place by place. -/
theorem run_mapM_forall₂ {f : α → Access σ β} {xs : List α} {ys : List β} {s t : σ}
    {R : α → β → Prop} (h : run (xs.mapM f) s = (.ok ys, t))
    (step : ∀ x y u u', run (f x) u = (.ok y, u') → R x y) : List.Forall₂ R xs ys := by
  induction xs generalizing ys s with
  | nil =>
      obtain ⟨rfl, -⟩ := run_mapM_nil_eq_ok_iff.mp h
      exact .nil
  | cons x xs ih =>
      obtain ⟨y, u, zs, hy, hzs, rfl⟩ := run_mapM_cons_eq_ok_iff.mp h
      exact .cons (step x y s u hy) (ih hzs)

theorem run_mapM_forall {f : α → Access σ β} {xs : List α} {ys : List β} {s t : σ} {P : β → Prop}
    (h : run (xs.mapM f) s = (.ok ys, t))
    (step : ∀ x y u u', run (f x) u = (.ok y, u') → P y) : ∀ y ∈ ys, P y := by
  intro y hy
  have hall : List.Forall₂ (fun _ y => P y) xs ys := run_mapM_forall₂ h step
  obtain ⟨i, hi, rfl⟩ := List.mem_iff_getElem.mp hy
  exact hall.get (hall.length_eq ▸ hi) hi

theorem run_mapM_length {f : α → Access σ β} {xs : List α} {ys : List β} {s t : σ}
    (h : run (xs.mapM f) s = (.ok ys, t)) : ys.length = xs.length :=
  (run_mapM_forall₂ (R := fun _ _ => True) h fun _ _ _ _ _ => trivial).length_eq.symm

/-! ### Computations that never fail -/

/-- A computation that succeeds in every state of the medium. -/
def Succeeds (x : Access σ α) : Prop := ∀ s, ∃ a t, run x s = (.ok a, t)

namespace Succeeds

theorem pure (a : α) : Succeeds (Pure.pure a : Access σ α) := fun s => ⟨a, s, rfl⟩

theorem ofExcept {x : Except ScanError α} {a : α} (h : x = .ok a) :
    Succeeds (ofExcept x : Access σ α) := fun s => ⟨a, s, by rw [run_ofExcept, h]⟩

theorem bind {x : Access σ α} {f : α → Access σ β} (first : Succeeds x)
    (next : ∀ a s t, run x s = (.ok a, t) → Succeeds (f a)) : Succeeds (x >>= f) := by
  intro s
  obtain ⟨a, t, ha⟩ := first s
  obtain ⟨b, u, hb⟩ := next a s t ha t
  exact ⟨b, u, run_bind_eq_ok_iff.mpr ⟨a, t, ha, hb⟩⟩

theorem map {x : Access σ α} (f : α → β) (h : Succeeds x) : Succeeds (f <$> x) := by
  intro s
  obtain ⟨a, t, ha⟩ := h s
  exact ⟨f a, t, run_map_eq_ok_iff.mpr ⟨a, ha, rfl⟩⟩

theorem mapM {f : α → Access σ β} {xs : List α} (h : ∀ x ∈ xs, Succeeds (f x)) :
    Succeeds (xs.mapM f) := by
  induction xs with
  | nil => exact pure []
  | cons x xs ih =>
      rw [List.mapM_cons]
      refine bind (h x List.mem_cons_self) fun y _ _ _ => ?_
      refine bind (ih fun z hz => h z (List.mem_cons_of_mem x hz)) fun ys _ _ _ => ?_
      exact pure (y :: ys)

end Succeeds

/-! ### Computations that mirror each other -/

/-- On the first part of the state `x` does what `y` does, and its result is that of `y` seen
through `k`; the second part of the state may change. -/
def Mirrors (x : Access (σ × τ) β) (y : Access σ α) (k : α → β) : Prop :=
  ∀ s t, ∃ t', run x (s, t) = ((run y s).1.map k, (run y s).2, t')

/-- The results that mirror each other. -/
theorem Mirrors.run_eq_ok_iff {x : Access (σ × τ) β} {y : Access σ α} {k : α → β}
    (h : Mirrors x y k) {b : β} {s s' : σ} {t : τ} :
    (∃ t', run x (s, t) = (.ok b, s', t')) ↔ ∃ a, run y s = (.ok a, s') ∧ k a = b := by
  obtain ⟨t', ht'⟩ := h s t
  rw [ht']
  rcases run y s with ⟨e | a, s₁⟩
  · simp [Except.map]
  · simp [Except.map, and_comm]

/-- From the second part `t` on, `x` mirrors `y`; and if `y` finds something, the second part is
then what `c` makes of that. -/
def Tallies (t : τ) (x : Access (σ × τ) β) (y : Access σ α) (k : α → β) (c : α → τ) : Prop :=
  ∀ s, ∃ t', run x (s, t) = ((run y s).1.map k, (run y s).2, t') ∧
    ∀ a s', run y s = (.ok a, s') → t' = c a

namespace Tallies

variable {γ δ : Type} {t : τ}

theorem mirrors {x : Access (σ × τ) β} {y : Access σ α} {k : α → β} {c : τ → α → τ}
    (h : ∀ t, Tallies t x y k (c t)) : Mirrors x y k := by
  intro s t
  obtain ⟨t', ht', -⟩ := h t s
  exact ⟨t', ht'⟩

/-- What is left in the second part by a computation that succeeds. -/
theorem eq_of_run {x : Access (σ × τ) β} {y : Access σ α} {k : α → β} {c : α → τ}
    (h : Tallies t x y k c) {b : β} {s s' : σ} {t' : τ} (hx : run x (s, t) = (.ok b, s', t')) :
    ∃ a, run y s = (.ok a, s') ∧ b = k a ∧ t' = c a := by
  obtain ⟨t₁, ht₁, hc⟩ := h s
  rw [hx] at ht₁
  rcases hy : run y s with ⟨e | a, s₁⟩
  · rw [hy] at ht₁
    cases ht₁
  · rw [hy] at ht₁
    cases ht₁
    exact ⟨a, rfl, rfl, hc a _ hy⟩

theorem pure {a : α} (k : α → β) {c : α → τ} (h : c a = t) :
    Tallies t (Pure.pure (k a) : Access (σ × τ) β) (Pure.pure a) k c := by
  intro s
  refine ⟨t, rfl, fun a' s' ha => ?_⟩
  obtain ⟨rfl, -⟩ := run_pure_eq_ok_iff.mp ha
  exact h.symm

theorem onFirst {x : Access σ β} {y : Access σ α} {k : α → β}
    (h : ∀ s, run x s = run (k <$> y) s) :
    Tallies t (onFirst x : Access (σ × τ) β) y k fun _ => t := by
  intro s
  refine ⟨t, ?_, fun _ _ _ => rfl⟩
  show ((run x s).1, (run x s).2, t) = _
  rw [h, run_map]

theorem bind {x : Access (σ × τ) β} {y : Access σ α} {k : α → β} {f : β → Access (σ × τ) δ}
    {g : α → Access σ γ} {l : γ → δ} {c : α → τ} {d : γ → τ} (first : Tallies t x y k c)
    (next : ∀ a, Tallies (c a) (f (k a)) (g a) l d) : Tallies t (x >>= f) (y >>= g) l d := by
  intro s
  obtain ⟨t₁, h₁, hc⟩ := first s
  rcases hy : run y s with ⟨e | a, s₁⟩
  · rw [hy] at h₁
    refine ⟨t₁, by rw [run_bind, h₁, run_bind, hy]; rfl, fun b s' hb => ?_⟩
    rw [run_bind_of_error hy] at hb
    cases hb
  · rw [hy] at h₁
    cases hc a s₁ hy
    obtain ⟨t₂, h₂, hd⟩ := next a s₁
    rw [run_bind_of_ok hy]
    exact ⟨t₂, (run_bind_of_ok h₁).trans h₂, hd⟩

/-- A step on the second part of the state does not show. -/
theorem modifySecond {x : Access (σ × τ) β} {y : Access σ α} {k : α → β} {c : α → τ} (m : τ → τ)
    (h : Tallies (m t) x y k c) : Tallies t (Access.modifySecond m >>= fun _ => x) y k c := h

theorem mapM {ι : Type} {f : ι → Access (σ × τ) β} {g : ι → Access σ α} {k : ι → α → β}
    {c : ι → α → τ → τ} {xs : List ι}
    (h : ∀ x ∈ xs, ∀ t, Tallies t (f x) (g x) (k x) fun a => c x a t) :
    Tallies t (xs.mapM f) (xs.mapM g) (List.zipWith k xs)
      fun as => (xs.zip as).foldl (fun t p => c p.1 p.2 t) t := by
  induction xs generalizing t with
  | nil => exact pure (a := []) (List.zipWith k []) rfl
  | cons x xs ih =>
      rw [List.mapM_cons, List.mapM_cons]
      refine bind (h x List.mem_cons_self t) fun a => ?_
      refine bind (ih fun z hz => h z (List.mem_cons_of_mem _ hz)) fun as => ?_
      exact pure (a := a :: as) (List.zipWith k (x :: xs)) rfl

end Tallies

/-! ### Computations that keep notes -/

/-- On the medium `x` does what `y` does; beside it keeps notes, which obey a law that may depend on
how `y` ends. -/
def Notes {ν : Type} (law : List ν → Except ScanError α → Prop) (x : Access (σ × List ν) α)
    (y : Access σ α) : Prop :=
  ∀ s before, ∃ notes, run x (s, before) = ((run y s).1, (run y s).2, before ++ notes) ∧
    law notes (run y s).1

namespace Notes

variable {ν : Type} {law : List ν → Except ScanError α → Prop}

theorem ofExcept {x : Except ScanError α} (h : law [] x) :
    Notes law (Access.ofExcept x) (Access.ofExcept x : Access σ α) := by
  intro s before
  refine ⟨[], ?_, by rwa [run_ofExcept]⟩
  rw [run_ofExcept, run_ofExcept, List.append_nil]

/-- The notes of two computations in sequence: those of the first alone if it fails. -/
theorem bind {x : Access (σ × List ν) α} {y : Access σ α} {f : α → Access (σ × List ν) β}
    {g : α → Access σ β} {second : α → List ν → Except ScanError β → Prop}
    {both : List ν → Except ScanError β → Prop} (first : Notes law x y)
    (next : ∀ a, Notes (second a) (f a) (g a))
    (failed : ∀ notes e, law notes (.error e) → both notes (.error e))
    (went : ∀ notes a more r, law notes (.ok a) → second a more r → both (notes ++ more) r) :
    Notes both (x >>= f) (y >>= g) := by
  intro s before
  obtain ⟨notes, hx, hlaw⟩ := first s before
  rcases hy : run y s with ⟨e | a, s₁⟩
  · rw [hy] at hx hlaw
    rw [run_bind_of_error hx, run_bind_of_error hy]
    exact ⟨notes, rfl, failed notes e hlaw⟩
  · rw [hy] at hx hlaw
    obtain ⟨more, hf, hlaw'⟩ := next a s₁ (before ++ notes)
    rw [run_bind_of_ok hx, hf, run_bind_of_ok hy, List.append_assoc]
    exact ⟨notes ++ more, rfl, went notes a more _ hlaw hlaw'⟩

end Notes

end Access

end StripeScan
