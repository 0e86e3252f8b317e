import StripeScan.Scan.Error

/-! # Access to a medium

Reading statistics or rows touches a medium: the medium has a state of type `σ` (what has been
logged, how often it was read, …), every request may change the state, and every request may
fail.  A failure ends what was going on, but the state of the medium at that moment is kept. -/

namespace StripeScan

/-- A computation on a medium with state `σ`. -/
def Access (σ α : Type) : Type := σ → Except ScanError α × σ

namespace Access

variable {σ τ α β γ : Type}

instance : Monad (Access σ) where
  pure a := fun s => (.ok a, s)
  bind x f := fun s =>
    match x s with
    | (.ok a, s) => f a s
    | (.error e, s) => (.error e, s)

/-- Runs a computation from a state of the medium. -/
def run (x : Access σ α) (s : σ) : Except ScanError α × σ := x s

/-- Fails without touching the medium. -/
def fail (e : ScanError) : Access σ α := fun s => (.error e, s)

/-- A result that does not depend on the medium. -/
def ofExcept : Except ScanError α → Access σ α
  | .ok a => pure a
  | .error e => fail e

/-- Changes the state of the medium. -/
def modify (f : σ → σ) : Access σ Unit := fun s => (.ok (), f s)

/-- A computation on the first part of a pair of states. -/
def onFirst (x : Access σ α) : Access (σ × τ) α := fun (s, t) =>
  let (result, s) := x s
  (result, s, t)

/-- Changes the second part of a pair of states. -/
def modifySecond (f : τ → τ) : Access (σ × τ) Unit := modify fun (s, t) => (s, f t)

@[simp] theorem run_pure (a : α) (s : σ) : run (pure a) s = (.ok a, s) := rfl

@[simp] theorem run_fail (e : ScanError) (s : σ) : run (fail e : Access σ α) s = (.error e, s) :=
  rfl

theorem run_bind (x : Access σ α) (f : α → Access σ β) (s : σ) :
    run (x >>= f) s =
      match run x s with
      | (.ok a, s) => run (f a) s
      | (.error e, s) => (.error e, s) := rfl

theorem run_bind_of_ok {x : Access σ α} {f : α → Access σ β} {s t : σ} {a : α}
    (h : run x s = (.ok a, t)) : run (x >>= f) s = run (f a) t := by
  rw [run_bind, h]

theorem run_bind_of_error {x : Access σ α} {f : α → Access σ β} {s t : σ} {e : ScanError}
    (h : run x s = (.error e, t)) : run (x >>= f) s = (.error e, t) := by
  rw [run_bind, h]

theorem bind_pure_self (x : Access σ α) : (x >>= fun a => pure (id a)) = x := by
  funext s
  show (match x s with | (.ok a, s) => _ | (.error e, s) => _) = x s
  rcases x s with ⟨_ | _, _⟩ <;> rfl

theorem bind_bind (x : Access σ α) (f : α → Access σ β) (g : β → Access σ γ) :
    x >>= f >>= g = x >>= fun a => f a >>= g := by
  funext s
  show (match (match x s with | (.ok a, s) => f a s | (.error e, s) => (.error e, s)) with
      | (.ok b, s) => g b s | (.error e, s) => (.error e, s)) =
    (match x s with | (.ok a, s) => _ | (.error e, s) => (.error e, s))
  rcases x s with ⟨_ | _, _⟩ <;> rfl

instance : LawfulMonad (Access σ) :=
  LawfulMonad.mk' (Access σ) bind_pure_self (fun _ _ => rfl) bind_bind

end Access

end StripeScan
