import FilterSql.Error

/-!
Computations that may fail and keep their state when they do.

What was done to the state before a failure stays done: aliases given out stay given out, and a
statement keeps what was attached to it.
-/

namespace FilterSql

/-- A computation on a state that gives a result or an error, and in both cases the state it leaves
behind. -/
def Step (σ α : Type) : Type := σ → Except CompileError α × σ

namespace Step

variable {σ α β : Type}

/-- Gives a result and leaves the state alone. -/
def done (a : α) : Step σ α := fun s => (.ok a, s)

/-- Fails and leaves the state alone. -/
def fail (e : CompileError) : Step σ α := fun s => (.error e, s)

/-- Goes on with the result, unless there is none. -/
def andThen (m : Step σ α) (k : α → Step σ β) : Step σ β := fun s =>
  match m s with
  | (.ok a, s) => k a s
  | (.error e, s) => (.error e, s)

instance : Monad (Step σ) where
  pure := done
  bind := andThen

/-- A result that does not depend on the state. -/
def ofExcept : Except CompileError α → Step σ α
  | .ok a => done a
  | .error e => fail e

/-- A computation that cannot fail. -/
def ofTotal (m : σ → α × σ) : Step σ α := fun s =>
  let (a, s) := m s
  (.ok a, s)

/-- Changes the state. -/
def modify (f : σ → σ) : Step σ Unit := fun s => (.ok (), f s)

/-- A computation on a part of the state. -/
def within {τ : Type} (get : τ → σ) (put : σ → τ → τ) (m : Step σ α) : Step τ α := fun t =>
  let (result, s) := m (get t)
  (result, put s t)

@[simp] theorem pure_apply (a : α) (s : σ) : (pure a : Step σ α) s = (.ok a, s) := rfl

theorem bind_apply (m : Step σ α) (k : α → Step σ β) (s : σ) :
    (m >>= k) s =
      match m s with
      | (.ok a, s) => k a s
      | (.error e, s) => (.error e, s) := rfl

@[simp] theorem fail_apply (e : CompileError) (s : σ) :
    (fail e : Step σ α) s = (.error e, s) := rfl

@[simp] theorem ofExcept_ok_apply (a : α) (s : σ) :
    (ofExcept (.ok a) : Step σ α) s = (.ok a, s) := rfl

@[simp] theorem ofExcept_error_apply (e : CompileError) (s : σ) :
    (ofExcept (.error e) : Step σ α) s = (.error e, s) := rfl

@[simp] theorem modify_apply (f : σ → σ) (s : σ) : modify f s = (.ok (), f s) := rfl

end Step

end FilterSql
