import Mathlib.Data.List.Basic

/-!
# Methods that throw

A method of an object changes the object step by step and may throw on the way. What it has changed
by then stays changed: there is no roll-back. Such a method is a computation of
`ExceptT ε (StateM σ)`, for an object of type `σ` and errors of type `ε`.

`Throwing.result` runs a method on an object. The rules below evaluate it along the structure of the
method; they are simp lemmas, so that a method is executed symbolically by `simp`.

## Main definitions

* `Throwing.result` : how a method ends, and the object afterwards.

## Main results

* `Throwing.result_bind` : the second method runs on what the first one leaves, unless it threw.
* `Throwing.result_bind_eq_ok` : both parts of a method that ends without an error do.
-/

namespace Throwing

variable {ε σ α β : Type}

/-- How a method ends on an object, with a value or an error, and the object afterwards. -/
def result (m : ExceptT ε (StateM σ) α) (s : σ) : Except ε α × σ := m.run.run s

@[simp] theorem result_pure (a : α) (s : σ) :
    result (pure a : ExceptT ε (StateM σ) α) s = (.ok a, s) := rfl

@[simp] theorem result_throw (e : ε) (s : σ) :
    result (throw e : ExceptT ε (StateM σ) α) s = (.error e, s) := rfl

@[simp] theorem result_get (s : σ) : result (get : ExceptT ε (StateM σ) σ) s = (.ok s, s) := rfl

@[simp] theorem result_modify (f : σ → σ) (s : σ) :
    result (modify f : ExceptT ε (StateM σ) Unit) s = (.ok (), f s) := rfl

/-- The second method runs on what the first one leaves, unless the first one threw. -/
@[simp] theorem result_bind (m : ExceptT ε (StateM σ) α) (f : α → ExceptT ε (StateM σ) β) (s : σ) :
    result (m >>= f) s = match result m s with
      | (.ok a, t) => result (f a) t
      | (.error e, t) => (.error e, t) := by
  have hbind : result (m >>= f) s = match (result m s).1 with
      | .ok a => result (f a) (result m s).2
      | .error e => (.error e, (result m s).2) := by
    simp only [result, ExceptT.run_bind, StateT.run_bind]
    show (match (m.run.run s).1 with
      | .ok a => (f a).run
      | .error e => pure (.error e)).run (m.run.run s).2 = _
    cases (m.run.run s).1 <;> rfl
  rw [hbind]
  obtain ⟨a | e, t⟩ := result m s <;> rfl

@[simp] theorem result_ite (p : Prop) [Decidable p] (m n : ExceptT ε (StateM σ) α) (s : σ) :
    result (if p then m else n) s = if p then result m s else result n s := by
  split_ifs <;> rfl

/-- A method that ends without an error has run through both of its parts. -/
theorem result_bind_eq_ok {m : ExceptT ε (StateM σ) α} {f : α → ExceptT ε (StateM σ) β} {s u : σ}
    {b : β} : result (m >>= f) s = (.ok b, u) ↔
      ∃ a t, result m s = (.ok a, t) ∧ result (f a) t = (.ok b, u) := by
  rw [result_bind]
  obtain ⟨a | e, t⟩ := result m s <;> simp

end Throwing
