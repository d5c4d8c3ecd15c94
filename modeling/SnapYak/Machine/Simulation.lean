import SnapYak.Machine.History

/-!
# Simulations with stuttering

A machine simulates another one when each of its steps, read through a map of the states, is one
step of the other machine or none. Then its runs are runs of the other machine, and what is known
about the logs and the disciplines of those is known about its own.

An invariant of the simulating machine may be used to show what a step does.

## Main definitions

* `Machine.Simulation` : a simulation, with the label that a step has in the other machine.
* `Machine.Simulation.image` : the labels of a run in the other machine.

## Main results

* `Machine.Simulation.run_image` : runs are mapped to runs.
* `Machine.Simulation.log_image`, `Machine.Simulation.along_image` : logs and disciplines of the
  image.
-/

namespace Machine

variable {σ ε σ' ε' β : Type*}

/-- A simulation of `N` by `M`. -/
structure Simulation (M : Machine σ ε) (N : Machine σ' ε') where
  /-- An invariant of `M`. -/
  inv : σ → Prop
  /-- The states of `N`. -/
  map : σ → σ'
  /-- The label of a step in `N`, unless it leaves the state of `N` alone. -/
  label : σ → ε → Option ε'
  inv_step {s : σ} {e : ε} {t : σ} : inv s → M.step s e = some t → inv t
  run_step {s : σ} {e : ε} {t : σ} :
    inv s → M.step s e = some t → N.run (map s) (label s e).toList = some (map t)

namespace Simulation

variable {M : Machine σ ε} {N : Machine σ' ε'} (f : Simulation M N) {s t : σ} {e : ε}
  {es : List ε}

/-- The labels of a run in `N`. -/
def image (s : σ) (es : List ε) : List ε' := M.log (fun s e => (f.label s e).toList) s es

theorem image_cons_of_step (ht : M.step s e = some t) :
    f.image s (e :: es) = (f.label s e).toList ++ f.image t es :=
  log_cons_of_step ht

/-- A step of `M` is a step of `N` or none. -/
theorem step_cases (hs : f.inv s) (ht : M.step s e = some t) :
    (f.label s e = none ∧ f.map t = f.map s) ∨
      ∃ e', f.label s e = some e' ∧ N.step (f.map s) e' = some (f.map t) := by
  have hrun := f.run_step hs ht
  cases hlabel : f.label s e with
  | none =>
    rw [hlabel] at hrun
    exact .inl ⟨rfl, (Option.some.inj hrun).symm⟩
  | some e' =>
    rw [hlabel] at hrun
    exact .inr ⟨e', rfl, run_singleton_eq_some.mp hrun⟩

/-- The invariant holds after a run. -/
theorem inv_run (hs : f.inv s) (hrun : M.run s es = some t) : f.inv t :=
  run_invariant f.inv_step hs hrun

/-- **Runs are mapped to runs.** -/
theorem run_image (hs : f.inv s) (hrun : M.run s es = some t) :
    N.run (f.map s) (f.image s es) = some (f.map t) := by
  induction es generalizing s with
  | nil =>
    obtain rfl : s = t := by simpa using hrun
    rfl
  | cons e es ih =>
    obtain ⟨u, hu, hrun⟩ := run_cons_eq_some.mp hrun
    rw [f.image_cons_of_step hu]
    exact run_append_eq_some.mpr ⟨f.map u, f.run_step hs hu, ih (f.inv_step hs hu) hrun⟩

/-- **Logs of the image.** -/
theorem log_image {v : σ' → ε' → List β} {w : σ → ε → List β}
    (hvw : ∀ s e, (f.label s e).toList.flatMap (v (f.map s)) = w s e) (hs : f.inv s)
    (hrun : M.run s es = some t) : N.log v (f.map s) (f.image s es) = M.log w s es := by
  induction es generalizing s with
  | nil => rfl
  | cons e es ih =>
    obtain ⟨u, hu, hrun⟩ := run_cons_eq_some.mp hrun
    rw [f.image_cons_of_step hu, log_cons_of_step hu, ← ih (f.inv_step hs hu) hrun, ← hvw]
    rcases f.step_cases hs hu with ⟨hlabel, hmap⟩ | ⟨e', hlabel, hstep⟩
    · rw [hlabel, hmap]
      rfl
    · rw [hlabel, Option.toList_some, List.singleton_append, log_cons_of_step hstep,
        List.flatMap_singleton]

/-- **Disciplines of the image.** -/
theorem along_image {A : σ' → ε' → Prop} {B : σ → ε → Prop}
    (hAB : ∀ s e, (∀ e' ∈ f.label s e, A (f.map s) e') ↔ B s e) (hs : f.inv s)
    (hrun : M.run s es = some t) :
    N.Along A (f.map s) (f.image s es) ↔ M.Along B s es := by
  induction es generalizing s with
  | nil => exact Iff.rfl
  | cons e es ih =>
    obtain ⟨u, hu, hrun⟩ := run_cons_eq_some.mp hrun
    rw [f.image_cons_of_step hu, along_cons_of_step hu, ← ih (f.inv_step hs hu) hrun, ← hAB]
    rcases f.step_cases hs hu with ⟨hlabel, hmap⟩ | ⟨e', hlabel, hstep⟩
    · rw [hlabel, hmap]
      simp
    · rw [hlabel, Option.toList_some, List.singleton_append, along_cons_of_step hstep]
      simp

end Simulation

end Machine
