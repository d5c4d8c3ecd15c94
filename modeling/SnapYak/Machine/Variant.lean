import SnapYak.Machine.Run

/-!
# Variants

A *variant* is a natural number that every step of a kind takes down. Runs of such steps cannot be
longer than it, and they come to an end where no step of the kind is possible. If a step takes it
down by exactly one, the length of a run is known.

The kind of a step is a discipline on runs (`Machine.Along`), and an invariant of these steps may be
used throughout.

## Main results

* `Machine.length_add_le_of_variant`, `Machine.length_add_eq_of_variant` : the lengths of runs.
* `Machine.exists_run_of_progress` : where a step is possible in every state that is not final, some
  run ends in a final state.
-/

namespace Machine

variable {σ ε : Type*} {M : Machine σ ε} {I Q : σ → Prop} {A : σ → ε → Prop} {v : σ → ℕ}

/-- **Variant rule.** A run is no longer than what it takes away from the variant. -/
theorem length_add_le_of_variant (hI : ∀ {s e t}, I s → A s e → M.step s e = some t → I t)
    (hv : ∀ {s e t}, I s → A s e → M.step s e = some t → v t < v s) {s t : σ} {es : List ε}
    (hs : I s) (hA : M.Along A s es) (hrun : M.run s es = some t) : es.length + v t ≤ v s := by
  induction es generalizing s with
  | nil =>
    obtain rfl : s = t := by simpa using hrun
    exact Nat.le_of_eq (Nat.zero_add _)
  | cons e es ih =>
    obtain ⟨u, hu, hrun⟩ := run_cons_eq_some.mp hrun
    rw [along_cons_of_step hu] at hA
    have hlt := hv hs hA.1 hu
    have hle := ih (hI hs hA.1 hu) hA.2 hrun
    rw [List.length_cons]
    omega

/-- A run whose steps take the variant down by one is as long as what it takes away. -/
theorem length_add_eq_of_variant (hI : ∀ {s e t}, I s → A s e → M.step s e = some t → I t)
    (hv : ∀ {s e t}, I s → A s e → M.step s e = some t → v t + 1 = v s) {s t : σ} {es : List ε}
    (hs : I s) (hA : M.Along A s es) (hrun : M.run s es = some t) : es.length + v t = v s := by
  induction es generalizing s with
  | nil =>
    obtain rfl : s = t := by simpa using hrun
    exact Nat.zero_add _
  | cons e es ih =>
    obtain ⟨u, hu, hrun⟩ := run_cons_eq_some.mp hrun
    rw [along_cons_of_step hu] at hA
    have heq := hv hs hA.1 hu
    have hrest := ih (hI hs hA.1 hu) hA.2 hrun
    rw [List.length_cons]
    omega

/-- **Progress rule.** If every state that is not final has a step of the kind, and these steps take
a variant down, then some run of such steps ends in a final state. -/
theorem exists_run_of_progress (hI : ∀ {s e t}, I s → A s e → M.step s e = some t → I t)
    (hv : ∀ {s e t}, I s → A s e → M.step s e = some t → v t < v s)
    (hprogress : ∀ {s}, I s → ¬Q s → ∃ e t, A s e ∧ M.step s e = some t) {s : σ} (hs : I s) :
    ∃ es t, M.Along A s es ∧ M.run s es = some t ∧ Q t := by
  induction hn : v s using Nat.strongRecOn generalizing s with
  | _ n ih =>
    by_cases hfinal : Q s
    · exact ⟨[], s, True.intro, rfl, hfinal⟩
    · obtain ⟨e, u, hA, hu⟩ := hprogress hs hfinal
      obtain ⟨es, t, hes, hrun, ht⟩ := ih (v u) (hn ▸ hv hs hA hu) (hI hs hA hu) rfl
      exact ⟨e :: es, t, (along_cons_of_step hu).mpr ⟨hA, hes⟩,
        run_cons_eq_some.mpr ⟨u, hu, hrun⟩, ht⟩

end Machine
