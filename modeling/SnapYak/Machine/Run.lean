import Mathlib.Data.List.Basic

/-!
# Runs of partial labelled machines

A *machine* takes labelled steps, each of which is a partial function of the state: all choices of
the environment (who moves, which outstanding call completes, what a failing call returns) are
written in the label. A *run* is a list of labels, and it is possible when each of its steps is.

A discipline on runs (callbacks in the order of issue, no failing call) is a property of a state
and the step about to be taken there; `Machine.Along` says that a run obeys it at every step. The
rules below turn what one step preserves into what a run preserves.

## Main definitions

* `Machine`, `Machine.run` : machines and their runs.
* `Machine.Along` : a property of every step of a run, in the state before the step.
* `Machine.Meets` : a property of some step of a run.
* `Machine.Visits` : a property of every state of a run, its two ends included.

## Main results

* `Machine.run_induction` : an invariant of the steps that obey a discipline holds after a run.
* `Machine.Along.of_invariant`, `Machine.along_congr` : changing the discipline under an invariant.
* `Machine.visits_iff_along`, `Machine.visits_iff_along_of_invariant` : a property that one kind of
  step breaks, and always breaks.
* `Machine.flag_iff` : a flag that some steps set and others clear.
* `Machine.run_simulates` : a machine that another one simulates step by step.
-/

/-- A labelled machine with partial steps: `step s e` is the state after the label `e`, or `none`
when `e` cannot happen in `s`. -/
structure Machine (σ ε : Type*) where
  /-- The state after a label, if the label can happen. -/
  step : σ → ε → Option σ

namespace Machine

variable {σ ε σ' ε' : Type*} (M : Machine σ ε)

/-! ### Runs -/

/-- The state after the labels of a list, taken one after the other. -/
def run : σ → List ε → Option σ
  | s, [] => some s
  | s, e :: es => (M.step s e).bind fun t => run t es

@[simp] theorem run_nil (s : σ) : M.run s [] = some s := rfl

variable {M}

theorem run_cons_eq_some {s u : σ} {e : ε} {es : List ε} :
    M.run s (e :: es) = some u ↔ ∃ t, M.step s e = some t ∧ M.run t es = some u := by
  simp only [run, Option.bind_eq_some_iff]

theorem run_append_eq_some {s u : σ} {es es' : List ε} :
    M.run s (es ++ es') = some u ↔ ∃ t, M.run s es = some t ∧ M.run t es' = some u := by
  induction es generalizing s with
  | nil => simp
  | cons e es ih =>
    simp only [List.cons_append, run_cons_eq_some, ih]
    constructor
    · rintro ⟨t, ht, v, hv, hu⟩
      exact ⟨v, ⟨t, ht, hv⟩, hu⟩
    · rintro ⟨v, ⟨t, ht, hv⟩, hu⟩
      exact ⟨t, ht, v, hv, hu⟩

/-- A machine whose labels can always happen has all runs. -/
theorem exists_run (M : Machine σ ε) (htotal : ∀ s e, ∃ t, M.step s e = some t) :
    (s : σ) → (es : List ε) → ∃ t, M.run s es = some t
  | s, [] => ⟨s, rfl⟩
  | s, e :: es => by
    obtain ⟨u, hu⟩ := htotal s e
    obtain ⟨t, ht⟩ := exists_run M htotal u es
    exact ⟨t, run_cons_eq_some.mpr ⟨u, hu, ht⟩⟩

theorem run_singleton_eq_some {s t : σ} {e : ε} : M.run s [e] = some t ↔ M.step s e = some t := by
  simp [run_cons_eq_some]

/-! ### Disciplines on runs -/

variable (M)

/-- Every step of the run is taken in a state where `A` holds of it. -/
def Along (A : σ → ε → Prop) : σ → List ε → Prop
  | _, [] => True
  | s, e :: es => A s e ∧ match M.step s e with
    | none => True
    | some t => Along A t es

/-- Some step of the run is taken in a state where `A` holds of it. -/
def Meets (A : σ → ε → Prop) : σ → List ε → Prop
  | _, [] => False
  | s, e :: es => A s e ∨ match M.step s e with
    | none => False
    | some t => Meets A t es

/-- Every state of the run satisfies `P`, the first and the last one included. -/
def Visits (P : σ → Prop) : σ → List ε → Prop
  | s, [] => P s
  | s, e :: es => P s ∧ match M.step s e with
    | none => True
    | some t => Visits P t es

instance decidableAlong (A : σ → ε → Prop) [∀ s e, Decidable (A s e)] :
    (s : σ) → (es : List ε) → Decidable (M.Along A s es)
  | _, [] => isTrue trivial
  | s, e :: es =>
    match h : M.step s e with
    | none => decidable_of_iff (A s e) (by simp [Along, h])
    | some t =>
      have := decidableAlong A t es
      decidable_of_iff (A s e ∧ M.Along A t es) (by simp [Along, h])

variable {M} {A B : σ → ε → Prop} {I P : σ → Prop}

theorem along_cons_of_step {s t : σ} {e : ε} {es : List ε} (h : M.step s e = some t) :
    M.Along A s (e :: es) ↔ A s e ∧ M.Along A t es := by
  simp only [Along, h]

theorem meets_cons_of_step {s t : σ} {e : ε} {es : List ε} (h : M.step s e = some t) :
    M.Meets A s (e :: es) ↔ A s e ∨ M.Meets A t es := by
  simp only [Meets, h]

/-- The beginning of a run that obeys a discipline obeys it. -/
theorem Along.append_left {s : σ} {es es' : List ε} (h : M.Along A s (es ++ es')) :
    M.Along A s es := by
  induction es generalizing s with
  | nil => exact True.intro
  | cons e es ih =>
    refine ⟨h.1, ?_⟩
    cases ht : M.step s e with
    | none => exact True.intro
    | some t => exact ih ((along_cons_of_step ht).mp h).2

/-- A run visits the states that its beginnings lead to. -/
theorem visits_iff {s : σ} {es : List ε} : M.Visits P s es ↔
    ∀ (es₁ es₂ : List ε) (u : σ), es = es₁ ++ es₂ → M.run s es₁ = some u → P u := by
  induction es generalizing s with
  | nil =>
    constructor
    · rintro hs es₁ es₂ u hes hrun
      obtain ⟨rfl, rfl⟩ := List.nil_eq_append_iff.mp hes
      obtain rfl : s = u := by simpa using hrun
      exact hs
    · intro h
      exact h [] [] s rfl rfl
  | cons e es ih =>
    constructor
    · rintro ⟨hs, hrest⟩ es₁ es₂ u hes hrun
      rcases List.cons_eq_append_iff.mp hes with ⟨rfl, -⟩ | ⟨es₁, rfl, htail⟩
      · obtain rfl : s = u := by simpa using hrun
        exact hs
      · obtain ⟨t, ht, hrun⟩ := run_cons_eq_some.mp hrun
        simp only [ht] at hrest
        exact ih.mp hrest es₁ es₂ u htail hrun
    · intro h
      refine ⟨h [] (e :: es) s rfl rfl, ?_⟩
      cases ht : M.step s e with
      | none => trivial
      | some t =>
        refine ih.mpr fun es₁ es₂ u hes hrun => ?_
        have hrun' : M.run s (e :: es₁) = some u := run_cons_eq_some.mpr ⟨t, ht, hrun⟩
        exact h (e :: es₁) es₂ u (by rw [hes, List.cons_append]) hrun'

/-- A run begins in the state that it visits first. -/
theorem Visits.head {s : σ} {es : List ε} (h : M.Visits P s es) : P s := by
  cases es with
  | nil => exact h
  | cons e es => exact h.1

theorem Along.trivial : (s : σ) → (es : List ε) → M.Along (fun _ _ => True) s es
  | _, [] => True.intro
  | s, e :: es => by
    refine ⟨True.intro, ?_⟩
    cases M.step s e with
    | none => exact True.intro
    | some t => exact Along.trivial t es

theorem Along.and {s : σ} {es : List ε} (hA : M.Along A s es) (hB : M.Along B s es) :
    M.Along (fun s e => A s e ∧ B s e) s es := by
  induction es generalizing s with
  | nil => trivial
  | cons e es ih =>
    cases h : M.step s e with
    | none => exact ⟨⟨hA.1, hB.1⟩, by simp only [h]⟩
    | some t =>
      rw [along_cons_of_step h] at hA hB ⊢
      exact ⟨⟨hA.1, hB.1⟩, ih hA.2 hB.2⟩

/-! ### From steps to runs -/

/-- **Invariant rule.** What every step that obeys the discipline `A` preserves holds after every
run that obeys it. -/
theorem run_induction (hstep : ∀ {s e t}, I s → A s e → M.step s e = some t → I t) {s t : σ}
    {es : List ε} (hs : I s) (hA : M.Along A s es) (hrun : M.run s es = some t) : I t := by
  induction es generalizing s with
  | nil =>
    obtain rfl : s = t := by simpa using hrun
    exact hs
  | cons e es ih =>
    obtain ⟨u, hu, hrun⟩ := run_cons_eq_some.mp hrun
    rw [along_cons_of_step hu] at hA
    exact ih (hstep hs hA.1 hu) hA.2 hrun

/-- The invariant rule for runs without a discipline. -/
theorem run_invariant (hstep : ∀ {s e t}, I s → M.step s e = some t → I t) {s t : σ}
    {es : List ε} (hs : I s) (hrun : M.run s es = some t) : I t :=
  run_induction (A := fun _ _ => True) (fun h _ => hstep h) hs (.trivial s es) hrun

/-- Under an invariant of the steps that obey `A`, a discipline that follows from `A` and the
invariant is obeyed as well. -/
theorem Along.of_invariant (hstep : ∀ {s e t}, I s → A s e → M.step s e = some t → I t)
    (hAB : ∀ {s e}, I s → A s e → B s e) {s : σ} {es : List ε} (hs : I s)
    (hA : M.Along A s es) : M.Along B s es := by
  induction es generalizing s with
  | nil => trivial
  | cons e es ih =>
    cases h : M.step s e with
    | none => exact ⟨hAB hs hA.1, by simp only [h]⟩
    | some t =>
      rw [along_cons_of_step h] at hA ⊢
      exact ⟨hAB hs hA.1, ih (hstep hs hA.1 h) hA.2⟩

theorem Along.mono (h : ∀ s e, A s e → B s e) {s : σ} {es : List ε} (hA : M.Along A s es) :
    M.Along B s es :=
  hA.of_invariant (I := fun _ => True) (fun _ _ _ => True.intro) (fun _ => h _ _) True.intro

/-- Two disciplines that agree under an invariant of the steps that obey them are obeyed by the
same runs. -/
theorem along_congr (hstep : ∀ {s e t}, I s → A s e → M.step s e = some t → I t)
    (hAB : ∀ {s e}, I s → (A s e ↔ B s e)) {s : σ} {es : List ε} (hs : I s) :
    M.Along A s es ↔ M.Along B s es :=
  ⟨fun h => h.of_invariant hstep (fun hi => (hAB hi).mp) hs,
    fun h => h.of_invariant (fun hi hB => hstep hi ((hAB hi).mpr hB)) (fun hi => (hAB hi).mpr) hs⟩

/-- A property holds throughout a run exactly when the whole run obeys `A`, if a step leads to it
exactly when it obeys `A`. An invariant of the steps that obey `A` may be used to show it. -/
theorem visits_iff_along_of_invariant
    (hstep : ∀ {s e t}, I s → M.step s e = some t → (P t ↔ A s e) ∧ (A s e → I t)) {s t : σ}
    {es : List ε} (hI : I s) (hs : P s) (hrun : M.run s es = some t) :
    M.Visits P s es ↔ M.Along A s es := by
  induction es generalizing s with
  | nil => exact ⟨fun _ => trivial, fun _ => hs⟩
  | cons e es ih =>
    obtain ⟨u, hu, hrun⟩ := run_cons_eq_some.mp hrun
    rw [along_cons_of_step hu]
    simp only [Visits, hu]
    obtain ⟨hiff, hinv⟩ := hstep hI hu
    constructor
    · rintro ⟨-, hv⟩
      have hA := hiff.mp hv.head
      exact ⟨hA, (ih (hinv hA) hv.head hrun).mp hv⟩
    · rintro ⟨hA, hrest⟩
      exact ⟨hs, (ih (hinv hA) (hiff.mpr hA) hrun).mpr hrest⟩

/-- A property that a step preserves exactly when the step obeys `A` holds throughout a run
exactly when the whole run obeys `A`. -/
theorem visits_iff_along (hstep : ∀ {s e t}, P s → M.step s e = some t → (P t ↔ A s e)) {s t : σ}
    {es : List ε} (hs : P s) (hrun : M.run s es = some t) : M.Visits P s es ↔ M.Along A s es :=
  visits_iff_along_of_invariant (I := P) (fun h ht => ⟨hstep h ht, (hstep h ht).mpr⟩) hs hs hrun

/-- **Flag rule.** A flag that some steps set and others clear, and that no other step changes, is
set after a run exactly when no step has cleared it since one of the steps that set it, or since the
beginning if it was set there. -/
theorem flag_iff {sets clears : σ → ε → Prop} {flag : σ → Prop}
    (hstep : ∀ {s e t}, M.step s e = some t → (flag t ↔ sets s e ∨ flag s ∧ ¬clears s e)) {s t : σ}
    {es : List ε} (hrun : M.run s es = some t) :
    flag t ↔ (flag s ∧ ¬M.Meets clears s es) ∨ ∃ (es₁ : List ε) (e : ε) (es₂ : List ε) (u v : σ),
      es = es₁ ++ e :: es₂ ∧ M.run s es₁ = some u ∧ M.step u e = some v ∧ sets u e ∧
        ¬M.Meets clears v es₂ := by
  induction es generalizing s with
  | nil =>
    obtain rfl : s = t := by simpa using hrun
    simp [Meets]
  | cons e es ih =>
    obtain ⟨w, hw, hrun⟩ := run_cons_eq_some.mp hrun
    rw [ih hrun, hstep hw, meets_cons_of_step hw]
    constructor
    · rintro (⟨hset | ⟨hs, hclear⟩, hmeets⟩ | ⟨es₁, e', es₂, u, v, rfl, hu, hv, hset, hmeets⟩)
      · exact .inr ⟨[], e, es, s, w, rfl, rfl, hw, hset, hmeets⟩
      · exact .inl ⟨hs, not_or.mpr ⟨hclear, hmeets⟩⟩
      · have hu' : M.run s (e :: es₁) = some u := run_cons_eq_some.mpr ⟨w, hw, hu⟩
        exact .inr ⟨e :: es₁, e', es₂, u, v, rfl, hu', hv, hset, hmeets⟩
    · rintro (⟨hs, hmeets⟩ | ⟨es₁, e', es₂, u, v, hes, hu, hv, hset, hmeets⟩)
      · obtain ⟨hclear, hmeets⟩ := not_or.mp hmeets
        exact .inl ⟨.inr ⟨hs, hclear⟩, hmeets⟩
      · rcases List.cons_eq_append_iff.mp hes with ⟨rfl, hcons⟩ | ⟨es₁, rfl, htail⟩
        · obtain ⟨rfl, rfl⟩ := List.cons.inj hcons
          obtain rfl : s = u := by simpa using hu
          obtain rfl : v = w := Option.some.inj (hv.symm.trans hw)
          exact .inl ⟨.inl hset, hmeets⟩
        · obtain ⟨w', hw', hu⟩ := run_cons_eq_some.mp hu
          obtain rfl : w' = w := Option.some.inj (hw'.symm.trans hw)
          exact .inr ⟨es₁, e', es₂, u, v, htail, hu, hv, hset, hmeets⟩

/-- **Simulation.** If every step of `M` is a run of `N` between the images of the two states,
every run of `M` is one of `N`. -/
theorem run_simulates {N : Machine σ' ε'} (f : σ → σ')
    (hstep : ∀ {s e t}, M.step s e = some t → ∃ es', N.run (f s) es' = some (f t)) {s t : σ}
    {es : List ε} (hrun : M.run s es = some t) : ∃ es', N.run (f s) es' = some (f t) := by
  induction es generalizing s with
  | nil =>
    obtain rfl : s = t := by simpa using hrun
    exact ⟨[], rfl⟩
  | cons e es ih =>
    obtain ⟨u, hu, hrun⟩ := run_cons_eq_some.mp hrun
    obtain ⟨es₁, h₁⟩ := hstep hu
    obtain ⟨es₂, h₂⟩ := ih hrun
    exact ⟨es₁ ++ es₂, run_append_eq_some.mpr ⟨f u, h₁, h₂⟩⟩

end Machine
