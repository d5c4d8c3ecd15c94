import SnapYak.Machine.Simulation
import SnapYak.Machine.Throwing

/-!
# Methods in the background

A throwing method of an object may run on a queue of its own while other methods of the object are
called. Its statements then happen one at a time, with calls between them. A *routine* is such a
method. Run alone it does what a method of `Throwing` does (`Routine.Runs`).

The other methods may not notice it. If they leave an object alone that is in a certain condition,
and the routine keeps the object in this condition until it ends, then in every interleaving the
routine does what it does alone.

## Main definitions

* `Routine`, `Routine.result` : routines, and what they do alone.
* `Routine.Runs` : a routine does alone what a method does.
* `Routine.Keeps` : a condition of the object while a routine runs, and one afterwards.
* `Background.machine` : the interleavings of a routine with calls.

## Main results

* `Routine.Runs.bind` : methods are made into routines part by part.
* `Routine.keeps_bind` : the condition is kept by parts.
* `Background.kept_run` : the conditions hold in every interleaving.
* `Background.exists_prefix` : up to its end a routine does what it does alone.
-/

/-- A throwing method of an object of type `σ` whose statements happen one at a time. -/
inductive Routine (ε σ α : Type) : Type
  | ended (a : α)
  | threw (e : ε)
  /-- A statement, which changes the object, and the rest of the method, which may depend on what
  the object was. -/
  | next (f : σ → σ) (k : σ → Routine ε σ α)

namespace Routine

variable {ε σ α β : Type}

/-- A routine after another one. -/
def bind : Routine ε σ α → (α → Routine ε σ β) → Routine ε σ β
  | ended a, m => m a
  | threw e, _ => threw e
  | next f k, m => next f fun s => (k s).bind m

instance : Monad (Routine ε σ) where
  pure := ended
  bind := bind

/-- The object is read. -/
def read : Routine ε σ σ := next id ended

/-- The object is changed. -/
def change (f : σ → σ) : Routine ε σ Unit := next f fun _ => ended ()

/-- What a routine does alone: how it ends, and the object afterwards. -/
def result : Routine ε σ α → σ → Except ε α × σ
  | ended a, s => (.ok a, s)
  | threw e, s => (.error e, s)
  | next f k, s => (k s).result (f s)

/-- There is no statement left. -/
def isOver : Routine ε σ α → Bool
  | next .. => false
  | ended _ | threw _ => true

/-! ### Routines and methods -/

theorem result_bind (m : Routine ε σ α) (f : α → Routine ε σ β) (s : σ) :
    (m >>= f).result s = match m.result s with
      | (.ok a, t) => (f a).result t
      | (.error e, t) => (.error e, t) := by
  induction m generalizing s with
  | ended a => rfl
  | threw e => rfl
  | next g k ih => exact ih s (g s)

/-- A routine does alone what a method does. -/
def Runs (r : Routine ε σ α) (m : ExceptT ε (StateM σ) α) : Prop :=
  ∀ s, r.result s = Throwing.result m s

theorem Runs.pure (a : α) : Runs (pure a : Routine ε σ α) (pure a) := fun _ => rfl

theorem Runs.throw (e : ε) : Runs (threw e : Routine ε σ α) (throw e) := fun _ => rfl

theorem Runs.read : Runs (read : Routine ε σ σ) get := fun _ => rfl

theorem Runs.change (f : σ → σ) : Runs (change f : Routine ε σ Unit) (modify f) := fun _ => rfl

/-- **Methods are made into routines part by part.** -/
theorem Runs.bind {r : Routine ε σ α} {m : ExceptT ε (StateM σ) α} {f : α → Routine ε σ β}
    {g : α → ExceptT ε (StateM σ) β} (hr : Runs r m) (hf : ∀ a, Runs (f a) (g a)) :
    Runs (r >>= f) (m >>= g) := by
  intro s
  rw [result_bind, Throwing.result_bind, hr s]
  obtain ⟨a | e, t⟩ := Throwing.result m s
  · rfl
  · exact hf _ t

theorem Runs.ite {p : Prop} [Decidable p] {r r' : Routine ε σ α} {m m' : ExceptT ε (StateM σ) α}
    (h : Runs r m) (h' : Runs r' m') : Runs (if p then r else r') (if p then m else m') := by
  split_ifs
  · exact h
  · exact h'

/-- A conditional statement and what follows it. -/
theorem Runs.when {p : Prop} [Decidable p] {r : Routine ε σ Unit} {m : ExceptT ε (StateM σ) Unit}
    {f : Unit → Routine ε σ β} {g : Unit → ExceptT ε (StateM σ) β} (h : Runs r m)
    (hf : ∀ a, Runs (f a) (g a)) :
    Runs (if p then r >>= f else f ()) (if p then m >>= g else g ()) :=
  .ite (h.bind hf) (hf ())

/-! ### Conditions on the object -/

/-- `P` holds of the object while the routine runs alone, and `Q` once it has ended. If it throws,
`P` still holds. -/
def Keeps (P : σ → Prop) (Q : α → σ → Prop) : Routine ε σ α → σ → Prop
  | ended a, s => Q a s
  | threw _, s => P s
  | next f k, s => P s ∧ (k s).Keeps P Q (f s)

variable {P : σ → Prop} {s : σ}

/-- The condition is kept by parts. -/
theorem keeps_bind {m : Routine ε σ α} {f : α → Routine ε σ β} {Q : β → σ → Prop} :
    (m >>= f).Keeps P Q s ↔ m.Keeps P (fun a t => (f a).Keeps P Q t) s := by
  induction m generalizing s with
  | ended a => exact Iff.rfl
  | threw e => exact Iff.rfl
  | next g k ih => exact and_congr_right fun _ => ih s

/-- A routine that keeps the condition to its end goes well with one that begins with it. -/
theorem Keeps.mono {m : Routine ε σ α} {Q Q' : α → σ → Prop} (hQ : ∀ a s, Q a s → Q' a s)
    (h : m.Keeps P Q s) : m.Keeps P Q' s := by
  induction m generalizing s with
  | ended a => exact hQ a s h
  | threw e => exact h
  | next g k ih => exact ⟨h.1, ih s h.2⟩

theorem Keeps.bind {m : Routine ε σ α} {f : α → Routine ε σ β} {Q : β → σ → Prop}
    (hm : m.Keeps P (fun _ => P) s) (hf : ∀ a s, P s → (f a).Keeps P Q s) :
    (m >>= f).Keeps P Q s :=
  keeps_bind.mpr (hm.mono hf)

/-- The condition is kept from the beginning to the end. -/
def Preserves (P : σ → Prop) (m : Routine ε σ α) : Prop :=
  ∀ s, P s → m.Keeps P (fun _ => P) s

theorem Preserves.pure (a : α) : Preserves P (pure a : Routine ε σ α) := fun _ h => h

theorem Preserves.threw (e : ε) : Preserves P (threw e : Routine ε σ α) := fun _ h => h

theorem Preserves.read : Preserves P (read : Routine ε σ σ) := fun _ h => ⟨h, h⟩

theorem Preserves.change {f : σ → σ} (hf : ∀ s, P s → P (f s)) :
    Preserves P (change f : Routine ε σ Unit) := fun s h => ⟨h, hf s h⟩

theorem Preserves.bind {m : Routine ε σ α} {f : α → Routine ε σ β} (hm : m.Preserves P)
    (hf : ∀ a, (f a).Preserves P) : (m >>= f).Preserves P :=
  fun s h => (hm s h).bind fun a t ht => hf a t ht

theorem Preserves.ite {p : Prop} [Decidable p] {m m' : Routine ε σ α} (h : m.Preserves P)
    (h' : m'.Preserves P) : (if p then m else m').Preserves P := by
  split_ifs
  · exact h
  · exact h'

theorem Preserves.when {p : Prop} [Decidable p] {m : Routine ε σ Unit} {f : Unit → Routine ε σ β}
    (h : m.Preserves P) (hf : ∀ a, (f a).Preserves P) :
    (if p then m >>= f else f ()).Preserves P :=
  .ite (h.bind hf) (hf ())

end Routine

/-! ### Interleavings -/

/-- An object with a routine in the background. -/
structure Background (ε σ : Type) where
  object : σ
  routine : Routine ε σ Unit

namespace Background

variable {ε σ φ : Type}

/-- What can happen. -/
inductive Event (φ : Type)
  /-- The next statement of the routine. -/
  | statement
  | call (c : φ)

/-- All interleavings of the statements with calls. -/
def machine (call : σ → φ → σ) : Machine (Background ε σ) (Event φ) where
  step b
    | .statement =>
      match b.routine with
      | .next f k => some ⟨f b.object, k b.object⟩
      | .ended _ | .threw _ => none
    | .call c => some { b with object := call b.object c }

variable {call : σ → φ → σ} {P Q : σ → Prop} {b t : Background ε σ} {e : Event φ}

/-- What a step is. -/
theorem step_cases (ht : (machine call).step b e = some t) :
    (e = .statement ∧ ∃ f k, b.routine = .next f k ∧ t = ⟨f b.object, k b.object⟩) ∨
      ∃ c, e = .call c ∧ t = { b with object := call b.object c } := by
  cases e with
  | statement =>
    obtain ⟨object, routine⟩ := b
    cases routine with
    | next f k => exact .inl ⟨rfl, f, k, rfl, (Option.some.inj ht).symm⟩
    | ended a => exact absurd ht (by simp [machine])
    | threw e => exact absurd ht (by simp [machine])
  | call c => exact .inr ⟨c, rfl, (Option.some.inj ht).symm⟩

/-- The calls leave objects alone while the routine runs, and keep the condition afterwards. -/
structure Unnoticed (call : σ → φ → σ) (P Q : σ → Prop) : Prop where
  running : ∀ s c, P s → call s c = s
  ended : ∀ s c, Q s → Q (call s c)

/-- The conditions on the object, for the routine that is left. -/
def Kept (P Q : σ → Prop) (b : Background ε σ) : Prop :=
  b.routine.Keeps P (fun _ => Q) b.object

/-- Until the routine has ended, the first condition holds. -/
theorem Kept.holds (h : b.Kept P Q) (hended : ∀ a, b.routine ≠ .ended a) : P b.object := by
  obtain ⟨object, routine⟩ := b
  cases routine with
  | ended a => exact absurd rfl (hended a)
  | threw e => exact h
  | next f k => exact h.1

theorem Kept.step (h : b.Kept P Q) (hcall : Unnoticed call P Q)
    (ht : (machine call).step b e = some t) : t.Kept P Q := by
  rcases step_cases ht with ⟨rfl, f, k, hk, rfl⟩ | ⟨c, rfl, rfl⟩
  · have hnext : (Routine.next f k).Keeps P (fun _ => Q) b.object := hk ▸ h
    exact hnext.2
  · by_cases hended : ∃ a, b.routine = .ended a
    · obtain ⟨a, ha⟩ := hended
      simp only [Kept, ha] at h ⊢
      exact hcall.ended _ c h
    · have hsame := hcall.running _ c (h.holds fun a ha => hended ⟨a, ha⟩)
      simpa only [Kept, hsame] using h

/-- Until the routine has ended, a step does not change what it does alone. -/
theorem Kept.result_step (h : b.Kept P Q) (hcall : Unnoticed call P Q)
    (hended : ∀ a, b.routine ≠ .ended a) (ht : (machine call).step b e = some t) :
    t.routine.result t.object = b.routine.result b.object := by
  rcases step_cases ht with ⟨rfl, f, k, hk, rfl⟩ | ⟨c, rfl, rfl⟩
  · rw [hk]
    rfl
  · rw [hcall.running _ c (h.holds hended)]

/-! ### Machines with a routine in the background -/

section Simulation

variable {σ' ε' : Type*} {M : Machine σ' ε'} {s t : σ'} {es : List ε'}

/-- **The conditions hold in every interleaving.** -/
theorem kept_run (f : Machine.Simulation M (machine (ε := ε) call)) (hcall : Unnoticed call P Q)
    (hs : f.inv s) (h : (f.map s).Kept P Q) (hrun : M.run s es = some t) : (f.map t).Kept P Q :=
  Machine.run_invariant (fun h ht => h.step hcall ht) h (f.run_image hs hrun)

/-- **Up to its end a routine does what it does alone.** A run begins with a part in which every
call is made on an object that is in the condition, and at the end of which what is left of the
routine does what the whole one does. Something follows only if the routine has ended by then. -/
theorem exists_prefix (f : Machine.Simulation M (machine (ε := ε) call))
    (hcall : Unnoticed call P Q) (hs : f.inv s) (h : (f.map s).Kept P Q)
    (hrun : M.run s es = some t) : ∃ es₁ es₂ u, es = es₁ ++ es₂ ∧ M.run s es₁ = some u ∧
      M.Along (fun s e => ∀ c, f.label s e = some (.call c) → P (f.map s).object) s es₁ ∧
      (f.map u).routine.result (f.map u).object = (f.map s).routine.result (f.map s).object ∧
      (es₂ = [] ∧ u = t ∨ (f.map u).routine = .ended ()) := by
  induction es generalizing s with
  | nil => exact ⟨[], [], s, rfl, rfl, trivial, rfl, .inl ⟨rfl, Option.some.inj hrun⟩⟩
  | cons e es ih =>
    by_cases hended : (f.map s).routine = .ended ()
    · exact ⟨[], e :: es, s, rfl, rfl, trivial, rfl, .inr hended⟩
    obtain ⟨v, hv, hrun⟩ := Machine.run_cons_eq_some.mp hrun
    have hkept := kept_run f hcall hs h (Machine.run_singleton_eq_some.mpr hv)
    obtain ⟨es₁, es₂, u, rfl, hu, halong, hresult, hend⟩ := ih (f.inv_step hs hv) hkept hrun
    refine ⟨e :: es₁, es₂, u, rfl, Machine.run_cons_eq_some.mpr ⟨v, hv, hu⟩, ?_, ?_, hend⟩
    · exact (Machine.along_cons_of_step hv).mpr
        ⟨fun c _ => h.holds (fun _ => hended), halong⟩
    · rw [hresult]
      rcases f.step_cases hs hv with ⟨-, hsame⟩ | ⟨e', -, hstep⟩
      · rw [hsame]
      · exact h.result_step hcall (fun _ => hended) hstep

end Simulation

end Background
