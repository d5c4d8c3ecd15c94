import Mathlib.Algebra.Order.Group.Multiset
import Mathlib.Algebra.Order.Monoid.Defs
import Mathlib.Data.List.Induction
import Mathlib.Tactic.Abel
import SnapYak.Machine.Run

/-!
# History variables

A history variable records something about the past of a run (a count, a log) that the machine
itself does not keep. It is a total function of the run, so adding one takes no run away
(`Machine.run_withHistory`).

## Main definitions

* `Machine.withHistory` : the machine with a history variable beside its state.
* `Machine.history` : the value of the history variable after a run.
* `Machine.total`, `Machine.log` : a sum and a list of what the steps of a run contribute.

## Main results

* `Machine.history_induction`, `Machine.history_induction₂` : the invariant rule for the state
  together with its history.
* `Machine.history_iff_along` : a property of the history that one kind of step keeps.
* `Machine.run_log` : a simulation that keeps track of the labels.
* `Machine.eq_add_total` : a quantity that each step changes by a known amount.
* `Machine.mem_log_iff` : the steps that a log is made of.
* `Machine.eq_last_write` : a register has the value written last.
* `Machine.total_add`, `Machine.total_length` : sums of sums, and the length of a log.
* `Machine.total_add_le` : what a run pays out is covered by what it takes in.
* `Machine.log_append_queue`, `Machine.total_add_queue` : what leaves a queue and what joins it.
-/

namespace Machine

variable {σ ε η : Type*} (M : Machine σ ε)

/-- The machine that keeps the history variable `f` beside its state. -/
def withHistory (f : η → σ → ε → η) : Machine (σ × η) ε where
  step p e := (M.step p.1 e).map fun t => (t, f p.2 p.1 e)

/-- The history variable after a run from `s`, starting with the value `h`. -/
def history (f : η → σ → ε → η) : η → σ → List ε → η
  | h, _, [] => h
  | h, s, e :: es => match M.step s e with
    | none => h
    | some t => history f (f h s e) t es

variable {M} {f : η → σ → ε → η}

theorem step_withHistory_eq_some {p q : σ × η} {e : ε} :
    (M.withHistory f).step p e = some q ↔ M.step p.1 e = some q.1 ∧ q.2 = f p.2 p.1 e := by
  obtain ⟨t, h⟩ := q
  simp only [withHistory, Option.map_eq_some_iff, Prod.mk.injEq]
  constructor
  · rintro ⟨t', ht, rfl, rfl⟩
    exact ⟨ht, rfl⟩
  · rintro ⟨ht, rfl⟩
    exact ⟨t, ht, rfl, rfl⟩

theorem history_cons_of_step {h : η} {s t : σ} {e : ε} {es : List ε} (ht : M.step s e = some t) :
    M.history f h s (e :: es) = M.history f (f h s e) t es := by
  simp only [history, ht]

/-- Every run of the machine is one of the machine with a history variable. -/
theorem run_withHistory {h : η} {s t : σ} {es : List ε} (hrun : M.run s es = some t) :
    (M.withHistory f).run (s, h) es = some (t, M.history f h s es) := by
  induction es generalizing s h with
  | nil =>
    obtain rfl : s = t := by simpa using hrun
    rfl
  | cons e es ih =>
    obtain ⟨u, hu, hrun⟩ := run_cons_eq_some.mp hrun
    refine run_cons_eq_some.mpr ⟨(u, f h s e), step_withHistory_eq_some.mpr ⟨hu, rfl⟩, ?_⟩
    rw [ih hrun, history_cons_of_step hu]

/-- A discipline of the machine is one of the machine with a history variable. -/
theorem Along.withHistory {A : σ → ε → Prop} {h : η} {s : σ} {es : List ε}
    (hA : M.Along A s es) : (M.withHistory f).Along (fun p e => A p.1 e) (s, h) es := by
  induction es generalizing s h with
  | nil => trivial
  | cons e es ih =>
    cases hs : M.step s e with
    | none => exact ⟨hA.1, by simp only [Machine.withHistory, hs, Option.map_none]⟩
    | some t =>
      rw [along_cons_of_step hs] at hA
      rw [along_cons_of_step (t := (t, f h s e)) (step_withHistory_eq_some.mpr ⟨hs, rfl⟩)]
      exact ⟨hA.1, ih hA.2⟩

/-- **Invariant rule with history.** -/
theorem history_induction {I : σ → η → Prop} {A : σ → ε → Prop}
    (hstep : ∀ {s h e t}, I s h → A s e → M.step s e = some t → I t (f h s e)) {h : η} {s t : σ}
    {es : List ε} (hs : I s h) (hA : M.Along A s es) (hrun : M.run s es = some t) :
    I t (M.history f h s es) := by
  refine run_induction (M := M.withHistory f) (I := fun p => I p.1 p.2)
    (A := fun p e => A p.1 e) ?_ hs hA.withHistory (run_withHistory hrun)
  rintro p e q hp hA hq
  obtain ⟨hq, h⟩ := step_withHistory_eq_some.mp hq
  exact h ▸ hstep hp hA hq

/-- Two history variables kept at once. -/
theorem history_prod {ζ : Type*} {g : ζ → σ → ε → ζ} {h : η} {k : ζ} {s t : σ} {es : List ε}
    (hrun : M.run s es = some t) :
    M.history (fun p s e => (f p.1 s e, g p.2 s e)) (h, k) s es =
      (M.history f h s es, M.history g k s es) := by
  induction es generalizing s h k with
  | nil => rfl
  | cons e es ih =>
    obtain ⟨u, hu, hrun⟩ := run_cons_eq_some.mp hrun
    rw [history_cons_of_step hu, history_cons_of_step hu, history_cons_of_step hu, ih hrun]

/-- The invariant rule with two history variables. -/
theorem history_induction₂ {ζ : Type*} {g : ζ → σ → ε → ζ} {I : σ → η → ζ → Prop}
    (hstep : ∀ {s h k e t}, I s h k → M.step s e = some t → I t (f h s e) (g k s e)) {h : η} {k : ζ}
    {s t : σ} {es : List ε} (hs : I s h k) (hrun : M.run s es = some t) :
    I t (M.history f h s es) (M.history g k s es) := by
  have hprod := history_induction (f := fun p s e => (f p.1 s e, g p.2 s e)) (h := (h, k))
    (I := fun s p => I s p.1 p.2) (A := fun _ _ => True) (fun hs _ ht => hstep hs ht) hs
    (.trivial _ _) hrun
  rwa [history_prod hrun] at hprod

/-- A property of the history that a step keeps exactly when it obeys `A` holds after a run exactly
when the whole run obeys `A`. An invariant of the steps that obey `B` may be used to show it. -/
theorem history_iff_along {I : σ → η → Prop} {P : η → Prop} {A B : σ → ε → Prop}
    (hI : ∀ {s h e t}, I s h → B s e → M.step s e = some t → I t (f h s e))
    (hP : ∀ {s h e}, I s h → (P (f h s e) ↔ P h ∧ A s e)) {h : η} {s t : σ} {es : List ε}
    (hs : I s h) (hB : M.Along B s es) (hrun : M.run s es = some t) :
    P (M.history f h s es) ↔ P h ∧ M.Along A s es := by
  induction es generalizing s h with
  | nil => exact (and_iff_left trivial).symm
  | cons e es ih =>
    obtain ⟨u, hu, hrun⟩ := run_cons_eq_some.mp hrun
    rw [along_cons_of_step hu] at hB ⊢
    rw [history_cons_of_step hu, ih (hI hs hB.1 hu) hB.2 hrun, hP hs, and_assoc]

/-! ### Sums and logs -/

variable (M)

/-- The sum of what the steps of a run contribute. -/
def total {G : Type*} [AddMonoid G] (w : σ → ε → G) : σ → List ε → G :=
  M.history (fun g s e => g + w s e) 0

/-- What the steps of a run contribute to a list, in order. -/
def log {β : Type*} (w : σ → ε → List β) : σ → List ε → List β :=
  M.history (fun l s e => l ++ w s e) []

variable {M}

/-- **Balance rule.** A quantity that every step changes by `w` has changed by the sum of `w` after
a run. The invariant `I` and the discipline `A` may be used to show what a step does. -/
theorem eq_add_total {G : Type*} [AddGroup G] {w : σ → ε → G} {q : σ → G} {I : σ → Prop}
    {A : σ → ε → Prop} (hI : ∀ {s e t}, I s → A s e → M.step s e = some t → I t)
    (hq : ∀ {s e t}, I s → A s e → M.step s e = some t → q t = q s + w s e) {s t : σ}
    {es : List ε} (hs : I s) (hA : M.Along A s es) (hrun : M.run s es = some t) :
    q t = q s + M.total w s es := by
  have h := history_induction (f := fun g s e => g + w s e)
    (I := fun u g => I u ∧ q u = q s + g) (A := A) ?_ (h := (0 : G)) ⟨hs, by rw [add_zero]⟩ hA hrun
  · exact h.2
  · rintro u g e v ⟨hu, hg⟩ hA hv
    exact ⟨hI hu hA hv, by rw [hq hu hA hv, hg, add_assoc]⟩

/-- A sum all of whose terms vanish. -/
theorem total_eq_zero {G : Type*} [AddMonoid G] {w : σ → ε → G} {A : σ → ε → Prop}
    (hf : ∀ {s e}, A s e → w s e = 0) {s t : σ} {es : List ε} (hA : M.Along A s es)
    (hrun : M.run s es = some t) : M.total w s es = 0 :=
  history_induction (f := fun g s e => g + w s e) (I := fun _ g => g = 0) (A := A)
    (by rintro u g e v rfl hA -; rw [hf hA, add_zero]) rfl hA hrun

/-- A history variable that accumulates contributions, first step first. -/
theorem history_cons_of_assoc {m : η → η → η} {z : η} (hassoc : ∀ a b c, m (m a b) c = m a (m b c))
    (hleft : ∀ a, m z a = a) (hright : ∀ a, m a z = a) {w : σ → ε → η} {s t : σ} {e : ε}
    {es : List ε} (ht : M.step s e = some t) :
    M.history (fun g s e => m g (w s e)) z s (e :: es) =
      m (w s e) (M.history (fun g s e => m g (w s e)) z t es) := by
  have hacc (g : η) (u : σ) (es : List ε) : M.history (fun g s e => m g (w s e)) g u es =
      m g (M.history (fun g s e => m g (w s e)) z u es) := by
    induction es generalizing g u with
    | nil => exact (hright g).symm
    | cons e es ih =>
      cases h : M.step u e with
      | none => simp only [history, h, hright]
      | some v =>
        rw [history_cons_of_step h, history_cons_of_step h, ih, ih (m z (w u e)), hleft, hassoc]
  rw [history_cons_of_step ht, hacc, hleft]

/-- The sum over a run, first step first. -/
theorem total_cons_of_step {G : Type*} [AddMonoid G] {w : σ → ε → G} {s t : σ} {e : ε}
    {es : List ε} (ht : M.step s e = some t) :
    M.total w s (e :: es) = w s e + M.total w t es :=
  history_cons_of_assoc add_assoc zero_add add_zero ht

/-- The log of a run, first step first. -/
theorem log_cons_of_step {β : Type*} {w : σ → ε → List β} {s t : σ} {e : ε} {es : List ε}
    (ht : M.step s e = some t) : M.log w s (e :: es) = w s e ++ M.log w t es :=
  history_cons_of_assoc List.append_assoc List.nil_append List.append_nil ht

/-- A log of the labels. -/
theorem log_label {β : Type*} {w : ε → List β} {s t : σ} {es : List ε}
    (hrun : M.run s es = some t) : M.log (fun _ e => w e) s es = es.flatMap w := by
  induction es generalizing s with
  | nil => rfl
  | cons e es ih =>
    obtain ⟨u, hu, hrun⟩ := run_cons_eq_some.mp hrun
    rw [log_cons_of_step hu, ih hrun, List.flatMap_cons]

/-- What is in a log was contributed by a step. -/
theorem mem_log_iff {β : Type*} {w : σ → ε → List β} {x : β} {s t : σ} {es : List ε}
    (hrun : M.run s es = some t) : x ∈ M.log w s es ↔ ∃ (es₁ : List ε) (e : ε) (es₂ : List ε)
      (u : σ), es = es₁ ++ e :: es₂ ∧ M.run s es₁ = some u ∧ x ∈ w u e := by
  induction es generalizing s with
  | nil => simp [log, history]
  | cons e es ih =>
    obtain ⟨v, hv, hrun⟩ := run_cons_eq_some.mp hrun
    rw [log_cons_of_step hv, List.mem_append, ih hrun]
    constructor
    · rintro (hx | ⟨es₁, e', es₂, u, rfl, hu, hx⟩)
      · exact ⟨[], e, es, s, rfl, rfl, hx⟩
      · exact ⟨e :: es₁, e', es₂, u, rfl, run_cons_eq_some.mpr ⟨v, hv, hu⟩, hx⟩
    · rintro ⟨es₁, e', es₂, u, hes, hu, hx⟩
      rcases List.cons_eq_append_iff.mp hes with ⟨rfl, hcons⟩ | ⟨es₁, rfl, htail⟩
      · obtain ⟨rfl, rfl⟩ := List.cons.inj hcons
        obtain rfl := Option.some.inj hu
        exact .inl hx
      · obtain ⟨v', hv', hu⟩ := run_cons_eq_some.mp hu
        obtain rfl := Option.some.inj (hv'.symm.trans hv)
        exact .inr ⟨es₁, e', es₂, u, htail, hu, hx⟩

/-- **Register rule.** A register that some labels write to has the value written last. -/
theorem eq_last_write {β : Type*} {w : ε → Option β} {q : σ → Option β}
    (hq : ∀ {s e t}, M.step s e = some t → q t = (w e).or (q s)) {s t : σ} {es : List ε}
    (hrun : M.run s es = some t) : q t = (es.filterMap w).getLast?.or (q s) := by
  induction es using List.reverseRecOn generalizing t with
  | nil =>
    obtain rfl := Option.some.inj hrun
    rfl
  | append_singleton es e ih =>
    obtain ⟨u, hu, ht⟩ := run_append_eq_some.mp hrun
    rw [hq (run_singleton_eq_some.mp ht), ih hu, List.filterMap_append, List.getLast?_append]
    cases h : w e <;> simp [h]

/-- Two logs to which every step contributes the same entries. -/
theorem log_congr {β : Type*} {w w' : σ → ε → List β} {I : σ → Prop}
    (hI : ∀ {s e t}, I s → M.step s e = some t → I t)
    (hw : ∀ {s e t}, I s → M.step s e = some t → w s e = w' s e) {s t : σ} {es : List ε}
    (hs : I s) (hrun : M.run s es = some t) : M.log w s es = M.log w' s es := by
  induction es generalizing s with
  | nil => rfl
  | cons e es ih =>
    obtain ⟨u, hu, hrun⟩ := run_cons_eq_some.mp hrun
    rw [log_cons_of_step hu, log_cons_of_step hu, hw hs hu, ih (hI hs hu) hrun]

/-- Two logs to which every step that obeys `A` contributes the same entries. -/
theorem log_congr_of_along {β : Type*} {w w' : σ → ε → List β} {I : σ → Prop} {A : σ → ε → Prop}
    (hI : ∀ {s e t}, I s → A s e → M.step s e = some t → I t)
    (hw : ∀ {s e t}, I s → A s e → M.step s e = some t → w s e = w' s e) {s t : σ} {es : List ε}
    (hs : I s) (hA : M.Along A s es) (hrun : M.run s es = some t) :
    M.log w s es = M.log w' s es := by
  induction es generalizing s with
  | nil => rfl
  | cons e es ih =>
    obtain ⟨u, hu, hrun⟩ := run_cons_eq_some.mp hrun
    rw [along_cons_of_step hu] at hA
    rw [log_cons_of_step hu, log_cons_of_step hu, hw hs hA.1 hu, ih (hI hs hA.1 hu) hA.2 hrun]

/-- Two logs to which every step contributes equally many entries are the same exactly when every
step contributes the same entries. -/
theorem log_eq_log_iff {β : Type*} {w w' : σ → ε → List β} {I : σ → Prop}
    (hI : ∀ {s e t}, I s → M.step s e = some t → I t)
    (hlen : ∀ {s e t}, I s → M.step s e = some t → (w s e).length = (w' s e).length) {s t : σ}
    {es : List ε} (hs : I s) (hrun : M.run s es = some t) :
    M.log w s es = M.log w' s es ↔ M.Along (fun s e => w s e = w' s e) s es := by
  induction es generalizing s with
  | nil => exact ⟨fun _ => trivial, fun _ => rfl⟩
  | cons e es ih =>
    obtain ⟨u, hu, hrun⟩ := run_cons_eq_some.mp hrun
    rw [log_cons_of_step hu, log_cons_of_step hu, along_cons_of_step hu, ← ih (hI hs hu) hrun]
    exact ⟨fun h => List.append_inj h (hlen hs hu), fun ⟨h, h'⟩ => by rw [h, h']⟩

/-- The contributions to a log, whatever their order, are those to a sum. -/
theorem coe_log {β : Type*} {w : σ → ε → List β} {s t : σ} {es : List ε}
    (hrun : M.run s es = some t) :
    ((M.log w s es : List β) : Multiset β) = M.total (fun s e => (w s e : Multiset β)) s es := by
  induction es generalizing s with
  | nil => rfl
  | cons e es ih =>
    obtain ⟨u, hu, hrun⟩ := run_cons_eq_some.mp hrun
    rw [log_cons_of_step hu, total_cons_of_step hu, ← ih hrun, Multiset.coe_add]

/-- **Simulation with labels.** If every step of `M` is a run of `N` with the labels `w`, so is
every run. -/
theorem run_log {σ' ε' : Type*} {N : Machine σ' ε'} {w : σ → ε → List ε'} (f : σ → σ')
    (hstep : ∀ {s e t}, M.step s e = some t → N.run (f s) (w s e) = some (f t)) {s t : σ}
    {es : List ε} (hrun : M.run s es = some t) : N.run (f s) (M.log w s es) = some (f t) := by
  induction es generalizing s with
  | nil =>
    obtain rfl : s = t := by simpa using hrun
    rfl
  | cons e es ih =>
    obtain ⟨u, hu, hrun⟩ := run_cons_eq_some.mp hrun
    rw [log_cons_of_step hu]
    exact run_append_eq_some.mpr ⟨f u, hstep hu, ih hrun⟩

theorem total_add {G : Type*} [AddCommMonoid G] {w w' : σ → ε → G} {s t : σ} {es : List ε}
    (hrun : M.run s es = some t) :
    M.total (fun s e => w s e + w' s e) s es = M.total w s es + M.total w' s es := by
  induction es generalizing s with
  | nil => exact (add_zero 0).symm
  | cons e es ih =>
    obtain ⟨u, hu, hrun⟩ := run_cons_eq_some.mp hrun
    rw [total_cons_of_step hu, total_cons_of_step hu, total_cons_of_step hu, ih hrun]
    exact add_add_add_comm ..

/-- The length of a log is the sum of the lengths of its parts. -/
theorem total_length {β : Type*} {w : σ → ε → List β} {s t : σ} {es : List ε}
    (hrun : M.run s es = some t) :
    M.total (fun s e => ((w s e).length : ℤ)) s es = (M.log w s es).length := by
  induction es generalizing s with
  | nil => rfl
  | cons e es ih =>
    obtain ⟨u, hu, hrun⟩ := run_cons_eq_some.mp hrun
    rw [total_cons_of_step hu, log_cons_of_step hu, ih hrun, List.length_append, Nat.cast_add]

/-- **Credit rule.** If each step pays out at most what it takes in and draws from its savings, a
run does. -/
theorem total_add_le {G : Type*} [AddCommMonoid G] [PartialOrder G] [AddLeftMono G]
    {paid taken : σ → ε → G} {savings : σ → G}
    (hstep : ∀ {s e t}, M.step s e = some t → paid s e + savings t ≤ taken s e + savings s)
    {s t : σ} {es : List ε} (hrun : M.run s es = some t) :
    M.total paid s es + savings t ≤ M.total taken s es + savings s := by
  induction es generalizing s with
  | nil =>
    obtain rfl : s = t := by simpa using hrun
    exact le_rfl
  | cons e es ih =>
    obtain ⟨u, hu, hrun⟩ := run_cons_eq_some.mp hrun
    rw [total_cons_of_step hu, total_cons_of_step hu]
    calc paid s e + M.total paid u es + savings t
        = paid s e + (M.total paid u es + savings t) := add_assoc ..
      _ ≤ paid s e + (M.total taken u es + savings u) := add_le_add_right (ih hrun) _
      _ = M.total taken u es + (paid s e + savings u) := by abel
      _ ≤ M.total taken u es + (taken s e + savings s) := add_le_add_right (hstep hu) _
      _ = taken s e + M.total taken u es + savings s := by abel

/-- A queue over a run: what leaves it and what it holds at the end, against what it held at the
beginning and what joined. -/
theorem history_queue {m : η → η → η} {z : η} (hassoc : ∀ a b c, m (m a b) c = m a (m b c))
    (hleft : ∀ a, m z a = a) (hright : ∀ a, m a z = a) {out inp : σ → ε → η} {q : σ → η}
    {I : σ → Prop} {A : σ → ε → Prop} (hI : ∀ {s e t}, I s → A s e → M.step s e = some t → I t)
    (hq : ∀ {s e t}, I s → A s e → M.step s e = some t → m (out s e) (q t) = m (q s) (inp s e))
    {s t : σ} {es : List ε} (hs : I s) (hA : M.Along A s es) (hrun : M.run s es = some t) :
    m (M.history (fun g s e => m g (out s e)) z s es) (q t) =
      m (q s) (M.history (fun g s e => m g (inp s e)) z s es) := by
  induction es generalizing s with
  | nil =>
    obtain rfl : s = t := by simpa using hrun
    exact (hleft _).trans (hright _).symm
  | cons e es ih =>
    obtain ⟨u, hu, hrun⟩ := run_cons_eq_some.mp hrun
    rw [along_cons_of_step hu] at hA
    rw [history_cons_of_assoc hassoc hleft hright hu, history_cons_of_assoc hassoc hleft hright hu,
      hassoc, ih (hI hs hA.1 hu) hA.2 hrun, ← hassoc, hq hs hA.1 hu, hassoc]

/-- **Queue rule.** If at every step the elements that leave a queue followed by its contents are
what it held followed by what joins it, so they are over a run. -/
theorem log_append_queue {β : Type*} {out inp : σ → ε → List β} {q : σ → List β}
    {I : σ → Prop} {A : σ → ε → Prop} (hI : ∀ {s e t}, I s → A s e → M.step s e = some t → I t)
    (hq : ∀ {s e t}, I s → A s e → M.step s e = some t → out s e ++ q t = q s ++ inp s e)
    {s t : σ} {es : List ε} (hs : I s) (hA : M.Along A s es) (hrun : M.run s es = some t) :
    M.log out s es ++ q t = q s ++ M.log inp s es :=
  history_queue List.append_assoc List.nil_append List.append_nil hI hq hs hA hrun

/-- The queue rule without the order. -/
theorem total_add_queue {G : Type*} [AddMonoid G] {out inp : σ → ε → G} {q : σ → G}
    {I : σ → Prop} {A : σ → ε → Prop} (hI : ∀ {s e t}, I s → A s e → M.step s e = some t → I t)
    (hq : ∀ {s e t}, I s → A s e → M.step s e = some t → out s e + q t = q s + inp s e)
    {s t : σ} {es : List ε} (hs : I s) (hA : M.Along A s es) (hrun : M.run s es = some t) :
    M.total out s es + q t = q s + M.total inp s es :=
  history_queue add_assoc zero_add add_zero hI hq hs hA hrun

end Machine
