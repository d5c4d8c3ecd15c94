import Mathlib.Data.List.Induction
import SnapYak.Machine.Run

/-!
# Following an element of a queue

Outstanding calls are kept in a queue, and a call is known by its position. New calls join at the
end, any of them may leave, and the others move up. `Machine.position` is where an element is after
a run that it has not left yet, and `Machine.follow_induction` says what becomes of it on the way.

## Main definitions

* `Machine.moveUp`, `Machine.position` : the position of an element after a step and after a run.

## Main results

* `Machine.getElem?_eraseIdx_of_moveUp` : the elements that stay when one leaves.
* `Machine.follow_induction` : the invariant rule for one element and the past of the run.
-/

namespace Machine

variable {σ ε β : Type*} {M : Machine σ ε}

/-- The position of an element after a step at which another one, if any, leaves the queue. -/
def moveUp : Option ℕ → ℕ → Option ℕ
  | none, k => some k
  | some n, k => if n = k then none else some (if n < k then k - 1 else k)

/-- The elements that stay when one leaves. -/
theorem getElem?_eraseIdx_of_moveUp {l : List β} {n k k' : ℕ} {b : β} (h : l[k]? = some b)
    (hk : moveUp (some n) k = some k') : (l.eraseIdx n)[k']? = some b := by
  simp only [moveUp] at hk
  split_ifs at hk with hne hlt
  · obtain rfl := Option.some.inj hk
    rw [List.getElem?_eraseIdx_of_ge (by omega), Nat.sub_add_cancel (by omega), h]
  · obtain rfl := Option.some.inj hk
    rw [List.getElem?_eraseIdx_of_lt (by omega), h]

/-- The position of an element after a run, if it has not left; `w` is the position at which an
element leaves in a step. -/
def position (w : ε → Option ℕ) (k : ℕ) (es : List ε) : Option ℕ :=
  es.foldlM (fun k e => moveUp (w e) k) k

/-- The position after one more step. -/
theorem position_concat (w : ε → Option ℕ) (k : ℕ) (es : List ε) (e : ε) :
    position w k (es ++ [e]) = (position w k es).bind (moveUp (w e)) := by
  simp [position, List.foldlM_append]

/-- **Following rule.** An element that stays in the queue may be changed by a step as `C` allows.
What the changes preserve, in view of the past of the run, holds of it in the end. -/
theorem follow_induction {w : ε → Option ℕ} {q : σ → List β} {C : σ → β → β → Prop}
    {J : List ε → β → Prop}
    (hstay : ∀ {s e t k k' b}, M.step s e = some t → moveUp (w e) k = some k' →
      (q s)[k]? = some b → ∃ b', (q t)[k']? = some b' ∧ C s b b')
    {s t : σ} (hJ : ∀ {es e u b b'}, M.run s es = some u → J es b → C u b b' → J (es ++ [e]) b')
    {es : List ε} {k n : ℕ} {b : β} (hb : (q s)[k]? = some b) (hnil : J [] b)
    (hrun : M.run s es = some t) (hn : position w k es = some n) :
    ∃ b', (q t)[n]? = some b' ∧ J es b' := by
  induction es using List.reverseRecOn generalizing t n with
  | nil =>
    obtain rfl : s = t := by simpa using hrun
    obtain rfl : k = n := Option.some.inj hn
    exact ⟨b, hb, hnil⟩
  | append_singleton es e ih =>
    obtain ⟨u, hu, ht⟩ := run_append_eq_some.mp hrun
    rw [position_concat] at hn
    obtain ⟨k', hk', hn⟩ := Option.bind_eq_some_iff.mp hn
    obtain ⟨b₁, hb₁, hJ₁⟩ := ih hu hk'
    obtain ⟨b₂, hb₂, hC⟩ := hstay (run_singleton_eq_some.mp ht) hn hb₁
    exact ⟨b₂, hb₂, hJ hu hJ₁ hC⟩

end Machine
