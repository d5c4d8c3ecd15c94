import Mathlib.Data.List.Sort
import SnapYak.Store.Yak

/-!
# What the app takes from the platform

Distances come from CoreLocation and sorting from Swift's standard library. Both are parameters of
the model: `distance` is an arbitrary function into a linear order (the app only compares
distances), and `sorted` has the two properties that Swift documents for a predicate which is a
strict weak order.
-/

namespace SnapYak

/-- What Swift asks of the predicate handed to `sorted(by:)`. -/
structure StrictWeak {α : Type} (lt : α → α → Bool) : Prop where
  irrefl : ∀ a, lt a a = false
  trans : ∀ a b c, lt a b = true → lt b c = true → lt a c = true
  incomp_trans : ∀ a b c, lt a b = false → lt b c = false → lt a c = false

/-- A predicate that compares the images under a map is a strict weak order. -/
theorem StrictWeak.of_map {α β : Type} [LinearOrder β] (f : α → β) :
    StrictWeak fun a b => decide (f a < f b) where
  irrefl a := by simp
  trans a b c hab hbc := by
    simp only [decide_eq_true_eq] at *
    exact hab.trans hbc
  incomp_trans a b c hab hbc := by
    simp only [decide_eq_false_iff_not, not_lt] at *
    exact hbc.trans hab

/-- The distances of CoreLocation, with values in `D`, and the sorting of the standard library. -/
structure Platform (D : Type) where
  /-- `a.distance(from: b)`. -/
  distance : GeoPoint → GeoPoint → D
  /-- `yaks.sorted(by: lt)`. -/
  sorted : (Yak → Yak → Bool) → List Yak → List Yak
  sorted_perm : ∀ lt, StrictWeak lt → ∀ yaks, (sorted lt yaks).Perm yaks
  pairwise_sorted : ∀ lt, StrictWeak lt → ∀ yaks,
    (sorted lt yaks).Pairwise fun a b => lt b a = false

/-- Sorting by a key orders the keys. -/
theorem Platform.pairwise_sorted_of_map {D β : Type} [LinearOrder β] (P : Platform D) (f : Yak → β)
    (yaks : List Yak) :
    (P.sorted (fun yak1 yak2 => decide (f yak1 < f yak2)) yaks).Pairwise fun a b => f a ≤ f b :=
  (P.pairwise_sorted _ (.of_map f) yaks).imp fun hlt => by simpa using hlt

/-- A platform on which a point is at distance `0` from itself and `1` from every other, and
sorting inserts the elements one by one. -/
def Platform.discrete : Platform ℕ where
  distance a b := if a = b then 0 else 1
  sorted lt yaks := yaks.insertionSort fun a b => lt b a = false
  sorted_perm _ _ yaks := List.perm_insertionSort _ yaks
  pairwise_sorted lt hlt yaks := by
    have : Std.Total fun a b => lt b a = false := ⟨fun a b => by
      by_contra h
      simp only [not_or, Bool.not_eq_false] at h
      have := hlt.trans b a b h.1 h.2
      rw [hlt.irrefl] at this
      exact absurd this (by simp)⟩
    have : IsTrans Yak fun a b => lt b a = false := ⟨fun a b c hab hbc =>
      hlt.incomp_trans c b a hbc hab⟩
    exact List.pairwise_insertionSort _ yaks

end SnapYak
