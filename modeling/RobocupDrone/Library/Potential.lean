import Mathlib.Algebra.Order.Monoid.Defs
import Mathlib.Order.Bounds.Basic

/-! Walks with costs, and potentials that tell what is left of the shortest of them. -/

namespace Walks

variable {V K : Type*}

/-- There is a walk of this cost from one place to the other. -/
inductive Walk [AddZeroClass K] (Step : V → V → Prop) (cost : V → V → K) : V → V → K → Prop
  | here (v : V) : Walk Step cost v v 0
  | step {u v w : V} {c : K} (first : Step u v) (rest : Walk Step cost v w c) :
      Walk Step cost u w (cost u v + c)

variable [AddCommMonoid K] {Step : V → V → Prop} {cost : V → V → K} {potential : V → K}
  {u goal : V}

theorem Walk.mono {Step' : V → V → Prop} {cost' : V → V → K} {c : K}
    (same : ∀ u v, Step u v → Step' u v ∧ cost u v = cost' u v)
    (walk : Walk Step cost u goal c) : Walk Step' cost' u goal c := by
  induction walk with
  | here v => exact .here v
  | step first rest ih =>
      rw [(same _ _ first).2]
      exact .step (same _ _ first).1 ih

/-- From every place of the region but the goal, a step pays for exactly what it gains. -/
def Tight (Step : V → V → Prop) (cost : V → V → K) (potential : V → K) (region : Set V)
    (measure : V → ℕ) (goal : V) : Prop :=
  ∀ u ∈ region, u ≠ goal → ∃ v ∈ region, Step u v ∧ measure v < measure u ∧
    potential u = cost u v + potential v

theorem walk_of_tight {region : Set V} {measure : V → ℕ}
    (tight : Tight Step cost potential region measure goal) (ended : potential goal = 0)
    (inside : u ∈ region) : Walk Step cost u goal (potential u) := by
  induction near : measure u using Nat.strong_induction_on generalizing u with
  | _ n ih =>
      by_cases there : u = goal
      · rw [there, ended]
        exact .here goal
      · obtain ⟨v, v_inside, first, nearer, pays⟩ := tight u inside there
        rw [pays]
        exact .step first (ih _ (near ▸ nearer) v_inside rfl)

variable [PartialOrder K] [IsOrderedAddMonoid K]

theorem Walk.potential_le (consistent : ∀ u v, Step u v → potential u ≤ cost u v + potential v)
    {c : K} (walk : Walk Step cost u goal c) : potential u ≤ c + potential goal := by
  induction walk with
  | here v => rw [zero_add]
  | step first rest ih =>
      rw [add_assoc]
      exact (consistent _ _ first).trans (add_le_add_right ih _)

theorem isLeast_potential (consistent : ∀ u v, Step u v → potential u ≤ cost u v + potential v)
    {region : Set V} {measure : V → ℕ}
    (tight : Tight Step cost potential region measure goal) (ended : potential goal = 0)
    (inside : u ∈ region) : IsLeast {c | Walk Step cost u goal c} (potential u) := by
  refine ⟨walk_of_tight tight ended inside, fun c walk => ?_⟩
  have bound := walk.potential_le consistent
  rwa [ended, add_zero] at bound

end Walks
