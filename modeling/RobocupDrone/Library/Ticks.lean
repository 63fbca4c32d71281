import Mathlib.Algebra.Order.Archimedean.Basic
import Mathlib.Data.List.Chain
import Mathlib.Tactic.Linarith
import Mathlib.Tactic.Ring
import RobocupDrone.Library.Numerals

/-! Loops that advance a time by a fixed step while a condition on it holds. -/

namespace Loop

variable {K : Type*} [Field K]
variable {going : K → Prop} {step t : K} {count fuel : ℕ}

/-- The condition holds for `count` steps and then no longer. -/
structure Lasts (going : K → Prop) (step t : K) (count : ℕ) : Prop where
  during : ∀ k < count, going (t + (k : K) * step)
  ended : ¬going (t + (count : K) * step)

theorem Lasts.tail (lasts : Lasts going step t (count + 1)) :
    Lasts going step (t + step) count where
  during k before := by
    have later := lasts.during (k + 1) (by omega)
    rwa [Nat.cast_succ, add_mul, one_mul, add_comm ((k : K) * step), ← add_assoc] at later
  ended := by
    have later := lasts.ended
    rwa [Nat.cast_succ, add_mul, one_mul, add_comm ((count : K) * step), ← add_assoc] at later

theorem Lasts.cons (start : going t) (lasts : Lasts going step (t + step) count) :
    Lasts going step t (count + 1) where
  during k before := by
    cases k with
    | zero => rwa [Nat.cast_zero, zero_mul, add_zero]
    | succ k =>
        have later := lasts.during k (by omega)
        rwa [Nat.cast_succ, add_mul, one_mul, add_comm ((k : K) * step), ← add_assoc]
  ended := by
    have later := lasts.ended
    rwa [Nat.cast_succ, add_mul, one_mul, add_comm ((count : K) * step), ← add_assoc]

section

variable [DecidablePred going]

/-- The times at which the body runs, and the time that the loop leaves with. -/
def ticks (going : K → Prop) [DecidablePred going] (step : K) : ℕ → K → Option (List K × K)
  | 0, _ => none
  | fuel + 1, t =>
      if going t then
        (ticks going step fuel (t + step)).map fun later => (t :: later.1, later.2)
      else some ([], t)

/-- The first `count` times. -/
def instants (t step : K) (count : ℕ) : List K :=
  (List.range count).map fun k : ℕ => t + k * step

end

@[simp] theorem length_instants (t step : K) (count : ℕ) :
    (instants t step count).length = count := by
  rw [instants, List.length_map, List.length_range]

@[simp] theorem instants_zero (t step : K) : instants t step 0 = [] := rfl

theorem instants_succ (t step : K) (count : ℕ) :
    instants t step (count + 1) = t :: instants (t + step) step count := by
  rw [instants, List.range_succ_eq_map, List.map_cons, List.map_map, instants]
  congr 1
  · rw [Nat.cast_zero, zero_mul, add_zero]
  · apply List.map_congr_left
    intro k _
    rw [Function.comp_apply, Nat.cast_succ]
    ring

theorem isChain_instants_iff {R : K → K → Prop} : (instants t step count).IsChain R ↔
    ∀ k, k + 1 < count → R (t + k * step) (t + (k + 1 : ℕ) * step) := by
  simp only [instants, List.isChain_iff_getElem, List.length_map, List.length_range,
    List.getElem_map, List.getElem_range]

variable [DecidablePred going]

theorem ticks_eq (lasts : Lasts going step t count) (enough : count < fuel) :
    ticks going step fuel t = some (instants t step count, t + count * step) := by
  induction count generalizing t fuel with
  | zero =>
      obtain ⟨fuel, rfl⟩ := Nat.exists_eq_succ_of_ne_zero (Nat.ne_of_gt enough)
      have ended := lasts.ended
      rw [Nat.cast_zero, zero_mul, add_zero] at ended
      rw [ticks, if_neg ended, instants_zero, Nat.cast_zero, zero_mul, add_zero]
  | succ count ih =>
      obtain ⟨fuel, rfl⟩ := Nat.exists_eq_succ_of_ne_zero (Nat.ne_of_gt (Nat.zero_lt_of_lt enough))
      have start := lasts.during 0 (Nat.succ_pos count)
      rw [Nat.cast_zero, zero_mul, add_zero] at start
      rw [ticks, if_pos start, ih lasts.tail (by omega), Option.map_some, instants_succ,
        Nat.cast_succ]
      congr 2
      ring

section Bounded

variable [LinearOrder K] [IsStrictOrderedRing K] [Archimedean K] {bound : K}

theorem exists_lasts (positive : 0 < step) (t bound : K) :
    ∃ count, Lasts (· < bound) step t count := by
  have reached : ∃ n : ℕ, bound ≤ t + n * step := by
    obtain ⟨n, far⟩ := exists_lt_nsmul positive (bound - t)
    rw [nsmul_eq_mul] at far
    exact ⟨n, by linarith⟩
  refine ⟨Nat.find reached, fun k before => ?_, not_lt.mpr (Nat.find_spec reached)⟩
  exact not_le.mp (Nat.find_min reached before)

end Bounded

end Loop
