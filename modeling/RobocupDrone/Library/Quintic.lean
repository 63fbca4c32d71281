import Mathlib.Algebra.BigOperators.Intervals
import Mathlib.Algebra.Order.BigOperators.Group.Finset
import Mathlib.Algebra.Order.Field.Basic
import Mathlib.Algebra.Order.Ring.Abs
import Mathlib.Analysis.Calculus.Deriv.Add
import Mathlib.Analysis.Calculus.Deriv.Mul
import Mathlib.Analysis.Calculus.Deriv.Pow
import Mathlib.Tactic.LinearCombination
import Mathlib.Tactic.Positivity
import Mathlib.Tactic.Ring
import Mathlib.Topology.Algebra.Module.ModuleTopology
import Mathlib.Topology.Algebra.Monoid
import Mathlib.Topology.Instances.Real.Lemmas
import RobocupDrone.Library.Numerals

/-! Polynomials with six coefficients, the constant one first, and their derivatives. -/

namespace Quintic

variable {K : Type*} [Field K]

/-- The derivative of order `i` at `t`. -/
def derivativeAt (c : ℕ → K) (i : ℕ) (t : K) : K :=
  ∑ j ∈ Finset.range 6, (j.descFactorial i : K) * t ^ (j - i) * c j

theorem derivativeAt_sub (c d : ℕ → K) (i : ℕ) (t : K) :
    derivativeAt (fun j => c j - d j) i t = derivativeAt c i t - derivativeAt d i t := by
  simp only [derivativeAt, mul_sub, Finset.sum_sub_distrib]

theorem position_eq (c : ℕ → K) (t : K) :
    derivativeAt c 0 t =
      c 0 + t * c 1 + t ^ 2 * c 2 + t ^ 3 * c 3 + t ^ 4 * c 4 + t ^ 5 * c 5 := by
  simp [derivativeAt, Finset.sum_range_succ]

theorem velocity_eq (c : ℕ → K) (t : K) :
    derivativeAt c 1 t =
      c 1 + 2 * t * c 2 + 3 * t ^ 2 * c 3 + 4 * t ^ 3 * c 4 + 5 * t ^ 4 * c 5 := by
  simp [derivativeAt, Finset.sum_range_succ]

theorem acceleration_eq (c : ℕ → K) (t : K) :
    derivativeAt c 2 t = 2 * c 2 + 6 * t * c 3 + 12 * t ^ 2 * c 4 + 20 * t ^ 3 * c 5 := by
  simp [derivativeAt, Finset.sum_range_succ, Nat.descFactorial]
  ring

theorem jerk_eq (c : ℕ → K) (t : K) :
    derivativeAt c 3 t = 6 * c 3 + 24 * t * c 4 + 60 * t ^ 2 * c 5 := by
  simp [derivativeAt, Finset.sum_range_succ, Nat.descFactorial]
  ring

theorem snap_eq (c : ℕ → K) (t : K) : derivativeAt c 4 t = 24 * c 4 + 120 * t * c 5 := by
  simp [derivativeAt, Finset.sum_range_succ, Nat.descFactorial]
  ring

theorem crackle_eq (c : ℕ → K) (t : K) : derivativeAt c 5 t = 120 * c 5 := by
  simp [derivativeAt, Finset.sum_range_succ, Nat.descFactorial]
  norm_num

section Speed

variable [LinearOrder K]

/-- A bound on the speed as long as the time is at most `r`. -/
def speedBound (r : K) (c : ℕ → K) : K :=
  ∑ j ∈ Finset.range 6, (j : K) * r ^ (j - 1) * |c j|

theorem speedBound_eq (r : K) (c : ℕ → K) :
    speedBound r c =
      |c 1| + 2 * r * |c 2| + 3 * r ^ 2 * |c 3| + 4 * r ^ 3 * |c 4| + 5 * r ^ 4 * |c 5| := by
  simp [speedBound, Finset.sum_range_succ]

theorem abs_position_sub_le [IsStrictOrderedRing K] (c : ℕ → K) {s t r : K} (first : |s| ≤ r)
    (second : |t| ≤ r) :
    |derivativeAt c 0 s - derivativeAt c 0 t| ≤ speedBound r c * |s - t| := by
  have power : ∀ j : ℕ, |s ^ j - t ^ j| ≤ |s - t| * j * r ^ (j - 1) := by
    intro j
    refine (abs_pow_sub_pow_le s t j).trans ?_
    gcongr
    exact max_le first second
  calc
    |derivativeAt c 0 s - derivativeAt c 0 t|
        = |∑ j ∈ Finset.range 6, (s ^ j - t ^ j) * c j| := by
      simp only [derivativeAt, ← Finset.sum_sub_distrib, Nat.descFactorial_zero, Nat.cast_one,
        one_mul, Nat.sub_zero, sub_mul]
    _ ≤ ∑ j ∈ Finset.range 6, |(s ^ j - t ^ j) * c j| := Finset.abs_sum_le_sum_abs _ _
    _ ≤ ∑ j ∈ Finset.range 6, |s - t| * j * r ^ (j - 1) * |c j| := by
      refine Finset.sum_le_sum fun j _ => ?_
      rw [abs_mul]
      exact mul_le_mul_of_nonneg_right (power j) (abs_nonneg _)
    _ = speedBound r c * |s - t| := by
      rw [speedBound, Finset.sum_mul]
      refine Finset.sum_congr rfl fun j _ => ?_
      ring

end Speed

/-- The integral of the product of two jerks, up to the time `h`. -/
def jerkForm (h : K) (c d : ℕ → K) : K :=
  36 * h * (c 3 * d 3) + 72 * h ^ 2 * (c 3 * d 4 + c 4 * d 3) +
    120 * h ^ 3 * (c 3 * d 5 + c 5 * d 3) + 192 * h ^ 3 * (c 4 * d 4) +
    360 * h ^ 4 * (c 4 * d 5 + c 5 * d 4) + 720 * h ^ 5 * (c 5 * d 5)

theorem jerkForm_eq (h : K) (c d : ℕ → K) :
    jerkForm h c d =
      derivativeAt c 2 h * derivativeAt d 3 h - derivativeAt c 1 h * derivativeAt d 4 h +
          derivativeAt c 0 h * derivativeAt d 5 h -
        (derivativeAt c 2 0 * derivativeAt d 3 0 - derivativeAt c 1 0 * derivativeAt d 4 0 +
          derivativeAt c 0 0 * derivativeAt d 5 0) := by
  simp only [jerkForm, position_eq, velocity_eq, acceleration_eq, jerk_eq, snap_eq, crackle_eq]
  ring

theorem jerkForm_self (h : K) (c : ℕ → K) :
    jerkForm h c c = h * (6 * c 3 + 12 * h * c 4 + 20 * h ^ 2 * c 5) ^ 2 +
      12 * h ^ 3 * (2 * c 4 + 5 * h * c 5) ^ 2 + 20 * h ^ 5 * c 5 ^ 2 := by
  rw [jerkForm]
  ring

section Ordered

variable [LinearOrder K] [IsStrictOrderedRing K] {h : K}

theorem jerkForm_self_nonneg (forward : 0 < h) (c : ℕ → K) : 0 ≤ jerkForm h c c := by
  rw [jerkForm_self]
  positivity

theorem eq_zero_of_jerkForm_self (forward : 0 < h) {c : ℕ → K} (vanishes : jerkForm h c c = 0) :
    c 3 = 0 ∧ c 4 = 0 ∧ c 5 = 0 := by
  rw [jerkForm_self] at vanishes
  have first : 0 ≤ h * (6 * c 3 + 12 * h * c 4 + 20 * h ^ 2 * c 5) ^ 2 := by positivity
  have second : 0 ≤ 12 * h ^ 3 * (2 * c 4 + 5 * h * c 5) ^ 2 := by positivity
  have third : 0 ≤ 20 * h ^ 5 * c 5 ^ 2 := by positivity
  have c5 : c 5 = 0 := by
    have zero : 20 * h ^ 5 * c 5 ^ 2 = 0 := by linarith
    simpa [forward.ne'] using zero
  have c4 : c 4 = 0 := by
    have zero : 12 * h ^ 3 * (2 * c 4 + 5 * h * c 5) ^ 2 = 0 := by linarith
    simpa [forward.ne', c5] using zero
  have c3 : c 3 = 0 := by
    have zero : h * (6 * c 3 + 12 * h * c 4 + 20 * h ^ 2 * c 5) ^ 2 = 0 := by linarith
    simpa [forward.ne', c4, c5] using zero
  exact ⟨c3, c4, c5⟩

end Ordered

/-- The polynomial, its velocity and its acceleration vanish at zero and at `h` only if all its
coefficients do. -/
theorem eq_zero_of_ends [CharZero K] {c : ℕ → K} {h : K} (apart : h ≠ 0)
    (left : ∀ i < 3, derivativeAt c i 0 = 0) (right : ∀ i < 3, derivativeAt c i h = 0) {j : ℕ}
    (inside : j < 6) : c j = 0 := by
  have c0 : c 0 = 0 := by simpa [position_eq] using left 0 (by omega)
  have c1 : c 1 = 0 := by simpa [velocity_eq] using left 1 (by omega)
  have c2 : c 2 = 0 := by simpa [acceleration_eq] using left 2 (by omega)
  have position := right 0 (by omega)
  have velocity := right 1 (by omega)
  have acceleration := right 2 (by omega)
  rw [position_eq] at position
  rw [velocity_eq] at velocity
  rw [acceleration_eq] at acceleration
  have c5 : c 5 = 0 := by
    have scaled : 2 * h ^ 5 * c 5 = 0 := by
      linear_combination h ^ 2 * acceleration - 6 * h * velocity + 12 * position -
        12 * c0 - 6 * h * c1 - 2 * h ^ 2 * c2
    simpa [apart] using scaled
  have c4 : c 4 = 0 := by
    have scaled : h ^ 4 * c 4 = 0 := by
      linear_combination h * velocity - 3 * position + 3 * c0 + 2 * h * c1 + h ^ 2 * c2 -
        2 * h ^ 5 * c5
    simpa [apart] using scaled
  have c3 : c 3 = 0 := by
    have scaled : h ^ 3 * c 3 = 0 := by
      linear_combination position - c0 - h * c1 - h ^ 2 * c2 - h ^ 4 * c4 - h ^ 5 * c5
    simpa [apart] using scaled
  obtain rfl | rfl | rfl | rfl | rfl | rfl :
      j = 0 ∨ j = 1 ∨ j = 2 ∨ j = 3 ∨ j = 4 ∨ j = 5 := by omega
  · exact c0
  · exact c1
  · exact c2
  · exact c3
  · exact c4
  · exact c5

theorem derivativeAt_of_rest [CharZero K] {c : ℕ → K} (smooth : c 3 = 0 ∧ c 4 = 0 ∧ c 5 = 0)
    (rest : ∀ i < 3, derivativeAt c i 0 = 0) {i : ℕ} (low : i < 3) (t : K) :
    derivativeAt c i t = 0 := by
  obtain ⟨c3, c4, c5⟩ := smooth
  have c0 : c 0 = 0 := by simpa [position_eq] using rest 0 (by omega)
  have c1 : c 1 = 0 := by simpa [velocity_eq] using rest 1 (by omega)
  have c2 : c 2 = 0 := by simpa [acceleration_eq] using rest 2 (by omega)
  obtain rfl | rfl | rfl : i = 0 ∨ i = 1 ∨ i = 2 := by omega
  · simp [position_eq, c0, c1, c2, c3, c4, c5]
  · simp [velocity_eq, c1, c2, c3, c4, c5]
  · simp [acceleration_eq, c2, c3, c4, c5]

/-- The polynomial around `h`. -/
def shift (c : ℕ → K) (h : K) (j : ℕ) : K :=
  ∑ i ∈ Finset.range 6, (i.choose j : K) * h ^ (i - j) * c i

theorem derivativeAt_shift (c : ℕ → K) (h t : K) {i : ℕ} (low : i < 3) :
    derivativeAt (shift c h) i t = derivativeAt c i (h + t) := by
  obtain rfl | rfl | rfl : i = 0 ∨ i = 1 ∨ i = 2 := by omega
  · simp [position_eq, shift, Finset.sum_range_succ, Nat.choose]
    ring
  · simp [velocity_eq, shift, Finset.sum_range_succ, Nat.choose]
    ring
  · simp [acceleration_eq, shift, Finset.sum_range_succ, Nat.choose]
    ring

theorem derivativeAt_of_joins [CharZero K] {c d : ℕ → K} {h w : K} (apart : w ≠ 0)
    (left : ∀ i < 3, derivativeAt d i 0 = derivativeAt c i h)
    (right : ∀ i < 3, derivativeAt d i w = derivativeAt c i (h + w)) (i : ℕ) (t : K)
    (low : i < 3) : derivativeAt d i t = derivativeAt c i (h + t) := by
  have same : ∀ j < 6, d j = shift c h j := by
    intro j inside
    refine sub_eq_zero.mp (eq_zero_of_ends (c := fun j => d j - shift c h j) apart ?_ ?_ inside)
    · intro i low
      rw [derivativeAt_sub, derivativeAt_shift c h 0 low, left i low, add_zero, sub_self]
    · intro i low
      rw [derivativeAt_sub, derivativeAt_shift c h w low, right i low, sub_self]
  rw [← derivativeAt_shift c h t low]
  refine Finset.sum_congr rfl fun j inside => ?_
  rw [same j (Finset.mem_range.mp inside)]

theorem continuous_derivativeAt (c : ℕ → ℝ) (i : ℕ) : Continuous (derivativeAt c i) :=
  continuous_finsetSum _ fun _ _ =>
    ((continuous_const.mul (continuous_pow _)).mul continuous_const)

theorem hasDerivAt_derivativeAt (c : ℕ → ℝ) (i : ℕ) (t : ℝ) :
    HasDerivAt (derivativeAt c i) (derivativeAt c (i + 1) t) t := by
  refine HasDerivAt.fun_sum fun j _ => ?_
  have power := ((hasDerivAt_pow (j - i) t).const_mul (j.descFactorial i : ℝ)).mul_const (c j)
  refine power.congr_deriv ?_
  rw [Nat.descFactorial_succ, Nat.sub_sub]
  push_cast
  ring

end Quintic
