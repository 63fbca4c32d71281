import Mathlib.Analysis.Calculus.Deriv.Add
import Mathlib.Analysis.Calculus.Deriv.Mul
import Mathlib.Analysis.Convex.Basic
import Mathlib.Tactic.FieldSimp
import Mathlib.Tactic.Module
import Mathlib.Topology.Algebra.Module.ModuleTopology
import RobocupDrone.Library.Numerals

/-! De Boor's algorithm on one knot span: the triangle of points, its convexity and its derivative.
The span of a curve of degree `p` lies between the knots `p` and `p + 1`, and `p + 1` points
`c 0`, ..., `c p` decide the curve on it. -/

namespace DeBoor

section Triangle

variable {K V : Type*} [Field K] [AddCommGroup V] [Module K V]

/-- Where `x` lies between the two knots that row `r` puts around the points `j` and `j + 1`. -/
def ratio (knot : ℕ → K) (x : K) (p r j : ℕ) : K :=
  (x - knot (j + r + 1)) / (knot (j + p + 1) - knot (j + r + 1))

/-- Row `r` of the triangle. -/
def net (knot : ℕ → K) (x : K) (p : ℕ) (c : ℕ → V) : ℕ → ℕ → V
  | 0, j => c j
  | r + 1, j => (1 - ratio knot x p r j) • net knot x p c r j +
      ratio knot x p r j • net knot x p c r (j + 1)

def value (knot : ℕ → K) (x : K) (p : ℕ) (c : ℕ → V) : V := net knot x p c p 0

@[simp] theorem net_zero (knot : ℕ → K) (x : K) (p : ℕ) (c : ℕ → V) (j : ℕ) :
    net knot x p c 0 j = c j := rfl

theorem net_succ (knot : ℕ → K) (x : K) (p : ℕ) (c : ℕ → V) (r j : ℕ) :
    net knot x p c (r + 1) j = (1 - ratio knot x p r j) • net knot x p c r j +
      ratio knot x p r j • net knot x p c r (j + 1) := rfl

theorem map_net {W : Type*} [AddCommGroup W] [Module K W] (f : V →ₗ[K] W) (knot : ℕ → K) (x : K)
    (p : ℕ) (c : ℕ → V) (r j : ℕ) :
    f (net knot x p c r j) = net knot x p (fun i => f (c i)) r j := by
  induction r generalizing j with
  | zero => rfl
  | succ r ih => rw [net_succ, net_succ, map_add, map_smul, map_smul, ih, ih]

theorem net_congr {knot other : ℕ → K} (x : K) {p : ℕ} {c d : ℕ → V} {r j : ℕ} (row : r ≤ p)
    (same_knots : ∀ i, j < i → i ≤ j + r + p → knot i = other i)
    (same_points : ∀ i, j ≤ i → i ≤ j + r → c i = d i) :
    net knot x p c r j = net other x p d r j := by
  induction r generalizing j with
  | zero => exact same_points j le_rfl le_rfl
  | succ r ih =>
      have here : ratio knot x p r j = ratio other x p r j := by
        rw [ratio, ratio, same_knots (j + r + 1) (by omega) (by omega),
          same_knots (j + p + 1) (by omega) (by omega)]
      rw [net_succ, net_succ, here]
      congr 2
      · apply ih (by omega)
        · exact fun i low high => same_knots i low (by omega)
        · exact fun i low high => same_points i low (by omega)
      · apply ih (by omega)
        · exact fun i low high => same_knots i (by omega) (by omega)
        · exact fun i low high => same_points i (by omega) (by omega)

theorem value_of_equal {knot : ℕ → K} {x : K} {p : ℕ} {c : ℕ → V} {v : V}
    (equal : ∀ i ≤ p, c i = v) : value knot x p c = v := by
  have rows : ∀ r j, net knot x p (fun _ => v) r j = v := by
    intro r
    induction r with
    | zero => intro j; rfl
    | succ r ih =>
        intro j
        rw [net_succ, ih, ih, ← add_smul, sub_add_cancel, one_smul]
  rw [value, net_congr x le_rfl (fun _ _ _ => rfl) fun i _ bound => equal i (by omega), rows]

/-- The slopes between neighbouring points; `p` times these are the points of the derivative. -/
def slopes (knot : ℕ → K) (p : ℕ) (c : ℕ → V) (j : ℕ) : V :=
  (knot (j + p + 1) - knot (j + 1))⁻¹ • (c (j + 1) - c j)

def shift (knot : ℕ → K) (j : ℕ) : K := knot (j + 1)

/-- The knots that a span of degree `p` reads are different. -/
def Distinct (knot : ℕ → K) (p : ℕ) : Prop :=
  ∀ i j, 0 < i → i < j → j ≤ 2 * p → knot i ≠ knot j

theorem ratio_shift (knot : ℕ → K) (x : K) (q r j : ℕ) :
    ratio (shift knot) x q r j = ratio knot x (q + 1) (r + 1) j := rfl

theorem net_sub_net {knot : ℕ → K} {q : ℕ} (distinct : Distinct knot (q + 1)) (x : K) (c : ℕ → V)
    {r j : ℕ} (inside : j + r ≤ q) :
    net knot x (q + 1) c r (j + 1) - net knot x (q + 1) c r j =
      (knot (j + (q + 1) + 1) - knot (j + r + 1)) •
        net (shift knot) x q (slopes knot (q + 1) c) r j := by
  induction r generalizing j with
  | zero =>
      have apart : knot (j + (q + 1) + 1) - knot (j + 1) ≠ 0 :=
        sub_ne_zero.mpr (distinct _ _ (by omega) (by omega) (by omega)).symm
      rw [net_zero, net_zero, net_zero, slopes, smul_inv_smul₀ apart]
  | succ r ih =>
      have lower := ih (j := j) (by omega)
      have upper := ih (j := j + 1) (by omega)
      have low_apart : knot (j + (q + 1) + 1) - knot (j + r + 1) ≠ 0 :=
        sub_ne_zero.mpr (distinct _ _ (by omega) (by omega) (by omega)).symm
      have high_apart : knot (j + 1 + (q + 1) + 1) - knot (j + 1 + r + 1) ≠ 0 :=
        sub_ne_zero.mpr (distinct _ _ (by omega) (by omega) (by omega)).symm
      have apart : knot (j + (q + 1) + 1) - knot (j + (r + 1) + 1) ≠ 0 :=
        sub_ne_zero.mpr (distinct _ _ (by omega) (by omega) (by omega)).symm
      have same : j + 1 + r + 1 = j + (r + 1) + 1 := by omega
      -- the difference of two means, by the differences of the row below
      have split : net knot x (q + 1) c (r + 1) (j + 1) - net knot x (q + 1) c (r + 1) j =
          ratio knot x (q + 1) r (j + 1) •
            (net knot x (q + 1) c r (j + 1 + 1) - net knot x (q + 1) c r (j + 1)) +
          (1 - ratio knot x (q + 1) r j) •
            (net knot x (q + 1) c r (j + 1) - net knot x (q + 1) c r j) := by
        rw [net_succ, net_succ]
        module
      have above : ratio knot x (q + 1) r (j + 1) *
          (knot (j + 1 + (q + 1) + 1) - knot (j + 1 + r + 1)) = x - knot (j + (r + 1) + 1) := by
        rw [ratio, div_mul_cancel₀ _ high_apart, same]
      have below : (1 - ratio knot x (q + 1) r j) *
          (knot (j + (q + 1) + 1) - knot (j + r + 1)) = knot (j + (q + 1) + 1) - x := by
        rw [ratio, sub_mul, div_mul_cancel₀ _ low_apart]
        ring
      have weight : (knot (j + (q + 1) + 1) - knot (j + (r + 1) + 1)) *
          ratio (shift knot) x q r j = x - knot (j + (r + 1) + 1) := by
        rw [ratio_shift, ratio, mul_div_cancel₀ _ apart]
      have rest : (knot (j + (q + 1) + 1) - knot (j + (r + 1) + 1)) *
          (1 - ratio (shift knot) x q r j) = knot (j + (q + 1) + 1) - x := by
        rw [mul_sub, weight]
        ring
      rw [split, lower, upper, smul_smul, smul_smul, above, below, net_succ, smul_add, smul_smul,
        smul_smul, weight, rest, add_comm]

theorem inv_smul_net_sub_net {knot : ℕ → K} {q : ℕ} (distinct : Distinct knot (q + 1)) (x : K)
    (c : ℕ → V) {r j : ℕ} (inside : j + r ≤ q) :
    (knot (j + (q + 1) + 1) - knot (j + r + 1))⁻¹ •
        (net knot x (q + 1) c r (j + 1) - net knot x (q + 1) c r j) =
      net (shift knot) x q (slopes knot (q + 1) c) r j := by
  have apart : knot (j + (q + 1) + 1) - knot (j + r + 1) ≠ 0 :=
    sub_ne_zero.mpr (distinct _ _ (by omega) (by omega) (by omega)).symm
  rw [net_sub_net distinct x c inside, inv_smul_smul₀ apart]

theorem net_shift (knot : ℕ → K) (x : K) (p : ℕ) (c : ℕ → V) (r j : ℕ) :
    net (shift knot) x p (fun i => c (i + 1)) r j = net knot x p c r (j + 1) := by
  induction r generalizing j with
  | zero => rfl
  | succ r ih =>
      have here : ratio (shift knot) x p r j = ratio knot x p r (j + 1) := by
        rw [ratio, ratio, shift, shift, Nat.add_right_comm j r 1, Nat.add_right_comm j p 1]
      rw [net_succ, net_succ, ih, ih, here]

theorem value_left (knot : ℕ → K) (q : ℕ) (c : ℕ → V) :
    value knot (knot (q + 1)) (q + 1) c = net knot (knot (q + 1)) (q + 1) c q 0 := by
  have weight : ratio knot (knot (q + 1)) (q + 1) q 0 = 0 := by
    rw [ratio, Nat.zero_add, sub_self, zero_div]
  rw [value, net_succ, weight, sub_zero, one_smul, zero_smul, add_zero]

theorem value_right {knot : ℕ → K} {q : ℕ} (apart : knot (q + 1) ≠ knot (q + 2)) (c : ℕ → V) :
    value knot (knot (q + 2)) (q + 1) c = net knot (knot (q + 2)) (q + 1) c q 1 := by
  have weight : ratio knot (knot (q + 2)) (q + 1) q 0 = 1 := by
    rw [ratio, Nat.zero_add, Nat.zero_add]
    exact div_self (sub_ne_zero.mpr apart.symm)
  rw [value, net_succ, weight, sub_self, zero_smul, one_smul, zero_add]

theorem value_join {knot : ℕ → K} {q : ℕ} (apart : knot (q + 1) ≠ knot (q + 2)) (c : ℕ → V) :
    value (shift knot) (knot (q + 2)) (q + 1) (fun i => c (i + 1)) =
      value knot (knot (q + 2)) (q + 1) c := by
  have left := value_left (shift knot) q fun i => c (i + 1)
  rw [net_shift] at left
  exact left.trans (value_right apart c).symm

end Triangle

section Convexity

variable {K V : Type*} [Field K] [LinearOrder K] [IsStrictOrderedRing K] [AddCommGroup V]
  [Module K V]

theorem ratio_mem {knot : ℕ → K} {x : K} {p r j : ℕ} (low : knot (j + r + 1) ≤ x)
    (high : x ≤ knot (j + p + 1)) : 0 ≤ ratio knot x p r j ∧ ratio knot x p r j ≤ 1 := by
  constructor
  · exact div_nonneg (sub_nonneg.mpr low) (sub_nonneg.mpr (low.trans high))
  · exact div_le_one_of_le₀ (by linarith) (sub_nonneg.mpr (low.trans high))

theorem net_mem {knot : ℕ → K} {x : K} {p : ℕ} {S : Set V} (convex : Convex K S)
    (sorted : ∀ i j, i ≤ j → j ≤ 2 * p → knot i ≤ knot j) (low : knot p ≤ x)
    (high : x ≤ knot (p + 1)) {c : ℕ → V} (inside : ∀ j ≤ p, c j ∈ S) {r j : ℕ} (row : j + r ≤ p) :
    net knot x p c r j ∈ S := by
  induction r generalizing j with
  | zero => exact inside j (by omega)
  | succ r ih =>
      have weights : 0 ≤ ratio knot x p r j ∧ ratio knot x p r j ≤ 1 :=
        ratio_mem ((sorted _ _ (by omega) (by omega)).trans low)
          (high.trans (sorted _ _ (by omega) (by omega)))
      rw [net_succ]
      exact convex (ih (by omega)) (ih (by omega)) (sub_nonneg.mpr weights.2) weights.1
        (sub_add_cancel _ _)

end Convexity

section Uniform

variable {K V : Type*} [Field K]

/-- Knots at the distance `h`. -/
def equidistant (a h : K) (j : ℕ) : K := a + j * h

theorem ratio_equidistant {h : K} (apart : h ≠ 0) (a s : K) (p r j : ℕ) :
    ratio (equidistant a h) (a + s * h) p r j = (s - (j + r + 1)) / (p - r) := by
  have low : a + s * h - equidistant a h (j + r + 1) = (s - (j + r + 1)) * h := by
    simp only [equidistant]
    push_cast
    ring
  have high : equidistant a h (j + p + 1) - equidistant a h (j + r + 1) = ((p : K) - r) * h := by
    simp only [equidistant]
    push_cast
    ring
  rw [ratio, low, high, mul_div_mul_right _ _ apart]

variable [CharZero K] [AddCommGroup V] [Module K V]

theorem cubic_start {h : K} (apart : h ≠ 0) (a : K) (c : ℕ → V) :
    value (equidistant a h) (a + 3 * h) 3 c = (1 / 6 : K) • (c 0 + (4 : K) • c 1 + c 2) := by
  simp only [value, net_succ, net_zero, ratio_equidistant apart]
  norm_num
  module

theorem cubic_end {h : K} (apart : h ≠ 0) (a : K) (c : ℕ → V) :
    value (equidistant a h) (a + 4 * h) 3 c = (1 / 6 : K) • (c 1 + (4 : K) • c 2 + c 3) := by
  simp only [value, net_succ, net_zero, ratio_equidistant apart]
  norm_num
  module

theorem quadratic_start {h : K} (apart : h ≠ 0) (a : K) (c : ℕ → V) :
    value (equidistant a h) (a + 2 * h) 2 c = (1 / 2 : K) • (c 0 + c 1) := by
  simp only [value, net_succ, net_zero, ratio_equidistant apart]
  norm_num

theorem quadratic_end {h : K} (apart : h ≠ 0) (a : K) (c : ℕ → V) :
    value (equidistant a h) (a + 3 * h) 2 c = (1 / 2 : K) • (c 1 + c 2) := by
  simp only [value, net_succ, net_zero, ratio_equidistant apart]
  norm_num

theorem linear_start {h : K} (apart : h ≠ 0) (a : K) (c : ℕ → V) :
    value (equidistant a h) (a + 1 * h) 1 c = c 0 := by
  simp only [value, net_succ, net_zero, ratio_equidistant apart]
  norm_num

theorem linear_end {h : K} (apart : h ≠ 0) (a : K) (c : ℕ → V) :
    value (equidistant a h) (a + 2 * h) 1 c = c 1 := by
  simp only [value, net_succ, net_zero, ratio_equidistant apart]
  norm_num

end Uniform

section Derivative

variable {𝕜 V : Type*} [NontriviallyNormedField 𝕜] [NormedAddCommGroup V] [NormedSpace 𝕜 V]

theorem hasDerivAt_ratio (knot : ℕ → 𝕜) (x : 𝕜) (p r j : ℕ) :
    HasDerivAt (fun s => ratio knot s p r j) (knot (j + p + 1) - knot (j + r + 1))⁻¹ x := by
  have linear := ((hasDerivAt_id x).sub_const (knot (j + r + 1))).div_const
    (knot (j + p + 1) - knot (j + r + 1))
  rwa [one_div] at linear

theorem hasDerivAt_net {knot : ℕ → 𝕜} {q : ℕ} (distinct : Distinct knot (q + 1)) (x : 𝕜)
    (c : ℕ → V) {r j : ℕ} (inside : j + r ≤ q) :
    HasDerivAt (fun s => net knot s (q + 1) c (r + 1) j)
      (((r : 𝕜) + 1) • net (shift knot) x q (slopes knot (q + 1) c) r j) x := by
  induction r generalizing j with
  | zero =>
      have moves := hasDerivAt_ratio knot x (q + 1) 0 j
      have both := (moves.const_sub 1 |>.smul_const (c j)).add (moves.smul_const (c (j + 1)))
      refine both.congr_deriv ?_
      rw [← inv_smul_net_sub_net distinct x c inside, net_zero, net_zero, Nat.cast_zero, zero_add,
        one_smul]
      module
  | succ r ih =>
      have moves := hasDerivAt_ratio knot x (q + 1) (r + 1) j
      have lower := ih (j := j) (by omega)
      have upper := ih (j := j + 1) (by omega)
      have both := ((moves.const_sub 1).smul lower).add (moves.smul upper)
      refine both.congr_deriv ?_
      have row := net_succ (shift knot) x q (slopes knot (q + 1) c) r j
      rw [ratio_shift] at row
      -- the moving weights give the row once, the moving points `r + 1` times
      calc
        _ = ((r : 𝕜) + 1) • net (shift knot) x q (slopes knot (q + 1) c) (r + 1) j +
            (knot (j + (q + 1) + 1) - knot (j + (r + 1) + 1))⁻¹ •
              (net knot x (q + 1) c (r + 1) (j + 1) - net knot x (q + 1) c (r + 1) j) := by
          rw [row]
          module
        _ = _ := by
          rw [inv_smul_net_sub_net distinct x c inside]
          push_cast
          module

theorem hasDerivAt_value {knot : ℕ → 𝕜} {q : ℕ} (distinct : Distinct knot (q + 1)) (x : 𝕜)
    (c : ℕ → V) :
    HasDerivAt (fun s => value knot s (q + 1) c)
      (value (shift knot) x q fun j => ((q : 𝕜) + 1) • slopes knot (q + 1) c j) x := by
  have scaled := map_net (((q : 𝕜) + 1) • LinearMap.id (R := 𝕜) (M := V)) (shift knot) x q
    (slopes knot (q + 1) c) q 0
  simp only [LinearMap.smul_apply, LinearMap.id_coe, id_eq] at scaled
  rw [value, ← scaled]
  exact hasDerivAt_net distinct x c (by omega)

end Derivative

end DeBoor
