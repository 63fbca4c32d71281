import Mathlib.LinearAlgebra.BilinearForm.Properties
import Mathlib.Algebra.Order.Field.Basic
import Mathlib.Tactic.LinearCombination
import Mathlib.Tactic.Linarith
import Mathlib.Tactic.FieldSimp
import RobocupDrone.Library.Numerals

/-! Quasi-Newton updates of the inverse Hessian, and the recursion that applies them to a vector
without building them. -/

namespace QuasiNewton

variable {K V : Type*} [Field K] [AddCommGroup V] [Module K V]

/-- A step and how much the gradient changed over it. -/
structure Pair (V : Type*) where
  s : V
  y : V

variable (B : LinearMap.BilinForm K V)

def deflate (p : Pair V) : V →ₗ[K] V :=
  LinearMap.id - (B p.y p.s)⁻¹ • (B p.s).smulRight p.y

def reflate (p : Pair V) : V →ₗ[K] V :=
  LinearMap.id - (B p.y p.s)⁻¹ • (B p.y).smulRight p.s

/-- The approximation of the inverse Hessian after the pairs, the newest first, on `γ I`. -/
def inverseHessian (γ : K) : List (Pair V) → V →ₗ[K] V
  | [] => γ • LinearMap.id
  | p :: older =>
      reflate B p ∘ₗ inverseHessian γ older ∘ₗ deflate B p +
        (B p.y p.s)⁻¹ • (B p.s).smulRight p.s

/-- The same by two passes over the pairs, inwards with the steps and outwards with the changes. -/
def twoPass (γ : K) : List (Pair V) → V → V
  | [], v => γ • v
  | p :: older, v =>
      let α := B p.s v / B p.y p.s
      let inner := twoPass γ older (v - α • p.y)
      inner + (α - B p.y inner / B p.y p.s) • p.s

variable {B}

theorem deflate_apply (p : Pair V) (v : V) :
    deflate B p v = v - (B p.s v / B p.y p.s) • p.y := by
  rw [deflate, LinearMap.sub_apply, LinearMap.id_apply, LinearMap.smul_apply,
    LinearMap.smulRight_apply, smul_smul, div_eq_inv_mul]

theorem reflate_apply (p : Pair V) (v : V) :
    reflate B p v = v - (B p.y v / B p.y p.s) • p.s := by
  rw [reflate, LinearMap.sub_apply, LinearMap.id_apply, LinearMap.smul_apply,
    LinearMap.smulRight_apply, smul_smul, div_eq_inv_mul]

theorem inverseHessian_cons (γ : K) (p : Pair V) (older : List (Pair V)) (v : V) :
    inverseHessian B γ (p :: older) v =
      reflate B p (inverseHessian B γ older (deflate B p v)) +
        (B p.s v / B p.y p.s) • p.s := by
  rw [inverseHessian, LinearMap.add_apply, LinearMap.comp_apply, LinearMap.comp_apply,
    LinearMap.smul_apply, LinearMap.smulRight_apply, smul_smul, div_eq_inv_mul]

theorem twoPass_eq (γ : K) (pairs : List (Pair V)) (v : V) :
    twoPass B γ pairs v = inverseHessian B γ pairs v := by
  induction pairs generalizing v with
  | nil => rfl
  | cons p older ih =>
      rw [twoPass, inverseHessian_cons, ih, deflate_apply, reflate_apply, sub_smul]
      abel

theorem inverseHessian_secant (γ : K) {p : Pair V} (curved : B p.y p.s ≠ 0)
    (symmetric : ∀ u v, B u v = B v u) (older : List (Pair V)) :
    inverseHessian B γ (p :: older) p.y = p.s := by
  have whole : B p.s p.y / B p.y p.s = 1 := by
    rw [symmetric p.s p.y, div_self curved]
  have nothing_left : deflate B p p.y = 0 := by
    rw [deflate_apply, whole, one_smul, sub_self]
  rw [inverseHessian_cons, nothing_left, whole, map_zero, map_zero, zero_add, one_smul]

section Symmetric

variable (symmetric : ∀ u v, B u v = B v u)
include symmetric

theorem deflate_adjoint (p : Pair V) (u v : V) : B u (reflate B p v) = B (deflate B p u) v := by
  rw [reflate_apply, deflate_apply, map_sub, map_smul, map_sub, map_smul, LinearMap.sub_apply,
    LinearMap.smul_apply, smul_eq_mul, smul_eq_mul, symmetric u p.s]
  ring

theorem inverseHessian_symmetric (γ : K) (pairs : List (Pair V)) (u v : V) :
    B u (inverseHessian B γ pairs v) = B v (inverseHessian B γ pairs u) := by
  induction pairs generalizing u v with
  | nil =>
      rw [inverseHessian, LinearMap.smul_apply, LinearMap.smul_apply, LinearMap.id_apply,
        LinearMap.id_apply, map_smul, map_smul, symmetric u v]
  | cons p older ih =>
      rw [inverseHessian_cons, inverseHessian_cons, map_add, map_add,
        deflate_adjoint symmetric, deflate_adjoint symmetric, ih, map_smul, map_smul,
        smul_eq_mul, smul_eq_mul, symmetric u p.s, symmetric v p.s]
      ring

variable [LinearOrder K] [IsStrictOrderedRing K]

theorem inverseHessian_pos (positive : ∀ v, v ≠ 0 → 0 < B v v) {γ : K} (scale : 0 < γ)
    {pairs : List (Pair V)} (curved : ∀ p ∈ pairs, 0 < B p.y p.s) {v : V} (nonzero : v ≠ 0) :
    0 < B v (inverseHessian B γ pairs v) := by
  induction pairs generalizing v with
  | nil =>
      rw [inverseHessian, LinearMap.smul_apply, LinearMap.id_apply, map_smul, smul_eq_mul]
      exact mul_pos scale (positive v nonzero)
  | cons p older ih =>
      have curve : 0 < B p.y p.s := curved p List.mem_cons_self
      have inner : ∀ {w : V}, w ≠ 0 → 0 < B w (inverseHessian B γ older w) :=
        ih fun q member => curved q (List.mem_cons_of_mem p member)
      have parts : B v (inverseHessian B γ (p :: older) v) =
          B (deflate B p v) (inverseHessian B γ older (deflate B p v)) +
            B p.s v * B p.s v / B p.y p.s := by
        rw [inverseHessian_cons, map_add, deflate_adjoint symmetric, map_smul, smul_eq_mul,
          symmetric v p.s]
        ring
      rw [parts]
      by_cases across : B p.s v = 0
      · have kept : deflate B p v = v := by
          rw [deflate_apply, across, zero_div, zero_smul, sub_zero]
        rw [kept, across, zero_mul, zero_div, add_zero]
        exact inner nonzero
      · have along : 0 < B p.s v * B p.s v / B p.y p.s :=
          div_pos (mul_self_pos.mpr across) curve
        by_cases rest : deflate B p v = 0
        · rw [rest, map_zero, LinearMap.zero_apply, zero_add]
          exact along
        · exact add_pos (inner rest) along

end Symmetric

end QuasiNewton
