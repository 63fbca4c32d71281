import Mathlib.Analysis.Calculus.Deriv.Add
import Mathlib.Analysis.Calculus.Deriv.Comp
import Mathlib.Analysis.Calculus.Deriv.Mul
import Mathlib.Analysis.Calculus.Deriv.Pow
import Mathlib.Analysis.Calculus.FDeriv.Mul
import Mathlib.Analysis.Calculus.FDeriv.Pow
import Mathlib.Analysis.InnerProductSpace.Basic
import Mathlib.Topology.Algebra.Module.ModuleTopology
import Mathlib.Topology.Order.OrderClosed
import RobocupDrone.Library.Numerals
import RobocupDrone.Library.Vec3

/-! Derivatives of functions of vectors that move with a parameter, and of functions in pieces. -/

namespace Gradient

open Geometry

theorem hasDerivAt_of_pieces {f g h : ℝ → ℝ} {a t d : ℝ} (below : ∀ s < a, h s = f s)
    (above : ∀ s, a < s → h s = g s) (left : h a = f a) (right : h a = g a)
    (hf : t ≤ a → HasDerivAt f d t) (hg : a ≤ t → HasDerivAt g d t) : HasDerivAt h d t := by
  rcases lt_trichotomy t a with before | rfl | after
  · apply (hf before.le).congr_of_eventuallyEq
    filter_upwards [Iio_mem_nhds before] with s less
    exact below s less
  · have lower : HasDerivWithinAt h d (Set.Iic t) t := by
      apply (hf le_rfl).hasDerivWithinAt.congr _ left
      intro s bound
      rcases (Set.mem_Iic.mp bound).eq_or_lt with rfl | less
      · exact left
      · exact below s less
    have upper : HasDerivWithinAt h d (Set.Ici t) t := by
      apply (hg le_rfl).hasDerivWithinAt.congr _ right
      intro s bound
      rcases (Set.mem_Ici.mp bound).eq_or_lt with rfl | greater
      · exact right
      · exact above s greater
    have both := lower.union upper
    rwa [Set.Iic_union_Ici, hasDerivWithinAt_univ] at both
  · apply (hg after.le).congr_of_eventuallyEq
    filter_upwards [Ioi_mem_nhds after] with s greater
    exact above s greater

/-- With an instance of its own a multiple of a derivative is the same term in every module. -/
instance (priority := 20000) smulCommClass_real :
    @SMulCommClass ℝ ℝ ℝ Algebra.toSMul (@instSMulOfMul ℝ Distrib.toMul) :=
  Algebra.to_smulCommClass

variable {E : Type*} [NormedAddCommGroup E] [NormedSpace ℝ E]

/-- The derivative that moves against the vector `w`. -/
def paired (w : Vec3 ℝ) (V : Axis → E →L[ℝ] ℝ) : E →L[ℝ] ℝ :=
  w.get .x • V .x + w.get .y • V .y + w.get .z • V .z

/-- The vector moves with the derivatives `V`. -/
def VecMoves (v : E → Vec3 ℝ) (V : Axis → E →L[ℝ] ℝ) (x : E) : Prop :=
  ∀ axis, HasFDerivAt (fun s => (v s).get axis) (V axis) x

/-- The derivative that moves against one entry. -/
def alongEntry {n : ℕ} (c : ℝ) (k : Fin n) : (Fin n → ℝ) →L[ℝ] ℝ :=
  c • ContinuousLinearMap.proj k

/-- The derivative with the partial derivatives `grad`. -/
def ofEntries {n : ℕ} (grad : Fin n → ℝ) : (Fin n → ℝ) →L[ℝ] ℝ :=
  ∑ k, alongEntry (grad k) k

section Vectors

variable {v w : E → Vec3 ℝ} {V W : Axis → E →L[ℝ] ℝ} {x : E}

theorem VecMoves.add (first : VecMoves v V x) (second : VecMoves w W x) :
    VecMoves (fun s => v s + w s) (fun axis => V axis + W axis) x := by
  intro axis
  simp only [Vec3.get_add]
  exact (first axis).add (second axis)

theorem VecMoves.sub (first : VecMoves v V x) (second : VecMoves w W x) :
    VecMoves (fun s => v s - w s) (fun axis => V axis - W axis) x := by
  intro axis
  simp only [Vec3.get_sub]
  exact (first axis).sub (second axis)

theorem VecMoves.sub_const (first : VecMoves v V x) (fixed : Vec3 ℝ) :
    VecMoves (fun s => v s - fixed) V x := by
  intro axis
  simp only [Vec3.get_sub]
  exact (first axis).sub_const _

theorem VecMoves.smul (first : VecMoves v V x) (c : ℝ) :
    VecMoves (fun s => c • v s) (fun axis => c • V axis) x := by
  intro axis
  simp only [Vec3.get_smul]
  exact (first axis).const_mul c

theorem VecMoves.div (first : VecMoves v V x) (c : ℝ) :
    VecMoves (fun s => v s / c) (fun axis => c⁻¹ • V axis) x := by
  intro axis
  simp only [Vec3.get_div, div_eq_inv_mul]
  exact (first axis).const_mul c⁻¹

theorem VecMoves.dot (first : VecMoves v V x) (fixed : Vec3 ℝ) :
    HasFDerivAt (fun s => (v s).dot fixed) (paired fixed V) x :=
  (((first .x).mul_const fixed.x).add ((first .y).mul_const fixed.y)).add
    ((first .z).mul_const fixed.z)

theorem VecMoves.normSq (first : VecMoves v V x) :
    HasFDerivAt (fun s => (v s).normSq) (paired ((2 : ℝ) • v x) V) x := by
  have squares := (((first .x).mul (first .x)).add ((first .y).mul (first .y))).add
    ((first .z).mul (first .z))
  refine squares.congr_fderiv ?_
  simp only [paired, Vec3.get_smul]
  module

/-- The derivative of a product with the fixed vector `w`. -/
def crossed (V : Axis → E →L[ℝ] ℝ) (w : Vec3 ℝ) : Axis → E →L[ℝ] ℝ
  | .x => w.z • V .y - w.y • V .z
  | .y => w.x • V .z - w.z • V .x
  | .z => w.y • V .x - w.x • V .y

theorem VecMoves.cross (first : VecMoves v V x) (fixed : Vec3 ℝ) :
    VecMoves (fun s => (v s).cross fixed) (crossed V fixed) x := by
  intro axis
  cases axis with
  | x => exact ((first .y).mul_const fixed.z).sub ((first .z).mul_const fixed.y)
  | y => exact ((first .z).mul_const fixed.x).sub ((first .x).mul_const fixed.z)
  | z => exact ((first .x).mul_const fixed.y).sub ((first .y).mul_const fixed.x)

theorem paired_crossed (w fixed : Vec3 ℝ) (V : Axis → E →L[ℝ] ℝ) :
    paired w (crossed V fixed) = paired (fixed.cross w) V := by
  simp only [paired, crossed, Vec3.cross, Vec3.get]
  module

end Vectors

section Columns

theorem paired_smul (c : ℝ) (v : Vec3 ℝ) (V : Axis → E →L[ℝ] ℝ) :
    paired (c • v) V = c • paired v V := by
  simp only [paired, Vec3.get_smul]
  module

theorem paired_add (v w : Vec3 ℝ) (V : Axis → E →L[ℝ] ℝ) :
    paired (v + w) V = paired v V + paired w V := by
  simp only [paired, Vec3.get_add]
  module

@[simp] theorem paired_zero (V : Axis → E →L[ℝ] ℝ) : paired 0 V = 0 := by
  simp [paired]

@[simp] theorem paired_along (axis : Axis) (c : ℝ) (V : Axis → E →L[ℝ] ℝ) :
    paired (Vec3.along axis c) V = c • V axis := by
  cases axis <;> simp [paired]

/-- The derivative that moves against the first `n` columns of `g`. -/
def pairedColumns (n : ℕ) (g : ℕ → Vec3 ℝ) (D : ℕ → Axis → E →L[ℝ] ℝ) : E →L[ℝ] ℝ :=
  ∑ j ∈ Finset.range n, paired (g j) (D j)

theorem pairedColumns_add (n : ℕ) (g h : ℕ → Vec3 ℝ) (D : ℕ → Axis → E →L[ℝ] ℝ) :
    pairedColumns n (g + h) D = pairedColumns n g D + pairedColumns n h D := by
  simp only [pairedColumns, Pi.add_apply, paired_add, Finset.sum_add_distrib]

theorem pairedColumns_smul (n : ℕ) (c : ℝ) (g : ℕ → Vec3 ℝ) (D : ℕ → Axis → E →L[ℝ] ℝ) :
    pairedColumns n (c • g) D = c • pairedColumns n g D := by
  simp only [pairedColumns, Pi.smul_apply, paired_smul, Finset.smul_sum]

@[simp] theorem pairedColumns_zero (n : ℕ) (D : ℕ → Axis → E →L[ℝ] ℝ) :
    pairedColumns n 0 D = 0 := by
  simp [pairedColumns]

theorem pairedColumns_single {n i : ℕ} (inside : i < n) (v : Vec3 ℝ)
    (D : ℕ → Axis → E →L[ℝ] ℝ) : pairedColumns n (Pi.single i v) D = paired v (D i) := by
  rw [pairedColumns, Finset.sum_eq_single i]
  · rw [Pi.single_eq_same]
  · intro j _ other
    rw [Pi.single_eq_of_ne other, paired_zero]
  · intro outside
    exact absurd (Finset.mem_range.mpr inside) outside

end Columns

end Gradient
