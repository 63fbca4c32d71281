import Mathlib.Tactic.Linarith
import RobocupDrone.Planner.SplineCurve

/-! `lengthenTime`: a spline with its knots stretched in the middle. -/

namespace RobocupDrone.Planner.UniformBspline

open Geometry

variable {K : Type} [Field K]

/-- The two loops write the knots between `num1` and `num2`, and those behind. -/
def lengthenTime (ratio : K) (b : UniformBspline K) : Option (UniformBspline K) := do
  let num1 : ℤ := 5
  let num2 : ℤ := b.u.length - 1 - 5
  let high ← entry b.u num2
  let low ← entry b.u num1
  let deltaT := (ratio - 1) * (high - low)
  let tInc := deltaT / ((num2 - num1 : ℤ) : K)
  let stretched := b.u.mapIdx fun i knot =>
    if num1 + 1 ≤ i ∧ (i : ℤ) ≤ num2 then knot + (((i : ℤ) - num1 : ℤ) : K) * tInc else knot
  let shifted := stretched.mapIdx fun i knot => if num2 + 1 ≤ i then knot + deltaT else knot
  some (b.setKnot shifted)

def addedTime (ratio : K) (b : UniformBspline K) : K :=
  (ratio - 1) * (b.u.getD (b.u.length - 6) 0 - b.u.getD 5 0)

/-- What is added to knot `i`. -/
def knotShift (ratio : K) (b : UniformBspline K) (i : ℕ) : K :=
  ((min i (b.u.length - 6) - 5 : ℕ) : K) * (addedTime ratio b / ((b.u.length - 11 : ℕ) : K))

variable {b : UniformBspline K} {ratio : K}

theorem knotShift_of_le {i : ℕ} (early : i ≤ 5) : knotShift ratio b i = 0 := by
  rw [knotShift, Nat.sub_eq_zero_of_le (le_trans (min_le_left _ _) early), Nat.cast_zero, zero_mul]

theorem getD_lengthened {i : ℕ} (inside : i < b.u.length) :
    (b.u.mapIdx fun i knot => knot + knotShift ratio b i).getD i 0 =
      b.u.getD i 0 + knotShift ratio b i := by
  rw [List.getD_eq_getElem?_getD, List.getElem?_mapIdx, List.getD_eq_getElem?_getD,
    List.getElem?_eq_getElem inside]
  rfl

variable [LinearOrder K] [IsStrictOrderedRing K]

theorem knotShift_of_ge (enough : 12 ≤ b.u.length) {i : ℕ} (late : b.u.length - 6 ≤ i) :
    knotShift ratio b i = addedTime ratio b := by
  have steps : ((b.u.length - 11 : ℕ) : K) ≠ 0 := Nat.cast_ne_zero.mpr (by omega)
  rw [knotShift, min_eq_right late, show b.u.length - 6 - 5 = b.u.length - 11 by omega,
    mul_div_cancel₀ _ steps]

theorem lengthenTime_eq (enough : 12 ≤ b.u.length) :
    lengthenTime ratio b =
      some (b.setKnot (b.u.mapIdx fun i knot => knot + knotShift ratio b i)) := by
  have last : (b.u.length : ℤ) - 1 - 5 = ((b.u.length - 6 : ℕ) : ℤ) := by omega
  have high : entry b.u ((b.u.length - 6 : ℕ) : ℤ) = some (b.u.getD (b.u.length - 6) 0) := by
    rw [entry_natCast]
    exact getElem?_getD (by omega) 0
  have low : entry b.u (5 : ℤ) = some (b.u.getD 5 0) := by
    rw [show (5 : ℤ) = ((5 : ℕ) : ℤ) from rfl, entry_natCast]
    exact getElem?_getD (by omega) 0
  have steps : (((b.u.length - 6 : ℕ) : ℤ) - 5 : ℤ) = ((b.u.length - 11 : ℕ) : ℤ) := by omega
  simp only [lengthenTime, last, high, low, steps, Int.cast_natCast, Option.bind_eq_bind,
    Option.bind_some, Option.some.injEq, List.mapIdx_mapIdx]
  congr 2
  funext i knot
  simp only [Function.comp_apply]
  rcases Nat.lt_or_ge (b.u.length - 6) i with late | within
  · rw [if_pos (by omega), if_neg (by omega), knotShift_of_ge enough late.le, addedTime]
  · rw [if_neg (by omega)]
    rcases Nat.lt_or_ge 5 i with moved | early
    · have offset : ((i : ℤ) - 5 : ℤ) = ((min i (b.u.length - 6) - 5 : ℕ) : ℤ) := by omega
      rw [if_pos (by omega), offset, Int.cast_natCast, knotShift, addedTime]
    · rw [if_neg (by omega), knotShift_of_le early, add_zero]

section Longer

variable (regular : Regular 3 b) (enough : 12 ≤ b.u.length) (longer : 1 ≤ ratio)
include regular enough longer

theorem addedTime_nonneg : 0 ≤ addedTime ratio b :=
  mul_nonneg (sub_nonneg.mpr longer)
    (sub_nonneg.mpr (regular.knot_le (show 5 ≤ b.u.length - 6 by omega) (by omega)))

theorem knotShift_mono {i j : ℕ} (before : i ≤ j) : knotShift ratio b i ≤ knotShift ratio b j := by
  have count : (0 : K) ≤ ((b.u.length - 11 : ℕ) : K) := Nat.cast_nonneg _
  have share := div_nonneg (addedTime_nonneg regular enough longer) count
  exact mul_le_mul_of_nonneg_right (Nat.cast_le.mpr (by omega)) share

theorem lengthened_regular :
    Regular 3 (b.setKnot (b.u.mapIdx fun i knot => knot + knotShift ratio b i)) := by
  refine ⟨regular.p, regular.m, ?_, ?_⟩
  · simpa only [setKnot, List.length_mapIdx] using regular.knots
  · rw [List.pairwise_iff_getElem]
    intro i j inside inside' before
    simp only [setKnot, List.length_mapIdx] at inside inside'
    simp only [setKnot, List.getElem_mapIdx]
    have apart := List.pairwise_iff_getElem.mp regular.increasing i j inside inside' before
    exact add_lt_add_of_lt_of_le apart (knotShift_mono regular enough longer before.le)

theorem knot_sub_le {i j : ℕ} (before : i ≤ j) (inside : j < b.u.length) :
    b.u.getD j 0 - b.u.getD i 0 ≤
      (b.u.mapIdx fun i knot => knot + knotShift ratio b i).getD j 0 -
        (b.u.mapIdx fun i knot => knot + knotShift ratio b i).getD i 0 := by
  have shift := knotShift_mono regular enough longer before
  rw [getD_lengthened inside, getD_lengthened (by omega)]
  linarith

theorem abs_velocityPoint_le {i : ℕ} (inside : i + 4 < b.u.length) (axis : Axis) :
    |((b.setKnot (b.u.mapIdx fun i knot => knot + knotShift ratio b i)).velocityPoint 2 i).get
        axis| ≤ |(b.velocityPoint 2 i).get axis| := by
  have before := sub_pos.mpr (regular.knot_lt (show i + 1 < i + 2 + 2 by omega) inside)
  have wider := knot_sub_le regular enough longer (show i + 1 ≤ i + 2 + 2 by omega) inside
  rw [velocityPoint, velocityPoint, setKnot_u, setKnot_controlPoints, Vec3.get_smul, Vec3.get_smul,
    abs_mul, abs_mul]
  refine mul_le_mul_of_nonneg_right ?_ (abs_nonneg _)
  rw [abs_div, abs_div, abs_of_pos before, abs_of_pos (before.trans_le wider)]
  exact div_le_div_of_nonneg_left (abs_nonneg _) before wider

end Longer

/-- What `lengthenTime` keeps, and what it changes. -/
structure Lengthened (ratio : K) (b longer : UniformBspline K) : Prop where
  controlPoints : longer.controlPoints = b.controlPoints
  increasing : longer.u.Pairwise (· < ·)
  first_knots : longer.u.take 6 = b.u.take 6
  timeSum : ∃ before after, b.getTimeSum = some before ∧ longer.getTimeSum = some after ∧
    after - before = (ratio - 1) * (b.u.getD (b.m - 5).toNat 0 - b.u.getD 5 0)
  velocities : ∃ vels slower, b.getDerivativeControlPoints = some vels ∧
    longer.getDerivativeControlPoints = some slower ∧ slower.length = vels.length ∧
      ∀ (i : ℕ) (axis : Axis), |(slower.getD i 0).get axis| ≤ |(vels.getD i 0).get axis|

/-- A cubic spline with a full vector of knots is only slowed down. -/
theorem lengthenTime_lengthens (regular : Regular 3 b)
    (full : b.u.length = b.controlPoints.length + 4) (enough : 8 ≤ b.controlPoints.length)
    (longer : 1 ≤ ratio) : ∃ b', lengthenTime ratio b = some b' ∧ Lengthened ratio b b' := by
  have knots : 12 ≤ b.u.length := by omega
  have nonempty : b.controlPoints ≠ [] := List.ne_nil_of_length_pos (by omega)
  have regular' := lengthened_regular regular knots longer
  refine ⟨_, lengthenTime_eq knots, rfl, regular'.increasing, ?_, ?_, ?_⟩
  · apply List.ext_getElem
    · simp only [setKnot, List.length_take, List.length_mapIdx]
    · intro i inside _
      have early : i ≤ 5 := by
        rw [List.length_take] at inside
        omega
      simp only [setKnot, List.getElem_take, List.getElem_mapIdx, knotShift_of_le early, add_zero]
  · refine ⟨_, _, regular.getTimeSum_eq, regular'.getTimeSum_eq, ?_⟩
    have last : (b.m - 5).toNat = b.u.length - 6 := by
      rw [regular.m]
      omega
    simp only [setKnot]
    rw [getD_lengthened (by omega), getD_lengthened (by omega), knotShift_of_ge knots (by omega),
      knotShift_of_le (by omega), last, addedTime]
    ring
  · refine ⟨_, _, regular.getDerivativeControlPoints_eq nonempty,
      regular'.getDerivativeControlPoints_eq nonempty, ?_, fun i axis => ?_⟩
    · simp only [setKnot, List.length_map, List.length_range]
    · rcases Nat.lt_or_ge i (b.controlPoints.length - 1) with inside | outside
      · simp only [setKnot, List.getD_eq_getElem?_getD, List.getElem?_map,
          List.getElem?_range inside, Option.map_some, Option.getD_some]
        exact abs_velocityPoint_le regular knots longer (by omega) axis
      · have blank : ∀ f : ℕ → Vec3 K,
            ((List.range (b.controlPoints.length - 1)).map f).getD i 0 = 0 := fun f =>
          List.getD_eq_default _ _ (by rwa [List.length_map, List.length_range])
        simp only [setKnot, blank, le_refl]

def straightLine : UniformBspline ℚ :=
  ⟨(List.range 8).map fun i : ℕ => ⟨i, 0, 1⟩, 3, 7, 11, (List.range 12).map fun i : ℕ => i - 3, 1⟩

theorem straightLine_lengthens :
    ∃ b', lengthenTime (3 / 2) straightLine = some b' ∧ Lengthened (3 / 2) straightLine b' :=
  lengthenTime_lengthens ⟨rfl, rfl, by decide, by decide +kernel⟩ rfl le_rfl (by norm_num)

end RobocupDrone.Planner.UniformBspline
