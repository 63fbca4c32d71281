import Mathlib.Algebra.BigOperators.Fin
import Mathlib.Algebra.BigOperators.Intervals
import Mathlib.LinearAlgebra.Matrix.Rank
import RobocupDrone.Planner.SplineCurve

/-! `parameterizeToBspline`: the linear system that fits a uniform cubic spline through points. -/

namespace RobocupDrone.Planner.UniformBspline

open Geometry DeBoor

variable {K : Type} [Field K]

section

variable [LinearOrder K]

/-- Row `A.block(i, start, 1, 3) = row` of a matrix of zeros. -/
def blockRow (start : ℕ) (row : Fin 3 → K) (j : ℕ) : K :=
  if inside : start ≤ j ∧ j < start + 3 then row ⟨j - start, by omega⟩ else 0

def positionRow : Fin 3 → K := ![1 / 6 * 1, 1 / 6 * 4, 1 / 6 * 1]

def velocityRow (ts : K) : Fin 3 → K := ![1 / 2 / ts * -1, 1 / 2 / ts * 0, 1 / 2 / ts * 1]

def accelerationRow (ts : K) : Fin 3 → K := ![1 / ts / ts * 1, 1 / ts / ts * -2, 1 / ts / ts * 1]

def fittingMatrix (k : ℕ) (ts : K) : Matrix (Fin (k + 4)) (Fin (k + 2)) K := fun i j =>
  if (i : ℕ) < k then blockRow i positionRow j
  else if (i : ℕ) = k then blockRow 0 (velocityRow ts) j
  else if (i : ℕ) = k + 1 then blockRow (k - 1) (velocityRow ts) j
  else if (i : ℕ) = k + 2 then blockRow 0 (accelerationRow ts) j
  else blockRow (k - 1) (accelerationRow ts) j

def fittingTarget (pointSet startEndDerivative : List (Vec3 K)) (axis : Axis)
    (i : Fin (pointSet.length + 4)) : K :=
  if (i : ℕ) < pointSet.length then (pointSet.getD i 0).get axis
  else (startEndDerivative.getD (i - pointSet.length) 0).get axis

abbrev Solver (K : Type) := ∀ {rows columns : ℕ},
  Matrix (Fin rows) (Fin columns) K → (Fin rows → K) → Fin columns → K

/-- The control points that the function leaves in `ctrl_pts`. -/
def parameterizeToBspline (solve : Solver K) (ts : K)
    (pointSet startEndDerivative ctrlPts : List (Vec3 K)) : Option (List (Vec3 K)) :=
  if ts ≤ 0 then some ctrlPts
  else if pointSet.length ≤ 3 then some ctrlPts
  -- a wrong number of derivatives is only reported
  else if startEndDerivative.length < 4 then none
  else
    let solution := fun axis => solve (fittingMatrix pointSet.length ts)
      (fittingTarget pointSet startEndDerivative axis)
    some (List.ofFn fun j => Vec3.ofAxes fun axis => solution axis j)

/-- `A x`, for the control points `x`. -/
def fittedValue (k : ℕ) (ts : K) (ctp : List (Vec3 K)) (i : Fin (k + 4)) : Vec3 K :=
  Vec3.ofAxes fun axis =>
    (fittingMatrix k ts).mulVec (fun j : Fin (k + 2) => (ctp.getD j 0).get axis) i

end

theorem sum_blockRow {start n : ℕ} (inside : start + 3 ≤ n) (row : Fin 3 → K) (c : ℕ → K) :
    ∑ j : Fin n, blockRow start row j * c j =
      row 0 * c start + row 1 * c (start + 1) + row 2 * c (start + 2) := by
  have outside : ∀ j ∈ Finset.range n, j ∉ Finset.Ico start (start + 3) →
      blockRow start row j * c j = 0 := by
    intro j _ apart
    rw [Finset.mem_Ico] at apart
    rw [blockRow, dif_neg apart, zero_mul]
  have window : Finset.Ico start (start + 3) ⊆ Finset.range n := by
    intro j member
    rw [Finset.mem_Ico] at member
    exact Finset.mem_range.mpr (by omega)
  rw [Fin.sum_univ_eq_sum_range (fun j => blockRow start row j * c j) n,
    ← Finset.sum_subset window outside, Finset.sum_Ico_eq_sum_range, Nat.add_sub_cancel_left]
  simp [Finset.sum_range_succ, blockRow]

theorem fittedValue_block {k start : ℕ} (inside : start < k) (ts : K) (ctp : List (Vec3 K))
    (row : Fin 3 → K) {i : Fin (k + 4)}
    (same : ∀ j, fittingMatrix k ts i j = blockRow start row j) :
    fittedValue k ts ctp i = row 0 • ctp.getD start 0 + row 1 • ctp.getD (start + 1) 0 +
      row 2 • ctp.getD (start + 2) 0 := by
  apply Vec3.ext_get
  intro axis
  simp only [fittedValue, Vec3.get_ofAxes, Matrix.mulVec, dotProduct, same, Vec3.get_add,
    Vec3.get_smul]
  exact sum_blockRow (by omega) row fun j => (ctp.getD j 0).get axis

section Uniform

variable {degree q : ℕ} {ts : K}
variable {k : ℕ} {ctp : List (Vec3 K)}

def uniform (ctp : List (Vec3 K)) (degree : ℕ) (ts : K) : UniformBspline K :=
  ⟨ctp, degree, ctp.length - 1, ctp.length - 1 + degree + 1,
    (List.range (ctp.length + degree + 1)).map fun i : ℕ => ((i : K) - degree) * ts, ts⟩

theorem uniformKnots_eq (degree : ℕ) (interval : K) (count : ℕ) :
    uniformKnots degree interval count =
      some ((List.range count).map fun i : ℕ => ((i : K) - degree) * interval) := by
  induction count with
  | zero => rfl
  | succ i ih =>
      simp only [uniformKnots, ih, Option.bind_eq_bind, Option.bind_some, List.range_succ,
        List.map_append, List.map_singleton]
      split_ifs with early
      · congr 3
        push_cast
        ring
      · have previous : entry ((List.range i).map fun j : ℕ => ((j : K) - degree) * interval)
            ((i : ℤ) - 1) = some ((((i - 1 : ℕ) : K) - degree) * interval) := by
          rw [show (i : ℤ) - 1 = ((i - 1 : ℕ) : ℤ) by omega, entry_natCast, List.getElem?_map,
            List.getElem?_range (by omega), Option.map_some]
        rw [previous, Option.bind_some, Nat.cast_pred (by omega)]
        congr 3
        ring

theorem setUniformBspline_eq (ctp : List (Vec3 K)) (degree : ℕ) (ts : K) :
    setUniformBspline ctp degree ts = some (uniform ctp degree ts) := by
  have count : ((ctp.length : ℤ) - 1 + degree + 1 + 1).toNat = ctp.length + degree + 1 := by omega
  have size : ¬((ctp.length : ℤ) - 1 + degree + 1 + 1 < 0) := by omega
  simp only [setUniformBspline, count, size, if_false, uniformKnots_eq, Option.bind_eq_bind,
    Option.bind_some]
  rfl

@[simp] theorem uniform_length (ctp : List (Vec3 K)) (degree : ℕ) (ts : K) :
    (uniform ctp degree ts).u.length = ctp.length + degree + 1 := by
  simp only [uniform, List.length_map, List.length_range]

theorem uniform_knot (ctp : List (Vec3 K)) (degree : ℕ) (ts : K) {i : ℕ}
    (inside : i < ctp.length + degree + 1) :
    (uniform ctp degree ts).u.getD i 0 = ((i : K) - degree) * ts := by
  rw [uniform, List.getD_eq_getElem?_getD, List.getElem?_map, List.getElem?_range inside]
  rfl

theorem spanCurve_uniform (ctp : List (Vec3 K)) {k : ℕ} (low : degree ≤ k) (high : k < ctp.length)
    (x : K) :
    (uniform ctp degree ts).spanCurve k x =
      value (equidistant (((k - degree : ℕ) : K) * ts - degree * ts) ts) x degree
        fun i => ctp.getD (k - degree + i) 0 := by
  have p : (uniform ctp degree ts).p.toNat = degree := Int.toNat_natCast degree
  rw [spanCurve, value, value, p]
  apply net_congr x le_rfl
  · intro i _ bound
    rw [spanKnots, p, uniform_knot ctp degree ts (by omega), equidistant]
    push_cast
    ring
  · intro i _ _
    rw [spanPoints, p]
    rfl

theorem uniform_start (ctp : List (Vec3 K)) (degree : ℕ) (ts : K) :
    entry (uniform ctp degree ts).u (uniform ctp degree ts).p = some 0 := by
  have knot := uniform_knot ctp degree ts (show degree < ctp.length + degree + 1 by omega)
  rw [sub_self, zero_mul] at knot
  rw [← knot]
  rw [show (uniform ctp degree ts).p = (degree : ℤ) from rfl, entry_natCast]
  apply getElem?_getD
  rw [uniform_length]
  omega

def speeds (ts : K) (ctp : List (Vec3 K)) : List (Vec3 K) :=
  (List.range (ctp.length - 1)).map fun i => (1 / ts) • (ctp.getD (i + 1) 0 - ctp.getD i 0)

theorem getD_speeds {ctp : List (Vec3 K)} {i : ℕ} (inside : i + 1 < ctp.length) :
    (speeds ts ctp).getD i 0 = (1 / ts) • (ctp.getD (i + 1) 0 - ctp.getD i 0) := by
  rw [speeds, List.getD_eq_getElem?_getD, List.getElem?_map, List.getElem?_range (by omega)]
  rfl

@[simp] theorem length_speeds (ts : K) (ctp : List (Vec3 K)) :
    (speeds ts ctp).length = ctp.length - 1 := by
  rw [speeds, List.length_map, List.length_range]

def Solves (ts : K) (pointSet startEndDerivative ctp : List (Vec3 K)) : Prop :=
  ∀ i axis, (fittedValue pointSet.length ts ctp i).get axis =
    fittingTarget pointSet startEndDerivative axis i

theorem Solves.derivative_row {pointSet startEndDerivative : List (Vec3 K)}
    (solved : Solves ts pointSet startEndDerivative ctp) {j : ℕ} (row : j < 4)
    (present : j < startEndDerivative.length) :
    some (fittedValue pointSet.length ts ctp ⟨pointSet.length + j, by omega⟩) =
      startEndDerivative[j]? := by
  rw [getElem?_getD present 0]
  congr 1
  apply Vec3.ext_get
  intro axis
  have after : ¬(pointSet.length + j < pointSet.length) := by omega
  rw [solved, fittingTarget, if_neg after, Nat.add_sub_cancel_left]

def SolvedExactly (solve : Solver K) (ts : K) (pointSet startEndDerivative : List (Vec3 K)) :
    Prop :=
  ∀ axis, (fittingMatrix pointSet.length ts).mulVec
    (solve (fittingMatrix pointSet.length ts) (fittingTarget pointSet startEndDerivative axis)) =
      fittingTarget pointSet startEndDerivative axis

theorem SolvedExactly.solves {solve : Solver K} {pointSet startEndDerivative : List (Vec3 K)}
    (exact : SolvedExactly solve ts pointSet startEndDerivative) :
    Solves ts pointSet startEndDerivative (List.ofFn fun j => Vec3.ofAxes fun axis =>
      solve (fittingMatrix pointSet.length ts)
        (fittingTarget pointSet startEndDerivative axis) j) := by
  intro i axis
  rw [fittedValue, Vec3.get_ofAxes, ← exact axis]
  congr 2
  funext j
  rw [List.getD_eq_getElem _ _ (by rw [List.length_ofFn]; exact j.isLt), List.getElem_ofFn,
    Vec3.get_ofAxes]

section

variable [LinearOrder K] [IsStrictOrderedRing K]

theorem uniform_regular (positive : 0 < ts) (ctp : List (Vec3 K)) (degree : ℕ) :
    Regular degree (uniform ctp degree ts) := by
  refine ⟨rfl, ?_, ?_, ?_⟩
  · simp only [uniform]
    omega
  · rw [uniform_length]
    exact Nat.lt_succ_self _
  · rw [uniform, List.pairwise_map]
    refine List.pairwise_lt_range.imp ?_
    intro i j before
    have larger : (i : K) < j := by exact_mod_cast before
    exact mul_lt_mul_of_pos_right (sub_lt_sub_right larger _) positive

theorem uniform_at_start (positive : 0 < ts) {ctp : List (Vec3 K)} (enough : degree < ctp.length) :
    (uniform ctp degree ts).evaluateDeBoorT 0 =
      some (value (equidistant (-(degree * ts)) ts) (-(degree * ts) + degree * ts) degree
        fun i => ctp.getD i 0) := by
  have regular := uniform_regular positive ctp degree
  have first := uniform_knot ctp degree ts (show degree < ctp.length + degree + 1 by omega)
  have second := uniform_knot ctp degree ts (show degree + 1 < ctp.length + degree + 1 by omega)
  rw [sub_self, zero_mul] at first
  push_cast at second
  rw [add_sub_cancel_left, one_mul] at second
  have clamped : min (max ((uniform ctp degree ts).u.getD degree 0) (0 + 0))
      ((uniform ctp degree ts).u.getD (uniform ctp degree ts).controlPoints.length 0) = 0 := by
    have last := regular.knot_le enough.le (by
      rw [uniform_length]
      omega)
    rw [first] at last ⊢
    rw [zero_add, max_self]
    exact min_eq_left last
  have reaches : 0 ≤ (uniform ctp degree ts).u.getD (degree + 1) 0 := by
    rw [second]
    exact positive.le
  rw [evaluateDeBoorT, uniform_start, Option.bind_eq_bind, Option.bind_some,
    regular.evaluateDeBoor_eq le_rfl enough clamped (.inl rfl) reaches,
    spanCurve_uniform ctp le_rfl enough]
  simp

theorem uniform_at_knot (positive : 0 < ts) {ctp : List (Vec3 K)} {i : ℕ}
    (inside : degree + i < ctp.length) :
    (uniform ctp degree ts).evaluateDeBoorT (((i + 1 : ℕ) : K) * ts) =
      some (value (equidistant ((i : K) * ts - degree * ts) ts)
        ((i : K) * ts - degree * ts + ((degree : K) + 1) * ts) degree
          fun j => ctp.getD (i + j) 0) := by
  have regular := uniform_regular positive ctp degree
  have knot : ∀ j ≤ i + 1, (uniform ctp degree ts).u.getD (degree + j) 0 = (j : K) * ts := by
    intro j bound
    rw [uniform_knot ctp degree ts (by omega)]
    push_cast
    ring
  have clamped : min (max ((uniform ctp degree ts).u.getD degree 0) (((i + 1 : ℕ) : K) * ts + 0))
      ((uniform ctp degree ts).u.getD (uniform ctp degree ts).controlPoints.length 0) =
        ((i + 1 : ℕ) : K) * ts := by
    have low := regular.knot_le (show degree ≤ degree + (i + 1) by omega) (by
      rw [uniform_length]
      omega)
    have high := regular.knot_le (show degree + (i + 1) ≤ ctp.length by omega) (by
      rw [uniform_length]
      omega)
    rw [knot _ le_rfl] at low high
    rw [add_zero, max_eq_right low]
    exact min_eq_left high
  have after : (uniform ctp degree ts).u.getD (degree + i) 0 < ((i + 1 : ℕ) : K) * ts := by
    rw [knot i (by omega)]
    apply mul_lt_mul_of_pos_right _ positive
    exact_mod_cast Nat.lt_succ_self i
  have reaches := (knot (i + 1) le_rfl).ge
  rw [← Nat.add_assoc] at reaches
  rw [evaluateDeBoorT, uniform_start, Option.bind_eq_bind, Option.bind_some,
    regular.evaluateDeBoor_eq (by omega) inside clamped (.inr after) reaches,
    spanCurve_uniform ctp (by omega) inside, Nat.add_sub_cancel_left]
  congr 2
  push_cast
  ring

theorem uniform_getDerivative (positive : 0 < ts) {ctp : List (Vec3 K)} (nonempty : ctp ≠ []) :
    (uniform ctp (q + 1) ts).getDerivative = some (uniform (speeds ts ctp) q ts) := by
  have regular := uniform_regular positive ctp (q + 1)
  have length := List.length_pos_iff.mpr nonempty
  rw [regular.getDerivative_eq nonempty]
  have points : (List.range ((uniform ctp (q + 1) ts).controlPoints.length - 1)).map
      ((uniform ctp (q + 1) ts).velocityPoint q) = speeds ts ctp := by
    apply List.map_congr_left
    intro i member
    rw [List.mem_range] at member
    change i < ctp.length - 1 at member
    rw [velocityPoint, uniform_knot ctp (q + 1) ts (by omega),
      uniform_knot ctp (q + 1) ts (by omega)]
    congr 1
    have whole : (q : K) + 1 ≠ 0 := by exact_mod_cast Nat.succ_ne_zero q
    have step := positive.ne'
    push_cast
    rw [← sub_mul, show (i : K) + q + 2 - (q + 1) - (i + 1 - (q + 1)) = q + 1 by ring]
    field_simp
  have columns : (speeds ts ctp).length = ctp.length - 1 := by
    simp [speeds]
  have knots : ((uniform ctp (q + 1) ts).u.drop 1).dropLast = (uniform (speeds ts ctp) q ts).u := by
    apply List.ext_getElem
    · simp only [uniform, List.length_dropLast, List.length_drop, List.length_map,
        List.length_range, columns]
      omega
    · intro i _ _
      simp only [uniform, List.getElem_dropLast, List.getElem_drop, List.getElem_map,
        List.getElem_range]
      push_cast
      ring
  simp only [derivative, points, knots]
  rfl

theorem uniform_position (positive : 0 < ts) (columns : ctp.length = k + 2) (enough : 1 < k)
    {i : ℕ} (inside : i < k) :
    (uniform ctp 3 ts).evaluateDeBoorT ((i : K) * ts) = some ((1 / 6 : K) • (ctp.getD i 0 +
      (4 : K) • ctp.getD (i + 1) 0 + ctp.getD (i + 2) 0)) := by
  cases i with
  | zero =>
      rw [Nat.cast_zero, zero_mul, uniform_at_start positive (show 3 < ctp.length by omega)]
      exact congrArg some (cubic_start positive.ne' _ _)
  | succ i =>
      have last := cubic_end positive.ne' ((i : K) * ts - (3 : ℕ) * ts) fun j => ctp.getD (i + j) 0
      rw [uniform_at_knot positive (show 3 + i < ctp.length by omega),
        show ((3 : ℕ) : K) + 1 = 4 by norm_num, last]

theorem fittedValue_position (positive : 0 < ts) (columns : ctp.length = k + 2) (enough : 1 < k)
    {i : ℕ} (inside : i < k) :
    (uniform ctp 3 ts).evaluateDeBoorT ((i : K) * ts) =
      some (fittedValue k ts ctp ⟨i, by omega⟩) := by
  have row := fittedValue_block inside ts ctp positionRow (i := ⟨i, by omega⟩)
    fun j => if_pos inside
  have weights : fittedValue k ts ctp ⟨i, by omega⟩ = (1 / 6 : K) • (ctp.getD i 0 +
      (4 : K) • ctp.getD (i + 1) 0 + ctp.getD (i + 2) 0) := by
    rw [row]
    simp only [positionRow, Matrix.cons_val]
    module
  rw [weights, uniform_position positive columns enough inside]

theorem fittedValue_velocity (positive : 0 < ts) (columns : ctp.length = k + 2) (enough : 1 < k) :
    (uniform (speeds ts ctp) 2 ts).evaluateDeBoorT 0 =
        some (fittedValue k ts ctp ⟨k, by omega⟩) ∧
      (uniform (speeds ts ctp) 2 ts).evaluateDeBoorT (((k - 1 : ℕ) : K) * ts) =
        some (fittedValue k ts ctp ⟨k + 1, by omega⟩) := by
  have first := fittedValue_block (show 0 < k by omega) ts ctp (velocityRow ts)
    (i := ⟨k, by omega⟩) fun j => by simp [fittingMatrix]
  have last := fittedValue_block (show k - 1 < k by omega) ts ctp (velocityRow ts)
    (i := ⟨k + 1, by omega⟩) fun j => by simp [fittingMatrix]
  rw [first, last]
  simp only [velocityRow, Matrix.cons_val]
  constructor
  · rw [uniform_at_start positive (show 2 < (speeds ts ctp).length by rw [length_speeds]; omega)]
    refine congrArg some ((quadratic_start positive.ne' _ _).trans ?_)
    rw [getD_speeds (by omega), getD_speeds (by omega)]
    module
  · obtain ⟨i, rfl⟩ : ∃ i, k = i + 2 := ⟨k - 2, by omega⟩
    have value := quadratic_end positive.ne' ((i : K) * ts - (2 : ℕ) * ts)
      fun j => (speeds ts ctp).getD (i + j) 0
    rw [show i + 2 - 1 = i + 1 from rfl,
      uniform_at_knot positive (show 2 + i < (speeds ts ctp).length by rw [length_speeds]; omega),
      show ((2 : ℕ) : K) + 1 = 3 by norm_num, value, getD_speeds (by omega),
      getD_speeds (by omega)]
    congr 1
    module

theorem fittedValue_acceleration (positive : 0 < ts) (columns : ctp.length = k + 2)
    (enough : 1 < k) :
    (uniform (speeds ts (speeds ts ctp)) 1 ts).evaluateDeBoorT 0 =
        some (fittedValue k ts ctp ⟨k + 2, by omega⟩) ∧
      (uniform (speeds ts (speeds ts ctp)) 1 ts).evaluateDeBoorT (((k - 1 : ℕ) : K) * ts) =
        some (fittedValue k ts ctp ⟨k + 3, by omega⟩) := by
  have first := fittedValue_block (show 0 < k by omega) ts ctp (accelerationRow ts)
    (i := ⟨k + 2, by omega⟩) fun j => by simp [fittingMatrix]
  have last := fittedValue_block (show k - 1 < k by omega) ts ctp (accelerationRow ts)
    (i := ⟨k + 3, by omega⟩) fun j => by simp [fittingMatrix]
  have slower : (speeds ts (speeds ts ctp)).length = k := by
    rw [length_speeds, length_speeds, columns]
    rfl
  have inside : ∀ {i}, i < k → i + 1 < (speeds ts ctp).length := by
    intro i bound
    rw [length_speeds]
    omega
  rw [first, last]
  simp only [accelerationRow, Matrix.cons_val]
  constructor
  · rw [uniform_at_start positive (show 1 < (speeds ts (speeds ts ctp)).length by omega),
      Nat.cast_one, linear_start positive.ne', getD_speeds (inside (by omega)),
      getD_speeds (by omega), getD_speeds (by omega)]
    congr 1
    module
  · obtain ⟨i, rfl⟩ : ∃ i, k = i + 2 := ⟨k - 2, by omega⟩
    have value := linear_end positive.ne' ((i : K) * ts - 1 * ts)
      fun j => (speeds ts (speeds ts ctp)).getD (i + j) 0
    rw [show i + 2 - 1 = i + 1 from rfl,
      uniform_at_knot positive (show 1 + i < (speeds ts (speeds ts ctp)).length by omega),
      Nat.cast_one, show (1 : K) + 1 = 2 by norm_num, value, getD_speeds (inside (by omega)),
      getD_speeds (by omega), getD_speeds (by omega)]
    congr 1
    module

/-- The spline of `ctp` and its two derivatives. -/
structure Derivatives (ts : K) (ctp : List (Vec3 K)) (b d dd : UniformBspline K) : Prop where
  position : setUniformBspline ctp 3 ts = some b
  velocity : b.getDerivative = some d
  acceleration : d.getDerivative = some dd

/-- `A x` holds what the spline of `x` and its derivatives evaluate to. -/
structure RowsEvaluate (k : ℕ) (ts : K) (ctp : List (Vec3 K)) (b d dd : UniformBspline K) :
    Prop where
  positions : ∀ (i : ℕ) (inside : i < k),
    b.evaluateDeBoorT ((i : K) * ts) = some (fittedValue k ts ctp ⟨i, by omega⟩)
  startVelocity : d.evaluateDeBoorT 0 = some (fittedValue k ts ctp ⟨k, by omega⟩)
  endVelocity : d.evaluateDeBoorT (((k - 1 : ℕ) : K) * ts) =
    some (fittedValue k ts ctp ⟨k + 1, by omega⟩)
  startAcceleration : dd.evaluateDeBoorT 0 = some (fittedValue k ts ctp ⟨k + 2, by omega⟩)
  endAcceleration : dd.evaluateDeBoorT (((k - 1 : ℕ) : K) * ts) =
    some (fittedValue k ts ctp ⟨k + 3, by omega⟩)

/-- The splines pass through the points, with the boundary derivatives. -/
structure Interpolates (ts : K) (pointSet startEndDerivative : List (Vec3 K))
    (b d dd : UniformBspline K) : Prop where
  points : ∀ i < pointSet.length, b.evaluateDeBoorT ((i : K) * ts) = pointSet[i]?
  startVelocity : d.evaluateDeBoorT 0 = startEndDerivative[0]?
  endVelocity :
    d.evaluateDeBoorT (((pointSet.length - 1 : ℕ) : K) * ts) = startEndDerivative[1]?
  startAcceleration : dd.evaluateDeBoorT 0 = startEndDerivative[2]?
  endAcceleration :
    dd.evaluateDeBoorT (((pointSet.length - 1 : ℕ) : K) * ts) = startEndDerivative[3]?

theorem uniform_derivatives (positive : 0 < ts) (enough : 1 < ctp.length) :
    Derivatives ts ctp (uniform ctp 3 ts) (uniform (speeds ts ctp) 2 ts)
      (uniform (speeds ts (speeds ts ctp)) 1 ts) := by
  have remaining : speeds ts ctp ≠ [] := by
    apply List.ne_nil_of_length_pos
    rw [length_speeds]
    omega
  exact ⟨setUniformBspline_eq ctp 3 ts,
    uniform_getDerivative positive (List.ne_nil_of_length_pos (by omega)),
    uniform_getDerivative positive remaining⟩

theorem uniform_rowsEvaluate (positive : 0 < ts) (columns : ctp.length = k + 2) (enough : 1 < k) :
    RowsEvaluate k ts ctp (uniform ctp 3 ts) (uniform (speeds ts ctp) 2 ts)
      (uniform (speeds ts (speeds ts ctp)) 1 ts) where
  positions _ inside := fittedValue_position positive columns enough inside
  startVelocity := (fittedValue_velocity positive columns enough).1
  endVelocity := (fittedValue_velocity positive columns enough).2
  startAcceleration := (fittedValue_acceleration positive columns enough).1
  endAcceleration := (fittedValue_acceleration positive columns enough).2

end

variable [LinearOrder K]

theorem Solves.interpolates {pointSet startEndDerivative : List (Vec3 K)}
    {b d dd : UniformBspline K} (rows : RowsEvaluate pointSet.length ts ctp b d dd)
    (four : 4 ≤ startEndDerivative.length) (solved : Solves ts pointSet startEndDerivative ctp) :
    Interpolates ts pointSet startEndDerivative b d dd where
  points := by
    intro i inside
    rw [rows.positions i inside, getElem?_getD inside 0]
    congr 1
    apply Vec3.ext_get
    intro axis
    rw [solved, fittingTarget, if_pos inside]
  startVelocity := rows.startVelocity.trans (solved.derivative_row (j := 0) (by omega) (by omega))
  endVelocity := rows.endVelocity.trans (solved.derivative_row (by omega) (by omega))
  startAcceleration := rows.startAcceleration.trans (solved.derivative_row (by omega) (by omega))
  endAcceleration := rows.endAcceleration.trans (solved.derivative_row (by omega) (by omega))

variable [IsStrictOrderedRing K]

/-- The fitting matrix is the evaluation of the spline, and an exact solution interpolates. -/
theorem fitting_interpolates (positive : 0 < ts) :
    (∀ k ctp, 4 ≤ k → ctp.length = k + 2 →
        ∃ b d dd, Derivatives ts ctp b d dd ∧ RowsEvaluate k ts ctp b d dd) ∧
      (∀ pointSet startEndDerivative ctp, 4 ≤ pointSet.length → 4 ≤ startEndDerivative.length →
        ctp.length = pointSet.length + 2 → Solves ts pointSet startEndDerivative ctp →
          ∃ b d dd, Derivatives ts ctp b d dd ∧
            Interpolates ts pointSet startEndDerivative b d dd) ∧
      ∀ (solve : Solver K) pointSet startEndDerivative ctrlPts, 4 ≤ pointSet.length →
        4 ≤ startEndDerivative.length → SolvedExactly solve ts pointSet startEndDerivative →
          ∃ ctp b d dd,
            parameterizeToBspline solve ts pointSet startEndDerivative ctrlPts = some ctp ∧
              Derivatives ts ctp b d dd ∧ Interpolates ts pointSet startEndDerivative b d dd := by
  refine ⟨?_, ?_, ?_⟩
  · intro k ctp enough columns
    exact ⟨_, _, _, uniform_derivatives positive (by omega),
      uniform_rowsEvaluate positive columns (by omega)⟩
  · intro pointSet startEndDerivative ctp enough four columns solved
    have rows := uniform_rowsEvaluate positive columns (by omega)
    exact ⟨_, _, _, uniform_derivatives positive (by omega), solved.interpolates rows four⟩
  · intro solve pointSet startEndDerivative ctrlPts enough four exact
    have rows := uniform_rowsEvaluate positive (List.length_ofFn (f := fun j : Fin _ =>
      Vec3.ofAxes fun axis => solve (fittingMatrix pointSet.length ts)
        (fittingTarget pointSet startEndDerivative axis) j)) (by omega)
    refine ⟨_, _, _, _, ?_, uniform_derivatives positive ?_, exact.solves.interpolates rows four⟩
    · rw [parameterizeToBspline, if_neg (not_le.mpr positive), if_neg (by omega),
        if_neg (by omega)]
    · rw [List.length_ofFn]
      omega

end Uniform

section LeastSquares

def SolvesExactly (solve : Solver K) : Prop :=
  ∀ {rows columns : ℕ} (M : Matrix (Fin rows) (Fin columns) K) (b : Fin rows → K),
    (∃ x, M.mulVec x = b) → M.mulVec (solve M b) = b

variable [LinearOrder K] [IsStrictOrderedRing K]

theorem exists_normal {rows columns : ℕ} (M : Matrix (Fin rows) (Fin columns) K)
    (b : Fin rows → K) : ∃ x, (M.transpose * M).mulVec x = M.transpose.mulVec b := by
  have inside : LinearMap.range (M.transpose * M).mulVecLin ≤
      LinearMap.range M.transpose.mulVecLin := by
    rw [Matrix.mulVecLin_mul]
    exact LinearMap.range_comp_le_range _ _
  have same := Submodule.eq_of_le_of_finrank_eq inside
    ((Matrix.rank_transpose_mul_self M).trans (Matrix.rank_transpose M).symm)
  have reached : M.transpose.mulVecLin b ∈ LinearMap.range (M.transpose * M).mulVecLin := by
    rw [same]
    exact LinearMap.mem_range_self _ _
  exact reached

/-- `solve` without rounding: a solution of the normal equations. -/
noncomputable def leastSquares : Solver K := fun M b => (exists_normal M b).choose

theorem leastSquares_exact : SolvesExactly (leastSquares : Solver K) := by
  rintro rows columns M b ⟨x, rfl⟩
  have normal : (M.transpose * M).mulVec (leastSquares M (M.mulVec x)) =
      M.transpose.mulVec (M.mulVec x) := (exists_normal M _).choose_spec
  have still : leastSquares M (M.mulVec x) - x ∈
      LinearMap.ker (M.transpose * M).mulVecLin := by
    rw [LinearMap.mem_ker, Matrix.mulVecLin_apply, Matrix.mulVec_sub, normal, Matrix.mulVec_mulVec,
      sub_self]
  rw [Matrix.ker_mulVecLin_transpose_mul_self, LinearMap.mem_ker, Matrix.mulVecLin_apply,
    Matrix.mulVec_sub, sub_eq_zero] at still
  exact still

end LeastSquares

def lineSolver : Solver ℚ := fun _ b j =>
  (List.ofFn b).getD 0 0 + ((j : ℚ) - 1) * ((List.ofFn b).getD 1 0 - (List.ofFn b).getD 0 0)

def linePoints : List (Vec3 ℚ) := [⟨0, 0, 1⟩, ⟨1, 2, 1⟩, ⟨2, 4, 1⟩, ⟨3, 6, 1⟩]

def lineDerivatives : List (Vec3 ℚ) := [⟨2, 4, 0⟩, ⟨2, 4, 0⟩, 0, 0]

theorem lineSolver_exact : SolvedExactly lineSolver (1 / 2) linePoints lineDerivatives := by
  intro axis
  funext i
  revert axis i
  decide +kernel

theorem fitting_interpolates_line : ∃ ctp b d dd,
    parameterizeToBspline lineSolver (1 / 2) linePoints lineDerivatives [] = some ctp ∧
      Derivatives (1 / 2) ctp b d dd ∧
        Interpolates (1 / 2) linePoints lineDerivatives b d dd :=
  (fitting_interpolates (show (0 : ℚ) < 1 / 2 by norm_num)).2.2 lineSolver linePoints
    lineDerivatives
    [] (by decide) (by decide) lineSolver_exact

end RobocupDrone.Planner.UniformBspline
