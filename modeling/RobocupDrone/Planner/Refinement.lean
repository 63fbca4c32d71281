import RobocupDrone.Library.Ticks
import RobocupDrone.Optimizer.CombinedCost
import RobocupDrone.Planner.Retiming
import RobocupDrone.Planner.SplineFit

/-! `refineTrajAlgo`: a spline that is too fast gets a new interval and as many control points
again, and the optimizer the points to keep to. -/

namespace RobocupDrone.Planner.Refinement

open Geometry Loop Optimizer UniformBspline

variable {K : Type} [Field K]

section

variable [LinearOrder K]

/-- What `reparamBspline` leaves in its reference arguments. -/
structure Reparam (K : Type) where
  bspline : UniformBspline K
  ctrlPts : List (Vec3 K)
  dt : K
  timeInc : K

def reparamBspline (solve : Solver K) (fuel : ℕ) (bspline : UniformBspline K)
    (startEndDerivative : List (Vec3 K)) (ratio : K) (ctrlPts : List (Vec3 K)) :
    Option (Reparam K) := do
  let timeOrigin ← bspline.getTimeSum
  let segNum : ℤ := bspline.controlPoints.length - 3
  let bspline ← lengthenTime ratio bspline
  let duration ← bspline.getTimeSum
  let dt := duration / (segNum : K)
  let timeInc := duration - timeOrigin
  let (times, _) ← ticks (fun time => time ≤ duration + 1 / 10000) dt fuel 0
  let pointSet ← times.mapM bspline.evaluateDeBoorT
  let fitted ← parameterizeToBspline solve dt pointSet startEndDerivative ctrlPts
  some ⟨bspline, fitted, dt, timeInc⟩

/-- What `BsplineOptimizeTrajRefine` works on, with `ref_pts_`. -/
structure RefineInput (K : Type) where
  traj : UniformBspline K
  ctrlPts : List (Vec3 K)
  ts : K
  refPts : List (Vec3 K)

/-- `refineTrajAlgo`, up to the call of `BsplineOptimizeTrajRefine`. -/
def refineTrajAlgo (solve : Solver K) (fuel : ℕ) (traj : UniformBspline K)
    (startEndDerivative : List (Vec3 K)) (ratio : K) : Option (RefineInput K) := do
  let reparam ← reparamBspline solve fuel traj startEndDerivative ratio []
  let traj ← setUniformBspline reparam.ctrlPts 3 reparam.dt
  let timeSum ← traj.getTimeSum
  let tStep := timeSum / (((reparam.ctrlPts.length : ℤ) - 3 : ℤ) : K)
  let (times, _) ← ticks (fun t => t < timeSum + 1 / 10000) tStep fuel 0
  let refPts ← times.mapM traj.evaluateDeBoorT
  some ⟨traj, reparam.ctrlPts, reparam.dt, refPts⟩

/-- The calls of `costFunctionRefine` with the variables `calls`, each on what the last one left in
`cps_`. -/
def costFunctionRefine {n : ℕ} (sqrt : K → K) (inp : OptimizerInput K) (cps : ControlPoints K)
    (calls : List (Fin n → K)) : Option (ControlPoints K) :=
  calls.foldlM (fun cps x => (combineCostRefine sqrt inp cps x).map Combined.cps) cps

structure Cubic (b : UniformBspline K) : Prop where
  p : b.p = 3
  m : b.m = b.controlPoints.length + 3
  knots : b.controlPoints.length + 3 < b.u.length

end

section Evaluations

variable {b : UniformBspline K}

theorem Cubic.getTimeSum_eq (cubic : Cubic b) :
    b.getTimeSum = some (b.u.getD b.controlPoints.length 0 - b.u.getD 3 0) := by
  have degree : b.p = ((3 : ℕ) : ℤ) := cubic.p
  exact getTimeSum_of_knots degree cubic.m cubic.knots

theorem uniform_cubic (ctp : List (Vec3 K)) (ts : K) : Cubic (uniform ctp 3 ts) := by
  refine ⟨rfl, ?_, ?_⟩
  · simp only [uniform]
    omega
  · rw [uniform_length]
    exact Nat.lt_succ_self _

variable [LinearOrder K]

theorem Cubic.evaluates (cubic : Cubic b) (enough : 3 < b.controlPoints.length) (t : K) :
    ∃ point, b.evaluateDeBoorT t = some point := by
  have degree : b.p = ((3 : ℕ) : ℤ) := cubic.p
  exact Option.isSome_iff_exists.mp
    (evaluateDeBoorT_of_knots degree cubic.m cubic.knots enough t)

theorem Cubic.mapM_evaluates (cubic : Cubic b) (enough : 3 < b.controlPoints.length)
    (times : List K) :
    ∃ points, times.mapM b.evaluateDeBoorT = some points ∧ points.length = times.length := by
  choose point evaluated using cubic.evaluates enough
  refine ⟨times.map point, mapM_eq_map fun t _ => evaluated t, List.length_map _⟩

end Evaluations

section Sizes

variable {b : UniformBspline K} {ratio ts : K} {n : ℕ}
variable {longer : UniformBspline K} {duration : K} {startEndDerivative : List (Vec3 K)}

theorem segments_eq (enough : 9 ≤ b.controlPoints.length) :
    (((b.controlPoints.length : ℤ) - 3 : ℤ) : K) = ((b.controlPoints.length - 3 : ℕ) : K) := by
  rw [show (b.controlPoints.length : ℤ) - 3 = ((b.controlPoints.length - 3 : ℕ) : ℤ) by omega,
    Int.cast_natCast]

section

variable [LinearOrder K] [IsStrictOrderedRing K]

theorem lasts_through {going : K → Prop} (slow : 1 / 10000 < ts)
    (within : ∀ t, t ≤ n * ts → going t) (after : ∀ t, n * ts + 1 / 10000 < t → ¬going t) :
    Lasts going ts 0 (n + 1) where
  during k before := by
    have steps : (k : K) ≤ n := Nat.cast_le.mpr (by omega)
    have earlier := mul_le_mul_of_nonneg_right steps (show 0 ≤ ts by linarith)
    apply within
    rwa [zero_add]
  ended := by
    apply after
    rw [Nat.cast_succ]
    linarith

/-- The hypotheses on the spline and its interval after `lengthenTime`. -/
structure Retimed (ratio : K) (b longer : UniformBspline K) (duration : K) : Prop where
  cubic : Cubic b
  enough : 9 ≤ b.controlPoints.length
  lengthened : lengthenTime ratio b = some longer
  lasting : longer.getTimeSum = some duration
  slow : 1 / 10000 < duration / (((b.controlPoints.length : ℤ) - 3 : ℤ) : K)

theorem Retimed.longer_cubic (retimed : Retimed ratio b longer duration) :
    Cubic longer ∧ longer.controlPoints = b.controlPoints := by
  have enough := retimed.enough
  have knots := retimed.cubic.knots
  have lengthened := retimed.lengthened
  rw [lengthenTime_eq (by omega), Option.some.injEq] at lengthened
  rw [← lengthened]
  refine ⟨⟨retimed.cubic.p, retimed.cubic.m, ?_⟩, rfl⟩
  simpa only [setKnot, List.length_mapIdx] using knots

end

variable [LinearOrder K]

theorem parameterizeToBspline_length (solve : Solver K) {dt : K} (positive : 0 < dt)
    {pointSet : List (Vec3 K)} (enough : 3 < pointSet.length) (four : startEndDerivative.length = 4)
    (ctrlPts : List (Vec3 K)) :
    ∃ fitted, parameterizeToBspline solve dt pointSet startEndDerivative ctrlPts = some fitted ∧
      fitted.length = pointSet.length + 2 := by
  rw [parameterizeToBspline, if_neg (not_le.mpr positive), if_neg (by omega), if_neg (by omega)]
  exact ⟨_, rfl, List.length_ofFn⟩

theorem fitnessStep_isSome (sqrt : K → K) {refPts q : List (Vec3 K)} (s : Accumulator K) {i : ℕ}
    (low : 2 ≤ i) (column : i + 1 < q.length) (point : i < refPts.length) :
    ∃ next, fitnessStep sqrt refPts q s i = some next := by
  have reads : ∀ j < refPts.length, entry refPts (j : ℤ) = some (refPts.getD j 0) := by
    intro j inside
    rw [entry_natCast]
    exact getElem?_getD inside 0
  have reference : (i : ℤ) - 1 = ((i - 1 : ℕ) : ℤ) := by omega
  have previous : (i : ℤ) - 2 = ((i - 2 : ℕ) : ℤ) := by omega
  rw [fitnessStep, if_neg (by omega), reference, previous, reads _ (by omega), reads _ (by omega),
    reads _ (by omega)]
  exact ⟨_, rfl⟩

theorem calcFitnessCost_isSome {refPts q : List (Vec3 K)} (points : q.length = refPts.length + 2)
    (sqrt : K → K) (gradient : ℕ → Vec3 K) :
    ∃ result, calcFitnessCost sqrt 3 refPts q gradient = some result := by
  have round : ∀ s, ∀ i ∈ List.range' (3 - 1) (q.length + 2 - 2 * 3), True →
      ∃ next, fitnessStep sqrt refPts q s i = some next ∧ True := by
    intro s i member _
    rw [List.mem_range'_1] at member
    obtain ⟨next, stepped⟩ := fitnessStep_isSome sqrt s (show 2 ≤ i by omega)
      (show i + 1 < q.length by omega) (show i < refPts.length by omega)
    exact ⟨next, stepped, trivial⟩
  obtain ⟨result, ended, -⟩ := foldlM_total round (s := ⟨0, gradient⟩) trivial
  exact ⟨result, ended⟩

theorem costFunctionRefine_total {n : ℕ} {inp : OptimizerInput K} {cps : ControlPoints K}
    (order : inp.order = 3) (points : cps.points.length = inp.refPts.length + 2)
    (movable : 3 * 3 + n ≤ 3 * cps.points.length) (sqrt : K → K) (calls : List (Fin n → K)) :
    ∃ after, costFunctionRefine sqrt inp cps calls = some after ∧
      after.points.length = cps.points.length := by
  refine foldlM_total
    (I := fun after : ControlPoints K => after.points.length = cps.points.length) ?_ rfl
  intro current x _ kept
  have columns : (writeData current.points (3 * 3) x).length = cps.points.length := by
    rw [writeData, List.length_map, List.length_range, kept]
  obtain ⟨fitness, evaluated⟩ := calcFitnessCost_isSome (columns.trans points) sqrt 0
  rw [combineCostRefine, order, if_neg (by omega)]
  simp only [evaluated, Option.bind_eq_bind, Option.bind_some, Option.map_some, Option.some.injEq,
    exists_eq_left', columns]

variable [IsStrictOrderedRing K]

theorem reparamBspline_length (solve : Solver K) (retimed : Retimed ratio b longer duration)
    (four : startEndDerivative.length = 4) {fuel : ℕ} (long : b.controlPoints.length ≤ fuel) :
    ∃ reparam, reparamBspline solve fuel b startEndDerivative ratio [] = some reparam ∧
      reparam.ctrlPts.length = b.controlPoints.length ∧
      reparam.dt = duration / (((b.controlPoints.length : ℤ) - 3 : ℤ) : K) := by
  have enough := retimed.enough
  have slow := retimed.slow
  rw [segments_eq enough] at slow
  have segments : ((b.controlPoints.length - 3 : ℕ) : K) ≠ 0 := Nat.cast_ne_zero.mpr (by omega)
  have whole : duration = (b.controlPoints.length - 3 : ℕ) *
      (duration / ((b.controlPoints.length - 3 : ℕ) : K)) := (mul_div_cancel₀ _ segments).symm
  have lasts : Lasts (fun time => time ≤ duration + 1 / 10000)
      (duration / ((b.controlPoints.length - 3 : ℕ) : K)) 0 (b.controlPoints.length - 3 + 1) := by
    apply lasts_through slow
    · intro t before
      rw [← whole] at before
      linarith
    · intro t late
      rw [← whole] at late
      exact not_le.mpr late
  obtain ⟨cubic, points⟩ := retimed.longer_cubic
  obtain ⟨pointSet, sampled, count⟩ := cubic.mapM_evaluates (by rw [points]; omega)
    (instants 0 (duration / ((b.controlPoints.length - 3 : ℕ) : K))
      (b.controlPoints.length - 3 + 1))
  rw [length_instants] at count
  obtain ⟨ctrlPts, fitted, columns⟩ := parameterizeToBspline_length solve
    (show 0 < duration / ((b.controlPoints.length - 3 : ℕ) : K) by linarith)
    (show 3 < pointSet.length by omega) four []
  have made : reparamBspline solve fuel b startEndDerivative ratio [] =
      some ⟨longer, ctrlPts, duration / (((b.controlPoints.length : ℤ) - 3 : ℤ) : K),
        duration - (b.u.getD b.controlPoints.length 0 - b.u.getD 3 0)⟩ := by
    simp only [reparamBspline, retimed.cubic.getTimeSum_eq, retimed.lengthened, retimed.lasting,
      segments_eq enough, ticks_eq lasts (show _ < fuel by omega), sampled, fitted,
      Option.bind_eq_bind, Option.bind_some]
  exact ⟨_, made, columns.trans (by omega), rfl⟩

theorem refineTrajAlgo_lengths (solve : Solver K) (retimed : Retimed ratio b longer duration)
    (four : startEndDerivative.length = 4) {fuel : ℕ} (long : b.controlPoints.length ≤ fuel) :
    ∃ input, refineTrajAlgo solve fuel b startEndDerivative ratio = some input ∧
      input.ctrlPts.length = b.controlPoints.length ∧
      input.refPts.length = b.controlPoints.length - 2 := by
  have enough := retimed.enough
  have slow := retimed.slow
  obtain ⟨reparam, made, columns, dt⟩ := reparamBspline_length solve retimed four long
  rw [← dt] at slow
  have segments : ((b.controlPoints.length - 3 : ℕ) : K) ≠ 0 := Nat.cast_ne_zero.mpr (by omega)
  have regular := uniform_regular (show 0 < reparam.dt by linarith) reparam.ctrlPts 3
  have timeSum : (uniform reparam.ctrlPts 3 reparam.dt).getTimeSum =
      some ((b.controlPoints.length - 3 : ℕ) * reparam.dt) := by
    have points : (uniform reparam.ctrlPts 3 reparam.dt).controlPoints = reparam.ctrlPts := rfl
    rw [regular.getTimeSum_eq, points, uniform_knot _ _ _ (by omega), uniform_knot _ _ _ (by omega),
      columns, Nat.cast_sub (by omega)]
    congr 1
    ring
  have tStep : ((b.controlPoints.length - 3 : ℕ) : K) * reparam.dt /
      (((reparam.ctrlPts.length : ℤ) - 3 : ℤ) : K) = reparam.dt := by
    rw [columns, segments_eq enough, mul_div_cancel_left₀ _ segments]
  have lasts : Lasts (fun t => t < (b.controlPoints.length - 3 : ℕ) * reparam.dt + 1 / 10000)
      reparam.dt 0 (b.controlPoints.length - 3 + 1) :=
    lasts_through slow (fun t before => by linarith) fun t late => not_lt.mpr late.le
  obtain ⟨refPts, sampled, count⟩ := (uniform_cubic reparam.ctrlPts reparam.dt).mapM_evaluates
    (show 3 < reparam.ctrlPts.length by omega)
    (instants 0 reparam.dt (b.controlPoints.length - 3 + 1))
  rw [length_instants] at count
  have spline : setUniformBspline reparam.ctrlPts 3 reparam.dt =
      some (uniform reparam.ctrlPts 3 reparam.dt) :=
    setUniformBspline_eq reparam.ctrlPts 3 reparam.dt
  have filled : refineTrajAlgo solve fuel b startEndDerivative ratio =
      some ⟨uniform reparam.ctrlPts 3 reparam.dt, reparam.ctrlPts, reparam.dt, refPts⟩ := by
    simp only [refineTrajAlgo, made, spline, timeSum, tStep,
      ticks_eq lasts (show _ < fuel by omega), sampled, Option.bind_eq_bind, Option.bind_some]
  exact ⟨_, filled, columns, count.trans (by omega)⟩

end Sizes

variable [LinearOrder K]

/-- What `reparamBspline` and `refineTrajAlgo` hand on, and what the optimizer reads of it. -/
structure Sized (solve : Solver K) (fuel : ℕ) (b : UniformBspline K)
    (startEndDerivative : List (Vec3 K)) (ratio : K) (reparam : Reparam K) (input : RefineInput K) :
    Prop where
  reparamed : reparamBspline solve fuel b startEndDerivative ratio [] = some reparam
  columns : reparam.ctrlPts.length = b.controlPoints.length
  refined : refineTrajAlgo solve fuel b startEndDerivative ratio = some input
  points : input.refPts.length = b.controlPoints.length - 2
  fitness : ∀ (sqrt : K → K) (q : List (Vec3 K)) (gradient : ℕ → Vec3 K),
    q.length = b.controlPoints.length →
      (calcFitnessCost sqrt 3 input.refPts q gradient).isSome
  calls : ∀ (sqrt : K → K) (inp : OptimizerInput K) (cps : ControlPoints K), inp.order = 3 →
    inp.refPts = input.refPts → cps.points = input.ctrlPts →
      ∀ calls : List (Fin (3 * (b.controlPoints.length - 3 - 3)) → K),
        (costFunctionRefine sqrt inp cps calls).isSome

/-- A spline that is slow enough after its knots are stretched keeps its number of control points,
and the optimizer reads nothing out of range. -/
theorem refineTrajAlgo_sized [IsStrictOrderedRing K] {b longer : UniformBspline K}
    {ratio duration : K} {startEndDerivative : List (Vec3 K)}
    (retimed : Retimed ratio b longer duration) (four : startEndDerivative.length = 4)
    (solve : Solver K) {fuel : ℕ} (long : b.controlPoints.length ≤ fuel) :
    ∃ reparam input, Sized solve fuel b startEndDerivative ratio reparam input := by
  have enough := retimed.enough
  obtain ⟨reparam, made, columns, -⟩ := reparamBspline_length solve retimed four long
  obtain ⟨input, refined, columns', points⟩ :=
    refineTrajAlgo_lengths solve retimed four long
  refine ⟨reparam, input, made, columns, refined, points, ?_, ?_⟩
  · intro sqrt q gradient width
    exact Option.isSome_iff_exists.mpr (calcFitnessCost_isSome (by omega) sqrt gradient)
  · intro sqrt inp cps order same current calls
    rw [← current] at columns'
    rw [← same] at points
    obtain ⟨after, ended, -⟩ := costFunctionRefine_total (n := 3 * (b.controlPoints.length - 3 - 3))
      order (show cps.points.length = inp.refPts.length + 2 by omega) (by omega) sqrt calls
    exact Option.isSome_iff_exists.mpr ⟨after, ended⟩

def nineOnLine : UniformBspline ℚ :=
  ⟨(List.range 9).map fun i : ℕ => ⟨i, 0, 1⟩, 3, 8, 12, (List.range 13).map fun i : ℕ => i - 3, 1⟩

theorem nineOnLine_retimed : Retimed (3 / 2) nineOnLine
    (nineOnLine.setKnot (nineOnLine.u.mapIdx fun i knot => knot + knotShift (3 / 2) nineOnLine i))
    7 where
  cubic := ⟨rfl, rfl, by decide⟩
  enough := by decide
  lengthened := lengthenTime_eq (by decide)
  lasting := by decide +kernel
  slow := by
    have segments : (((nineOnLine.controlPoints.length : ℤ) - 3 : ℤ) : ℚ) = 6 := by decide +kernel
    rw [segments]
    norm_num

theorem nineOnLine_sized : ∃ reparam input,
    Sized leastSquares 9 nineOnLine [⟨2 / 3, 0, 0⟩, ⟨2 / 3, 0, 0⟩, 0, 0] (3 / 2) reparam input :=
  refineTrajAlgo_sized nineOnLine_retimed rfl leastSquares le_rfl

end RobocupDrone.Planner.Refinement
