import RobocupDrone.Planner.GlobalTraj
import RobocupDrone.Planner.MinSnapOptimal
import RobocupDrone.Planner.MinSnapWayPoints
import RobocupDrone.Planner.ShrinkingSteps

/-! The initial path along a polynomial: its points are close together, and the steps stop shrinking
unless the evaluation makes a step of its own. -/

namespace RobocupDrone.Planner.ReboundReplan

open Geometry
open UniformBspline (Solver leastSquares)

section Runs

variable {solve : Solver ℝ} {inverse : PolynomialTraj.Inverse ℝ} {pp : PlanParameters ℝ}
  {request : Request ℝ} {flagRandomPolyTraj : Bool} {draws : Draws ℝ} {f : ℝ → Vec3 ℝ}
  {glTraj : PolynomialTraj ℝ}

/-- All evaluations before the time have a value, and the positions are those of `f`. -/
def Evaluates (glTraj : PolynomialTraj ℝ) (f : ℝ → Vec3 ℝ) (time : ℝ) : Prop :=
  ∀ s < time, glTraj.evaluate s = some (f s) ∧ (∃ vel, glTraj.evaluateVel s = some vel) ∧
    ∃ acc, glTraj.evaluateAcc s = some acc

theorem polynomialTime_pos (moving : 0 < pp.maxVel) (turning : 0 < pp.maxAcc)
    (apart : 0 < (request.startPt - request.localTargetPt).lengthBy Real.sqrt) :
    0 < polynomialTime Real.sqrt pp request := by
  simp only [polynomialTime]
  split_ifs with near
  · exact Real.sqrt_pos.mpr (div_pos apart turning)
  · have ramp : 0 < 2 * pp.maxVel / pp.maxAcc := by positivity
    have cruise := div_nonneg (sub_nonneg.mpr (not_lt.mp near)) moving.le
    linarith

theorem initFromPolynomial_stepped (moving : 0 < pp.maxVel) (spread : 0 < pp.ctrlPtDist)
    (made : initialPolynomial Real.sqrt solve pp request inverse flagRandomPolyTraj draws =
      some glTraj)
    (evaluates : Evaluates glTraj f (polynomialTime Real.sqrt pp request)) {fuel : ℕ}
    {init : InitialPath ℝ}
    (returned : initFromPolynomial Real.sqrt solve pp request inverse flagRandomPolyTraj draws
      fuel = .ok init) :
    ∃ last, Stepped Real.sqrt f (pp.ctrlPtDist * (3 / 2)) (polynomialTime Real.sqrt pp request)
      init.ts last init.pointSet ∧ init.ts ≤ initialTs Real.sqrt pp request := by
  have forward : 0 < initialTs Real.sqrt pp request := initialTs_pos spread moving
  rw [initFromPolynomial, made] at returned
  simp only [orStop, bind, Except.bind] at returned
  cases steps : shrinkSteps Real.sqrt glTraj.evaluate (pp.ctrlPtDist * (3 / 2))
      (polynomialTime Real.sqrt pp request) fuel fuel
      (initialTs Real.sqrt pp request * (3 / 2)) with
  | error stop =>
      rw [steps] at returned
      cases returned
  | ok result =>
      obtain ⟨ts, last, points⟩ := result
      obtain ⟨stepped, smaller⟩ := shrinkSteps_returned (fun s before => (evaluates s before).1)
        (mul_pos forward (by norm_num)) steps
      rw [mul_div_cancel_right₀ _ (by norm_num : (3 / 2 : ℝ) ≠ 0)] at smaller
      rw [steps] at returned
      dsimp only at returned
      cases vel : glTraj.evaluateVel 0 with
      | none => simp [vel] at returned
      | some startVel =>
          cases acc : glTraj.evaluateAcc 0 with
          | none => simp [vel, acc] at returned
          | some startAcc =>
              cases final : glTraj.evaluateAcc (last - ts) with
              | none => simp [vel, acc, final] at returned
              | some endAcc =>
                  simp only [vel, acc, final, Except.ok.injEq] at returned
                  rw [← returned]
                  exact ⟨last, stepped, smaller⟩

theorem initFromPolynomial_ok (lasting : 0 < polynomialTime Real.sqrt pp request)
    (moving : 0 < pp.maxVel) (spread : 0 < pp.ctrlPtDist)
    (made : initialPolynomial Real.sqrt solve pp request inverse flagRandomPolyTraj draws =
      some glTraj)
    (evaluates : Evaluates glTraj f (polynomialTime Real.sqrt pp request)) {fuel : ℕ}
    {result : ℝ × ℝ × List (Vec3 ℝ)}
    (ended : shrinkSteps Real.sqrt glTraj.evaluate (pp.ctrlPtDist * (3 / 2))
      (polynomialTime Real.sqrt pp request) fuel fuel (initialTs Real.sqrt pp request * (3 / 2)) =
        .ok result) :
    ∃ init, initFromPolynomial Real.sqrt solve pp request inverse flagRandomPolyTraj draws fuel =
      .ok init := by
  obtain ⟨ts, last, points⟩ := result
  have start : 0 < initialTs Real.sqrt pp request * (3 / 2) :=
    mul_pos (initialTs_pos spread moving) (by norm_num)
  obtain ⟨stepped, -⟩ := shrinkSteps_returned (fun s before => (evaluates s before).1) start ended
  obtain ⟨-, ⟨startVel, vel⟩, startAcc, acc⟩ := evaluates 0 lasting
  obtain ⟨-, -, endAcc, final⟩ := evaluates (last - ts) stepped.last_before
  refine ⟨⟨ts, points, [startVel, request.localTargetVel, startAcc, endAcc], false⟩, ?_⟩
  rw [initFromPolynomial, made]
  simp only [orStop, bind, Except.bind, ended, vel, acc, final]

theorem initFromPolynomial_ends (moving : 0 < pp.maxVel) (spread : 0 < pp.ctrlPtDist)
    (lasting : 0 < polynomialTime Real.sqrt pp request)
    (made : initialPolynomial Real.sqrt solve pp request inverse flagRandomPolyTraj draws =
      some glTraj)
    (evaluates : Evaluates glTraj f (polynomialTime Real.sqrt pp request))
    (steady : Steady Real.sqrt f (pp.ctrlPtDist * (3 / 2)) (polynomialTime Real.sqrt pp request)) :
    ∃ bound, ∀ fuel ≥ bound, ∃ init,
      initFromPolynomial Real.sqrt solve pp request inverse flagRandomPolyTraj draws fuel =
        .ok init := by
  have forward : 0 < initialTs Real.sqrt pp request := initialTs_pos spread moving
  have reach : 0 < pp.ctrlPtDist * (3 / 2) := mul_pos spread (by norm_num)
  have start : 0 < initialTs Real.sqrt pp request * (3 / 2) := mul_pos forward (by norm_num)
  obtain ⟨h, positive, near⟩ := steady
  have small : 0 < min h (polynomialTime Real.sqrt pp request / 7) :=
    lt_min positive (by positivity)
  obtain ⟨r, shrunk⟩ := pow_unbounded_of_one_lt
    (initialTs Real.sqrt pp request * (3 / 2) / (3 / 2) /
      min h (polynomialTime Real.sqrt pp request / 7)) (show (1 : ℝ) < 3 / 2 by norm_num)
  obtain ⟨bound, ends⟩ := shrinkSteps_ends Vec3.isSqrt_sqrt
    (fun s before => (evaluates s before).1) lasting reach near start
    ((div_lt_iff₀ small).mp shrunk)
  refine ⟨bound, fun fuel large => ?_⟩
  obtain ⟨result, ended⟩ := ends fuel large fuel large
  exact initFromPolynomial_ok lasting moving spread made evaluates ended

theorem initFromPolynomial_stops (moving : 0 < pp.maxVel) (spread : 0 < pp.ctrlPtDist)
    (lasting : 0 < polynomialTime Real.sqrt pp request)
    (made : initialPolynomial Real.sqrt solve pp request inverse flagRandomPolyTraj draws =
      some glTraj)
    (evaluates : Evaluates glTraj f (polynomialTime Real.sqrt pp request)) (fuel : ℕ) :
    (∃ init, initFromPolynomial Real.sqrt solve pp request inverse flagRandomPolyTraj draws fuel =
        .ok init) ∨
      initFromPolynomial Real.sqrt solve pp request inverse flagRandomPolyTraj draws fuel =
        .error .outOfFuel := by
  rcases shrinkSteps_stops Real.sqrt (pp.ctrlPtDist * (3 / 2))
    (fun s before => (evaluates s before).1) lasting fuel fuel
    (initialTs Real.sqrt pp request * (3 / 2)) with ⟨result, ended⟩ | ended
  · exact .inl (initFromPolynomial_ok lasting moving spread made evaluates ended)
  · right
    rw [initFromPolynomial, made]
    simp only [orStop, bind, Except.bind, ended]

theorem ofSolution_evaluations {n : ℕ} (solution : Axis → Fin n → ℝ) {times : List ℝ} {s r : ℝ}
    {k : ℕ} (found : PolynomialTraj.findSegment times s 0 = some (k, r))
    (segment : k < times.length) :
    (PolynomialTraj.ofSolution solution times).evaluate s =
        some (curve (fun j => PolynomialTraj.piece (solution j) k) r) ∧
      (∃ vel, (PolynomialTraj.ofSolution solution times).evaluateVel s = some vel) ∧
      ∃ acc, (PolynomialTraj.ofSolution solution times).evaluateAcc s = some acc := by
  have here : PolynomialTraj.findSegment (PolynomialTraj.ofSolution solution times).times s 0 =
      some (k, r) := found
  simp only [PolynomialTraj.evaluate, PolynomialTraj.evaluateVel, PolynomialTraj.evaluateAcc, here,
    Option.bind_eq_bind, Option.bind_some]
  exact ⟨PolynomialTraj.evaluateSegment_ofSolution PolynomialTraj.axisPosition_reads (by omega)
      solution segment r,
    ⟨_, PolynomialTraj.evaluateSegment_ofSolution PolynomialTraj.axisVelocity_reads (by omega)
      solution segment r⟩,
    ⟨_, PolynomialTraj.evaluateSegment_ofSolution PolynomialTraj.axisAcceleration_reads (by omega)
      solution segment r⟩⟩

theorem single_evaluates {n : ℕ} (solution : Axis → Fin n → ℝ) (time : ℝ) :
    Evaluates (PolynomialTraj.ofSolution solution [time])
      (curve fun j => PolynomialTraj.piece (solution j) 0) time := fun _ before =>
  ofSolution_evaluations solution (PolynomialTraj.findSegment_single (by linarith)) Nat.one_pos

theorem pair_evaluates {n : ℕ} (solution : Axis → Fin n → ℝ) (half : ℝ) :
    Evaluates (PolynomialTraj.ofSolution solution [half, half])
      (switched (fun j => PolynomialTraj.piece (solution j) 0)
        (fun j => PolynomialTraj.piece (solution j) 1) half (1 / 10000)) (half + half) := by
  intro s before
  rw [switched]
  split_ifs with early
  · apply ofSolution_evaluations solution _ Nat.two_pos
    rw [PolynomialTraj.findSegment, if_neg (not_lt.mpr early)]
  · apply ofSolution_evaluations solution _ Nat.one_lt_two
    rw [PolynomialTraj.findSegment, if_pos (not_le.mp early), PolynomialTraj.findSegment,
      if_neg (by linarith)]

/-- The step of the evaluation from the first to the second of two segments is below the limit. -/
def ShortStep (limit half : ℝ) (glTraj : PolynomialTraj ℝ) : Prop :=
  ∀ before after, glTraj.evaluate (half + 1 / 10000) = some before →
    glTraj.evaluateSegment PolynomialTraj.axisPosition 0 1 (1 / 10000) = some after →
      (before - after).lengthBy Real.sqrt < limit

theorem shortStep_iff {n : ℕ} (solution : Axis → Fin n → ℝ) {limit half : ℝ}
    (within : 1 / 10000 < half) :
    ShortStep limit half (PolynomialTraj.ofSolution solution [half, half]) ↔
      (curve (fun j => PolynomialTraj.piece (solution j) 0) (half + 1 / 10000) -
        curve (fun j => PolynomialTraj.piece (solution j) 1) (1 / 10000)).lengthBy Real.sqrt <
          limit := by
  have evaluated := (pair_evaluates solution half (half + 1 / 10000) (by linarith)).1
  rw [switched, if_pos le_rfl] at evaluated
  have continued := PolynomialTraj.evaluateSegment_ofSolution PolynomialTraj.axisPosition_reads
    (Nat.zero_le 6) solution (show 1 < [half, half].length from Nat.one_lt_two) (1 / 10000)
  constructor
  · exact fun short => short _ _ evaluated continued
  · intro short before after first second
    rw [evaluated, Option.some.injEq] at first
    rw [continued, Option.some.injEq] at second
    rwa [← first, ← second]

theorem steady_solution {n : ℕ} (solution : Axis → Fin n → ℝ) {limit half : ℝ} (lasting : 0 < half)
    (reach : 0 < limit) (short : half ≤ 1 / 10000 ∨
      ShortStep limit half (PolynomialTraj.ofSolution solution [half, half])) :
    Steady Real.sqrt (switched (fun j => PolynomialTraj.piece (solution j) 0)
      (fun j => PolynomialTraj.piece (solution j) 1) half (1 / 10000)) limit (half + half) := by
  by_cases brief : half ≤ 1 / 10000
  · -- the second segment is never reached
    have whole : Steady Real.sqrt (curve fun j => PolynomialTraj.piece (solution j) 0) limit
        (half + half) := steady_curve _ reach
    obtain ⟨h, positive, near⟩ := whole
    refine ⟨h, positive, fun s t started order before close => ?_⟩
    rw [switched, switched, if_pos (by linarith), if_pos (by linarith)]
    exact near s t started order before close
  · apply steady_pair _ _ lasting (by norm_num)
    exact (shortStep_iff solution (not_le.mp brief)).mp (short.resolve_left brief)

theorem initialPolynomial_single (solve : Solver ℝ) (inverse : PolynomialTraj.Inverse ℝ)
    (pp : PlanParameters ℝ) (request : Request ℝ) (draws : Draws ℝ) :
    ∃ solution : Axis → Fin 6 → ℝ,
      initialPolynomial Real.sqrt solve pp request inverse false draws =
        some (PolynomialTraj.ofSolution solution [polynomialTime Real.sqrt pp request]) :=
  ⟨_, congrArg some (PolynomialTraj.oneSegmentTrajGen_eq _ _ _ _ _ _ _ _)⟩

theorem initialPolynomial_pair (solve : Solver ℝ) (inverse : PolynomialTraj.Inverse ℝ)
    (pp : PlanParameters ℝ) (request : Request ℝ) (draws : Draws ℝ) :
    ∃ solution : Axis → Fin 12 → ℝ,
      initialPolynomial Real.sqrt solve pp request inverse true draws =
        some (PolynomialTraj.ofSolution solution [polynomialTime Real.sqrt pp request / 2,
          polynomialTime Real.sqrt pp request / 2]) := by
  refine ⟨fun axis => PolynomialTraj.solveAxis inverse
    [polynomialTime Real.sqrt pp request / 2, polynomialTime Real.sqrt pp request / 2] fun i =>
      PolynomialTraj.prescribed
        [request.startPt, randomInsertedPt Real.sqrt request draws, request.localTargetPt]
        request.startVel request.localTargetVel request.startAcc 0 2 axis i, ?_⟩
  simp only [initialPolynomial, if_true]
  apply PolynomialTraj.minSnapTraj_eq
  · exact Nat.le_refl 2
  · exact Nat.le_refl 3

/-- What the initialization returns is close together, and it returns unless the evaluation of two
segments makes a step of the limit or more. -/
theorem polynomial_path (solve : Solver ℝ) (inverse : PolynomialTraj.Inverse ℝ)
    (flagRandomPolyTraj : Bool) (draws : Draws ℝ) (moving : 0 < pp.maxVel)
    (turning : 0 < pp.maxAcc) (spread : 0 < pp.ctrlPtDist)
    (apart : 1 / 5 ≤ (request.startPt - request.localTargetPt).lengthBy Real.sqrt) :
    (∀ fuel init, initFromPolynomial Real.sqrt solve pp request inverse flagRandomPolyTraj draws
        fuel = .ok init → 7 ≤ init.pointSet.length ∧
          init.pointSet.IsChain (Near Real.sqrt (pp.ctrlPtDist * (3 / 2)))) ∧
      ((flagRandomPolyTraj = true → polynomialTime Real.sqrt pp request / 2 ≤ 1 / 10000 ∨
          ∀ glTraj, initialPolynomial Real.sqrt solve pp request inverse true draws = some glTraj →
            ShortStep (pp.ctrlPtDist * (3 / 2)) (polynomialTime Real.sqrt pp request / 2) glTraj) →
        ∃ bound, ∀ fuel ≥ bound, ∃ init,
          initFromPolynomial Real.sqrt solve pp request inverse flagRandomPolyTraj draws fuel =
            .ok init) := by
  have lasting : 0 < polynomialTime Real.sqrt pp request :=
    polynomialTime_pos moving turning (by linarith)
  have reach : 0 < pp.ctrlPtDist * (3 / 2) := mul_pos spread (by norm_num)
  cases flagRandomPolyTraj with
  | false =>
      obtain ⟨solution, made⟩ := initialPolynomial_single solve inverse pp request draws
      have evaluates := single_evaluates solution (polynomialTime Real.sqrt pp request)
      constructor
      · intro fuel init returned
        obtain ⟨last, stepped, -⟩ :=
          initFromPolynomial_stepped moving spread made evaluates returned
        exact ⟨stepped.enough, stepped.near⟩
      · exact fun _ => initFromPolynomial_ends moving spread lasting made evaluates
          (steady_curve _ reach)
  | true =>
      obtain ⟨solution, made⟩ := initialPolynomial_pair solve inverse pp request draws
      have evaluates := pair_evaluates solution (polynomialTime Real.sqrt pp request / 2)
      have half := half_pos lasting
      rw [add_halves] at evaluates
      constructor
      · intro fuel init returned
        obtain ⟨last, stepped, -⟩ :=
          initFromPolynomial_stepped moving spread made evaluates returned
        exact ⟨stepped.enough, stepped.near⟩
      · intro short
        have steady := steady_solution solution half reach
          ((short rfl).imp_right fun every => every _ made)
        rw [add_halves] at steady
        exact initFromPolynomial_ends moving spread lasting made evaluates steady

end Runs

section Detour

open PolynomialTraj Quintic

/-- Two polynomials from rest to rest, a second each, over `w` to `e`. -/
structure RestToRest (c d : ℕ → ℝ) (w e : ℝ) : Prop where
  rest : ∀ i < 3, derivativeAt c i 0 = 0
  middle : derivativeAt c 0 1 = w
  joins : ∀ i < 5, derivativeAt d i 0 = derivativeAt c i 1
  arrives : derivativeAt d 0 1 = e
  stops : ∀ i, i = 1 ∨ i = 2 → derivativeAt d i 1 = 0

namespace RestToRest

variable {c d : ℕ → ℝ} {w e : ℝ}

theorem leaves (polynomials : RestToRest c d w e) : c 0 = 0 ∧ c 1 = 0 ∧ c 2 = 0 ∧
    c 3 = (80 * w - 25 * e) / 12 ∧ c 4 = (155 * e - 400 * w) / 48 ∧
      c 5 = (128 * w - 55 * e) / 48 := by
  obtain ⟨rest, middle, joins, arrives, stops⟩ := polynomials
  have c0 := rest 0 (by omega)
  have c1 := rest 1 (by omega)
  have c2 := rest 2 (by omega)
  have d0 := joins 0 (by omega)
  have d1 := joins 1 (by omega)
  have d2 := joins 2 (by omega)
  have d3 := joins 3 (by omega)
  have d4 := joins 4 (by omega)
  have e1 := stops 1 (.inl rfl)
  have e2 := stops 2 (.inr rfl)
  simp only [position_eq, velocity_eq, acceleration_eq, jerk_eq, snap_eq] at *
  refine ⟨?_, ?_, ?_, ?_, ?_, ?_⟩ <;> linarith

theorem goes_on (polynomials : RestToRest c d w e) : d 0 = w ∧ d 1 = 15 / 16 * e ∧
    d 2 = (5 * e - 10 * w) / 3 ∧ d 3 = -(5 / 8 * e) ∧ d 4 = 5 * w - 5 / 2 * e ∧
      d 5 = (73 * e - 128 * w) / 48 := by
  obtain ⟨c0, c1, c2, c3, c4, c5⟩ := polynomials.leaves
  have d0 := polynomials.joins 0 (by omega)
  have d1 := polynomials.joins 1 (by omega)
  have d2 := polynomials.joins 2 (by omega)
  have d3 := polynomials.joins 3 (by omega)
  have d4 := polynomials.joins 4 (by omega)
  have arrives := polynomials.arrives
  simp only [position_eq, velocity_eq, acceleration_eq, jerk_eq, snap_eq] at *
  refine ⟨?_, ?_, ?_, ?_, ?_, ?_⟩ <;> linarith

/-- Past the join the first polynomial leaves the second with the fifth power of the time. -/
theorem gap (polynomials : RestToRest c d w e) (s : ℝ) :
    derivativeAt c 0 (1 + s) - derivativeAt d 0 s = 8 / 3 * (2 * w - e) * s ^ 5 := by
  obtain ⟨c0, c1, c2, c3, c4, c5⟩ := polynomials.leaves
  obtain ⟨d0, d1, d2, d3, d4, d5⟩ := polynomials.goes_on
  rw [position_eq, position_eq, c0, c1, c2, c3, c4, c5, d0, d1, d2, d3, d4, d5]
  ring

theorem slow (polynomials : RestToRest c d w 0) (sideways : 0 ≤ w) :
    speedBound 2 c ≤ 560 * w ∧ speedBound 2 d ≤ 560 * w := by
  obtain ⟨c0, c1, c2, c3, c4, c5⟩ := polynomials.leaves
  obtain ⟨d0, d1, d2, d3, d4, d5⟩ := polynomials.goes_on
  rw [speedBound_eq, speedBound_eq, c1, c2, c3, c4, c5, d1, d2, d3, d4, d5]
  simp only [mul_zero, sub_zero, zero_sub, abs_neg, abs_zero, abs_div, abs_mul,
    abs_of_nonneg sideways]
  norm_num
  constructor <;> linarith

end RestToRest

noncomputable def unitLimits (ctrlPtDist : ℝ) : PlanParameters ℝ := ⟨1, 1, ctrlPtDist, 6⟩

noncomputable def meterAhead : Request ℝ := ⟨0, 0, 0, ⟨1, 0, 0⟩, 0, 0⟩

noncomputable def largestDraws : Draws ℝ := ⟨1, 1, 1⟩

theorem meterAhead_way :
    meterAhead.startPt - meterAhead.localTargetPt = Vec3.along .x (-1) := by
  apply Vec3.ext_get
  intro axis
  rw [Vec3.get_sub, Vec3.get_along, meterAhead, Vec3.get_zero]
  cases axis <;> simp [Vec3.get]

theorem meterAhead_distance :
    (meterAhead.startPt - meterAhead.localTargetPt).lengthBy Real.sqrt = 1 := by
  rw [meterAhead_way, Vec3.lengthBy_along Vec3.isSqrt_sqrt, abs_neg, abs_one]

theorem meterAhead_time (ctrlPtDist : ℝ) :
    polynomialTime Real.sqrt (unitLimits ctrlPtDist) meterAhead = 2 := by
  rw [polynomialTime, meterAhead_distance, unitLimits]
  norm_num

theorem normalizedBy_along {a : ℝ} (axis : Axis) (unit : a * a = 1) :
    (Vec3.along axis a).normalizedBy Real.sqrt = Vec3.along axis a := by
  rw [Vec3.normalizedBy, Vec3.normSq_along, unit, if_pos one_pos, Real.sqrt_one]
  apply Vec3.ext_get
  intro other
  rw [Vec3.get_div, div_one]

theorem meterAhead_inserted : randomInsertedPt Real.sqrt meterAhead largestDraws =
    ⟨1 / 2, 329707 / 1657500, -(329707 / 3315000)⟩ := by
  have sideways : (Vec3.along .x (-1)).cross ⟨0, 0, 1⟩ = Vec3.along .y (1 : ℝ) := by
    apply Vec3.ext_get
    intro axis
    rw [Vec3.get_along]
    cases axis <;> simp [Vec3.cross, Vec3.along, Vec3.ofAxes, Vec3.get]
  have upwards : (Vec3.along .x (-1)).cross (Vec3.along .y 1) = Vec3.along .z (-1 : ℝ) := by
    apply Vec3.ext_get
    intro axis
    rw [Vec3.get_along]
    cases axis <;> simp [Vec3.cross, Vec3.along, Vec3.ofAxes, Vec3.get]
  have unit : (1 : ℝ) * 1 = 1 := one_mul 1
  have turned : (-1 : ℝ) * (-1) = 1 := by norm_num
  apply Vec3.ext_get
  intro axis
  simp only [randomInsertedPt, meterAhead_way, Vec3.lengthBy_along Vec3.isSqrt_sqrt, sideways,
    normalizedBy_along .y unit, upwards, normalizedBy_along .z turned, Vec3.get_add, Vec3.get_div,
    Vec3.get_smul, Vec3.get_along]
  simp only [meterAhead, Vec3.get_zero, largestDraws]
  cases axis <;> simp only [Vec3.get, reduceCtorEq, if_true, if_false] <;> norm_num

theorem prescribed_rest (pos : List (Vec3 ℝ)) (m : ℕ) (axis : Axis) {i : ℕ} (later : 2 ≤ i % 6) :
    prescribed pos 0 0 0 0 m axis i = 0 := by
  simp only [prescribed, endPointDerivative, Vec3.get_zero, ite_self]
  split <;> first | rfl | omega

theorem meterAhead_solution : ∃ solution : Axis → Fin 12 → ℝ,
    (∀ ctrlPtDist, initialPolynomial Real.sqrt leastSquares (unitLimits ctrlPtDist) meterAhead
        exactInverse true largestDraws = some (ofSolution solution [1, 1])) ∧
      ∀ axis, RestToRest (piece (solution axis) 0) (piece (solution axis) 1)
        ((randomInsertedPt Real.sqrt meterAhead largestDraws).get axis)
        (meterAhead.localTargetPt.get axis) := by
  let pos := [meterAhead.startPt, randomInsertedPt Real.sqrt meterAhead largestDraws,
    meterAhead.localTargetPt]
  refine ⟨fun axis => solveAxis exactInverse [1, 1] fun i => prescribed pos 0 0 0 0 2 axis i,
    fun ctrlPtDist => ?_, fun axis => ?_⟩
  · simp only [initialPolynomial, if_true, meterAhead_time, div_self (two_ne_zero' ℝ)]
    exact minSnapTraj_eq _ _ _ _ _ (Nat.le_refl 2) (Nat.le_refl 3)
  have forward : ∀ t ∈ ([1, 1] : List ℝ), 0 < t := by simp
  have exact := mappingMatrix_mul_exactInverse fun t member => (forward t member).ne'
  have enough : 2 ≤ ([1, 1] : List ℝ).length := Nat.le_refl 2
  have fixed := fun {k s : ℕ} (segment : k < 2) (row : s < 6) (carried : Fixed 2 k s) =>
    solveAxis_fixed exact enough segment row carried fun i => prescribed pos 0 0 0 0 2 axis i
  have start := fun {k : ℕ} (segment : k < 2) =>
    (fixed segment (show 0 < 6 by omega) (.inl rfl)).trans
      (endPointDerivative_start _ _ _ _ _ _ k)
  have finish := fun {k : ℕ} (segment : k < 2) =>
    (fixed segment (show 1 < 6 by omega) (.inr (.inl rfl))).trans
      (endPointDerivative_end _ _ _ _ _ _ k)
  have inserted : pos.getD (0 + 1) 0 = randomInsertedPt Real.sqrt meterAhead largestDraws := rfl
  have target : pos.getD (1 + 1) 0 = meterAhead.localTargetPt := rfl
  have middle := finish Nat.two_pos
  have arrives := finish Nat.one_lt_two
  rw [inserted] at middle
  rw [target] at arrives
  refine ⟨?_, middle, ?_, arrives, ?_⟩
  · intro i order
    obtain rfl | rfl | rfl : i = 0 ∨ i = 1 ∨ i = 2 := by omega
    · exact (start Nat.two_pos).trans (Vec3.get_zero axis)
    · exact (fixed Nat.two_pos (show 2 < 6 by omega) (.inr (.inr (.inl ⟨rfl, .inl rfl⟩)))).trans
        (prescribed_rest pos 2 axis (by simp))
    · exact (fixed Nat.two_pos (show 4 < 6 by omega) (.inr (.inr (.inl ⟨rfl, .inr rfl⟩)))).trans
        (prescribed_rest pos 2 axis (by simp))
  · intro i order
    obtain rfl | free | later : i = 0 ∨ (i = 1 ∨ i = 2) ∨ i = 3 ∨ i = 4 := by omega
    · exact (start Nat.one_lt_two).trans (finish Nat.two_pos).symm
    · exact solveAxis_joins exact enough Nat.one_lt_two free _
    · exact solveAxis_smooth forward enough Nat.one_lt_two later _
  · rintro i (rfl | rfl)
    · exact (fixed Nat.one_lt_two (show 3 < 6 by omega) (.inr (.inr (.inr ⟨rfl, .inl rfl⟩)))).trans
        (prescribed_rest pos 2 axis (by simp))
    · exact (fixed Nat.one_lt_two (show 5 < 6 by omega) (.inr (.inr (.inr ⟨rfl, .inr rfl⟩)))).trans
        (prescribed_rest pos 2 axis (by simp))

/-- The detour of a meter, with points at two fifths of a meter. -/
theorem polynomial_path_meterAhead :
    (∀ fuel init, initFromPolynomial Real.sqrt leastSquares (unitLimits (2 / 5)) meterAhead
        exactInverse true largestDraws fuel = .ok init → 7 ≤ init.pointSet.length ∧
          init.pointSet.IsChain (Near Real.sqrt (2 / 5 * (3 / 2)))) ∧
      ∃ bound, ∀ fuel ≥ bound, ∃ init, initFromPolynomial Real.sqrt leastSquares
        (unitLimits (2 / 5)) meterAhead exactInverse true largestDraws fuel = .ok init := by
  obtain ⟨solution, made, polynomials⟩ := meterAhead_solution
  obtain ⟨close, ends⟩ := polynomial_path leastSquares exactInverse true largestDraws one_pos
    one_pos
    (show 0 < (unitLimits (2 / 5)).ctrlPtDist by norm_num [unitLimits])
    (show 1 / 5 ≤ (meterAhead.startPt - meterAhead.localTargetPt).lengthBy Real.sqrt by
      rw [meterAhead_distance]
      norm_num)
  refine ⟨close, ends fun _ => .inr fun glTraj same => ?_⟩
  rw [made, Option.some.injEq] at same
  subst same
  rw [meterAhead_time, div_self (two_ne_zero' ℝ)]
  apply (shortStep_iff solution (by norm_num)).mpr
  have sum := Vec3.lengthBy_le_sum Vec3.isSqrt_sqrt
    (curve (fun j => piece (solution j) 0) (1 + 1 / 10000) -
      curve (fun j => piece (solution j) 1) (1 / 10000))
  simp only [Vec3.get_sub, curve, Vec3.get_ofAxes, (polynomials _).gap, meterAhead_inserted] at sum
  apply sum.trans_lt
  norm_num [Vec3.get, meterAhead, unitLimits]

/-- With points at a distance below the step, the loop never ends. -/
theorem detour_endless :
    0 < (unitLimits (1 / 10 ^ 23)).ctrlPtDist ∧ 0 < (unitLimits (1 / 10 ^ 23)).maxVel ∧
      0 < (unitLimits (1 / 10 ^ 23)).maxAcc ∧
      1 / 5 ≤ (meterAhead.startPt - meterAhead.localTargetPt).lengthBy Real.sqrt ∧
      ∀ fuel, initFromPolynomial Real.sqrt leastSquares (unitLimits (1 / 10 ^ 23)) meterAhead
        exactInverse true largestDraws fuel = .error .outOfFuel := by
  obtain ⟨solution, made, polynomials⟩ := meterAhead_solution
  have evaluates := pair_evaluates solution 1
  have spread : 0 < (unitLimits (1 / 10 ^ 23)).ctrlPtDist := by norm_num [unitLimits]
  have time : polynomialTime Real.sqrt (unitLimits (1 / 10 ^ 23)) meterAhead = 2 :=
    meterAhead_time _
  have start : initialTs Real.sqrt (unitLimits (1 / 10 ^ 23)) meterAhead =
      1 / 10 ^ 23 * (3 / 2) := by
    rw [initialTs, meterAhead_distance, if_pos (by norm_num), unitLimits, div_one]
  have sideways := polynomials .y
  rw [meterAhead_inserted] at sideways
  obtain ⟨first, second⟩ := sideways.slow (by norm_num [Vec3.get])
  have gap := sideways.gap (1 / 10000)
  rw [one_add_one_eq_two, ← time] at evaluates
  refine ⟨spread, one_pos, one_pos, by rw [meterAhead_distance]; norm_num, fun fuel => ?_⟩
  rcases initFromPolynomial_stops one_pos spread (by rw [time]; norm_num) (made _) evaluates fuel
    with ⟨init, returned⟩ | stops
  · obtain ⟨last, stepped, before⟩ :=
      initFromPolynomial_stepped one_pos spread (made _) evaluates returned
    rw [start] at before
    rw [time] at stepped
    refine absurd stepped (not_stepped_pair .y one_pos (by norm_num) ?_ first second ?_)
    · linarith
    · rw [gap]
      norm_num [Vec3.get, unitLimits, meterAhead] at before ⊢
      linarith
  · exact stops

end Detour

end RobocupDrone.Planner.ReboundReplan
