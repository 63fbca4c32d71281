import RobocupDrone.Optimizer.CombinedCost
import RobocupDrone.Planner.SplineFit

/-! Every cost term adds its partial derivatives to the gradient, and the solver is given the
gradient of the combined cost. -/

namespace RobocupDrone.Optimizer

open Geometry Planner Gradient Topology

structure LaunchLimits (inp : OptimizerInput ℝ) (cps : ControlPoints ℝ) : Prop where
  maxVel : 0 ≤ inp.maxVel
  maxAcc : 0 ≤ inp.maxAcc
  clearance : 0 ≤ cps.clearance

def Quiet (check : ControlPoints ℝ → ControlPoints ℝ) (order iterNum : ℕ) (smoothnessCost : ℝ)
    (cps : ControlPoints ℝ) : Prop :=
  reboundStep check order iterNum smoothnessCost cps = cps

section Weighted

variable {E : Type*} [NormedAddCommGroup E] [NormedSpace ℝ E] {m : ℕ}
  {D : ℕ → Axis → E →L[ℝ] ℝ} {x : E}

/-- The columns of `g` are the gradient of `F` in the control points. -/
def ColumnGradient (m : ℕ) (D : ℕ → Axis → E →L[ℝ] ℝ) (x : E) (F : E → ℝ) (g : ℕ → Vec3 ℝ) :
    Prop :=
  HasFDerivAt F (pairedColumns m g D) x

theorem Tracks.columnGradient {S : E → Accumulator ℝ} (tracks : Tracks m D x 0 S) :
    ColumnGradient m D x (fun y => (S y).cost) (S x).gradient := by
  rwa [Tracks, sub_zero] at tracks

theorem ColumnGradient.mul {F : E → ℝ} {g : ℕ → Vec3 ℝ} (gradient : ColumnGradient m D x F g)
    (c : ℝ) : ColumnGradient m D x (fun y => c * F y) (c • g) := by
  rw [ColumnGradient, pairedColumns_smul]
  exact HasFDerivAt.const_mul gradient c

theorem ColumnGradient.add {F G : E → ℝ} {g h : ℕ → Vec3 ℝ}
    (first : ColumnGradient m D x F g) (second : ColumnGradient m D x G h) :
    ColumnGradient m D x (fun y => F y + G y) (g + h) := by
  rw [ColumnGradient, pairedColumns_add]
  exact HasFDerivAt.add first second

end Weighted

section Combined

variable {n : ℕ} {inp : OptimizerInput ℝ} {cps : ControlPoints ℝ} {x : Fin n → ℝ}

/-- `f_combine`, where the callback returns. -/
def returnedSum (result : Option (Combined ℝ n)) : ℝ := (result.map Combined.fCombine).getD 0

/-- The numbers of `grad` are the gradient of the cost at `x`. -/
def IsGradient (cost : (Fin n → ℝ) → ℝ) (grad : Fin n → ℝ) (x : Fin n → ℝ) : Prop :=
  HasFDerivAt cost (ofEntries grad) x

theorem ColumnGradient.isGradient {start m : ℕ} (fits : start + n ≤ 3 * m)
    {F : (Fin n → ℝ) → ℝ} {g : ℕ → Vec3 ℝ} (gradient : ColumnGradient m (dataMoves start n) x F g) :
    IsGradient F (fun k => dataEntry g (start + k)) x := by
  rw [IsGradient, ← pairedColumns_dataMoves fits]
  exact gradient

theorem combineCostRefine_gradient (limits : LaunchLimits inp cps) {result : Combined ℝ n}
    (evaluated : combineCostRefine Real.sqrt inp cps x = some result) :
    IsGradient (fun y => returnedSum (combineCostRefine Real.sqrt inp cps y)) result.grad x := by
  have moves := writeData_moves cps.points (3 * inp.order) x
  unfold combineCostRefine at evaluated ⊢
  split_ifs at evaluated ⊢ with outside
  simp only [Option.bind_eq_bind, Option.bind_eq_some_iff] at evaluated
  rcases evaluated with ⟨fitted, fits, same⟩
  rcases calcFitnessCost_tracks 0 moves inp.order inp.refPts (by rw [fits]; rfl) with
    ⟨fitness, everywhere, fitnessTracks⟩
  have here := Option.some.inj ((everywhere x).symm.trans fits)
  have smoothnessTracks := calcSmoothnessCost_tracks 0 moves true
  have feasibilityTracks := calcFeasibilityCost_tracks 0 limits.maxVel limits.maxAcc
    inp.bsplineInterval moves
  have sum := ((smoothnessTracks.columnGradient.mul inp.lambda1).add
    (fitnessTracks.columnGradient.mul inp.lambda4)).add
      (feasibilityTracks.columnGradient.mul inp.lambda3)
  rw [here] at sum
  rw [← Option.some.inj same]
  simp only [everywhere, Option.bind_eq_bind, Option.bind_some, returnedSum, Option.map_some,
    Option.getD_some]
  exact sum.isGradient (not_lt.mp outside)

theorem combineCostRebound_gradient (limits : LaunchLimits inp cps)
    {check : ControlPoints ℝ → ControlPoints ℝ} {iterNum : ℕ} {least after : ℝ}
    {result : Combined ℝ n}
    (evaluated : combineCostRebound Real.sqrt check inp iterNum least cps x = some (result, after))
    (quiet : ∀ᶠ y in 𝓝 x, Quiet check inp.order iterNum
      (calcSmoothnessCost (writeData cps.points (3 * inp.order) y) true 0).cost
        { cps with points := writeData cps.points (3 * inp.order) y })
    (apart : ∀ d, CheckedDistance Real.sqrt inp.toSwarmInput
      (writeData cps.points (3 * inp.order) x) d → d ≠ 0) :
    IsGradient
      (fun y => returnedSum
        ((combineCostRebound Real.sqrt check inp iterNum least cps y).map Prod.fst))
      result.grad x := by
  have moves := writeData_moves cps.points (3 * inp.order) x
  unfold combineCostRebound at evaluated ⊢
  split_ifs at evaluated ⊢ with outside
  have still : Quiet _ _ _ _ _ := quiet.self_of_nhds
  rw [Quiet] at still
  simp only [calcDistanceCostRebound, still, Option.bind_eq_bind, Option.bind_eq_some_iff]
    at evaluated
  rcases evaluated with ⟨swarmed, swarms, ended, ends, same⟩
  rcases calcSwarmCost_tracks 0 moves inp.toSwarmInput least apart (by rw [swarms]; rfl) with
    ⟨swarm, everySwarm, swarmTracks⟩
  rcases calcTerminalCost_tracks 0 moves inp.localTargetPt (by rw [ends]; rfl) with
    ⟨terminal, everyEnd, terminalTracks⟩
  have swarmHere := Option.some.inj ((everySwarm x).symm.trans swarms)
  have endHere := Option.some.inj ((everyEnd x).symm.trans ends)
  have smoothnessTracks := calcSmoothnessCost_tracks 0 moves true
  have distanceTracks := distanceCost_tracks 0 limits.clearance inp.order cps.bounds moves
  have feasibilityTracks := calcFeasibilityCost_tracks 0 limits.maxVel limits.maxAcc
    inp.bsplineInterval moves
  have sum := ((((smoothnessTracks.columnGradient.mul inp.lambda1).add
    (distanceTracks.columnGradient.mul inp.newLambda2)).add
      (feasibilityTracks.columnGradient.mul inp.lambda3)).add
        (swarmTracks.columnGradient.mul inp.newLambda2)).add
          (terminalTracks.columnGradient.mul inp.lambda2)
  rw [swarmHere, endHere] at sum
  have gradient := (Prod.mk.inj (Option.some.inj same)).1
  rw [← gradient]
  refine HasFDerivAt.congr_of_eventuallyEq (sum.isGradient (not_lt.mp outside)) ?_
  filter_upwards [quiet] with y unchanged
  rw [Quiet] at unchanged
  simp only [calcDistanceCostRebound, unchanged, everySwarm, everyEnd, Option.bind_eq_bind,
    Option.bind_some, returnedSum, Option.map_some, Option.getD_some]

end Combined

theorem partials_of_tracks {cost : List (Vec3 ℝ) → Option (Accumulator ℝ)} {q : List (Vec3 ℝ)}
    {start : ℕ → Vec3 ℝ} {result : Accumulator ℝ} (evaluated : cost q = some result)
    (tracks : ∀ j < q.length, ∀ axis, ∃ S : ℝ → Accumulator ℝ,
      (∀ c, cost (setEntry q j axis c) = some (S c)) ∧
        Tracks q.length (entryMoves j axis) ((col q j).get axis) start S) :
    Partials (fun q => returnedCost (cost q)) q (result.gradient - start) := by
  intro j inside axis
  rcases tracks j inside axis with ⟨S, everywhere, moving⟩
  have derivative := moving.hasDerivAt_entry inside
  have here := everywhere ((col q j).get axis)
  rw [setEntry_self inside axis, evaluated, Option.some.injEq] at here
  simp only [everywhere, returnedCost, Option.map_some, Option.getD_some]
  rw [← here] at derivative
  exact derivative

section Terms

variable (q : List (Vec3 ℝ)) (g : ℕ → Vec3 ℝ)

theorem calcSmoothnessCost_partials (useJerk : Bool) :
    Partials (fun q => (calcSmoothnessCost q useJerk g).cost) q
      ((calcSmoothnessCost q useJerk g).gradient - g) := by
  intro j inside axis
  have tracks := calcSmoothnessCost_tracks g (setEntry_moves inside axis) useJerk
  have derivative := tracks.hasDerivAt_entry inside
  rwa [setEntry_self inside axis] at derivative

theorem calcFeasibilityCost_partials {maxVel maxAcc : ℝ} (slow : 0 ≤ maxVel)
    (steady : 0 ≤ maxAcc) (ts : ℝ) :
    Partials (fun q => (calcFeasibilityCost maxVel maxAcc ts q g).cost) q
      ((calcFeasibilityCost maxVel maxAcc ts q g).gradient - g) := by
  intro j inside axis
  have tracks := calcFeasibilityCost_tracks g slow steady ts (setEntry_moves inside axis)
  have derivative := tracks.hasDerivAt_entry inside
  rwa [setEntry_self inside axis] at derivative

variable {q g}

theorem calcTerminalCost_partials {localTargetPt : Vec3 ℝ} {result : Accumulator ℝ}
    (evaluated : calcTerminalCost localTargetPt q g = some result) :
    Partials (fun q => returnedCost (calcTerminalCost localTargetPt q g)) q
      (result.gradient - g) := by
  apply partials_of_tracks evaluated
  intro j inside axis
  apply calcTerminalCost_tracks g (setEntry_moves inside axis) localTargetPt
  rw [setEntry_self inside axis, evaluated]
  rfl

theorem calcFitnessCost_partials {order : ℕ} {refPts : List (Vec3 ℝ)} {result : Accumulator ℝ}
    (evaluated : calcFitnessCost Real.sqrt order refPts q g = some result) :
    Partials (fun q => returnedCost (calcFitnessCost Real.sqrt order refPts q g)) q
      (result.gradient - g) := by
  apply partials_of_tracks evaluated
  intro j inside axis
  apply calcFitnessCost_tracks g (setEntry_moves inside axis) order refPts
  rw [setEntry_self inside axis, evaluated]
  rfl

theorem calcDistanceCostRebound_partials {check : ControlPoints ℝ → ControlPoints ℝ}
    {order iterNum : ℕ} {smoothnessCost : ℝ} {cps : ControlPoints ℝ} (clear : 0 ≤ cps.clearance)
    (quiet : ∀ j < q.length, ∀ axis, ∀ᶠ c in 𝓝 ((col q j).get axis),
      Quiet check order iterNum smoothnessCost { cps with points := setEntry q j axis c }) :
    Partials (fun q => (calcDistanceCostRebound check order iterNum smoothnessCost
      { cps with points := q } g).2.cost) q
        ((calcDistanceCostRebound check order iterNum smoothnessCost
          { cps with points := q } g).2.gradient - g) := by
  intro j inside axis
  have tracks := distanceCost_tracks g clear order cps.bounds (setEntry_moves inside axis)
  have derivative := tracks.hasDerivAt_entry inside
  have still := (quiet j inside axis).self_of_nhds
  rw [setEntry_self inside axis, Quiet] at still
  rw [setEntry_self inside axis] at derivative
  simp only [calcDistanceCostRebound, still]
  refine HasDerivAt.congr_of_eventuallyEq derivative ?_
  filter_upwards [quiet j inside axis] with c unchanged
  rw [Quiet] at unchanged
  rw [unchanged]

theorem calcSwarmCost_partials {inp : SwarmInput ℝ} {least : ℝ} {result : SwarmAccumulator ℝ}
    (evaluated : calcSwarmCost Real.sqrt inp q g least = some result)
    (apart : ∀ d, CheckedDistance Real.sqrt inp q d → d ≠ 0) :
    Partials (fun q => returnedCost ((calcSwarmCost Real.sqrt inp q g least).map
      (SwarmAccumulator.toAccumulator ·))) q (result.gradient - g) := by
  have mapped : (calcSwarmCost Real.sqrt inp q g least).map (SwarmAccumulator.toAccumulator ·) =
      some result.toAccumulator := by
    rw [evaluated]
    rfl
  apply partials_of_tracks mapped
  intro j inside axis
  have same := setEntry_self inside axis
  rcases calcSwarmCost_tracks g (setEntry_moves inside axis) inp least (by rwa [same])
    (by rw [same, evaluated]; rfl) with ⟨S, everywhere, tracks⟩
  exact ⟨fun c => (S c).toAccumulator, fun c => by rw [everywhere]; rfl, tracks⟩

end Terms

/-- Every term adds its partial derivatives, and `grad` is the gradient of `f_combine`. -/
theorem cost_gradients_exact {inp : OptimizerInput ℝ} {cps : ControlPoints ℝ}
    (limits : LaunchLimits inp cps) :
    (∀ q useJerk g, Partials (fun q => (calcSmoothnessCost q useJerk g).cost) q
        ((calcSmoothnessCost q useJerk g).gradient - g)) ∧
      (∀ q g, Partials
        (fun q => (calcFeasibilityCost inp.maxVel inp.maxAcc inp.bsplineInterval q g).cost) q
          ((calcFeasibilityCost inp.maxVel inp.maxAcc inp.bsplineInterval q g).gradient - g)) ∧
      (∀ q g result, calcTerminalCost inp.localTargetPt q g = some result →
        Partials (fun q => returnedCost (calcTerminalCost inp.localTargetPt q g)) q
          (result.gradient - g)) ∧
      (∀ q g result, calcFitnessCost Real.sqrt inp.order inp.refPts q g = some result →
        Partials (fun q => returnedCost (calcFitnessCost Real.sqrt inp.order inp.refPts q g)) q
          (result.gradient - g)) ∧
      (∀ check iterNum smoothnessCost q g, (∀ j < q.length, ∀ axis,
          ∀ᶠ c in 𝓝 ((col q j).get axis), Quiet check inp.order iterNum smoothnessCost
            { cps with points := setEntry q j axis c }) →
        Partials (fun q => (calcDistanceCostRebound check inp.order iterNum smoothnessCost
          { cps with points := q } g).2.cost) q
            ((calcDistanceCostRebound check inp.order iterNum smoothnessCost
              { cps with points := q } g).2.gradient - g)) ∧
      (∀ q g least result, calcSwarmCost Real.sqrt inp.toSwarmInput q g least = some result →
        (∀ d, CheckedDistance Real.sqrt inp.toSwarmInput q d → d ≠ 0) →
          Partials (fun q => returnedCost ((calcSwarmCost Real.sqrt inp.toSwarmInput q g least).map
            (SwarmAccumulator.toAccumulator ·))) q (result.gradient - g)) ∧
      (∀ (n : ℕ) check iterNum least (x : Fin n → ℝ) result after,
        combineCostRebound Real.sqrt check inp iterNum least cps x = some (result, after) →
          (∀ᶠ y in 𝓝 x, Quiet check inp.order iterNum
            (calcSmoothnessCost (writeData cps.points (3 * inp.order) y) true 0).cost
              { cps with points := writeData cps.points (3 * inp.order) y }) →
            (∀ d, CheckedDistance Real.sqrt inp.toSwarmInput
              (writeData cps.points (3 * inp.order) x) d → d ≠ 0) →
              IsGradient (fun y => returnedSum ((combineCostRebound Real.sqrt check inp iterNum
                least cps y).map Prod.fst)) result.grad x) ∧
      ∀ (n : ℕ) (x : Fin n → ℝ) result,
        combineCostRefine Real.sqrt inp cps x = some result →
          IsGradient (fun y => returnedSum (combineCostRefine Real.sqrt inp cps y)) result.grad
            x := by
  refine ⟨?_, ?_, ?_, ?_, ?_, ?_, ?_, ?_⟩
  · exact fun q useJerk g => calcSmoothnessCost_partials q g useJerk
  · exact fun q g => calcFeasibilityCost_partials q g limits.maxVel limits.maxAcc _
  · exact fun q g result evaluated => calcTerminalCost_partials evaluated
  · exact fun q g result evaluated => calcFitnessCost_partials evaluated
  · exact fun check iterNum smoothnessCost q g quiet =>
      calcDistanceCostRebound_partials limits.clearance quiet
  · exact fun q g least result evaluated apart => calcSwarmCost_partials evaluated apart
  · exact fun n check iterNum least x result after evaluated quiet apart =>
      combineCostRebound_gradient limits evaluated quiet apart
  · exact fun n x result evaluated => combineCostRefine_gradient limits evaluated

/-- Another drone hovers half a metre beside the fourth point. -/
noncomputable def meeting : OptimizerInput ℝ where
  order := 3
  swarmClearance := 0.5
  bsplineInterval := 0.4
  droneId := 1
  tNow := 0
  swarmTrajs := [⟨0, 0, 2, UniformBspline.uniform (List.replicate 8 ⟨3, 0.5, 1⟩) 3 0.4⟩]
  lambda1 := 1
  lambda2 := 0.5
  newLambda2 := 0.5
  lambda3 := 0.1
  lambda4 := 1
  maxVel := 2
  maxAcc := 6
  localTargetPt := ⟨7, 0, 1⟩
  refPts := []

/-- On its other side an obstacle is three tenths of a metre away. -/
noncomputable def besideWall : ControlPoints ℝ where
  clearance := 0.5
  points := (List.range 8).map fun i => ⟨i, 0, 1⟩
  bounds := [[], [], [], [⟨⟨3, -0.3, 1⟩, ⟨0, 1, 0⟩⟩], [], [], [], []]

theorem besideWall_limits : LaunchLimits meeting besideWall := by
  constructor <;> norm_num [meeting, besideWall]

theorem meeting_hovers {drone : OneTrajDataOfSwarm ℝ} {id : ℕ}
    (present : meeting.swarmTrajs[id]? = some drone) :
    Considered meeting.toSwarmInput 3 id drone ∧
      swarmPrid meeting.toSwarmInput 3 drone = some ⟨3, 0.5, 1⟩ := by
  obtain ⟨rfl, rfl⟩ : id = 0 ∧
      drone = ⟨0, 0, 2, UniformBspline.uniform (List.replicate 8 ⟨3, 0.5, 1⟩) 3 0.4⟩ := by
    cases id with
    | zero => exact ⟨rfl, (Option.some.inj present).symm⟩
    | succ id => cases present
  have time : glbTime meeting.toSwarmInput 3 = (2 : ℕ) * 0.4 := by
    norm_num [glbTime, meeting]
  refine ⟨⟨by norm_num [meeting], ?_⟩, ?_⟩
  · rw [time]
    norm_num
  · rw [swarmPrid, time, sub_zero, UniformBspline.uniform_position (k := 6) (by norm_num) rfl
      (by omega) (by omega)]
    change some ((1 / 6 : ℝ) • ((⟨3, 0.5, 1⟩ : Vec3 ℝ) + (4 : ℝ) • ⟨3, 0.5, 1⟩ + ⟨3, 0.5, 1⟩)) = _
    congr 1
    module

/-- The coordinates of the last five points. -/
noncomputable def besideVariables : Fin 15 → ℝ :=
  ![3, 0, 1, 4, 0, 1, 5, 0, 1, 6, 0, 1, 7, 0, 1]

noncomputable def besidePoints : List (Vec3 ℝ) :=
  writeData besideWall.points (3 * meeting.order) besideVariables

theorem length_besidePoints : besidePoints.length = 8 := by
  simp [besidePoints, writeData, besideWall]

theorem besidePoints_fourth : col besidePoints 3 = ⟨3, 0, 1⟩ := by
  apply Vec3.ext_get
  intro axis
  cases axis <;>
    simp [besidePoints, writeData, besideWall, besideVariables, meeting, col, Vec3.get, axisIndex,
      Vec3.ofAxes]

theorem swarmEndIdx_eight : swarmEndIdx 3 8 = 4 := by decide +kernel

theorem meeting_evaluates : ∃ pair,
    combineCostRebound Real.sqrt id meeting 4 initMinEllipDist besideWall besideVariables =
      some pair := by
  have swarm : ∃ swarm, calcSwarmCost Real.sqrt meeting.toSwarmInput besidePoints 0
      initMinEllipDist = some swarm := by
    obtain ⟨considered, prid⟩ := meeting_hovers (show meeting.swarmTrajs[0]? = some _ from rfl)
    have once : List.range' 3 ((4 : ℤ).toNat - 3) = [3] := rfl
    rw [calcSwarmCost, length_besidePoints, show meeting.toSwarmInput.order = 3 from rfl,
      swarmEndIdx_eight, once]
    simp only [List.foldlM_cons, List.foldlM_nil, meeting, List.zipIdx_cons, List.zipIdx_nil,
      swarmStep] at considered prid ⊢
    rw [if_pos considered, prid]
    exact ⟨_, rfl⟩
  have terminal : ∃ terminal, calcTerminalCost meeting.localTargetPt besidePoints 0 =
      some terminal := by
    rw [calcTerminalCost, length_besidePoints, if_neg (by omega)]
    exact ⟨_, rfl⟩
  obtain ⟨swarm, swarms⟩ := swarm
  obtain ⟨terminal, ends⟩ := terminal
  rw [besidePoints] at swarms ends
  have inside : ¬3 * besideWall.points.length < 3 * meeting.order + 15 := by
    simp [besideWall, meeting]
  rw [combineCostRebound, if_neg inside]
  simp only [swarms, ends, Option.bind_eq_bind, Option.bind_some]
  exact ⟨_, rfl⟩

theorem meeting_apart {d : ℝ}
    (checked : CheckedDistance Real.sqrt meeting.toSwarmInput besidePoints d) : d ≠ 0 := by
  obtain ⟨i, drone, index, prid, low, high, present, _, predicted, rfl⟩ := checked
  have order : meeting.toSwarmInput.order = 3 := rfl
  rw [order] at low high
  rw [length_besidePoints, swarmEndIdx_eight] at high
  obtain rfl : i = 3 := by omega
  rw [(meeting_hovers present).2, Option.some.injEq] at predicted
  rw [← predicted, besidePoints_fourth, ellipDist]
  have way : (⟨3, 0, 1⟩ : Vec3 ℝ) - ⟨3, 0.5, 1⟩ = ⟨3 - 3, 0 - 0.5, 1 - 1⟩ := rfl
  rw [way]
  refine (Real.sqrt_pos.mpr ?_).ne'
  norm_num

theorem combineCostRebound_meeting : ∃ result after,
    combineCostRebound Real.sqrt id meeting 4 initMinEllipDist besideWall besideVariables =
        some (result, after) ∧
      IsGradient (fun y => returnedSum ((combineCostRebound Real.sqrt id meeting 4
        initMinEllipDist besideWall y).map Prod.fst)) result.grad besideVariables := by
  obtain ⟨⟨result, after⟩, evaluated⟩ := meeting_evaluates
  refine ⟨result, after, evaluated, ?_⟩
  apply (cost_gradients_exact besideWall_limits).2.2.2.2.2.2.1 15 id 4 _ _ result after evaluated
  · exact Filter.Eventually.of_forall fun y => by simp [Quiet, reboundStep]
  · exact fun d checked => meeting_apart checked

end RobocupDrone.Optimizer
