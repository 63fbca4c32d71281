import RobocupDrone.Optimizer.ReboundSuccess

/-! `refine_optimize`, and the ends of a trajectory that the optimisations do not move. -/

namespace RobocupDrone.Optimizer

open Geometry Planner UniformBspline

section Functions

variable {K : Type} [Field K] [LinearOrder K]

/-- The variables of the loop; `q` stays from one iteration to the next. -/
structure RefineLoop (K : Type) (n : ℕ) where
  q : Fin n → K
  cps : ControlPoints K
  lambda4 : K
  flagSafe : Bool
  iterCount : ℕ

variable (set : ReboundSetting K)

def refineCallbacks (lambda4 : K) (n : ℕ) : Callbacks K (Option (ControlPoints K)) n where
  procEvaluate cps x :=
    match cps.bind fun cps => combineCostRefine set.sqrt { set.inp with lambda4 } cps x with
    | none => ((0, 0), none)
    | some left => ((left.fCombine, left.grad), some left.cps)
  procStepbound := none
  procProgress := none

def refineCall {n : ℕ} (l : RefineLoop K n) : Option ((Fin n → K) × ControlPoints K) :=
  match lbfgsOptimize set.sqrt (refineCallbacks set l.lambda4 n) (solverParam 0.001) l.q
      (some l.cps) 200 with
  -- nothing was evaluated
  | .error _ => some (l.q, l.cps)
  | .ok none => none
  | .ok (some r) => r.inst.map fun cps => (r.x, cps)

/-- An iteration of the loop: it goes on, or ends with `flag_safe` and the control points, or reads
out of range. -/
def refineRound {n : ℕ} (l : RefineLoop K n) : RefineLoop K n ⊕ Option (Bool × ControlPoints K) :=
  match refineCall set l with
  | none => .inr none
  | some (q, cps) =>
      match refineOptimizeCheck set.sqrt ⟨cps.points, set.inp.bsplineInterval,
          set.around.resolution, set.around.occupied⟩ l.flagSafe set.fuel with
      | none => .inr none
      | some (_, flagSafe) =>
          let lambda4 := if flagSafe then l.lambda4 else l.lambda4 * 2
          let iterCount := l.iterCount + 1
          if flagSafe = false ∧ iterCount ≤ 0 then .inl ⟨q, cps, lambda4, flagSafe, iterCount⟩
          else .inr (some (flagSafe, cps))

/-- `refine_optimize`, within `fuel` iterations; `lambda4_` is put back in the end. -/
def ReboundSetting.refineOptimize (cps : ControlPoints K) (fuel : ℕ) :
    Option (Option (Bool × ControlPoints K)) :=
  let n := 3 * (cps.points.length - 2 * set.inp.order)
  Loop.run (fun (l : RefineLoop K n) (_ : Unit) => refineRound set l) fuel (fun _ => ())
    ⟨solverVariables set.inp.order n cps.points, cps, set.inp.lambda4, true, 0⟩

def stateAt (ts : K) (points : List (Vec3 K)) (t : K) : Option (Vec3 K × Vec3 K × Vec3 K) := do
  let b ← setUniformBspline points 3 ts
  let d ← b.getDerivative
  let dd ← d.getDerivative
  some (← b.evaluateDeBoorT t, ← d.evaluateDeBoorT t, ← dd.evaluateDeBoorT t)

end Functions

section Ends

variable {K : Type} [Field K]

def weighed (row : Fin 3 → K) (points : List (Vec3 K)) (i : ℕ) : Vec3 K :=
  row 0 • col points i + row 1 • col points (i + 1) + row 2 • col points (i + 2)

def knotState (ts : K) (points : List (Vec3 K)) (i : ℕ) : Vec3 K × Vec3 K × Vec3 K :=
  (weighed positionRow points i, weighed (velocityRow ts) points i,
    weighed (accelerationRow ts) points i)

theorem knotState_congr {ts : K} {points others : List (Vec3 K)} {i : ℕ}
    (same : ∀ j, i ≤ j → j < i + 3 → col points j = col others j) :
    knotState ts points i = knotState ts others i := by
  simp only [knotState, weighed, same i le_rfl (by omega), same (i + 1) (by omega) (by omega),
    same (i + 2) (by omega) (by omega)]

variable [LinearOrder K] [IsStrictOrderedRing K] {ts : K} {points : List (Vec3 K)}

theorem stateAt_ends (positive : 0 < ts) (enough : 3 < points.length) :
    stateAt ts points 0 = some (knotState ts points 0) ∧
      stateAt ts points (((points.length - 3 : ℕ) : K) * ts) =
        some (knotState ts points (points.length - 3)) := by
  obtain ⟨k, columns⟩ : ∃ k, points.length = k + 2 := ⟨points.length - 2, by omega⟩
  obtain ⟨built, velocity, acceleration⟩ := uniform_derivatives positive
    (show 1 < points.length by omega)
  have rows := uniform_rowsEvaluate positive columns (show 1 < k by omega)
  have last : points.length - 3 = k - 1 := by omega
  have start := rows.positions 0 (by omega)
  have finish := rows.positions (k - 1) (by omega)
  rw [Nat.cast_zero, zero_mul] at start
  simp only [stateAt, built, velocity, acceleration, last, start, finish, rows.startVelocity,
    rows.endVelocity, rows.startAcceleration, rows.endAcceleration, Option.bind_eq_bind,
    Option.bind_some, knotState, Option.some.injEq, Prod.mk.injEq]
  refine ⟨⟨?_, ?_, ?_⟩, ?_, ?_, ?_⟩
  · exact fittedValue_block (by omega) ts points _ fun j => if_pos (show 0 < k by omega)
  · exact fittedValue_block (by omega) ts points _ fun j => by simp [fittingMatrix]
  · exact fittedValue_block (by omega) ts points _ fun j => by simp [fittingMatrix]
  · exact fittedValue_block (by omega) ts points _ fun j => if_pos (show k - 1 < k by omega)
  · exact fittedValue_block (by omega) ts points _ fun j => by simp [fittingMatrix]
  · exact fittedValue_block (by omega) ts points _ fun j => by simp [fittingMatrix]

theorem stateAt_start_congr (positive : 0 < ts) (enough : 3 < points.length)
    {others : List (Vec3 K)} (length : others.length = points.length)
    (same : ∀ j < 3, col others j = col points j) : stateAt ts others 0 = stateAt ts points 0 := by
  rw [(stateAt_ends positive enough).1,
    (stateAt_ends positive (show 3 < others.length by omega)).1]
  exact congrArg some (knotState_congr fun j _ low => same j (by omega))

theorem stateAt_finish_congr (positive : 0 < ts) (enough : 3 < points.length)
    {others : List (Vec3 K)} (length : others.length = points.length)
    (same : ∀ j < points.length, points.length ≤ j + 3 → col others j = col points j) :
    stateAt ts others (((points.length - 3 : ℕ) : K) * ts) =
      stateAt ts points (((points.length - 3 : ℕ) : K) * ts) := by
  have there := (stateAt_ends positive (show 3 < others.length by omega)).2
  rw [length] at there
  rw [there, (stateAt_ends positive enough).2]
  exact congrArg some (knotState_congr fun j low high => same j (by omega) (by omega))

end Ends

section Keeps

variable {K : Type} {set : ReboundSetting K} [Field K]

structure Pinned (order : ℕ) (before after : ControlPoints K) : Prop where
  length : after.points.length = before.points.length
  fixed : ∀ j < before.points.length, j < order ∨ before.points.length ≤ j + order →
    col after.points j = col before.points j

theorem Pinned.refl (order : ℕ) (cps : ControlPoints K) : Pinned order cps cps :=
  ⟨rfl, fun _ _ _ => rfl⟩

section

variable [LinearOrder K] [IsStrictOrderedRing K]

theorem moved_start [FloorSemiring K] (positive : 0 < set.inp.bsplineInterval)
    (cubic : 3 ≤ set.inp.order) {before after : FlaggedPoints K} (ample : Ample set before)
    (moved : before.Moved set.inp.order after) : stateAt set.inp.bsplineInterval after.points 0 =
      stateAt set.inp.bsplineInterval before.points 0 := by
  have enough := ample.2
  exact stateAt_start_congr positive (by omega) moved.length fun j low => moved.fixed j (by omega)

/-- Through all restarts and rebounds the trajectory starts in the same state. If the function
returns true, then the control points it leaves succeed. -/
theorem reboundOptimize_outcome [FloorSemiring K] (root : Vec3.IsRoundedSqrt set.sqrt)
    (sound : set.Sound) (positive : 0 < set.inp.bsplineInterval) (cubic : 3 ≤ set.inp.order)
    {opt : OptimizerState K} (ample : Ample set opt.cps) {finalCost : K} {fuel : ℕ}
    {success : Bool} {cost : K} {after : OptimizerState K}
    (ended : set.reboundOptimize finalCost opt fuel = some (some (success, cost, after))) :
    (∃ state, stateAt set.inp.bsplineInterval opt.cps.points 0 = some state ∧
      stateAt set.inp.bsplineInterval after.cps.points 0 = some state) ∧
      (success = true → Succeeded set opt cost after) := by
  have enough := ample.2
  obtain ⟨moved, -⟩ := reboundOptimize_moved sound ample ended
  have start := (stateAt_ends positive (show 3 < opt.cps.points.length by omega)).1
  refine ⟨⟨_, start, ?_⟩, ?_⟩
  · rw [moved_start positive cubic ample moved, start]
  · rintro rfl
    exact reboundOptimize_succeeded root sound ample ended

theorem reboundOptimize_outcome_narrowWall : ∃ cost after state,
    narrowWall.reboundOptimize 0 straightStart 2 = some (some (true, cost, after)) ∧
      stateAt 0.4 straightStart.cps.points 0 = some state ∧
        stateAt 0.4 after.cps.points 0 = some state ∧
          Succeeded narrowWall straightStart cost after := by
  obtain ⟨cost, after, ended, _⟩ := narrowWall_succeeds
  obtain ⟨⟨state, before, same⟩, succeeds⟩ := reboundOptimize_outcome isRoundedSqrt_squareRoot
    narrowWall_sound (show (0 : ℚ) < 0.4 by norm_num) le_rfl straightStart_ample ended
  exact ⟨cost, after, state, ended, before, same, succeeds rfl⟩

end

variable [LinearOrder K]

theorem pinned_refine {first before : ControlPoints K} {inp : OptimizerInput K} {n : ℕ}
    {sqrt : K → K} {x : Fin n → K} {left : Combined K n}
    (evaluated : combineCostRefine sqrt inp before x = some left)
    (movable : n = 3 * (first.points.length - 2 * inp.order))
    (pinned : Pinned inp.order first before) : Pinned inp.order first left.cps := by
  have written : left.cps.points = writeData before.points (3 * inp.order) x := by
    unfold combineCostRefine at evaluated
    split_ifs at evaluated
    simp only [Option.bind_eq_bind, Option.bind_eq_some_iff, Option.some.injEq] at evaluated
    obtain ⟨fitness, _, same⟩ := evaluated
    rw [← same]
  refine ⟨?_, fun j inside ends => ?_⟩
  · rw [written, length_writeData, pinned.length]
  · rw [written, col_writeData x (by omega), pinned.fixed j inside ends]

theorem refineCall_pinned {first : ControlPoints K} {n : ℕ}
    (movable : n = 3 * (first.points.length - 2 * set.inp.order)) {l : RefineLoop K n}
    (pinned : Pinned set.inp.order first l.cps) {q : Fin n → K} {cps : ControlPoints K}
    (called : refineCall set l = some (q, cps)) : Pinned set.inp.order first cps := by
  have keeps : ∀ (inst : Option (ControlPoints K)) (x : Fin n → K),
      (∀ cps ∈ inst, Pinned set.inp.order first cps) →
        ∀ cps ∈ ((refineCallbacks set l.lambda4 n).procEvaluate inst x).2,
          Pinned set.inp.order first cps := by
    intro inst x kept cps member
    unfold refineCallbacks at member
    dsimp only at member
    split at member
    · cases member
    · rename_i left evaluated
      cases member
      obtain ⟨before, present, evaluated⟩ := Option.bind_eq_some_iff.mp evaluated
      have after := pinned_refine evaluated movable (kept before present)
      exact after
  have start : ∀ cps ∈ some l.cps, Pinned set.inp.order first cps := by
    intro cps member
    cases member
    exact pinned
  unfold refineCall at called
  split at called
  · cases called
    exact pinned
  · cases called
  · rename_i r ended
    have kept := lbfgsOptimize_keeps keeps (keeps _ _ start) ended
    obtain ⟨left, present, same⟩ := Option.map_eq_some_iff.mp called
    rw [Prod.mk.injEq] at same
    rw [← same.2]
    exact kept left present

/-- What `refine_optimize` leaves: both ends, and samples that are in no obstacle if it says so. -/
structure Refined (set : ReboundSetting K) (before : ControlPoints K) (safe : Bool)
    (after : ControlPoints K) : Prop where
  pinned : Pinned set.inp.order before after
  start : stateAt set.inp.bsplineInterval after.points 0 =
    stateAt set.inp.bsplineInterval before.points 0
  finish : stateAt set.inp.bsplineInterval after.points
      (((before.points.length - 3 : ℕ) : K) * set.inp.bsplineInterval) =
    stateAt set.inp.bsplineInterval before.points
      (((before.points.length - 3 : ℕ) : K) * set.inp.bsplineInterval)
  sampled : Sampled set after.points !safe

theorem refineRound_ends {n : ℕ} (l next : RefineLoop K n) : refineRound set l ≠ .inl next := by
  intro went_on
  unfold refineRound at went_on
  split at went_on
  · cases went_on
  · split at went_on
    · cases went_on
    · dsimp only at went_on
      rw [if_neg fun again => absurd again.2 (Nat.not_succ_le_zero _)] at went_on
      cases went_on

theorem refineRound_end {n : ℕ} {l : RefineLoop K n} (fresh : l.flagSafe = true) {safe : Bool}
    {after : ControlPoints K} (finished : refineRound set l = .inr (some (safe, after))) :
    ∃ q, refineCall set l = some (q, after) ∧ Sampled set after.points !safe := by
  unfold refineRound at finished
  split at finished
  · cases finished
  · rename_i q cps called
    split at finished
    · cases finished
    · rename_i times flagSafe checked
      dsimp only at finished
      rw [if_neg fun again => absurd again.2 (Nat.not_succ_le_zero _)] at finished
      cases finished
      refine ⟨q, called, ?_⟩
      rw [refineOptimizeCheck, Option.map_eq_some_iff] at checked
      obtain ⟨⟨others, hit⟩, sampled, same⟩ := checked
      rw [Prod.mk.injEq, fresh, Bool.true_and] at same
      rw [← same.2, Bool.not_not]
      exact sampled_of_check sampled

variable [IsStrictOrderedRing K]

/-- A refinement keeps the states at both ends, whatever the solver returns. -/
theorem refineOptimize_refined (positive : 0 < set.inp.bsplineInterval)
    (cubic : 3 ≤ set.inp.order) {cps : ControlPoints K} (enough : 3 < cps.points.length)
    {fuel : ℕ} {safe : Bool} {after : ControlPoints K}
    (ended : set.refineOptimize cps fuel = some (some (safe, after))) :
    Refined set cps safe after := by
  have kept : Pinned set.inp.order cps after ∧ Sampled set after.points !safe := by
    refine Loop.run_induct
      (I := fun l : RefineLoop K (3 * (cps.points.length - 2 * set.inp.order)) =>
        Pinned set.inp.order cps l.cps ∧ l.flagSafe = true)
      (P := fun o : Option (Bool × ControlPoints K) =>
        ∀ r ∈ o, Pinned set.inp.order cps r.2 ∧ Sampled set r.2.points !r.1) ?_ ?_
      ⟨.refl _ _, rfl⟩ ended _ rfl
    · intro l _ next _ went_on
      exact absurd went_on (refineRound_ends l next)
    · rintro l _ o ⟨pinned, fresh⟩ finished r member
      subst member
      obtain ⟨q, called, sampled⟩ := refineRound_end fresh finished
      exact ⟨refineCall_pinned rfl pinned called, sampled⟩
  obtain ⟨pinned, sampled⟩ := kept
  refine ⟨pinned, ?_, ?_, sampled⟩
  · exact stateAt_start_congr positive enough pinned.length
      fun j low => pinned.fixed j (by omega) (.inl (by omega))
  · exact stateAt_finish_congr positive enough pinned.length
      fun j inside high => pinned.fixed j inside (.inr (by omega))

def corridor : ReboundSetting ℚ where
  sqrt := squareRoot
  inp :=
    { order := 3
      swarmClearance := 0.5
      bsplineInterval := 1
      droneId := 0
      tNow := 0
      swarmTrajs := []
      lambda1 := 1
      lambda2 := 0.5
      newLambda2 := 0.5
      lambda3 := 0.1
      lambda4 := 1
      maxVel := 2
      maxAcc := 6
      localTargetPt := ⟨5, 0, 1⟩
      refPts := [⟨1, 0, 1⟩, ⟨2, 0, 1⟩, ⟨3, 0, 1⟩, ⟨4, 0, 1⟩, ⟨5, 0, 1⟩] }
  around := ⟨fun p => decide (0.5 ≤ p.y), 0.5, fun _ _ => none, ⟨fun _ => 0, fun _ => 0⟩⟩
  now := fun _ => 0
  fuel := 20

def bump : ControlPoints ℚ where
  clearance := 0.5
  points := [⟨0, 0, 1⟩, ⟨1, 0, 1⟩, ⟨2, 0, 1⟩, ⟨3, 1, 1⟩, ⟨4, 0, 1⟩, ⟨5, 0, 1⟩, ⟨6, 0, 1⟩]
  bounds := []

/-- The first step of the solver straightens the curve, and takes it off the wall. -/
theorem refineOptimize_refined_corridor : ∃ after,
    corridor.refineOptimize bump 1 = some (some (true, after)) ∧
      after.points = (List.range 7).map (fun i => ⟨i, 0, 1⟩) ∧
        Refined corridor bump true after := by
  have run : (corridor.refineOptimize bump 1).map (Option.map fun r => (r.1, r.2.points)) =
      some (some (true, (List.range 7).map fun i => ⟨i, 0, 1⟩)) := by decide +kernel
  obtain ⟨result, ended, found⟩ := Option.map_eq_some_iff.mp run
  obtain ⟨⟨safe, after⟩, rfl, same⟩ := Option.map_eq_some_iff.mp found
  obtain ⟨rfl, points⟩ := Prod.mk.inj same
  exact ⟨after, ended, points, refineOptimize_refined (show (0 : ℚ) < 1 from one_pos) le_rfl
    (by decide) ended⟩

end Keeps

end RobocupDrone.Optimizer
