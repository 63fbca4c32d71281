import RobocupDrone.Optimizer.ReboundOptimize

/-! The control points over restarts, collision checks and the steps of the solver, in any order. -/

namespace RobocupDrone.Optimizer

open Geometry

section Runs

variable {K : Type}

/-- What touches `cps_` while a trajectory is optimised. -/
inductive PointsOp (K : Type) (n : ℕ)
  | restart
  | check
  | write (x : Fin n → K)

variable [Field K] [LinearOrder K] [FloorSemiring K] {n : ℕ}

def PointsOp.run (sqrt : K → K) (w : Surroundings K) (order : ℕ) (cps : FlaggedPoints K) :
    PointsOp K n → Option (FlaggedPoints K)
  | .restart => (initControlPoints sqrt w order cps).map Prod.fst
  | .check => (checkCollisionAndRebound sqrt w order cps).map Prod.fst
  | .write x => some { cps with points := writeData cps.points (3 * order) x }

def runPoints (sqrt : K → K) (w : Surroundings K) (order : ℕ) (ops : List (PointsOp K n))
    (cps : FlaggedPoints K) : Option (FlaggedPoints K) :=
  ops.foldlM (PointsOp.run sqrt w order) cps

variable [IsStrictOrderedRing K] {sqrt : K → K} {w : Surroundings K} {order : ℕ}

theorem PointsOp.run_spec (resolution : 0 < w.resolution) (enough : 2 ≤ order)
    {cps : FlaggedPoints K} (consistent : cps.Consistent)
    (fits : 2 * order ≤ cps.points.length) (op : PointsOp K n) :
    ∃ after, op.run sqrt w order cps = some after ∧ cps.Moved order after ∧
      after.Consistent := by
  cases op with
  | restart =>
      obtain ⟨after, _, init, extends_to, kept, _⟩ :=
        initControlPoints_spec sqrt resolution (by omega) fits consistent
      exact ⟨after, by rw [PointsOp.run, init]; rfl, extends_to.moved, kept⟩
  | check =>
      obtain ⟨after, _, checked, extends_to, kept⟩ :=
        checkCollisionAndRebound_spec sqrt resolution enough fits consistent
      exact ⟨after, by rw [PointsOp.run, checked]; rfl, extends_to.moved, kept⟩
  | write x =>
      exact ⟨_, rfl, moved_write cps x, consistent.lengths.trans (length_writeData _ _ _).symm,
        consistent.marked⟩

theorem runPoints_total (sqrt : K → K) (resolution : 0 < w.resolution) (enough : 2 ≤ order)
    {cps : FlaggedPoints K} (consistent : cps.Consistent)
    (fits : 2 * order ≤ cps.points.length) (ops : List (PointsOp K n)) :
    ∃ after, runPoints sqrt w order ops cps = some after ∧ cps.Moved order after ∧
      after.Consistent := by
  have step : ∀ before : FlaggedPoints K, ∀ op ∈ ops, cps.Moved order before ∧
      before.Consistent ∧ 2 * order ≤ before.points.length →
        ∃ next, op.run sqrt w order before = some next ∧ cps.Moved order next ∧
          next.Consistent ∧ 2 * order ≤ next.points.length := by
    rintro before op _ ⟨moved, kept, fits⟩
    obtain ⟨next, ran, step, kept⟩ := op.run_spec resolution enough kept fits
    exact ⟨next, ran, moved.trans step, kept, fits.trans_eq step.length.symm⟩
  obtain ⟨after, ran, moved, kept, _⟩ :=
    Loop.foldlM_total step ⟨.refl order cps, consistent, fits⟩
  exact ⟨after, ran, moved, kept⟩

/-- From the first call on, whatever happens, no bound is taken away or changed, every marked point
has one, and the fixed control points stay. -/
theorem bounds_only_grow (sqrt : K → K) (resolution : 0 < w.resolution) (enough : 2 ≤ order)
    (clearance : K) {points : List (Vec3 K)} (fits : 2 * order ≤ points.length)
    (first later : List (PointsOp K n)) :
    ∃ middle after, runPoints sqrt w order first (.first clearance points) = some middle ∧
      runPoints sqrt w order (first ++ later) (.first clearance points) = some after ∧
        middle.Moved order after ∧ after.Consistent := by
  obtain ⟨middle, ran, moved, kept⟩ := runPoints_total sqrt resolution enough
    (FlaggedPoints.consistent_first clearance points) fits first
  have fits' : 2 * order ≤ middle.points.length := by
    rw [moved.length]
    exact fits
  obtain ⟨after, ran', moved', kept'⟩ := runPoints_total sqrt resolution enough kept
    fits' later
  refine ⟨middle, after, ran, ?_, moved', kept'⟩
  rw [runPoints, List.foldlM_append]
  change (runPoints sqrt w order first _).bind _ = _
  rw [ran]
  exact ran'

theorem bounds_only_grow_wallAhead : ∃ middle after,
    runPoints squareRoot wallAhead 3 [.restart, .write fun k : Fin 3 => (k : ℚ)]
        (.first 0.5 towardsWall) = some middle ∧
      runPoints squareRoot wallAhead 3 ([.restart, .write fun k : Fin 3 => (k : ℚ)] ++
        [.check, .restart]) (.first 0.5 towardsWall) = some after ∧
      middle.Moved 3 after ∧ after.Consistent :=
  bounds_only_grow squareRoot (by norm_num [wallAhead]) (by decide) 0.5 (by decide) _ _

end Runs

end RobocupDrone.Optimizer
