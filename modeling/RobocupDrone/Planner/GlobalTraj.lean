import RobocupDrone.Planner.OneSegment
import RobocupDrone.Planner.UniformBspline

/-! `GlobalTrajData`: the global trajectory, and the local one that may be spliced into it. -/

namespace RobocupDrone.Planner

open Geometry PolynomialTraj

/-- The members that the evaluations read. -/
structure GlobalTrajData (K : Type) where
  globalTraj : PolynomialTraj K
  localTraj : List (UniformBspline K)
  globalDuration : K
  localStartTime : K
  localEndTime : K
  timeIncrease : K
  lastTimeInc : K
  lastProgressTime : K

namespace GlobalTrajData

variable {K : Type} [Field K] [LinearOrder K]

def setGlobalTraj (traj : PolynomialTraj K) : GlobalTrajData K where
  globalTraj := traj
  localTraj := []
  globalDuration := traj.times.sum
  localStartTime := -1
  localEndTime := -1
  timeIncrease := 0
  lastTimeInc := 0
  lastProgressTime := 0

/-- The evaluation of `local_traj_[index]`, timed by `local_traj_[0]`; without a time span `tm` has
no value. -/
def evaluateLocal (data : GlobalTrajData K) (index : ℕ) (t : K) : Option (Vec3 K) := do
  let first ← data.localTraj[0]?
  match ← first.getTimeSpan with
  | none => none
  | some (tm, _) =>
      let spline ← data.localTraj[index]?
      spline.evaluateDeBoor (tm + t - data.localStartTime)

def getPosition (data : GlobalTrajData K) (t : K) : Option (Vec3 K) :=
  if -(1 / 1000) ≤ t ∧ t ≤ data.localStartTime then
    data.globalTraj.evaluate (t - data.timeIncrease + data.lastTimeInc)
  else if data.localEndTime ≤ t ∧ t ≤ data.globalDuration + 1 / 1000 then
    data.globalTraj.evaluate (t - data.timeIncrease)
  else data.evaluateLocal 0 t

def getVelocity (data : GlobalTrajData K) (t : K) : Option (Vec3 K) :=
  if -(1 / 1000) ≤ t ∧ t ≤ data.localStartTime then data.globalTraj.evaluateVel t
  else if data.localEndTime ≤ t ∧ t ≤ data.globalDuration + 1 / 1000 then
    data.globalTraj.evaluateVel (t - data.timeIncrease)
  else data.evaluateLocal 1 t

end GlobalTrajData

section Whole

variable {K : Type}

namespace PolynomialTraj

variable {traj : PolynomialTraj K}

/-- Every segment has coefficients, and as many for every axis. -/
structure WellFormed (traj : PolynomialTraj K) : Prop where
  nonempty : traj.times ≠ []
  segments : ∀ k < traj.times.length, ∃ cx cy cz, traj.cxs[k]? = some cx ∧ traj.cys[k]? = some cy ∧
    traj.czs[k]? = some cz ∧ cx ≠ [] ∧ cy.length = cx.length ∧ cz.length = cx.length

theorem WellFormed.evaluateSegment (formed : WellFormed traj) (axis : List K → ℕ → K → K)
    {low k : ℕ} (enough : low ≤ 1) (inside : k < traj.times.length) (t : K) :
    ∃ point, traj.evaluateSegment axis low k t = some point := by
  obtain ⟨cx, cy, cz, atX, atY, atZ, some_coefficient, sameY, sameZ⟩ := formed.segments k inside
  have length := List.length_pos_iff.mpr some_coefficient
  rw [PolynomialTraj.evaluateSegment, atX, atY, atZ]
  simp only [Option.bind_eq_bind, Option.bind_some]
  rw [if_neg (by omega)]
  exact ⟨_, rfl⟩

section

variable [Field K] [LinearOrder K] [IsStrictOrderedRing K]

theorem findSegment_inside {times : List K} (nonempty : times ≠ []) {t : K} (within : t ≤ times.sum)
    (idx : ℕ) : ∃ k s, findSegment times t idx = some (idx + k, s) ∧ k < times.length := by
  induction times generalizing t idx with
  | nil => contradiction
  | cons time rest ih =>
      rw [List.sum_cons] at within
      by_cases passed : time + 1 / 10000 < t
      · have more : rest ≠ [] := by
          rintro rfl
          rw [List.sum_nil] at within
          linarith
        obtain ⟨k, s, found, inside⟩ := ih more (show t - time ≤ rest.sum by linarith) (idx + 1)
        refine ⟨k + 1, s, ?_, Nat.succ_lt_succ inside⟩
        rw [findSegment, if_pos passed, found]
        congr 2
        omega
      · exact ⟨0, t, by rw [findSegment, if_neg passed]; rfl, Nat.succ_pos _⟩

theorem WellFormed.evaluate (formed : WellFormed traj) {t : K} (within : t ≤ traj.times.sum) :
    ∃ point, traj.evaluate t = some point := by
  obtain ⟨k, s, found, inside⟩ := findSegment_inside formed.nonempty within 0
  obtain ⟨point, evaluated⟩ := formed.evaluateSegment axisPosition (Nat.zero_le 1) inside s
  refine ⟨point, ?_⟩
  rw [PolynomialTraj.evaluate, found, Nat.zero_add]
  exact evaluated

theorem WellFormed.evaluateVel (formed : WellFormed traj) {t : K} (within : t ≤ traj.times.sum) :
    ∃ vel, traj.evaluateVel t = some vel := by
  obtain ⟨k, s, found, inside⟩ := findSegment_inside formed.nonempty within 0
  obtain ⟨vel, evaluated⟩ := formed.evaluateSegment axisVelocity le_rfl inside s
  refine ⟨vel, ?_⟩
  rw [PolynomialTraj.evaluateVel, found, Nat.zero_add]
  exact evaluated

end

variable [Field K]

theorem ofSolution_wellFormed {n : ℕ} (solution : Axis → Fin n → K) {time : List K}
    (nonempty : time ≠ []) : WellFormed (ofSolution solution time) := by
  refine ⟨nonempty, fun k inside => ?_⟩
  have entries : ∀ axis, ((List.range time.length).map (segmentCoefficients (solution axis)))[k]? =
      some (segmentCoefficients (solution axis) k) := by
    intro axis
    rw [List.getElem?_map, List.getElem?_range (show k < time.length from inside)]
    rfl
  exact ⟨_, _, _, entries .x, entries .y, entries .z, List.cons_ne_nil _ _, rfl, rfl⟩

end PolynomialTraj

namespace GlobalTrajData

variable {data : GlobalTrajData K} [Field K] [LinearOrder K] [IsStrictOrderedRing K]

/-- The state after `setGlobalTraj`, with the progress made since. -/
structure Whole (data : GlobalTrajData K) : Prop where
  formed : WellFormed data.globalTraj
  unspliced : data =
    { setGlobalTraj data.globalTraj with lastProgressTime := data.lastProgressTime }
  started : 0 ≤ data.lastProgressTime
  within : data.lastProgressTime ≤ data.globalDuration

theorem Whole.after_local (whole : Whole data) {t : K} (started : 0 ≤ t)
    (within : t ≤ data.globalDuration) :
    -1 ≤ t ∧ t ≤ data.globalTraj.times.sum + 1 / 1000 := by
  rw [whole.unspliced] at within
  simp only [setGlobalTraj] at within
  constructor <;> linarith

theorem Whole.getPosition_eq (whole : Whole data) {t : K} (started : 0 ≤ t)
    (within : t ≤ data.globalDuration) : data.getPosition t = data.globalTraj.evaluate t := by
  have later : ¬(-(1 / 1000) ≤ t ∧ t ≤ -1) := fun both => by linarith [both.2]
  have inside := whole.after_local started within
  rw [whole.unspliced]
  simp only [getPosition, setGlobalTraj, if_neg later, if_pos inside, sub_zero]

theorem Whole.getVelocity_eq (whole : Whole data) {t : K} (started : 0 ≤ t)
    (within : t ≤ data.globalDuration) : data.getVelocity t = data.globalTraj.evaluateVel t := by
  have later : ¬(-(1 / 1000) ≤ t ∧ t ≤ -1) := fun both => by linarith [both.2]
  have inside := whole.after_local started within
  rw [whole.unspliced]
  simp only [getVelocity, setGlobalTraj, if_neg later, if_pos inside, sub_zero]

end GlobalTrajData

end Whole

end RobocupDrone.Planner
