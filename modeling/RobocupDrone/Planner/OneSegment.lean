import Mathlib.LinearAlgebra.Matrix.Notation
import RobocupDrone.Planner.MinSnapJoins
import RobocupDrone.Planner.SplineFit

/-! `PolynomialTraj::one_segment_traj_gen`: one polynomial between two states. -/

namespace RobocupDrone.Planner.PolynomialTraj

open Geometry Quintic Topology

open UniformBspline (Solver SolvesExactly leastSquares leastSquares_exact)

section Definitions

variable {K : Type} [Field K]

/-- `C`, the highest power first. -/
def boundaryMatrix (t : K) : Matrix (Fin 6) (Fin 6) K :=
  Matrix.of ![![0, 0, 0, 0, 0, 1],
    ![0, 0, 0, 0, 1, 0],
    ![0, 0, 0, 2, 0, 0],
    ![t ^ 5, t ^ 4, t ^ 3, t ^ 2, t, 1],
    ![5 * t ^ 4, 4 * t ^ 3, 3 * t ^ 2, 2 * t, 1, 0],
    ![20 * t ^ 3, 12 * t ^ 2, 6 * t, 2, 0, 0]]

def boundaryValues (startPt startVel startAcc endPt endVel endAcc : Vec3 K) (axis : Axis) :
    Fin 6 → K :=
  ![startPt.get axis, startVel.get axis, startAcc.get axis, endPt.get axis, endVel.get axis,
    endAcc.get axis]

def oneSegmentTrajGen (solve : Solver K)
    (startPt startVel startAcc endPt endVel endAcc : Vec3 K) (t : K) : PolynomialTraj K :=
  let cof := fun axis => solve (boundaryMatrix t)
    (boundaryValues startPt startVel startAcc endPt endVel endAcc axis)
  addSegment (List.ofFn (cof .x)) (List.ofFn (cof .y)) (List.ofFn (cof .z)) t ⟨[], [], [], []⟩

end Definitions

section System

variable {K : Type} [Field K]

def ascending (cof : Fin 6 → K) (j : ℕ) : K := if inside : j < 6 then cof ⟨5 - j, by omega⟩ else 0

theorem ascending_descending (cof : Fin 6 → K) (j : Fin 6) : ascending cof (5 - j) = cof j := by
  rw [ascending, dif_pos (by omega)]
  congr 1
  apply Fin.ext
  dsimp only
  omega

theorem row_mulVec (row cof : Fin 6 → K) :
    ∑ j, row j * cof j =
      row 0 * ascending cof 5 + row 1 * ascending cof 4 + row 2 * ascending cof 3 +
        row 3 * ascending cof 2 + row 4 * ascending cof 1 + row 5 * ascending cof 0 := by
  rw [Fin.sum_univ_six]
  rfl

theorem boundaryMatrix_start (t : K) (cof : Fin 6 → K) {i : ℕ} (low : i < 3) :
    (boundaryMatrix t).mulVec cof ⟨i, by omega⟩ = derivativeAt (ascending cof) i 0 := by
  rw [Matrix.mulVec, dotProduct, row_mulVec]
  obtain rfl | rfl | rfl : i = 0 ∨ i = 1 ∨ i = 2 := by omega
  · simp [boundaryMatrix, position_eq]
  · simp [boundaryMatrix, velocity_eq]
  · simp [boundaryMatrix, acceleration_eq]

theorem boundaryMatrix_end (t : K) (cof : Fin 6 → K) {i : ℕ} (low : i < 3) :
    (boundaryMatrix t).mulVec cof ⟨3 + i, by omega⟩ = derivativeAt (ascending cof) i t := by
  rw [Matrix.mulVec, dotProduct, row_mulVec]
  obtain rfl | rfl | rfl : i = 0 ∨ i = 1 ∨ i = 2 := by omega
  · simp [boundaryMatrix, position_eq]
    ring
  · simp [boundaryMatrix, velocity_eq]
    ring
  · simp [boundaryMatrix, acceleration_eq]
    ring

theorem boundaryMatrix_solvable [CharZero K] {t : K} (apart : t ≠ 0) (b : Fin 6 → K) :
    ∃ x, (boundaryMatrix t).mulVec x = b := by
  have invertible : IsUnit (boundaryMatrix t).det := by
    rw [isUnit_iff_ne_zero]
    intro singular
    obtain ⟨cof, other, vanishes⟩ := Matrix.exists_mulVec_eq_zero_iff.mpr singular
    apply other
    funext j
    rw [← ascending_descending cof j]
    refine eq_zero_of_ends apart (fun i low => ?_) (fun i low => ?_) (by omega)
    · rw [← boundaryMatrix_start t cof low, vanishes, Pi.zero_apply]
    · rw [← boundaryMatrix_end t cof low, vanishes, Pi.zero_apply]
  refine ⟨(boundaryMatrix t)⁻¹.mulVec b, ?_⟩
  rw [Matrix.mulVec_mulVec, Matrix.mul_nonsing_inv _ invertible, Matrix.one_mulVec]

/-- The trajectory with the coefficients `cof`. -/
def ofCoefficients (cof : Axis → Fin 6 → K) (t : K) : PolynomialTraj K :=
  ofSolution (fun axis j => cof axis j.rev) [t]

theorem oneSegmentTrajGen_eq (solve : Solver K)
    (startPt startVel startAcc endPt endVel endAcc : Vec3 K) (t : K) :
    oneSegmentTrajGen solve startPt startVel startAcc endPt endVel endAcc t =
      ofCoefficients (fun axis => solve (boundaryMatrix t)
        (boundaryValues startPt startVel startAcc endPt endVel endAcc axis)) t := by
  have order : ∀ cof : Fin 6 → K,
      List.ofFn cof = segmentCoefficients (fun j : Fin 6 => cof j.rev) 0 := fun _ => rfl
  simp only [oneSegmentTrajGen, order]
  rfl

theorem oneSegmentTrajGen_solved [CharZero K] {solve : Solver K} (exact : SolvesExactly solve)
    (startPt startVel startAcc endPt endVel endAcc : Vec3 K) {t : K} (apart : t ≠ 0) :
    ∃ cof, oneSegmentTrajGen solve startPt startVel startAcc endPt endVel endAcc t =
        ofCoefficients cof t ∧
      ∀ axis, (boundaryMatrix t).mulVec (cof axis) =
        boundaryValues startPt startVel startAcc endPt endVel endAcc axis :=
  ⟨_, oneSegmentTrajGen_eq solve startPt startVel startAcc endPt endVel endAcc t,
    fun _ => exact _ _ (boundaryMatrix_solvable apart _)⟩

theorem piece_rev (cof : Fin 6 → K) : piece (fun j : Fin 6 => cof j.rev) 0 = ascending cof := by
  funext j
  simp only [piece, ascending, Nat.mul_zero, Nat.zero_add]
  split_ifs with inside
  · congr 1
    apply Fin.ext
    simp only [Fin.val_rev]
    omega
  · rfl

/-- What an evaluation of order `i` reads at `s`. -/
def reading (cof : Axis → Fin 6 → K) (i : ℕ) (s : K) : Vec3 K :=
  Vec3.ofAxes fun axis => derivativeAt (ascending (cof axis)) i s

theorem evaluateSegment_ofCoefficients {axis : List K → ℕ → K → K} {i low : ℕ}
    (reads : Reads axis i) (bound : low ≤ 6) (cof : Axis → Fin 6 → K) (t s : K) :
    (ofCoefficients cof t).evaluateSegment axis low 0 s = some (reading cof i s) := by
  rw [ofCoefficients, evaluateSegment_ofSolution reads bound _ (Nat.zero_lt_one : 0 < [t].length)]
  simp only [piece_rev, reading]

theorem reading_start {cof : Axis → Fin 6 → K} {b : Axis → Fin 6 → K} {t : K}
    (solved : ∀ axis, (boundaryMatrix t).mulVec (cof axis) = b axis) {i : ℕ} (low : i < 3) :
    reading cof i 0 = Vec3.ofAxes fun axis => b axis ⟨i, by omega⟩ := by
  simp only [reading, ← solved, boundaryMatrix_start t _ low]

theorem reading_end {cof : Axis → Fin 6 → K} {b : Axis → Fin 6 → K} {t : K}
    (solved : ∀ axis, (boundaryMatrix t).mulVec (cof axis) = b axis) {i : ℕ} (low : i < 3) :
    reading cof i t = Vec3.ofAxes fun axis => b axis ⟨3 + i, by omega⟩ := by
  simp only [reading, ← solved, boundaryMatrix_end t _ low]

variable [LinearOrder K]

theorem findSegment_single {t s : K} (within : s ≤ t + 1 / 10000) :
    findSegment [t] s 0 = some (0, s) := by
  rw [findSegment, if_neg (not_lt.mpr within)]

theorem ofCoefficients_evaluations (cof : Axis → Fin 6 → K) {t s : K}
    (within : s ≤ t + 1 / 10000) :
    (ofCoefficients cof t).evaluate s = some (reading cof 0 s) ∧
      (ofCoefficients cof t).evaluateVel s = some (reading cof 1 s) ∧
      (ofCoefficients cof t).evaluateAcc s = some (reading cof 2 s) := by
  have found : findSegment (ofCoefficients cof t).times s 0 = some (0, s) :=
    findSegment_single within
  simp only [evaluate, evaluateVel, evaluateAcc, found, Option.bind_eq_bind, Option.bind_some]
  exact ⟨evaluateSegment_ofCoefficients axisPosition_reads (by omega) cof t s,
    evaluateSegment_ofCoefficients axisVelocity_reads (by omega) cof t s,
    evaluateSegment_ofCoefficients axisAcceleration_reads (by omega) cof t s⟩

end System

structure MeetsBoundary (traj : PolynomialTraj ℝ)
    (startPt startVel startAcc endPt endVel endAcc : Vec3 ℝ) (t : ℝ) : Prop where
  startPt : traj.evaluate 0 = some startPt
  startVel : traj.evaluateVel 0 = some startVel
  startAcc : traj.evaluateAcc 0 = some startAcc
  endPt : traj.evaluate t = some endPt
  endVel : traj.evaluateVel t = some endVel
  endAcc : traj.evaluateAcc t = some endAcc

/-- What the evaluations read in a neighbourhood of `s`, each the derivative of the one before. -/
structure ReadsDerivatives (traj : PolynomialTraj ℝ) (pos vel acc : ℝ → Vec3 ℝ) (s : ℝ) : Prop where
  position : traj.evaluate s = some (pos s)
  velocity : traj.evaluateVel s = some (vel s)
  acceleration : traj.evaluateAcc s = some (acc s)
  first : ∀ j : Axis, HasDerivAt (fun r => (pos r).get j) ((vel s).get j) s
  second : ∀ j : Axis, HasDerivAt (fun r => (vel r).get j) ((acc s).get j) s

theorem hasDerivAt_reading (cof : Axis → Fin 6 → ℝ) (i : ℕ) (s : ℝ) (j : Axis) :
    HasDerivAt (fun r => (reading cof i r).get j) ((reading cof (i + 1) s).get j) s := by
  simp only [reading, Vec3.get_ofAxes]
  exact hasDerivAt_derivativeAt _ i s

theorem ofCoefficients_readsDerivatives (cof : Axis → Fin 6 → ℝ) {t s : ℝ}
    (within : s ≤ t + 1 / 10000) :
    ReadsDerivatives (ofCoefficients cof t) (reading cof 0) (reading cof 1) (reading cof 2) s := by
  obtain ⟨position, velocity, acceleration⟩ := ofCoefficients_evaluations cof within
  exact ⟨position, velocity, acceleration, hasDerivAt_reading cof 0 s, hasDerivAt_reading cof 1 s⟩

/-- A segment of positive duration meets its boundary values, and its evaluations are a curve with
its velocity and its acceleration. -/
theorem oneSegmentTrajGen_meets {solve : Solver ℝ} (exact : SolvesExactly solve)
    (startPt startVel startAcc endPt endVel endAcc : Vec3 ℝ) {t : ℝ} (positive : 0 < t) :
    let traj := oneSegmentTrajGen solve startPt startVel startAcc endPt endVel endAcc t
    MeetsBoundary traj startPt startVel startAcc endPt endVel endAcc t ∧
      ∃ pos vel acc : ℝ → Vec3 ℝ, ∀ s ∈ Set.Icc 0 t,
        ∀ᶠ r in 𝓝 s, ReadsDerivatives traj pos vel acc r := by
  obtain ⟨cof, made, solved⟩ := oneSegmentTrajGen_solved exact startPt startVel startAcc endPt
    endVel endAcc positive.ne'
  dsimp only
  rw [made]
  constructor
  · have start := ofCoefficients_evaluations cof (show (0 : ℝ) ≤ t + 1 / 10000 by linarith)
    have finish := ofCoefficients_evaluations cof (show t ≤ t + 1 / 10000 by linarith)
    rw [reading_start solved (by omega), reading_start solved (by omega),
      reading_start solved (by omega)] at start
    rw [reading_end solved (by omega), reading_end solved (by omega),
      reading_end solved (by omega)] at finish
    exact ⟨start.1, start.2.1, start.2.2, finish.1, finish.2.1, finish.2.2⟩
  · refine ⟨reading cof 0, reading cof 1, reading cof 2, fun s inside => ?_⟩
    filter_upwards [eventually_lt_nhds (show s < t + 1 / 10000 by linarith [inside.2])] with r below
    exact ofCoefficients_readsDerivatives cof below.le

/-- A meter along the first axis, from rest to rest in two seconds. -/
theorem oneSegmentTrajGen_meets_meter :
    let traj := oneSegmentTrajGen leastSquares 0 0 0 ⟨1, 0, 0⟩ 0 0 2
    MeetsBoundary traj 0 0 0 ⟨1, 0, 0⟩ 0 0 2 ∧
      ∃ pos vel acc : ℝ → Vec3 ℝ, ∀ s ∈ Set.Icc 0 2,
        ∀ᶠ r in 𝓝 s, ReadsDerivatives traj pos vel acc r :=
  oneSegmentTrajGen_meets leastSquares_exact 0 0 0 ⟨1, 0, 0⟩ 0 0 two_pos

end RobocupDrone.Planner.PolynomialTraj
