import Mathlib.Data.List.GetD
import RobocupDrone.Planner.MinSnapJoins

/-! The trajectory of `minSnapTraj` and its way-points. -/

namespace RobocupDrone.Planner.PolynomialTraj

open Geometry Quintic Topology

structure SegmentsMeet {K : Type} [Field K] (traj : PolynomialTraj K) (pos : List (Vec3 K))
    (startVel endVel startAcc endAcc : Vec3 K) : Prop where
  starts : ∀ k < traj.times.length,
    traj.evaluateSegment axisPosition 0 k 0 = some (pos.getD k 0)
  ends : ∀ k < traj.times.length,
    traj.evaluateSegment axisPosition 0 k (traj.times.getD k 0) = some (pos.getD (k + 1) 0)
  start_velocity : traj.evaluateSegment axisVelocity 1 0 0 = some startVel
  start_acceleration : traj.evaluateSegment axisAcceleration 2 0 0 = some startAcc
  end_velocity : traj.evaluateSegment axisVelocity 1 (traj.times.length - 1)
    (traj.times.getD (traj.times.length - 1) 0) = some endVel
  end_acceleration : traj.evaluateSegment axisAcceleration 2 (traj.times.length - 1)
    (traj.times.getD (traj.times.length - 1) 0) = some endAcc
  velocity_joins : ∀ k, k + 1 < traj.times.length →
    traj.evaluateSegment axisVelocity 1 (k + 1) 0 =
      traj.evaluateSegment axisVelocity 1 k (traj.times.getD k 0)
  acceleration_joins : ∀ k, k + 1 < traj.times.length →
    traj.evaluateSegment axisAcceleration 2 (k + 1) 0 =
      traj.evaluateSegment axisAcceleration 2 k (traj.times.getD k 0)

/-- The search reads the end of segment `k` from it: the segment is the first one, or longer than
the tolerance. -/
def Outlasts (times : List ℝ) (k : ℕ) : Prop := 0 < k → 1 / 10000 < times.getD k 0

structure ReadsWayPoints (traj : PolynomialTraj ℝ) (pos : List (Vec3 ℝ))
    (startVel endVel startAcc endAcc : Vec3 ℝ) : Prop where
  start_position : traj.evaluate 0 = some (pos.getD 0 0)
  start_velocity : traj.evaluateVel 0 = some startVel
  start_acceleration : traj.evaluateAcc 0 = some startAcc
  wayPoint : ∀ k < traj.times.length, Outlasts traj.times k →
    traj.evaluate (startTime traj.times (k + 1)) = some (pos.getD (k + 1) 0)
  end_velocity : Outlasts traj.times (traj.times.length - 1) →
    traj.evaluateVel (startTime traj.times traj.times.length) = some endVel
  end_acceleration : Outlasts traj.times (traj.times.length - 1) →
    traj.evaluateAcc (startTime traj.times traj.times.length) = some endAcc

/-- The evaluations are continuous at the end of segment `k`. -/
def ReadsContinuously (traj : PolynomialTraj ℝ) (k : ℕ) : Prop :=
  ContinuousEvaluation traj.evaluate (startTime traj.times (k + 1)) ∧
    ContinuousEvaluation traj.evaluateVel (startTime traj.times (k + 1)) ∧
    ContinuousEvaluation traj.evaluateAcc (startTime traj.times (k + 1))

section Prescribed

variable {K : Type} [Field K] (pos : ℕ → K) (startVel endVel startAcc endAcc : K) (m k : ℕ)

theorem endPointDerivative_start :
    endPointDerivative pos startVel endVel startAcc endAcc m (6 * k) = pos k := by
  simp [endPointDerivative]

theorem endPointDerivative_end :
    endPointDerivative pos startVel endVel startAcc endAcc m (6 * k + 1) = pos (k + 1) := by
  simp [endPointDerivative, show (6 * k + 1) / 6 = k by omega, show (6 * k + 1) % 6 = 1 by omega]

variable {m}

theorem endPointDerivative_endVel (enough : 2 ≤ m) :
    endPointDerivative pos startVel endVel startAcc endAcc m (6 * (m - 1) + 3) = endVel := by
  simp [endPointDerivative, show (6 * (m - 1) + 3) / 6 = m - 1 by omega,
    show (6 * (m - 1) + 3) % 6 = 3 by omega, show m - 1 ≠ 0 by omega]

theorem endPointDerivative_endAcc (enough : 2 ≤ m) :
    endPointDerivative pos startVel endVel startAcc endAcc m (6 * (m - 1) + 5) = endAcc := by
  simp [endPointDerivative, show (6 * (m - 1) + 5) / 6 = m - 1 by omega,
    show (6 * (m - 1) + 5) % 6 = 5 by omega, show m - 1 ≠ 0 by omega]

end Prescribed

section Segments

variable {K : Type} {inverse : Inverse K} {time : List K} (pos : List (Vec3 K))
  (startVel endVel startAcc endAcc : Vec3 K)
variable [Field K]

theorem evaluateSegment_fixed (exact : mappingMatrix time * inverse (mappingMatrix time) = 1)
    (enough : 2 ≤ time.length) {axis : List K → ℕ → K → K} {k s low : ℕ}
    (reads : Reads axis (s / 2)) (bound : low ≤ 6) (segment : k < time.length) (row : s < 6)
    (fixed : Fixed time.length k s) {w : Vec3 K}
    (value : ∀ j, prescribed pos startVel endVel startAcc endAcc time.length j (6 * k + s) =
      w.get j) :
    (solved inverse pos startVel endVel startAcc endAcc time).evaluateSegment axis low k
      (if s % 2 = 0 then 0 else time.getD k 0) = some w := by
  rw [solved, evaluateSegment_ofSolution reads bound _ segment]
  congr 1
  apply Vec3.ext_get
  intro j
  rw [Vec3.get_ofAxes, solveAxis_fixed exact enough segment row fixed, value]

theorem evaluateSegment_joins (exact : mappingMatrix time * inverse (mappingMatrix time) = 1)
    (enough : 2 ≤ time.length) {axis : List K → ℕ → K → K} {k i low : ℕ} (reads : Reads axis i)
    (bound : low ≤ 6) (segment : k + 1 < time.length) (free : i = 1 ∨ i = 2) :
    (solved inverse pos startVel endVel startAcc endAcc time).evaluateSegment axis low (k + 1) 0 =
      (solved inverse pos startVel endVel startAcc endAcc time).evaluateSegment axis low k
        (time.getD k 0) := by
  rw [solved, evaluateSegment_ofSolution reads bound _ segment,
    evaluateSegment_ofSolution reads bound _ (Nat.lt_of_succ_lt segment)]
  congr 2
  funext j
  exact solveAxis_joins exact enough segment free _

theorem solved_segmentsMeet (exact : mappingMatrix time * inverse (mappingMatrix time) = 1)
    (enough : 2 ≤ time.length) :
    (solved inverse pos startVel endVel startAcc endAcc time).SegmentsMeet pos startVel endVel
      startAcc endAcc where
  starts k segment :=
    evaluateSegment_fixed (s := 0) pos _ _ _ _ exact enough axisPosition_reads (by omega) segment
      (by omega) (Or.inl rfl) fun _ => endPointDerivative_start _ _ _ _ _ _ k
  ends k segment :=
    evaluateSegment_fixed (s := 1) pos _ _ _ _ exact enough axisPosition_reads (by omega) segment
      (by omega) (Or.inr (Or.inl rfl)) fun _ => endPointDerivative_end _ _ _ _ _ _ k
  start_velocity :=
    evaluateSegment_fixed (s := 2) pos _ _ _ _ exact enough axisVelocity_reads (by omega)
      (by omega) (by omega) (Or.inr (Or.inr (Or.inl ⟨rfl, Or.inl rfl⟩))) fun _ => rfl
  start_acceleration :=
    evaluateSegment_fixed (s := 4) pos _ _ _ _ exact enough axisAcceleration_reads (by omega)
      (by omega) (by omega) (Or.inr (Or.inr (Or.inl ⟨rfl, Or.inr rfl⟩))) fun _ => rfl
  end_velocity :=
    evaluateSegment_fixed (s := 3) pos _ _ _ _ exact enough axisVelocity_reads (by omega)
      (Nat.sub_one_lt (by omega)) (by omega)
      (Or.inr (Or.inr (Or.inr ⟨Nat.sub_add_cancel (by omega), Or.inl rfl⟩)))
      fun _ => endPointDerivative_endVel _ _ _ _ _ enough
  end_acceleration :=
    evaluateSegment_fixed (s := 5) pos _ _ _ _ exact enough axisAcceleration_reads (by omega)
      (Nat.sub_one_lt (by omega)) (by omega)
      (Or.inr (Or.inr (Or.inr ⟨Nat.sub_add_cancel (by omega), Or.inr rfl⟩)))
      fun _ => endPointDerivative_endAcc _ _ _ _ _ enough
  velocity_joins k segment :=
    evaluateSegment_joins pos _ _ _ _ exact enough axisVelocity_reads (by omega) segment
      (Or.inl rfl)
  acceleration_joins k segment :=
    evaluateSegment_joins pos _ _ _ _ exact enough axisAcceleration_reads (by omega) segment
      (Or.inr rfl)

end Segments

section Evaluations

variable {pos : List (Vec3 ℝ)} {startVel endVel startAcc endAcc : Vec3 ℝ}
  {traj : PolynomialTraj ℝ}

theorem SegmentsMeet.readsWayPoints
    (meet : traj.SegmentsMeet pos startVel endVel startAcc endAcc)
    (positive : ∀ t ∈ traj.times, 0 < t) (some_time : 0 < traj.times.length) :
    traj.ReadsWayPoints pos startVel endVel startAcc endAcc := by
  have start := findSegment_zero positive some_time
  have finish : ∀ k < traj.times.length, Outlasts traj.times k →
      findSegment traj.times (startTime traj.times (k + 1)) 0 = some (k, traj.times.getD k 0) :=
    fun k inside => findSegment_end positive inside
  have last := finish (traj.times.length - 1) (by omega)
  rw [Nat.sub_add_cancel some_time] at last
  refine ⟨?_, ?_, ?_, fun k inside long => ?_, fun long => ?_, fun long => ?_⟩
  · rw [evaluate, start]
    exact meet.starts 0 some_time
  · rw [evaluateVel, start]
    exact meet.start_velocity
  · rw [evaluateAcc, start]
    exact meet.start_acceleration
  · rw [evaluate, finish k inside long]
    exact meet.ends k inside
  · rw [evaluateVel, last long]
    exact meet.end_velocity
  · rw [evaluateAcc, last long]
    exact meet.end_acceleration

theorem ofSolution_readsContinuously {n k : ℕ} (solution : Axis → Fin n → ℝ) {time : List ℝ}
    (positive : ∀ t ∈ time, 0 < t) (inside : k < time.length) (long : Outlasts time k) :
    (ofSolution solution time).ReadsContinuously k := by
  have smooth : ∀ (i : ℕ) (j : Axis), Continuous fun t =>
      (Vec3.ofAxes fun axis => derivativeAt (piece (solution axis) k) i t).get j := by
    intro i j
    simp only [Vec3.get_ofAxes]
    exact continuous_derivativeAt _ i
  have junction {evaluation : ℝ → Option (Vec3 ℝ)} {axis : List ℝ → ℕ → ℝ → ℝ} {i low : ℕ}
      (reads : Reads axis i) (bound : low ≤ 6)
      (evaluates : ∀ t, evaluation t = (findSegment time t 0).bind fun found =>
        (ofSolution solution time).evaluateSegment axis low found.1 found.2) :
      ContinuousEvaluation evaluation (startTime time (k + 1)) :=
    continuousEvaluation_of_segment evaluates
      (fun t => evaluateSegment_ofSolution reads bound solution inside t) (smooth i) positive inside
      long
  exact ⟨junction axisPosition_reads (by omega) fun _ => rfl,
    junction axisVelocity_reads (by omega) fun _ => rfl,
    junction axisAcceleration_reads (by omega) fun _ => rfl⟩

end Evaluations

/-- The segments of `minSnapTraj` run through the way-points and join smoothly, and its evaluations
show that at the end of every segment that outlasts their tolerance. -/
theorem minSnapTraj_meets_wayPoints {inverse : Inverse ℝ} {pos : List (Vec3 ℝ)} {time : List ℝ}
    (exact : mappingMatrix time * inverse (mappingMatrix time) = 1) (enough : 2 ≤ time.length)
    (points : pos.length = time.length + 1) (positive : ∀ t ∈ time, 0 < t)
    (startVel endVel startAcc endAcc : Vec3 ℝ) :
    ∃ traj, minSnapTraj inverse pos startVel endVel startAcc endAcc time = some traj ∧
      traj.times = time ∧ traj.SegmentsMeet pos startVel endVel startAcc endAcc ∧
      traj.ReadsWayPoints pos startVel endVel startAcc endAcc ∧
      ∀ k, k + 1 < time.length → Outlasts time k → traj.ReadsContinuously k := by
  have meet := solved_segmentsMeet pos startVel endVel startAcc endAcc exact enough
  refine ⟨_, minSnapTraj_eq inverse startVel endVel startAcc endAcc enough points.ge, rfl, meet,
    ?_, fun k inner long => ?_⟩
  · exact meet.readsWayPoints positive (Nat.lt_of_lt_of_le Nat.zero_lt_two enough)
  · exact ofSolution_readsContinuously _ positive (Nat.lt_of_succ_lt inner) long

/-- Three way-points, a second apart. -/
theorem minSnapTraj_meets_detour :
    ∃ traj, minSnapTraj exactInverse [0, ⟨1, 1, 0⟩, ⟨2, 0, 0⟩] 0 0 0 0 [1, 1] = some traj ∧
      traj.times = [1, 1] ∧ traj.SegmentsMeet [0, ⟨1, 1, 0⟩, ⟨2, 0, 0⟩] 0 0 0 0 ∧
      traj.ReadsWayPoints [0, ⟨1, 1, 0⟩, ⟨2, 0, 0⟩] 0 0 0 0 ∧
      ∀ k, k + 1 < [1, 1].length → Outlasts [1, 1] k → traj.ReadsContinuously k :=
  minSnapTraj_meets_wayPoints (mappingMatrix_mul_exactInverse (by simp)) le_rfl rfl (by simp)
    0 0 0 0

section WithinTolerance

variable {n k : ℕ}

theorem startTime_replicate (time : ℝ) (bound : k ≤ n) :
    startTime (List.replicate n time) k = k * time := by
  rw [startTime, List.take_replicate, Nat.min_eq_left bound, List.sum_replicate, nsmul_eq_mul]

theorem findSegment_replicate {t : ℝ} (inside : k < n)
    (lower : 0 < k → ((k : ℝ) + 1) * (1 / 10000) < t) (upper : t ≤ ((k : ℝ) + 2) * (1 / 10000)) :
    findSegment (List.replicate n (1 / 10000)) t 0 = some (k, t - k * (1 / 10000)) := by
  have size : k < (List.replicate n (1 / 10000 : ℝ)).length := by rwa [List.length_replicate]
  have found := findSegment_eq (t := t) size ?_ ?_ 0
  · rwa [startTime_replicate _ inside.le, Nat.zero_add] at found
  · intro i before
    have earlier : (i : ℝ) + 1 ≤ k := by exact_mod_cast before
    have bound := lower (by omega)
    rw [startTime_replicate _ (by omega)]
    push_cast
    linarith
  · rw [startTime_replicate _ inside]
    push_cast
    linarith

theorem continues_past {evaluation : ℝ → Option (Vec3 ℝ)} {segment : ℕ → ℝ → Option (Vec3 ℝ)}
    {value : ℕ → ℝ → Vec3 ℝ}
    (reads : ∀ t, evaluation t =
      (findSegment (List.replicate n (1 / 10000)) t 0).bind fun found => segment found.1 found.2)
    (values : ∀ k < n, ∀ t, segment k t = some (value k t))
    (smooth : ∀ k (j : Axis), Continuous fun t => (value k t).get j) (inside : k + 1 < n)
    (continuous : ContinuousEvaluation evaluation
      (startTime (List.replicate n (1 / 10000)) (k + 2))) :
    value (k + 1) (1 / 10000) = value k (1 / 10000 + 1 / 10000) := by
  rw [startTime_replicate _ (by omega)] at continuous
  have first : evaluation ((k + 2 : ℕ) * (1 / 10000)) =
      some (value k (1 / 10000 + 1 / 10000)) := by
    rw [reads, findSegment_replicate (k := k) (by omega) _ _, Option.bind_some, values k (by omega)]
    · congr 2
      push_cast
      ring
    · intro _
      push_cast
      linarith
    · push_cast
      linarith
  have second : ∀ s : ℝ, (k + 2 : ℕ) * (1 / 10000) < s → s < ((k : ℝ) + 3) * (1 / 10000) →
      evaluation s = some (value (k + 1) (s - (k + 1 : ℕ) * (1 / 10000))) := by
    intro s after before
    push_cast at after
    rw [reads, findSegment_replicate (k := k + 1) inside _ _, Option.bind_some,
      values (k + 1) inside]
    · intro _
      push_cast
      linarith
    · push_cast
      linarith
  have joined := continuous.eq_of_after first (by push_cast; linarith) second fun j =>
    (smooth (k + 1) j).comp (continuous_sub_right _)
  rw [← joined]
  congr 1
  push_cast
  ring

theorem ofSolution_continues_past {m i : ℕ} (solution : Axis → Fin m → ℝ) (inside : k + 1 < n)
    (continuous : (ofSolution solution (List.replicate n (1 / 10000))).ReadsContinuously (k + 1))
    (low : i < 3) (j : Axis) :
    derivativeAt (piece (solution j) (k + 1)) i (1 / 10000) =
      derivativeAt (piece (solution j) k) i (1 / 10000 + 1 / 10000) := by
  have length : (List.replicate n (1 / 10000 : ℝ)).length = n := List.length_replicate
  have past {evaluation : ℝ → Option (Vec3 ℝ)} {axis : List ℝ → ℕ → ℝ → ℝ} {least : ℕ}
      (reads : Reads axis i) (bound : least ≤ 6)
      (evaluates : ∀ t, evaluation t =
        (findSegment (List.replicate n (1 / 10000)) t 0).bind fun found =>
          (ofSolution solution (List.replicate n (1 / 10000))).evaluateSegment axis least found.1
            found.2)
      (joined : ContinuousEvaluation evaluation
        (startTime (List.replicate n (1 / 10000)) (k + 2))) :
      derivativeAt (piece (solution j) (k + 1)) i (1 / 10000) =
        derivativeAt (piece (solution j) k) i (1 / 10000 + 1 / 10000) := by
    have same := continues_past evaluates
      (fun k segment t => evaluateSegment_ofSolution reads bound solution
        (segment.trans_eq length.symm) t) (fun k j => ?_) inside joined
    · have along := congrArg (fun v => v.get j) same
      rwa [Vec3.get_ofAxes, Vec3.get_ofAxes] at along
    · simp only [Vec3.get_ofAxes]
      exact continuous_derivativeAt _ i
  obtain ⟨position, velocity, acceleration⟩ := continuous
  obtain rfl | rfl | rfl : i = 0 ∨ i = 1 ∨ i = 2 := by omega
  · exact past axisPosition_reads (by omega) (fun _ => rfl) position
  · exact past axisVelocity_reads (by omega) (fun _ => rfl) velocity
  · exact past axisAcceleration_reads (by omega) (fun _ => rfl) acceleration

theorem not_continuation {c : ℕ → ℕ → ℝ} {h : ℝ} (apart : h ≠ 0)
    (joins : ∀ k < 3, ∀ i < 3, derivativeAt (c (k + 1)) i 0 = derivativeAt (c k) i h)
    (continues : ∀ k < 3, ∀ i < 3, derivativeAt (c (k + 1)) i h = derivativeAt (c k) i (h + h))
    (rest : ∀ i < 3, derivativeAt (c 0) i 0 = 0) (leaves : derivativeAt (c 0) 0 h = 1)
    (keeps : ∀ k < 3, derivativeAt (c (k + 1)) 0 h = 0) : False := by
  have onwards : ∀ k < 3, ∀ t, derivativeAt (c (k + 1)) 0 t = derivativeAt (c k) 0 (h + t) :=
    fun k bound t => derivativeAt_of_joins apart (joins k bound) (continues k bound) 0 t (by omega)
  have second := keeps 0 (by omega)
  have third := keeps 1 (by omega)
  have fourth := keeps 2 (by omega)
  simp only [Nat.reduceAdd, onwards 0, onwards 1, onwards 2, Nat.reduceLT, position_eq]
    at second third fourth
  have c0 : c 0 0 = 0 := by simpa [position_eq] using rest 0 (by omega)
  have c1 : c 0 1 = 0 := by simpa [velocity_eq] using rest 1 (by omega)
  have c2 : c 0 2 = 0 := by simpa [acceleration_eq] using rest 2 (by omega)
  rw [position_eq] at leaves
  simp only [c0, c1, c2] at leaves second third fourth
  have third_difference : (1 : ℝ) = 0 := by
    linear_combination 1 / 64 * fourth - 3 / 27 * third + 3 / 8 * second - leaves
  norm_num at third_difference

end WithinTolerance

/-- Five segments of the tolerance, with a detour to one way-point. The junctions show the segments
before them, past their ends. -/
theorem shortSegments_notContinuous :
    mappingMatrix (List.replicate 5 (1 / 10000 : ℝ)) *
        exactInverse (mappingMatrix (List.replicate 5 (1 / 10000 : ℝ))) = 1 ∧
      ∃ traj, minSnapTraj exactInverse [0, ⟨1, 0, 0⟩, 0, 0, 0, 0] 0 0 0 0
          (List.replicate 5 (1 / 10000)) = some traj ∧
        ¬∀ k, k + 1 < traj.times.length → traj.ReadsContinuously k := by
  have exact := mappingMatrix_mul_exactInverse (K := ℝ)
    (fun t (member : t ∈ List.replicate 5 (1 / 10000)) =>
      (List.eq_of_mem_replicate member).symm ▸ by norm_num)
  refine ⟨exact, _, minSnapTraj_eq _ 0 0 0 0 (by simp) (by simp), fun continuous => ?_⟩
  have enough : 2 ≤ (List.replicate 5 (1 / 10000 : ℝ)).length := by simp
  have duration : ∀ k < 5, (List.replicate 5 (1 / 10000 : ℝ)).getD k 0 = 1 / 10000 :=
    fun k segment => List.getD_replicate _ segment
  let solution : Axis → Fin (6 * 5) → ℝ := fun axis =>
    solveAxis exactInverse (List.replicate 5 (1 / 10000)) fun i =>
      prescribed [0, ⟨1, 0, 0⟩, 0, 0, 0, 0] 0 0 0 0 5 axis i
  have fixed : ∀ k s, k < 5 → s < 6 → Fixed 5 k s →
      derivativeAt (piece (solution .x) k) (s / 2) (if s % 2 = 0 then 0 else 1 / 10000) =
        prescribed [0, ⟨1, 0, 0⟩, 0, 0, 0, 0] 0 0 0 0 5 .x (6 * k + s) := by
    intro k s segment row fixed
    rw [← duration k segment]
    exact solveAxis_fixed exact enough segment row fixed _
  have start : ∀ k < 5, derivativeAt (piece (solution .x) k) 0 0 =
      (([0, ⟨1, 0, 0⟩, 0, 0, 0, 0] : List (Vec3 ℝ)).getD k 0).get .x := fun k segment =>
    (fixed k 0 segment (by omega) (Or.inl rfl)).trans (endPointDerivative_start _ _ _ _ _ _ k)
  have finish : ∀ k < 5, derivativeAt (piece (solution .x) k) 0 (1 / 10000) =
      (([0, ⟨1, 0, 0⟩, 0, 0, 0, 0] : List (Vec3 ℝ)).getD (k + 1) 0).get .x := fun k segment =>
    (fixed k 1 segment (by omega) (Or.inr (Or.inl rfl))).trans
      (endPointDerivative_end _ _ _ _ _ _ k)
  refine not_continuation (c := fun k => piece (solution .x) k) (h := 1 / 10000) (by norm_num)
    ?_ ?_ ?_ (finish 0 (by omega)) ?_
  · intro k bound i low
    rcases Nat.eq_zero_or_pos i with rfl | free
    · exact (start (k + 1) (by omega)).trans (finish k (by omega)).symm
    · rw [← duration k (by omega)]
      exact solveAxis_joins exact enough (by simp; omega) (by omega) _
  · intro k bound i low
    have inner : k + 1 + 1 < (List.replicate 5 (1 / 10000 : ℝ)).length := by simp; omega
    exact ofSolution_continues_past solution (by omega) (continuous (k + 1) inner) low .x
  · intro i low
    obtain rfl | rfl | rfl : i = 0 ∨ i = 1 ∨ i = 2 := by omega
    · exact start 0 (by omega)
    · exact fixed 0 2 (by omega) (by omega) (Or.inr (Or.inr (Or.inl ⟨rfl, Or.inl rfl⟩)))
    · exact fixed 0 4 (by omega) (by omega) (Or.inr (Or.inr (Or.inl ⟨rfl, Or.inr rfl⟩)))
  · intro k bound
    refine (finish (k + 1) (by omega)).trans ?_
    obtain rfl | rfl | rfl : k = 0 ∨ k = 1 ∨ k = 2 := by omega
    all_goals rfl

end RobocupDrone.Planner.PolynomialTraj
