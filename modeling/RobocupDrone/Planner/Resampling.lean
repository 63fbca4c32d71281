import Mathlib.Algebra.Order.Archimedean.Basic
import RobocupDrone.Planner.Feasibility
import RobocupDrone.Planner.PreviousPath

/-! The resampling of the initial path from the previous trajectory: ever finer steps along its
length, which end if and only if it has a length. -/

namespace RobocupDrone.Planner.ReboundReplan

open Geometry Loop

open UniformBspline (Solver Regular leastSquares)

variable {K : Type} {sqrt : K → K} {points : List (Vec3 K)} [Field K]

section Lengths

@[simp] theorem arcLength_zero : arcLength sqrt points 0 = 0 := Finset.sum_range_zero _

variable [LinearOrder K] [IsStrictOrderedRing K]

theorem arcLength_mono (exact : Vec3.IsSqrt sqrt) (points : List (Vec3 K)) {i j : ℕ}
    (before : i ≤ j) : arcLength sqrt points i ≤ arcLength sqrt points j := by
  induction j, before using Nat.le_induction with
  | base => exact le_rfl
  | succ j _ ih =>
      rw [arcLength_succ]
      exact ih.trans (le_add_of_nonneg_right (Vec3.lengthBy_nonneg exact _))

theorem getD_eq_of_arcLength (exact : Vec3.IsSqrt sqrt) {k : ℕ}
    (still : arcLength sqrt points k = 0) : points.getD k 0 = points.getD 0 0 := by
  induction k with
  | zero => rfl
  | succ k ih =>
      have start := arcLength_mono exact points (Nat.zero_le k)
      rw [arcLength_zero] at start
      have leg := Vec3.lengthBy_nonneg exact (points.getD (k + 1) 0 - points.getD k 0)
      rw [arcLength_succ] at still
      have same := Vec3.eq_zero_of_lengthBy_eq_zero exact
        (show (points.getD (k + 1) 0 - points.getD k 0).lengthBy sqrt = 0 by linarith)
      rw [sub_eq_zero.mp same]
      exact ih (by linarith)

theorem arcLength_pos_iff (exact : Vec3.IsSqrt sqrt) :
    0 < arcLength sqrt points (points.length - 1) ↔ ∃ point ∈ points, point ≠ points.getD 0 0 := by
  have nonneg := arcLength_mono exact points (Nat.zero_le (points.length - 1))
  rw [arcLength_zero] at nonneg
  constructor
  · intro long
    by_contra none_other
    push Not at none_other
    have still : arcLength sqrt points (points.length - 1) = 0 := by
      apply Finset.sum_eq_zero
      intro i member
      rw [Finset.mem_range] at member
      have first := none_other _ (List.getElem_mem (show i < points.length by omega))
      have second := none_other _ (List.getElem_mem (show i + 1 < points.length by omega))
      rw [List.getD_eq_getElem _ _ (by omega), List.getD_eq_getElem _ _ (by omega), first, second,
        sub_self, Vec3.lengthBy_zero exact]
    exact long.ne' still
  · rintro ⟨point, member, other⟩
    apply lt_of_le_of_ne nonneg
    intro still
    obtain ⟨k, inside, rfl⟩ := List.mem_iff_getElem.mp member
    apply other
    have up_to := arcLength_mono exact points (show k ≤ points.length - 1 by omega)
    have start := arcLength_mono exact points (Nat.zero_le k)
    rw [arcLength_zero] at start
    rw [← List.getD_eq_getElem _ 0 inside]
    exact getD_eq_of_arcLength exact (by linarith)

end Lengths

section Rounds

variable {cpsDist : K} [LinearOrder K]

/-- The point at length `s` of the path. -/
def OnPath (sqrt : K → K) (points : List (Vec3 K)) (s : K) (point : Vec3 K) : Prop :=
  ∃ id, id + 1 < points.length ∧ arcLength sqrt points id ≤ s ∧
    s < arcLength sqrt points (id + 1) ∧ point = legPoint sqrt points id s

theorem not_lasts_of_ended {bound s : K} {count : ℕ} (lasts : Lasts (· < bound) cpsDist s count)
    (ended : ¬s < bound) : count = 0 := by
  by_contra some_step
  have start := lasts.during 0 (Nat.pos_of_ne_zero some_step)
  rw [Nat.cast_zero, zero_mul, add_zero] at start
  exact ended start

variable [IsStrictOrderedRing K]

theorem sampleLegs_eq (exact : Vec3.IsSqrt sqrt) (enough : 2 ≤ points.length)
    (forward : 0 < cpsDist) {fuel id count : ℕ} {s : K}
    (inside : id < points.length) (after : arcLength sqrt points id ≤ s)
    (lasts : Lasts (· < arcLength sqrt points (points.length - 1)) cpsDist s count)
    (fueled : points.length + count ≤ id + fuel) (pointSet : List (Vec3 K)) :
    ∃ samples, sampleLegs (through sqrt points) cpsDist fuel id s pointSet =
        .ok (pointSet ++ samples) ∧
      List.Forall₂ (OnPath sqrt points) (instants s cpsDist count) samples := by
  induction fuel generalizing id count s pointSet with
  | zero => omega
  | succ fuel ih =>
      rw [sampleLegs_succ enough]
      split_ifs with more here
      · have low := arcLength_mono exact points (show id + 1 ≤ points.length - 1 by omega)
        cases count with
        | zero =>
            have ended := lasts.ended
            rw [Nat.cast_zero, zero_mul, add_zero] at ended
            exact absurd (here.2.trans_le low) ended
        | succ count =>
            obtain ⟨samples, sampled, on_path⟩ := ih inside
              (show arcLength sqrt points id ≤ s + cpsDist by linarith) lasts.tail (by omega)
              (pointSet ++ [legPoint sqrt points id s])
            refine ⟨legPoint sqrt points id s :: samples, ?_, ?_⟩
            · rw [sampled, List.append_assoc, List.singleton_append]
            · rw [instants_succ]
              exact .cons ⟨id, more.1, here.1, here.2, rfl⟩ on_path
      · have passed : arcLength sqrt points (id + 1) ≤ s :=
          not_lt.mp fun before => here ⟨after, before⟩
        exact ih more.1 passed lasts (by omega) pointSet
      · have ended : ¬s < arcLength sqrt points (points.length - 1) := by
          intro before
          refine more ⟨?_, before.le⟩
          by_contra last
          have same : id = points.length - 1 := by omega
          rw [same] at after
          exact absurd before (not_lt.mpr after)
        rw [not_lasts_of_ended lasts ended]
        exact ⟨[], by rw [List.append_nil], .nil⟩

theorem OnPath.eq_first (exact : Vec3.IsSqrt sqrt) {point : Vec3 K}
    (onPath : OnPath sqrt points 0 point) : point = points.getD 0 0 := by
  obtain ⟨id, -, after, before, rfl⟩ := onPath
  have start := arcLength_mono exact points (Nat.zero_le id)
  rw [arcLength_zero] at start
  have still : arcLength sqrt points id = 0 := le_antisymm after start
  rw [← getD_eq_of_arcLength exact still]
  simp only [legPoint, still, sub_zero, zero_div, zero_smul, zero_add, div_self before.ne',
    one_smul]

theorem resample_succ (exact : Vec3.IsSqrt sqrt) (enough : 2 ≤ points.length)
    (forward : 0 < cpsDist) {count fuel : ℕ}
    (lasts : Lasts (· < arcLength sqrt points (points.length - 1)) (cpsDist / (3 / 2)) 0 count)
    (fueled : points.length + count ≤ fuel) (target : Vec3 K) (rounds : ℕ) :
    ∃ samples, List.Forall₂ (OnPath sqrt points) (instants 0 (cpsDist / (3 / 2)) count) samples ∧
      resample (through sqrt points) target fuel (rounds + 1) cpsDist =
        if count + 1 < 7 then resample (through sqrt points) target fuel rounds (cpsDist / (3 / 2))
        else .ok (samples ++ [target]) := by
  have start : arcLength sqrt points 0 ≤ 0 := arcLength_zero.le
  obtain ⟨samples, sampled, onPath⟩ := sampleLegs_eq exact enough (show 0 < cpsDist / (3 / 2) from
    div_pos forward (by norm_num)) (show 0 < points.length by omega) start lasts
    (show points.length + count ≤ 0 + fuel by omega) []
  refine ⟨samples, onPath, ?_⟩
  have size : (samples ++ [target]).length = count + 1 := by
    rw [List.length_append, ← onPath.length_eq, length_instants, List.length_singleton]
  rw [List.nil_append] at sampled
  rw [resample]
  simp only [sampled, bind, Except.bind, size]

theorem resample_last (exact : Vec3.IsSqrt sqrt) (enough : 2 ≤ points.length)
    (forward : 0 < cpsDist) {count fuel rounds : ℕ}
    (lasts : Lasts (· < arcLength sqrt points (points.length - 1)) (cpsDist / (3 / 2)) 0 count)
    (six : 6 ≤ count) (fueled : points.length + count ≤ fuel) (target : Vec3 K) :
    ∃ samples, resample (through sqrt points) target fuel (rounds + 1) cpsDist =
        .ok (samples ++ [target]) ∧ samples.head? = points.head? := by
  obtain ⟨samples, onPath, sampled⟩ := resample_succ exact enough forward lasts fueled target rounds
  rw [if_neg (by omega)] at sampled
  refine ⟨samples, sampled, ?_⟩
  obtain ⟨count, rfl⟩ : ∃ rest, count = rest + 1 := ⟨count - 1, by omega⟩
  obtain ⟨first, rest, rfl⟩ := List.exists_cons_of_length_pos (show 0 < points.length by omega)
  rw [instants_succ] at onPath
  cases onPath with
  | cons start later => exact congrArg some (start.eq_first exact)

theorem resample_of_small [Archimedean K] (exact : Vec3.IsSqrt sqrt)
    (enough : 2 ≤ points.length) (target : Vec3 K) {r : ℕ} (forward : 0 < cpsDist)
    (small : 5 * (cpsDist / (3 / 2)) < (3 / 2) ^ r * arcLength sqrt points (points.length - 1)) :
    ∃ bound, ∀ fuel ≥ bound, ∀ rounds ≥ bound, ∃ samples,
      resample (through sqrt points) target fuel rounds cpsDist = .ok (samples ++ [target]) ∧
        samples.head? = points.head? := by
  induction r generalizing cpsDist with
  | zero =>
      have finer : 0 < cpsDist / (3 / 2) := div_pos forward (by norm_num)
      obtain ⟨count, lasts⟩ := exists_lasts finer 0 (arcLength sqrt points (points.length - 1))
      have six : 6 ≤ count := by
        by_contra few
        have steps : (count : K) ≤ 5 := by exact_mod_cast (show count ≤ 5 by omega)
        have ended := not_lt.mp lasts.ended
        have way := mul_le_mul_of_nonneg_right steps finer.le
        rw [pow_zero, one_mul] at small
        linarith
      refine ⟨points.length + count + 1, fun fuel large rounds more => ?_⟩
      obtain ⟨rounds, rfl⟩ : ∃ rest, rounds = rest + 1 := ⟨rounds - 1, by omega⟩
      exact resample_last exact enough forward lasts six (by omega) target
  | succ r ih =>
      have finer : 0 < cpsDist / (3 / 2) := div_pos forward (by norm_num)
      obtain ⟨count, lasts⟩ := exists_lasts finer 0 (arcLength sqrt points (points.length - 1))
      have smaller : 5 * (cpsDist / (3 / 2) / (3 / 2)) <
          (3 / 2) ^ r * arcLength sqrt points (points.length - 1) := by
        rw [pow_succ] at small
        linarith
      obtain ⟨bound, later⟩ := ih finer smaller
      refine ⟨bound + points.length + count + 1, fun fuel large rounds more => ?_⟩
      obtain ⟨rounds, rfl⟩ : ∃ rest, rounds = rest + 1 := ⟨rounds - 1, by omega⟩
      by_cases six : 6 ≤ count
      · exact resample_last exact enough forward lasts six (by omega) target
      · obtain ⟨samples, onPath, sampled⟩ := resample_succ exact enough forward lasts
          (show points.length + count ≤ fuel by omega) target rounds
        rw [sampled, if_pos (by omega)]
        exact later fuel (by omega) rounds (by omega)

theorem resample_returns [Archimedean K] (exact : Vec3.IsSqrt sqrt) (enough : 2 ≤ points.length)
    (long : 0 < arcLength sqrt points (points.length - 1)) (target : Vec3 K)
    (forward : 0 < cpsDist) : ∃ bound, ∀ fuel ≥ bound, ∀ rounds ≥ bound, ∃ samples,
      resample (through sqrt points) target fuel rounds cpsDist = .ok (samples ++ [target]) ∧
        samples.head? = points.head? := by
  obtain ⟨r, small⟩ := pow_unbounded_of_one_lt
    (5 * (cpsDist / (3 / 2)) / arcLength sqrt points (points.length - 1))
    (show (1 : K) < 3 / 2 by norm_num)
  exact resample_of_small exact enough target forward ((div_lt_iff₀ long).mp small)

theorem resample_still (exact : Vec3.IsSqrt sqrt) (enough : 2 ≤ points.length)
    (still : ¬0 < arcLength sqrt points (points.length - 1)) (target : Vec3 K)
    (forward : 0 < cpsDist) {fuel : ℕ} (fueled : points.length ≤ fuel) (rounds : ℕ) :
    resample (through sqrt points) target fuel rounds cpsDist = .error .outOfFuel := by
  induction rounds generalizing cpsDist with
  | zero => rfl
  | succ rounds ih =>
      have lasts : Lasts (· < arcLength sqrt points (points.length - 1)) (cpsDist / (3 / 2)) 0 0 :=
        ⟨fun k none => absurd none (Nat.not_lt_zero k), by rwa [Nat.cast_zero, zero_mul, add_zero]⟩
      obtain ⟨samples, onPath, sampled⟩ :=
        resample_succ exact enough forward lasts fueled target rounds
      rw [sampled, if_pos (by omega)]
      exact ih (div_pos forward (by norm_num))

end Rounds

section Runs

variable {solve : Solver K} {pp : PlanParameters K} {data : LocalData K} {request : Request K}
variable [LinearOrder K]

def Resampled (sqrt : K → K) (solve : Solver K) (pp : PlanParameters K) (data : LocalData K)
    (request : Request K) (fuel : ℕ) : Prop :=
  ∃ init, initFromPrevious sqrt solve pp data request fuel = .ok init ∧
    init.pointSet.head? = data.positionTraj.evaluateDeBoorT request.tCur ∧
    init.pointSet.getLast? = some request.localTargetPt

/-- One of the samples, of the trajectory or of the polynomial after it, is not at the place of the
first. -/
def Moves (sqrt : K → K) (solve : Solver K) (pp : PlanParameters K) (data : LocalData K)
    (request : Request K) : Prop :=
  ∃ n m, SampleCounts sqrt pp data request n m ∧
    ∃ point ∈ samplePoints sqrt solve pp data request n m,
      point ≠ valueAt data.positionTraj request.tCur

theorem samplePoints_first (n m : ℕ) : ∃ later, samplePoints sqrt solve pp data request n m =
    valueAt data.positionTraj request.tCur :: later := by
  rw [samplePoints, instants_succ]
  exact ⟨_, rfl⟩

variable [IsStrictOrderedRing K]

theorem resampled_of_moves [Archimedean K] (exact : Vec3.IsSqrt sqrt) (stored : Stored data)
    (spread : 0 < pp.ctrlPtDist) (forward : 0 < initialTs sqrt pp request)
    (moves : Moves sqrt solve pp data request) :
    ∃ bound, ∀ fuel ≥ bound, Resampled sqrt solve pp data request fuel := by
  obtain ⟨n, m, counts, point, member, other⟩ := moves
  obtain ⟨later, first⟩ : ∃ later, samplePoints sqrt solve pp data request n m =
    valueAt data.positionTraj request.tCur :: later := samplePoints_first n m
  have long := (arcLength_pos_iff exact).mpr ⟨point, member, by rwa [first]⟩
  have enough : 2 ≤ (samplePoints sqrt solve pp data request n m).length := by
    by_contra single
    rw [show (samplePoints sqrt solve pp data request n m).length - 1 = 0 by omega,
      arcLength_zero] at long
    exact lt_irrefl _ long
  obtain ⟨bound, resampled⟩ := resample_returns exact enough long request.localTargetPt
    (mul_pos spread (show (0 : K) < 3 / 2 by norm_num))
  refine ⟨bound + n + m + 2, fun fuel large => ?_⟩
  obtain ⟨accessed, filled, -⟩ :=
    fillPath_eq solve stored forward counts (show n + 1 < fuel by omega) (by omega)
  obtain ⟨samples, returned, start⟩ := resampled fuel (by omega) fuel (by omega)
  rw [first] at start
  refine ⟨_, (initFromPrevious_eq stored filled).trans (congrArg (Except.map _) returned), ?_,
    List.getLast?_concat⟩
  rw [(stored.evaluates _).1]
  cases samples with
  | nil => cases start
  | cons sample rest => exact start

theorem moves_of_resampled [Archimedean K] (exact : Vec3.IsSqrt sqrt) (stored : Stored data)
    (spread : 0 < pp.ctrlPtDist) (forward : 0 < initialTs sqrt pp request)
    (within : request.tCur ≤ data.duration) {bound : ℕ}
    (resampled : ∀ fuel ≥ bound, Resampled sqrt solve pp data request fuel) :
    Moves sqrt solve pp data request := by
  obtain ⟨n, m, counts⟩ := exists_sampleCounts forward
    (show request.tCur < data.duration + 1 / 1000 by linarith)
  by_contra stays
  obtain ⟨later, first⟩ : ∃ later, samplePoints sqrt solve pp data request n m =
    valueAt data.positionTraj request.tCur :: later := samplePoints_first n m
  have size : (samplePoints sqrt solve pp data request n m).length = n + 1 + m :=
    length_samplePoints n m
  obtain ⟨accessed, filled, -⟩ := fillPath_eq solve stored forward counts
    (show n + 1 < bound + n + m + 2 by omega) (by omega)
  obtain ⟨init, returned, -⟩ := resampled (bound + n + m + 2) (by omega)
  rw [initFromPrevious_eq stored filled] at returned
  cases later with
  | nil =>
      rw [first, resample_single] at returned
      cases returned
  | cons second rest =>
      have still : ¬0 < arcLength sqrt (samplePoints sqrt solve pp data request n m)
          ((samplePoints sqrt solve pp data request n m).length - 1) := by
        intro long
        obtain ⟨point, member, other⟩ := (arcLength_pos_iff exact).mp long
        refine stays ⟨n, m, counts, point, member, ?_⟩
        rwa [first] at other
      have enough : 2 ≤ (samplePoints sqrt solve pp data request n m).length := by
        rw [first]
        exact Nat.le_add_left 2 _
      rw [resample_still exact enough still request.localTargetPt
        (mul_pos spread (show (0 : K) < 3 / 2 by norm_num)) (by omega)] at returned
      cases returned

/-- The resampling ends, with a path from the first sample to the local target, if and only if the
samples do not all coincide. -/
theorem resampled_iff [Archimedean K] (exact : Vec3.IsSqrt sqrt) (stored : Stored data)
    (spread : 0 < pp.ctrlPtDist) (moving : 0 < pp.maxVel)
    (within : request.tCur ≤ data.duration) :
    (∃ bound, ∀ fuel ≥ bound, Resampled sqrt solve pp data request fuel) ↔
      Moves sqrt solve pp data request := by
  have forward : 0 < initialTs sqrt pp request := initialTs_pos spread moving
  refine ⟨?_, resampled_of_moves exact stored spread forward⟩
  rintro ⟨bound, resampled⟩
  exact moves_of_resampled exact stored spread forward within resampled

end Runs

section Stopped

/-- Control points a metre apart. -/
def metresAhead : List (Vec3 ℝ) := (List.range 6).map fun k : ℕ => ⟨k, 0, 1⟩

/-- From the start of the curve through `metresAhead` to a target six metres on. -/
noncomputable def onward : Request ℝ := ⟨⟨1, 0, 1⟩, ⟨1, 0, 0⟩, 0, ⟨7, 0, 1⟩, 0, 0⟩

theorem onward_ts : initialTs Real.sqrt launched onward = 6 / 5 := by
  have way : onward.startPt - onward.localTargetPt = Vec3.along .x (-6) := by
    apply Vec3.ext_get
    intro axis
    rw [Vec3.get_sub, Vec3.get_along, onward]
    cases axis with
    | x => norm_num [Vec3.get]
    | y => simp [Vec3.get]
    | z => simp [Vec3.get]
  rw [initialTs, way, Vec3.lengthBy_along Vec3.isSqrt_sqrt, if_pos (by norm_num), launched]
  norm_num

theorem metresAhead_mean (i : ℕ) (inside : i + 2 < metresAhead.length) :
    (1 / 6 : ℝ) • (metresAhead.getD i 0 + (4 : ℝ) • metresAhead.getD (i + 1) 0 +
      metresAhead.getD (i + 2) 0) = ⟨i + 1, 0, 1⟩ := by
  have places : ∀ k < metresAhead.length, metresAhead.getD k 0 = ⟨k, 0, 1⟩ := by
    intro k bound
    rw [List.getD_eq_getElem _ _ bound]
    simp only [metresAhead, List.getElem_map, List.getElem_range]
  rw [places i (by omega), places (i + 1) (by omega), places (i + 2) inside]
  apply Vec3.ext_get
  intro axis
  simp only [Vec3.get_smul, Vec3.get_add]
  cases axis with
  | x =>
      simp only [Vec3.get]
      push_cast
      ring
  | y => norm_num [Vec3.get]
  | z => norm_num [Vec3.get]

theorem metresAhead_start :
    valueAt (UniformBspline.uniform metresAhead 3 (6 / 5)) 0 = ⟨1, 0, 1⟩ := by
  have start := UniformBspline.uniform_at_start (show (0 : ℝ) < 6 / 5 by norm_num)
    (show 3 < metresAhead.length by decide)
  have mean := metresAhead_mean 0 (by decide)
  rw [Nat.cast_zero, zero_add, zero_add, zero_add] at mean
  rw [valueAt, start, Option.getD_some]
  exact (DeBoor.cubic_start (by norm_num) _ _).trans mean

theorem metresAhead_knot :
    valueAt (UniformBspline.uniform metresAhead 3 (6 / 5)) (6 / 5) = ⟨2, 0, 1⟩ := by
  have knot := UniformBspline.uniform_at_knot (show (0 : ℝ) < 6 / 5 by norm_num)
    (show 3 + 0 < metresAhead.length by decide)
  have last := DeBoor.cubic_end (show (6 / 5 : ℝ) ≠ 0 by norm_num)
    (((0 : ℕ) : ℝ) * (6 / 5) - (3 : ℕ) * (6 / 5)) fun j => metresAhead.getD (0 + j) 0
  have mean := metresAhead_mean 1 (by decide)
  rw [show ((1 : ℕ) : ℝ) + 1 = 2 by norm_num] at mean
  rw [Nat.cast_one, one_mul, show ((3 : ℕ) : ℝ) + 1 = 4 by norm_num, last] at knot
  rw [valueAt, knot, Option.getD_some]
  exact mean

theorem resampled_onward : ∃ data,
    updateTrajInfo (UniformBspline.uniform metresAhead 3 (6 / 5)) = some data ∧
    ∃ bound, ∀ fuel ≥ bound, Resampled Real.sqrt leastSquares launched data
      onward fuel := by
  obtain ⟨data, info, stored, spline, duration⟩ := uniform_stored
    (show (0 : ℝ) < 6 / 5 by norm_num) (show 3 < metresAhead.length by decide)
  have lasting : data.duration = 18 / 5 := by
    rw [duration]
    norm_num [metresAhead]
  refine ⟨data, info, (resampled_iff Vec3.isSqrt_sqrt stored (by norm_num [launched])
    (by norm_num [launched]) ?_).mpr ?_⟩
  · rw [lasting, onward]
    norm_num
  · obtain ⟨n, m, counts⟩ := exists_sampleCounts
      (show 0 < initialTs Real.sqrt launched onward by rw [onward_ts]; norm_num)
      (show onward.tCur < data.duration + 1 / 1000 by rw [lasting, onward]; norm_num)
    have twice : 1 < n + 1 := by
      by_contra once
      have ended := counts.trajectory.ended
      rw [show n + 1 = 1 by omega, onward_ts, lasting, onward] at ended
      norm_num at ended
    refine ⟨n, m, counts, ⟨2, 0, 1⟩, ?_, ?_⟩
    · refine List.mem_append_left _ (List.mem_map.mpr ⟨6 / 5, ?_, ?_⟩)
      · rw [onward_ts]
        exact mem_instants.mpr ⟨1, twice, by norm_num [onward]⟩
      · rw [spline, metresAhead_knot]
    · rw [spline, onward, metresAhead_start]
      norm_num [Vec3.mk.injEq]

theorem valueAt_stopped (t : ℝ) :
    valueAt (UniformBspline.uniform (List.replicate 6 (0 : Vec3 ℝ)) 3 1) t = 0 := by
  have regular := UniformBspline.uniform_regular one_pos (List.replicate 6 (0 : Vec3 ℝ)) 3
  have evaluated := evaluates regular (by rw [UniformBspline.uniform, List.length_replicate]; omega)
    t
  rw [UniformBspline.evaluateDeBoorT, regular.entry_first, Option.bind_eq_bind,
    Option.bind_some] at evaluated
  have within : ∀ c ∈ (UniformBspline.uniform (List.replicate 6 (0 : Vec3 ℝ)) 3 1).controlPoints,
      ∀ axis, |c.get axis| ≤ 0 := by
    intro c member axis
    rw [List.eq_of_mem_replicate member, Vec3.get_zero, abs_zero]
  apply Vec3.ext_get
  intro axis
  rw [Vec3.get_zero]
  exact abs_nonpos_iff.mp (regular.abs_evaluate_le within evaluated axis)

noncomputable def nearStop : Request ℝ := ⟨0, 0, 0, ⟨1 / 4, 0, 0⟩, 0, 0⟩

theorem nearStop_distance : (nearStop.startPt - nearStop.localTargetPt).lengthBy Real.sqrt =
    1 / 4 := by
  have way : nearStop.startPt - nearStop.localTargetPt = Vec3.along .x (-(1 / 4)) := by
    apply Vec3.ext_get
    intro axis
    rw [Vec3.get_sub, Vec3.get_along, nearStop, Vec3.get_zero]
    cases axis <;> simp [Vec3.get]
  rw [way, Vec3.lengthBy_along Vec3.isSqrt_sqrt, abs_neg, abs_of_pos (by norm_num)]

/-- The samples of a stop trajectory coincide, and no polynomial follows. -/
theorem nearStop_endless : ∃ data, emergencyStop nearStop.startPt = some data ∧
    1 / 5 ≤ (nearStop.startPt - nearStop.localTargetPt).lengthBy Real.sqrt ∧
    nearStop.tCur ≤ data.duration ∧
    ¬∃ bound, ∀ fuel ≥ bound, Resampled Real.sqrt leastSquares launched data
      nearStop fuel := by
  obtain ⟨data, stopped, stored, spline, duration⟩ := emergencyStop_stored (0 : Vec3 ℝ)
  have distance := nearStop_distance
  have still : ∀ t, valueAt data.positionTraj t = 0 := by
    intro t
    rw [spline, valueAt_stopped]
  have step : initialTs Real.sqrt launched nearStop = 6 / 5 := by
    rw [initialTs, distance, if_pos (by norm_num), launched]
    norm_num
  have time : polyTime Real.sqrt launched nearStop 0 = 1 := by
    change (nearStop.startPt - nearStop.localTargetPt).lengthBy Real.sqrt / (1 / 2) * 2 = 1
    rw [distance]
    norm_num
  have within : nearStop.tCur ≤ data.duration := by
    rw [duration, nearStop]
    norm_num
  refine ⟨data, stopped, by rw [distance]; norm_num, within, ?_⟩
  rintro ⟨bound, resampled⟩
  obtain ⟨n, m, counts, point, member, other⟩ := moves_of_resampled Vec3.isSqrt_sqrt stored
    (by norm_num [launched]) (by rw [step]; norm_num) within resampled
  have polynomial := counts.polynomial
  rw [still, step, time] at polynomial
  rw [samplePoints, not_lasts_of_ended polynomial (by norm_num), instants_zero, List.map_nil,
    List.append_nil, List.mem_map] at member
  obtain ⟨t, -, rfl⟩ := member
  exact other ((still t).trans (still _).symm)

end Stopped

end RobocupDrone.Planner.ReboundReplan
