import Mathlib.Algebra.BigOperators.Group.Finset.Basic
import RobocupDrone.Planner.GlobalTraj
import RobocupDrone.Planner.ReboundReplan
import RobocupDrone.Planner.SplineFit

/-! The vectors of the initial path from the previous trajectory: when they have the same length and
are read inside their elements. -/

namespace RobocupDrone.Planner.ReboundReplan

open Geometry Loop

open UniformBspline (Solver Regular leastSquares)

variable {K : Type} [Field K]

section Paths

variable (sqrt : K → K) (points : List (Vec3 K))

/-- The length of the way up to point `k`. -/
def arcLength (k : ℕ) : K :=
  ∑ i ∈ Finset.range k, (points.getD (i + 1) 0 - points.getD i 0).lengthBy sqrt

def through : Path K := ⟨(List.range points.length).map (arcLength sqrt points), points⟩

/-- The interpolation on leg `id`. -/
def legPoint (id : ℕ) (s : K) : Vec3 K :=
  let low := arcLength sqrt points id
  let high := arcLength sqrt points (id + 1)
  ((s - low) / (high - low)) • points.getD (id + 1) 0 +
    ((high - s) / (high - low)) • points.getD id 0

def Path.InStep (path : Path K) : Prop :=
  path.pseudoArcLength.length = path.segmentPoint.length

variable {sqrt points}

theorem through_inStep : (through sqrt points).InStep := by
  rw [Path.InStep, through, List.length_map, List.length_range]

theorem arcLength_succ (k : ℕ) : arcLength sqrt points (k + 1) =
    arcLength sqrt points k + (points.getD (k + 1) 0 - points.getD k 0).lengthBy sqrt :=
  Finset.sum_range_succ _ k

theorem arcLength_append {k : ℕ} (inside : k < points.length) (point : Vec3 K) :
    arcLength sqrt (points ++ [point]) k = arcLength sqrt points k := by
  apply Finset.sum_congr rfl
  intro i member
  rw [Finset.mem_range] at member
  rw [List.getD_append _ _ _ _ (by omega), List.getD_append _ _ _ _ (by omega)]

theorem read_eq {α : Type} {v : List α} {i : ℕ} (inside : i < v.length) (other : α) :
    read v i = .ok (v.getD i other) := by
  rw [read, List.getD_eq_getElem?_getD, List.getElem?_eq_getElem inside]
  rfl

theorem back_eq {α : Type} {v : List α} (nonempty : 0 < v.length) (other : α) :
    back v = .ok (v.getD (v.length - 1) other) := by
  have last := read_eq (show v.length - 1 < v.length by omega) other
  rwa [read, ← List.getLast?_eq_getElem?] at last

theorem getD_arcLength {k : ℕ} (inside : k < points.length) :
    (through sqrt points).pseudoArcLength.getD k 0 = arcLength sqrt points k := by
  rw [through, List.getD_eq_getElem?_getD, List.getElem?_map, List.getElem?_range inside]
  rfl

theorem length_arcLength : (through sqrt points).pseudoArcLength.length = points.length :=
  through_inStep

theorem through_single (sqrt : K → K) (point : Vec3 K) :
    through sqrt [point] = ⟨[0], [point]⟩ := by
  rw [through, List.length_singleton, List.range_one, List.map_singleton, arcLength,
    Finset.sum_range_zero]

theorem pushLength_through (nonempty : 0 < points.length) (point : Vec3 K) :
    ((through sqrt points).pushPoint point).pushLength sqrt =
      .ok (through sqrt (points ++ [point])) := by
  have size : (points ++ [point]).length = points.length + 1 := by
    rw [List.length_append, List.length_singleton]
  have last : back (points ++ [point]) = .ok ((points ++ [point]).getD points.length 0) := by
    rw [back_eq (by omega) 0, size, Nat.add_sub_cancel]
  have index : sizeMinusTwo (points ++ [point]) = points.length - 1 := by
    rw [sizeMinusTwo, if_pos (by omega)]
    omega
  have previous : read (points ++ [point]) (sizeMinusTwo (points ++ [point])) =
      .ok ((points ++ [point]).getD (points.length - 1) 0) := by
    rw [index, read_eq (by omega) 0]
  have length : back (through sqrt points).pseudoArcLength =
      .ok (arcLength sqrt points (points.length - 1)) := by
    rw [back_eq (by rwa [length_arcLength]) 0, length_arcLength, getD_arcLength (by omega)]
  have next : arcLength sqrt (points ++ [point]) points.length =
      ((points ++ [point]).getD points.length 0 -
        (points ++ [point]).getD (points.length - 1) 0).lengthBy sqrt +
          arcLength sqrt points (points.length - 1) := by
    obtain ⟨n, same⟩ : ∃ n, points.length = n + 1 := ⟨points.length - 1, by omega⟩
    have earlier : arcLength sqrt (points ++ [point]) n = arcLength sqrt points n :=
      arcLength_append (by omega) point
    rw [same, Nat.add_sub_cancel, ← earlier, arcLength_succ, add_comm]
  have whole : through sqrt (points ++ [point]) =
      ⟨(through sqrt points).pseudoArcLength ++ [arcLength sqrt (points ++ [point]) points.length],
        points ++ [point]⟩ := by
    rw [through, through, size, List.range_succ, List.map_append, List.map_singleton]
    congr 2
    apply List.map_congr_left
    intro k member
    exact arcLength_append (List.mem_range.mp member) point
  rw [Path.pushLength, Path.pushPoint]
  change (back (points ++ [point]) >>= fun last =>
    read (points ++ [point]) (sizeMinusTwo (points ++ [point])) >>= fun previous =>
      back (through sqrt points).pseudoArcLength >>= fun length => Except.ok _) = _
  rw [last, previous, length, whole, next]
  rfl

end Paths

section Filling

variable {sqrt : K → K} {solve : Solver K} {pp : PlanParameters K} {data : LocalData K}
  {request : Request K}

theorem foldlM_through {round : Filling K → K → Except Stop (Filling K)} {f : K → Vec3 K}
    {times : List K} (rounds : ∀ t ∈ times, ∀ points accessed, 0 < points.length →
      round ⟨through sqrt points, accessed⟩ t =
        .ok ⟨through sqrt (points ++ [f t]), accessed ++ [through sqrt points]⟩)
    {points : List (Vec3 K)} {accessed : List (Path K)} (nonempty : 0 < points.length)
    (inStep : ∀ path ∈ accessed, path.InStep) :
    ∃ later, times.foldlM round ⟨through sqrt points, accessed⟩ =
        .ok ⟨through sqrt (points ++ times.map f), later⟩ ∧ ∀ path ∈ later, path.InStep := by
  induction times generalizing points accessed with
  | nil =>
      refine ⟨accessed, ?_, inStep⟩
      rw [List.map_nil, List.append_nil]
      rfl
  | cons t rest ih =>
      have first := rounds t List.mem_cons_self points accessed nonempty
      have longer : 0 < (points ++ [f t]).length := by
        rw [List.length_append]
        omega
      have both : ∀ path ∈ accessed ++ [through sqrt points], path.InStep := by
        intro path member
        rcases List.mem_append.mp member with before | now
        · exact inStep path before
        · rw [List.mem_singleton.mp now]
          exact through_inStep
      obtain ⟨later, ended, kept⟩ :=
        ih (fun t member => rounds t (List.mem_cons_of_mem _ member)) longer both
      refine ⟨later, ?_, kept⟩
      rw [List.append_assoc, List.singleton_append] at ended
      rw [List.foldlM_cons, first, List.map_cons]
      exact ended

section

variable [LinearOrder K]

def valueAt (b : UniformBspline K) (t : K) : Vec3 K := (b.evaluateDeBoorT t).getD 0

/-- A trajectory that the planner has stored. -/
structure Stored (data : LocalData K) : Prop where
  regular : Regular 3 data.positionTraj
  enough : 3 < data.positionTraj.controlPoints.length
  stored : updateTrajInfo data.positionTraj = some data

theorem evaluates {b : UniformBspline K} {degree : ℕ} (regular : Regular degree b)
    (enough : degree < b.controlPoints.length) (t : K) :
    b.evaluateDeBoorT t = some (valueAt b t) := by
  obtain ⟨point, evaluated⟩ := Option.isSome_iff_exists.mp
    (UniformBspline.evaluateDeBoorT_of_knots regular.p regular.m regular.knots enough t)
  rw [valueAt, evaluated, Option.getD_some]

theorem updateTrajInfo_eq {b : UniformBspline K} (regular : Regular 3 b)
    (enough : 3 < b.controlPoints.length) : updateTrajInfo b =
      some ⟨b, b.derivative 2, (b.derivative 2).derivative 1,
        b.u.getD b.controlPoints.length 0 - b.u.getD 3 0⟩ := by
  have velocity := regular.derivative (List.ne_nil_of_length_pos (by omega))
  have columns := UniformBspline.length_derivative b 2
  simp only [updateTrajInfo, regular.getDerivative_eq (List.ne_nil_of_length_pos (by omega)),
    velocity.getDerivative_eq (List.ne_nil_of_length_pos (by omega)), regular.getTimeSum_eq,
    Option.bind_eq_bind, Option.bind_some]

theorem Stored.evaluates (stored : Stored data) (t : K) :
    data.positionTraj.evaluateDeBoorT t = some (valueAt data.positionTraj t) ∧
      data.velocityTraj.evaluateDeBoorT t = some (valueAt data.velocityTraj t) ∧
      data.accelerationTraj.evaluateDeBoorT t = some (valueAt data.accelerationTraj t) := by
  obtain ⟨regular, enough, made⟩ := stored
  have velocity := regular.derivative (List.ne_nil_of_length_pos (by omega))
  have columns := UniformBspline.length_derivative data.positionTraj 2
  have acceleration := velocity.derivative (List.ne_nil_of_length_pos (by omega))
  have rows := UniformBspline.length_derivative (data.positionTraj.derivative 2) 1
  rw [updateTrajInfo_eq regular enough, Option.some.injEq] at made
  rw [← made]
  exact ⟨ReboundReplan.evaluates regular enough t,
    ReboundReplan.evaluates velocity (by omega) t,
    ReboundReplan.evaluates acceleration (by omega) t⟩

end

variable (sqrt solve pp data request)

section

variable [LinearOrder K]

/-- The polynomial from the state at `t` to the local target. -/
def connecting (t : K) : PolynomialTraj K :=
  PolynomialTraj.oneSegmentTrajGen solve (valueAt data.positionTraj t)
    (valueAt data.velocityTraj t) (valueAt data.accelerationTraj t) request.localTargetPt
    request.localTargetVel 0 (polyTime sqrt pp request (valueAt data.positionTraj t))

/-- `n + 1` samples of the previous trajectory and `m` of the polynomial after it. -/
def samplePoints (n m : ℕ) : List (Vec3 K) :=
  let ts := initialTs sqrt pp request
  (instants request.tCur ts (n + 1)).map (valueAt data.positionTraj) ++
    (instants ts ts m).map fun s =>
      ((connecting sqrt solve pp data request (request.tCur + n * ts)).evaluate s).getD 0

/-- The rounds of the two loops, where the first has one. -/
structure SampleCounts (n m : ℕ) : Prop where
  trajectory : Lasts (· < data.duration + 1 / 1000) (initialTs sqrt pp request) request.tCur (n + 1)
  polynomial : Lasts
    (· < polyTime sqrt pp request
      (valueAt data.positionTraj (request.tCur + n * initialTs sqrt pp request)))
    (initialTs sqrt pp request) (initialTs sqrt pp request) m

end

variable {sqrt solve pp data request}

theorem oneSegmentTrajGen_wellFormed
    (startPt startVel startAcc endPt endVel endAcc : Vec3 K) (t : K) :
    (PolynomialTraj.oneSegmentTrajGen solve startPt startVel startAcc endPt endVel endAcc
      t).WellFormed := by
  rw [PolynomialTraj.oneSegmentTrajGen_eq, PolynomialTraj.ofCoefficients]
  exact PolynomialTraj.ofSolution_wellFormed _ (List.cons_ne_nil _ _)

theorem mem_instants {t step s : K} {count : ℕ} :
    s ∈ instants t step count ↔ ∃ k < count, s = t + k * step := by
  simp only [instants, List.mem_map, List.mem_range, eq_comm]

variable [LinearOrder K] [IsStrictOrderedRing K]

theorem connecting_evaluates {t s : K}
    (within : s < polyTime sqrt pp request (valueAt data.positionTraj t)) :
    (connecting sqrt solve pp data request t).evaluate s =
      some (((connecting sqrt solve pp data request t).evaluate s).getD 0) := by
  have before : s ≤ (connecting sqrt solve pp data request t).times.sum := by
    change s ≤ [_].sum
    rw [List.sum_singleton]
    exact within.le
  obtain ⟨point, evaluated⟩ := (oneSegmentTrajGen_wellFormed _ _ _ _ _ _ _).evaluate before
  rw [connecting, evaluated, Option.getD_some]

theorem fillFromTrajectory_eq (stored : Stored data) (forward : 0 < initialTs sqrt pp request)
    {n fuel : ℕ} (lasts : Lasts (· < data.duration + 1 / 1000) (initialTs sqrt pp request)
      request.tCur (n + 1)) (enough : n + 1 < fuel) :
    ∃ accessed, fillFromTrajectory sqrt pp data request fuel =
        .ok (⟨through sqrt ((instants request.tCur (initialTs sqrt pp request) (n + 1)).map
          (valueAt data.positionTraj)), accessed⟩,
            request.tCur + n * initialTs sqrt pp request) ∧
      ∀ path ∈ accessed, path.InStep := by
  have first : sampleTrajectory sqrt data request ⟨⟨[0], []⟩, []⟩ request.tCur =
      .ok ⟨through sqrt [valueAt data.positionTraj request.tCur], []⟩ := by
    rw [sampleTrajectory, (stored.evaluates _).1, through_single]
    simp only [orStop, lt_irrefl, if_false]
    rfl
  have later : ∀ t ∈ instants (request.tCur + initialTs sqrt pp request)
      (initialTs sqrt pp request) n, ∀ points accessed, 0 < points.length →
        sampleTrajectory sqrt data request ⟨through sqrt points, accessed⟩ t =
          .ok ⟨through sqrt (points ++ [valueAt data.positionTraj t]),
            accessed ++ [through sqrt points]⟩ := by
    intro t member points accessed nonempty
    obtain ⟨k, -, rfl⟩ := mem_instants.mp member
    have steps := mul_nonneg (Nat.cast_nonneg (α := K) k) forward.le
    have after : request.tCur <
        request.tCur + initialTs sqrt pp request + k * initialTs sqrt pp request := by linarith
    rw [sampleTrajectory, (stored.evaluates _).1]
    simp only [orStop, if_pos after]
    change ((through sqrt points).pushPoint _).pushLength sqrt >>= _ = _
    rw [pushLength_through nonempty]
    rfl
  obtain ⟨accessed, filled, kept⟩ := foldlM_through later
    (show 0 < [valueAt data.positionTraj request.tCur].length from Nat.one_pos)
    (show ∀ path ∈ ([] : List (Path K)), path.InStep by simp)
  refine ⟨accessed, ?_, kept⟩
  have left : request.tCur + ((n + 1 : ℕ) : K) * initialTs sqrt pp request -
      initialTs sqrt pp request = request.tCur + n * initialTs sqrt pp request := by
    rw [Nat.cast_succ]
    ring
  rw [fillFromTrajectory, ticks_eq lasts enough, instants_succ]
  simp only [orStop]
  change (List.foldlM (sampleTrajectory sqrt data request) ⟨⟨[0], []⟩, []⟩ (_ :: _) >>= _) = _
  rw [List.foldlM_cons, first]
  change (List.foldlM _ _ _ >>= _) = _
  rw [filled]
  change Except.ok (_, _) = _
  rw [left]
  rfl

theorem fillFromPolynomial_eq (stored : Stored data) {t : K} {m fuel : ℕ}
    (lasts : Lasts (· < polyTime sqrt pp request (valueAt data.positionTraj t))
      (initialTs sqrt pp request) (initialTs sqrt pp request) m) (enough : m < fuel)
    {points : List (Vec3 K)} {accessed : List (Path K)} (nonempty : 0 < points.length)
    (inStep : ∀ path ∈ accessed, path.InStep) :
    ∃ later, fillFromPolynomial sqrt solve pp data request fuel ⟨through sqrt points, accessed⟩ t =
        .ok ⟨through sqrt (points ++
          (instants (initialTs sqrt pp request) (initialTs sqrt pp request) m).map fun s =>
            ((connecting sqrt solve pp data request t).evaluate s).getD 0), later⟩ ∧
      ∀ path ∈ later, path.InStep := by
  obtain ⟨position, velocity, acceleration⟩ := stored.evaluates t
  have rounds : ∀ s ∈ instants (initialTs sqrt pp request) (initialTs sqrt pp request) m,
      ∀ points accessed, 0 < points.length →
        samplePolynomial sqrt (connecting sqrt solve pp data request t)
            ⟨through sqrt points, accessed⟩ s =
          .ok ⟨through sqrt (points ++
            [((connecting sqrt solve pp data request t).evaluate s).getD 0]),
              accessed ++ [through sqrt points]⟩ := by
    intro s member points accessed nonempty
    obtain ⟨k, before, rfl⟩ := mem_instants.mp member
    have some_length : (through sqrt points).pseudoArcLength ≠ [] :=
      List.ne_nil_of_length_pos (by rwa [length_arcLength])
    rw [samplePolynomial, if_neg some_length, connecting_evaluates (lasts.during k before)]
    simp only [orStop, Option.getD_some]
    change (((through sqrt points).pushPoint _).pushLength sqrt >>= _) = _
    rw [pushLength_through nonempty]
    rfl
  rw [fillFromPolynomial, position]
  simp only [orStop]
  change ∃ later,
    (if _ < polyTime sqrt pp request (valueAt data.positionTraj t) then _ else _) = _ ∧ _
  split_ifs with far
  · obtain ⟨later, filled, kept⟩ := foldlM_through rounds nonempty inStep
    refine ⟨later, ?_, kept⟩
    rw [velocity, acceleration, ticks_eq lasts enough]
    exact filled
  · have none : m = 0 := by
      by_contra some_round
      have start := lasts.during 0 (Nat.pos_of_ne_zero some_round)
      rw [Nat.cast_zero, zero_mul, add_zero] at start
      exact far start
    refine ⟨accessed, ?_, inStep⟩
    rw [none, instants_zero, List.map_nil, List.append_nil]

theorem fillPath_eq (solve : Solver K) (stored : Stored data)
    (forward : 0 < initialTs sqrt pp request) {n m : ℕ}
    (counts : SampleCounts sqrt pp data request n m) {fuel : ℕ} (enough : n + 1 < fuel)
    (more : m < fuel) :
    ∃ accessed, fillPath sqrt solve pp data request fuel =
        .ok ⟨through sqrt (samplePoints sqrt solve pp data request n m), accessed⟩ ∧
      ∀ path ∈ accessed, path.InStep := by
  obtain ⟨accessed, filled, kept⟩ := fillFromTrajectory_eq stored forward counts.trajectory enough
  obtain ⟨later, refilled, kept⟩ := fillFromPolynomial_eq stored counts.polynomial more
    (show 0 < ((instants request.tCur (initialTs sqrt pp request) (n + 1)).map
      (valueAt data.positionTraj)).length by
        rw [List.length_map, length_instants]
        omega) kept
  refine ⟨later, ?_, kept⟩
  rw [fillPath, filled]
  exact refilled

end Filling

section Resampling

variable {sqrt : K → K} {points : List (Vec3 K)} {id : ℕ}

theorem pointOnLeg_through (inside : id + 1 < points.length) (s : K) :
    pointOnLeg (through sqrt points) id s = .ok (legPoint sqrt points id s) := by
  have next : read (through sqrt points).segmentPoint (id + 1) = .ok (points.getD (id + 1) 0) :=
    read_eq inside 0
  have this : read (through sqrt points).segmentPoint id = .ok (points.getD id 0) :=
    read_eq (Nat.lt_of_succ_lt inside) 0
  rw [pointOnLeg, read_eq (by rw [length_arcLength]; omega) 0,
    read_eq (by rwa [length_arcLength]) 0, getD_arcLength (by omega), getD_arcLength inside, next,
    this]
  rfl

variable [LinearOrder K]

theorem goesOn_through (enough : 2 ≤ points.length) (id : ℕ) (s : K) :
    goesOn (through sqrt points) id s =
      .ok (decide (id + 1 < points.length ∧ s ≤ arcLength sqrt points (points.length - 1))) := by
  have last : back (through sqrt points).pseudoArcLength =
      .ok (arcLength sqrt points (points.length - 1)) := by
    rw [back_eq (by rw [length_arcLength]; omega) 0, length_arcLength, getD_arcLength (by omega)]
  have size : sizeMinusTwo (through sqrt points).pseudoArcLength = points.length - 2 := by
    rw [sizeMinusTwo, length_arcLength, if_pos enough]
  rw [goesOn, size, last]
  by_cases inside : id + 1 < points.length
  · rw [if_pos (by omega)]
    simp only [inside, true_and]
    rfl
  · rw [if_neg (by omega)]
    simp only [inside, false_and, decide_false]

theorem onLeg_through (inside : id + 1 < points.length) (s : K) :
    onLeg (through sqrt points) id s =
      .ok (decide (arcLength sqrt points id ≤ s ∧ s < arcLength sqrt points (id + 1))) := by
  rw [onLeg, read_eq (by rw [length_arcLength]; omega) 0, read_eq (by rwa [length_arcLength]) 0,
    getD_arcLength (by omega), getD_arcLength inside]
  change (if arcLength sqrt points id ≤ s then
    Except.ok (decide (s < arcLength sqrt points (id + 1))) else Except.ok false) = _
  by_cases after : arcLength sqrt points id ≤ s
  · rw [if_pos after]
    simp only [after, true_and]
  · rw [if_neg after]
    simp only [after, false_and, decide_false]

theorem sampleLegs_succ (enough : 2 ≤ points.length) (cpsDist : K) (fuel id : ℕ) (s : K)
    (pointSet : List (Vec3 K)) :
    sampleLegs (through sqrt points) cpsDist (fuel + 1) id s pointSet =
      if id + 1 < points.length ∧ s ≤ arcLength sqrt points (points.length - 1) then
        if arcLength sqrt points id ≤ s ∧ s < arcLength sqrt points (id + 1) then
          sampleLegs (through sqrt points) cpsDist fuel id (s + cpsDist)
            (pointSet ++ [legPoint sqrt points id s])
        else sampleLegs (through sqrt points) cpsDist fuel (id + 1) s pointSet
      else .ok pointSet := by
  rw [sampleLegs, goesOn_through enough]
  change (if decide _ = true then _ else _) = _
  simp only [decide_eq_true_eq]
  split_ifs with more here
  · rw [onLeg_through more.1]
    change (if decide _ = true then _ else _) = _
    rw [if_pos (decide_eq_true here), pointOnLeg_through more.1]
    rfl
  · rw [onLeg_through more.1]
    change (if decide _ = true then _ else _) = _
    rw [if_neg (by simpa only [decide_eq_true_eq] using here)]
  · rfl

theorem sampleLegs_inRange (sqrt : K → K) (enough : 2 ≤ points.length) (cpsDist : K)
    (fuel id : ℕ) (s : K) (pointSet : List (Vec3 K)) :
    sampleLegs (through sqrt points) cpsDist fuel id s pointSet ≠ .error .outOfRange := by
  induction fuel generalizing id s pointSet with
  | zero => simp [sampleLegs]
  | succ fuel ih =>
      rw [sampleLegs_succ enough]
      split_ifs
      · exact ih _ _ _
      · exact ih _ _ _
      · simp

theorem resample_inRange (sqrt : K → K) (enough : 2 ≤ points.length) (target : Vec3 K)
    (fuel rounds : ℕ) (cpsDist : K) :
    resample (through sqrt points) target fuel rounds cpsDist ≠ .error .outOfRange := by
  induction rounds generalizing cpsDist with
  | zero => simp [resample]
  | succ rounds ih =>
      have inRange := sampleLegs_inRange sqrt enough (cpsDist / (3 / 2)) fuel 0 0 []
      rw [resample]
      cases sampled : sampleLegs (through sqrt points) (cpsDist / (3 / 2)) fuel 0 0 [] with
      | error stop =>
          rw [sampled] at inRange
          exact inRange
      | ok samples =>
          change (if (samples ++ [target]).length < 7 then _ else _) ≠ _
          split_ifs
          · exact ih _
          · simp

theorem resample_single (point target : Vec3 K) (fuel rounds : ℕ) (cpsDist : K) :
    resample (through sqrt [point]) target (fuel + 1) (rounds + 1) cpsDist =
      .error .outOfRange := by
  have lengths : (through sqrt [point]).pseudoArcLength = [0] := by rw [through_single]
  have more : goesOn (through sqrt [point]) 0 0 = .ok true := by
    rw [goesOn, lengths, if_pos (Nat.zero_le _)]
    change Except.ok (decide ((0 : K) ≤ 0)) = _
    rw [decide_eq_true le_rfl]
  have outside : onLeg (through sqrt [point]) 0 0 = .error .outOfRange := by
    rw [onLeg, lengths]
    change (if (0 : K) ≤ 0 then _ else _) = _
    rw [if_pos le_rfl]
    rfl
  rw [resample, sampleLegs, more]
  simp only [bind, Except.bind, if_true, outside]

end Resampling

section Accesses

variable {sqrt : K → K} {solve : Solver K} {pp : PlanParameters K} {data : LocalData K}
  {request : Request K}

theorem pushLength_first (point : Vec3 K) :
    ((⟨[0], []⟩ : Path K).pushPoint point).pushLength sqrt = .error .outOfRange := by
  have outside : read [point] (sizeMinusTwo [point]) = .error .outOfRange := by
    rw [read, List.getElem?_eq_none (by simp [sizeMinusTwo])]
    rfl
  change (back [point] >>= fun last => read [point] (sizeMinusTwo [point]) >>= _) = _
  rw [outside]
  rfl

variable [LinearOrder K]

theorem samplePolynomial_first (glTraj : PolynomialTraj K) (t : K) (filling : Filling K) :
    samplePolynomial sqrt glTraj ⟨⟨[0], []⟩, []⟩ t ≠ .ok filling := by
  rw [samplePolynomial, if_neg (List.cons_ne_nil _ _)]
  cases glTraj.evaluate t with
  | none => simp [orStop, bind, Except.bind]
  | some point => simp [orStop, bind, Except.bind, pushLength_first]

/-- Without a sample of the trajectory, the first sample of the polynomial reads the point in front
of it, and without one the lengths differ. -/
theorem fillPath_unstarted (stored : Stored data) (late : data.duration + 1 / 1000 ≤ request.tCur)
    {fuel : ℕ} {filling : Filling K}
    (filled : fillPath sqrt solve pp data request fuel = .ok filling) :
    ¬filling.path.InStep := by
  intro inStep
  cases fuel with
  | zero => exact absurd filled (by simp [fillPath, fillFromTrajectory, ticks, orStop, bind,
      Except.bind])
  | succ fuel =>
      rw [fillPath, fillFromTrajectory, ticks, if_neg (not_lt.mpr late)] at filled
      obtain ⟨position, velocity, acceleration⟩ :=
        stored.evaluates (request.tCur - initialTs sqrt pp request)
      change fillFromPolynomial sqrt solve pp data request (fuel + 1) ⟨⟨[0], []⟩, []⟩
        (request.tCur - initialTs sqrt pp request) = _ at filled
      rw [fillFromPolynomial, position] at filled
      simp only [orStop] at filled
      change (if initialTs sqrt pp request < polyTime sqrt pp request
        (valueAt data.positionTraj (request.tCur - initialTs sqrt pp request)) then _ else _) = _
        at filled
      split_ifs at filled with far
      · rw [velocity, acceleration, ticks, if_pos far] at filled
        cases later : ticks (· < polyTime sqrt pp request
            (valueAt data.positionTraj (request.tCur - initialTs sqrt pp request)))
            (initialTs sqrt pp request) fuel
            (initialTs sqrt pp request + initialTs sqrt pp request) with
        | none =>
            rw [later] at filled
            simp [bind, Except.bind] at filled
        | some rest =>
            rw [later] at filled
            change List.foldlM (samplePolynomial sqrt _) _ (_ :: _) = _ at filled
            rw [List.foldlM_cons] at filled
            cases first : samplePolynomial sqrt (connecting sqrt solve pp data request
                (request.tCur - initialTs sqrt pp request)) ⟨⟨[0], []⟩, []⟩
                (initialTs sqrt pp request) with
            | ok next => exact samplePolynomial_first _ _ _ first
            | error stop =>
                rw [connecting] at first
                rw [first] at filled
                cases filled
      · cases filled
        exact absurd inStep (by simp [Path.InStep])

theorem length_samplePoints (n m : ℕ) :
    (samplePoints sqrt solve pp data request n m).length = n + 1 + m := by
  simp only [samplePoints, List.length_append, List.length_map, length_instants]

theorem sampleCounts_enough {n m : ℕ} (counts : SampleCounts sqrt pp data request n m) :
    2 ≤ n + 1 + m ↔
      request.tCur + initialTs sqrt pp request < data.duration + 1 / 1000 ∨
        initialTs sqrt pp request <
          polyTime sqrt pp request (valueAt data.positionTraj request.tCur) := by
  obtain ⟨trajectory, polynomial⟩ := counts
  cases n with
  | succ n =>
      have second := trajectory.during 1 (by omega)
      rw [Nat.cast_one, one_mul] at second
      exact iff_of_true (by omega) (.inl second)
  | zero =>
      have ended := trajectory.ended
      rw [Nat.zero_add, Nat.cast_one, one_mul] at ended
      rw [Nat.cast_zero, zero_mul, add_zero] at polynomial
      cases m with
      | succ m =>
          have first := polynomial.during 0 (Nat.succ_pos m)
          rw [Nat.cast_zero, zero_mul, add_zero] at first
          exact iff_of_true (by omega) (.inr first)
      | zero =>
          have near := polynomial.ended
          rw [Nat.cast_zero, zero_mul, add_zero] at near
          exact iff_of_false (by omega) (not_or.mpr ⟨ended, near⟩)

theorem initFromPrevious_eq (stored : Stored data) {fuel : ℕ} {filling : Filling K}
    (filled : fillPath sqrt solve pp data request fuel = .ok filling) :
    initFromPrevious sqrt solve pp data request fuel =
      (resample filling.path request.localTargetPt fuel fuel (pp.ctrlPtDist * (3 / 2))).map
        fun pointSet => ⟨initialTs sqrt pp request, pointSet,
          [valueAt data.velocityTraj request.tCur, request.localTargetVel,
            valueAt data.accelerationTraj request.tCur, 0],
          decide (pp.planningHorizen / pp.ctrlPtDist * 3 < pointSet.length)⟩ := by
  obtain ⟨-, velocity, acceleration⟩ := stored.evaluates request.tCur
  rw [initFromPrevious, filled, velocity, acceleration]
  cases sampled : resample filling.path request.localTargetPt fuel fuel
      (pp.ctrlPtDist * (3 / 2)) with
  | error stop => simp only [bind, Except.bind, Except.map, sampled]
  | ok pointSet => simp only [bind, Except.bind, Except.map, sampled, orStop]

variable [IsStrictOrderedRing K]

theorem exists_sampleCounts [Archimedean K] (forward : 0 < initialTs sqrt pp request)
    (started : request.tCur < data.duration + 1 / 1000) :
    ∃ n m, SampleCounts sqrt pp data request n m := by
  obtain ⟨count, lasts⟩ := exists_lasts forward request.tCur (data.duration + 1 / 1000)
  cases count with
  | zero =>
      have ended := lasts.ended
      rw [Nat.cast_zero, zero_mul, add_zero] at ended
      exact absurd started ended
  | succ n =>
      obtain ⟨m, later⟩ := exists_lasts forward (initialTs sqrt pp request)
        (polyTime sqrt pp request
          (valueAt data.positionTraj (request.tCur + n * initialTs sqrt pp request)))
      exact ⟨n, m, lasts, later⟩

/-- The filling ends, its rounds read vectors of equal length, and no index is out of range. -/
structure IndexedInStep (sqrt : K → K) (solve : Solver K) (pp : PlanParameters K)
    (data : LocalData K) (request : Request K) (fuel : ℕ) : Prop where
  fills : ∃ filling, fillPath sqrt solve pp data request fuel = .ok filling ∧
    filling.path.InStep ∧ ∀ path ∈ filling.accessed, path.InStep
  inRange : initFromPrevious sqrt solve pp data request fuel ≠ .error .outOfRange

/-- The vectors keep in step and are read inside their elements if and only if the trajectory is
sampled at `t_cur`, and it or the polynomial once more. -/
theorem indexedInStep_iff [Archimedean K] (stored : Stored data) (spread : 0 < pp.ctrlPtDist)
    (moving : 0 < pp.maxVel) :
    (∃ bound, ∀ fuel ≥ bound, IndexedInStep sqrt solve pp data request fuel) ↔
      request.tCur < data.duration + 1 / 1000 ∧
        (request.tCur + initialTs sqrt pp request < data.duration + 1 / 1000 ∨
          initialTs sqrt pp request <
            polyTime sqrt pp request (valueAt data.positionTraj request.tCur)) := by
  have forward : 0 < initialTs sqrt pp request := initialTs_pos spread moving
  by_cases started : request.tCur < data.duration + 1 / 1000
  · obtain ⟨n, m, counts⟩ := exists_sampleCounts forward started
    have filled := fun fuel (enough : n + 1 < fuel) (more : m < fuel) =>
      fillPath_eq solve stored forward counts enough more
    have size : (samplePoints sqrt solve pp data request n m).length = n + 1 + m :=
      length_samplePoints n m
    rw [← sampleCounts_enough counts]
    constructor
    · rintro ⟨bound, indexed⟩
      refine ⟨started, ?_⟩
      by_contra single
      obtain ⟨point, only⟩ := List.length_eq_one_iff.mp (size.trans (show n + 1 + m = 1 by omega))
      obtain ⟨accessed, filled, -⟩ := filled (bound + 2) (by omega) (by omega)
      apply (indexed (bound + 2) (by omega)).inRange
      rw [initFromPrevious_eq stored filled, only, resample_single]
      rfl
    · rintro ⟨-, enough⟩
      refine ⟨n + m + 2, fun fuel large => ?_⟩
      obtain ⟨accessed, filled, kept⟩ := filled fuel (by omega) (by omega)
      refine ⟨⟨_, filled, through_inStep, kept⟩, ?_⟩
      have inRange := resample_inRange sqrt (size.symm ▸ enough) request.localTargetPt
        fuel fuel (pp.ctrlPtDist * (3 / 2))
      rw [initFromPrevious_eq stored filled]
      cases sampled : resample (through sqrt (samplePoints sqrt solve pp data request n m))
          request.localTargetPt fuel fuel (pp.ctrlPtDist * (3 / 2)) with
      | ok pointSet => exact nofun
      | error stop =>
          rw [sampled] at inRange
          exact fun outside => inRange (congrArg Except.error (Except.error.inj outside))
  · refine iff_of_false ?_ fun both => started both.1
    rintro ⟨bound, indexed⟩
    obtain ⟨filling, filled, inStep, -⟩ := (indexed bound le_rfl).fills
    exact fillPath_unstarted stored (not_lt.mp started) filled inStep

end Accesses

theorem uniform_stored {K : Type} [Field K] [LinearOrder K] [IsStrictOrderedRing K] {ts : K}
    (positive : 0 < ts) {points : List (Vec3 K)} (enough : 3 < points.length) :
    ∃ data, updateTrajInfo (UniformBspline.uniform points 3 ts) = some data ∧ Stored data ∧
      data.positionTraj = UniformBspline.uniform points 3 ts ∧
      data.duration = ((points.length : K) - 3) * ts := by
  have regular : Regular 3 (UniformBspline.uniform points 3 ts) :=
    UniformBspline.uniform_regular positive points 3
  have info := updateTrajInfo_eq regular enough
  refine ⟨_, info, ⟨regular, enough, info⟩, rfl, ?_⟩
  have first := UniformBspline.uniform_knot points 3 ts (show 3 < points.length + 3 + 1 by omega)
  have last := UniformBspline.uniform_knot points 3 ts
    (show points.length < points.length + 3 + 1 by omega)
  change (UniformBspline.uniform points 3 ts).u.getD points.length 0 -
    (UniformBspline.uniform points 3 ts).u.getD 3 0 = _
  rw [first, last]
  push_cast
  ring

theorem emergencyStop_stored {K : Type} [Field K] [LinearOrder K] [IsStrictOrderedRing K]
    (stopPos : Vec3 K) : ∃ data, emergencyStop stopPos = some data ∧ Stored data ∧
      data.positionTraj = UniformBspline.uniform (List.replicate 6 stopPos) 3 1 ∧
      data.duration = 3 := by
  have enough : 3 < (List.replicate 6 stopPos).length := by
    rw [List.length_replicate]
    omega
  obtain ⟨data, info, stored, spline, duration⟩ := uniform_stored (one_pos : (0 : K) < 1) enough
  refine ⟨data, ?_, stored, spline, ?_⟩
  · rw [emergencyStop, show (3 : ℤ) = ((3 : ℕ) : ℤ) from rfl, UniformBspline.setUniformBspline_eq,
      Option.bind_eq_bind, Option.bind_some]
    exact info
  · rw [duration, List.length_replicate]
    norm_num

noncomputable def launched : PlanParameters ℝ where
  maxVel := 1 / 2
  maxAcc := 3 / 10
  ctrlPtDist := 2 / 5
  planningHorizen := 6

/-- A target three meters from the stop, `tCur` seconds after it. -/
noncomputable def awayFromStop (tCur : ℝ) : Request ℝ := ⟨0, 0, 0, ⟨3, 0, 0⟩, 0, tCur⟩

theorem awayFromStop_ts (tCur : ℝ) :
    initialTs Real.sqrt launched (awayFromStop tCur) = 6 / 5 := by
  have way : (awayFromStop tCur).startPt - (awayFromStop tCur).localTargetPt =
      Vec3.along .x (-3) := by
    apply Vec3.ext_get
    intro axis
    rw [Vec3.get_sub, Vec3.get_along, awayFromStop, Vec3.get_zero]
    cases axis <;> simp [Vec3.get]
  rw [initialTs, way, Vec3.lengthBy_along Vec3.isSqrt_sqrt, if_pos (by norm_num), launched]
  norm_num

/-- The stop trajectory still lasts when it is sampled for the second time. -/
theorem indexedInStep_stopped : ∃ data, emergencyStop 0 = some data ∧
    ∃ bound, ∀ fuel ≥ bound, IndexedInStep Real.sqrt leastSquares launched data
      (awayFromStop 1) fuel := by
  obtain ⟨data, stopped, stored, -, duration⟩ := emergencyStop_stored (0 : Vec3 ℝ)
  refine ⟨data, stopped, (indexedInStep_iff stored (by norm_num [launched])
    (by norm_num [launched])).mpr ?_⟩
  rw [awayFromStop_ts, duration, awayFromStop]
  norm_num

/-- One second after the end of a stop trajectory that no replanning has replaced. -/
theorem stopped_misindexed : ∃ data, emergencyStop 0 = some data ∧
    ¬∃ bound, ∀ fuel ≥ bound, IndexedInStep Real.sqrt leastSquares launched data
      (awayFromStop 4) fuel := by
  obtain ⟨data, stopped, stored, -, duration⟩ := emergencyStop_stored (0 : Vec3 ℝ)
  refine ⟨data, stopped, ?_⟩
  rintro ⟨bound, indexed⟩
  obtain ⟨filling, filled, inStep, -⟩ := (indexed bound le_rfl).fills
  apply fillPath_unstarted stored _ filled inStep
  rw [duration, awayFromStop]
  norm_num

end RobocupDrone.Planner.ReboundReplan
