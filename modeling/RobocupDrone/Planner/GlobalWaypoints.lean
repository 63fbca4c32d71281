import Mathlib.Algebra.Order.Archimedean.Real.Basic
import Mathlib.Algebra.Order.Floor.Semiring
import RobocupDrone.Library.Legs
import RobocupDrone.Planner.OneSegment

/-! `planGlobalTrajWaypoints`: the points of the global trajectory and the times between them. -/

namespace RobocupDrone.Planner.GlobalWaypoints

open Geometry PolynomialTraj

open UniformBspline (Solver)

variable {K : Type} [Field K]

section

variable [LinearOrder K] [FloorSemiring K]

section Definitions

variable (sqrt : K → K)

def totalLen (startPos : Vec3 K) (waypoints : List (Vec3 K)) : Option K := do
  let first ← waypoints[0]?
  let start := (startPos - first).lengthBy sqrt
  some ((List.range (waypoints.length - 1)).foldl (fun totalLen i =>
    totalLen + (waypoints.getD (i + 1) 0 - waypoints.getD i 0).lengthBy sqrt) (0 + start))

/-- `inter_pt`: part `j` of `idNum` on the way from `a` to `b`. -/
def interPt (a b : Vec3 K) (idNum j : ℕ) : Vec3 K :=
  (1 - (j : K) / (idNum : K)) • a + ((j : K) • b) / (idNum : K)

/-- The points that the loop over `j` inserts between `a` and `b`. -/
def insertedPoints (distThresh : K) (a b : Vec3 K) : List (Vec3 K) :=
  let dist := (b - a).lengthBy sqrt
  if dist > distThresh then
    let idNum := ⌊dist / distThresh⌋₊ + 1
    (List.range' 1 (idNum - 1)).map (interPt a b idNum)
  else []

def interPoints (startPos : Vec3 K) (waypoints : List (Vec3 K)) : Option (K × List (Vec3 K)) := do
  let points := startPos :: waypoints
  let totalLen ← totalLen sqrt startPos waypoints
  let distThresh := max (totalLen / 8) 4
  some (distThresh, (List.range (points.length - 1)).flatMap (fun i =>
    points.getD i 0 :: insertedPoints sqrt distThresh (points.getD i 0) (points.getD (i + 1) 0)) ++
      [points.getD (points.length - 1) 0])

def segmentTimes (maxVel : K) (pos : List (Vec3 K)) : List K :=
  let time := (List.range (pos.length - 1)).map fun i =>
    (pos.getD (i + 1) 0 - pos.getD i 0).lengthBy sqrt / maxVel
  let time := time.modify 0 (· * 2)
  time.modify (time.length - 1) (· * 2)

def planGlobalTrajWaypoints (inverse : Inverse K) (solve : Solver K) (maxVel : K)
    (startPos startVel startAcc : Vec3 K) (waypoints : List (Vec3 K)) (endVel endAcc : Vec3 K) :
    Option (Option (PolynomialTraj K)) := do
  let (_, pos) ← interPoints sqrt startPos waypoints
  let time := segmentTimes sqrt maxVel pos
  if 3 ≤ pos.length then
    let glTraj ← minSnapTraj inverse pos startVel endVel startAcc endAcc time
    some (some glTraj)
  else if pos.length = 2 then
    some (some (oneSegmentTrajGen solve startPos startVel startAcc (pos.getD 1 0) endVel endAcc
      (time.getD 0 0)))
  else some none

end Definitions

end

section Leg

variable {sqrt : K → K} {distThresh : K} {a b : Vec3 K}

theorem interPt_eq (a b : Vec3 K) (n j : ℕ) :
    interPt a b n j = (1 - (j : K) / (n : K)) • a + ((j : K) / (n : K)) • b := by
  apply Vec3.ext_get
  intro axis
  simp only [interPt, Vec3.get_add, Vec3.get_smul, Vec3.get_div]
  ring

theorem interPt_step (a b : Vec3 K) (n j : ℕ) :
    interPt a b n (j + 1) - interPt a b n j = (1 / (n : K)) • (b - a) := by
  rw [interPt_eq, interPt_eq]
  push_cast
  module

variable [LinearOrder K] [IsStrictOrderedRing K]

/-- The points between `a` and `b`, both included. -/
def OnSegment (a b p : Vec3 K) : Prop := ∃ c : K, 0 ≤ c ∧ c ≤ 1 ∧ p = (1 - c) • a + c • b

theorem leg_eq (a b : Vec3 K) {n : ℕ} (parts : 0 < n) :
    a :: (List.range' 1 (n - 1)).map (interPt a b n) ++ [b] =
      (List.range (n + 1)).map (interPt a b n) := by
  have nonzero : (n : K) ≠ 0 := Nat.cast_ne_zero.mpr parts.ne'
  have start : interPt a b n 0 = a := by
    rw [interPt_eq, Nat.cast_zero, zero_div]
    module
  have finish : interPt a b n n = b := by
    rw [interPt_eq, div_self nonzero]
    module
  have indices : List.range n = 0 :: List.range' 1 (n - 1) := by
    rw [List.range_eq_range', ← Nat.succ_pred_eq_of_pos parts, List.range'_succ]
    rfl
  rw [List.range_succ, List.map_append, indices, List.map_cons, start, List.map_singleton, finish]

theorem leg_isChain (exact : Vec3.IsSqrt sqrt) {n : ℕ} (parts : 0 < n)
    (short : (b - a).lengthBy sqrt ≤ distThresh * n) :
    (a :: (List.range' 1 (n - 1)).map (interPt a b n) ++ [b]).IsChain
      fun p q => (q - p).lengthBy sqrt ≤ distThresh := by
  have positive : (0 : K) < n := Nat.cast_pos.mpr parts
  rw [leg_eq a b parts, List.isChain_map, List.isChain_range]
  intro j _
  rw [Nat.succ_eq_add_one, interPt_step, Vec3.lengthBy_smul exact, abs_of_pos (by positivity),
    one_div_mul_eq_div, div_le_iff₀ positive]
  exact short

variable [FloorSemiring K]

theorem insertedPoints_isChain (exact : Vec3.IsSqrt sqrt) (positive : 0 < distThresh)
    (a b : Vec3 K) : (a :: insertedPoints sqrt distThresh a b ++ [b]).IsChain
      fun p q => (q - p).lengthBy sqrt ≤ distThresh := by
  rw [insertedPoints]
  split_ifs with far
  · apply leg_isChain exact (Nat.succ_pos _)
    have parts := (Nat.lt_floor_add_one ((b - a).lengthBy sqrt / distThresh)).le
    rw [div_le_iff₀ positive, mul_comm] at parts
    exact_mod_cast parts
  · exact List.isChain_pair.mpr (not_lt.mp far)

theorem insertedPoints_onSegment {p : Vec3 K} (inserted : p ∈ insertedPoints sqrt distThresh a b) :
    OnSegment a b p := by
  rw [insertedPoints] at inserted
  split_ifs at inserted with far
  · rw [List.mem_map] at inserted
    obtain ⟨j, member, rfl⟩ := inserted
    rw [List.mem_range'_1] at member
    refine ⟨_, by positivity, ?_, interPt_eq a b _ j⟩
    apply div_le_one_of_le₀ _ (Nat.cast_nonneg _)
    exact_mod_cast (show j ≤ ⌊(b - a).lengthBy sqrt / distThresh⌋₊ + 1 by omega)
  · contradiction

theorem length_insertedPoints (exact : Vec3.IsSqrt sqrt) (positive : 0 < distThresh)
    (a b : Vec3 K) :
    ((insertedPoints sqrt distThresh a b).length : K) ≤ (b - a).lengthBy sqrt / distThresh := by
  have nonneg := div_nonneg (Vec3.lengthBy_nonneg exact (b - a)) positive.le
  rw [insertedPoints]
  split_ifs with far
  · rw [List.length_map, List.length_range', Nat.add_sub_cancel]
    exact Nat.floor_le nonneg
  · rwa [List.length_nil, Nat.cast_zero]

end Leg

section Path

variable {sqrt : K → K}

def legLength (sqrt : K → K) (a b : Vec3 K) : K := (b - a).lengthBy sqrt

theorem totalLen_eq (sqrt : K → K) (startPos first : Vec3 K) (rest : List (Vec3 K)) :
    totalLen sqrt startPos (first :: rest) =
      some (Legs.total (legLength sqrt) startPos (first :: rest)) := by
  have loop := Legs.foldl_eq_total (legLength sqrt) first rest 0
    (0 + (startPos - first).lengthBy sqrt)
  rw [zero_add, Vec3.lengthBy_sub_comm] at loop
  simp only [totalLen, List.getElem?_cons_zero, Option.bind_eq_bind, Option.bind_some,
    List.length_cons, Nat.add_sub_cancel, Legs.total, zero_add]
  rw [Vec3.lengthBy_sub_comm]
  exact congrArg some loop

@[simp] theorem length_segmentTimes (sqrt : K → K) (maxVel : K) (pos : List (Vec3 K)) :
    (segmentTimes sqrt maxVel pos).length = pos.length - 1 := by
  simp only [segmentTimes, List.length_modify, List.length_map, List.length_range]

variable [LinearOrder K] [FloorSemiring K]

/-- The points of the global trajectory, for the threshold `distThresh`. -/
structure WayPointPath (sqrt : K → K) (distThresh : K) (startPos : Vec3 K)
    (waypoints points : List (Vec3 K)) : Prop where
  start : points.head? = some startPos
  finish : points.getLast? = waypoints.getLast?
  order : (startPos :: waypoints).Sublist points
  legs : ∃ inserted : Vec3 K → Vec3 K → List (Vec3 K),
    points = Legs.refine inserted startPos waypoints ∧
      ∀ a b, ∀ p ∈ inserted a b, OnSegment a b p
  spacing : points.IsChain fun p q => (q - p).lengthBy sqrt ≤ distThresh
  count : points.length - 1 ≤ waypoints.length + 8

theorem interPoints_eq (sqrt : K → K) (startPos first : Vec3 K) (rest : List (Vec3 K)) :
    interPoints sqrt startPos (first :: rest) =
      some (max (Legs.total (legLength sqrt) startPos (first :: rest) / 8) 4,
        Legs.refine (insertedPoints sqrt
          (max (Legs.total (legLength sqrt) startPos (first :: rest) / 8) 4)) startPos
            (first :: rest)) := by
  rw [interPoints, totalLen_eq, Legs.refine_eq_flatMap startPos (first :: rest) 0]
  rfl

variable [IsStrictOrderedRing K]

theorem total_insertedPoints (exact : Vec3.IsSqrt sqrt) {distThresh : K} (positive : 0 < distThresh)
    (startPos : Vec3 K) (waypoints : List (Vec3 K))
    (enough : Legs.total (legLength sqrt) startPos waypoints / 8 ≤ distThresh) :
    Legs.total (fun a b => (insertedPoints sqrt distThresh a b).length) startPos waypoints ≤ 8 := by
  have counts := Legs.map_total (Nat.castAddMonoidHom K)
    (fun a b => (insertedPoints sqrt distThresh a b).length) startPos waypoints
  have lengths := Legs.map_total (AddMonoidHom.mulRight distThresh⁻¹) (legLength sqrt) startPos
    waypoints
  simp only [AddMonoidHom.mulRight_apply, ← div_eq_mul_inv] at lengths
  have legs := Legs.total_le_total (M := K)
    (fun a b => length_insertedPoints exact positive a b) startPos waypoints
  have whole : Legs.total (legLength sqrt) startPos waypoints / distThresh ≤ 8 := by
    rw [div_le_iff₀ positive]
    linarith
  have bound : ((Legs.total (fun a b => (insertedPoints sqrt distThresh a b).length) startPos
      waypoints : ℕ) : K) ≤ 8 := by
    exact (counts.le.trans (legs.trans lengths.ge)).trans whole
  exact_mod_cast bound

/-- The path of `planGlobalTrajWaypoints`. -/
theorem interPoints_path (exact : Vec3.IsSqrt sqrt) (startPos : Vec3 K) {waypoints : List (Vec3 K)}
    (nonempty : waypoints ≠ []) :
    ∃ len points, totalLen sqrt startPos waypoints = some len ∧
      interPoints sqrt startPos waypoints = some (max (len / 8) 4, points) ∧
      WayPointPath sqrt (max (len / 8) 4) startPos waypoints points := by
  obtain ⟨first, rest, rfl⟩ := List.exists_cons_of_ne_nil nonempty
  have positive : 0 < max (Legs.total (legLength sqrt) startPos (first :: rest) / 8) 4 :=
    lt_max_of_lt_right (by norm_num)
  refine ⟨_, _, totalLen_eq sqrt startPos first rest, interPoints_eq sqrt startPos first rest,
    ?_, ?_, ?_, ?_, ?_, ?_⟩
  · exact Legs.head?_refine _ _
  · rw [Legs.getLast?_refine, List.getLast?_cons_cons]
  · exact Legs.sublist_refine _ _
  · exact ⟨_, rfl, fun a b p inserted => insertedPoints_onSegment inserted⟩
  · exact Legs.isChain_refine (insertedPoints_isChain exact positive) _ _
  · have few := total_insertedPoints exact positive startPos (first :: rest) (le_max_left _ _)
    rw [Legs.length_refine]
    omega

theorem planGlobalTrajWaypoints_segments (exact : Vec3.IsSqrt sqrt) (inverse : Inverse K)
    (solve : Solver K) (maxVel : K) (startPos startVel startAcc : Vec3 K)
    {waypoints : List (Vec3 K)} (nonempty : waypoints ≠ []) (endVel endAcc : Vec3 K) :
    ∃ traj, planGlobalTrajWaypoints sqrt inverse solve maxVel startPos startVel startAcc waypoints
        endVel endAcc = some (some traj) ∧
      1 ≤ traj.times.length ∧ traj.times.length ≤ waypoints.length + 8 := by
  obtain ⟨len, points, -, made, path⟩ := interPoints_path exact startPos nonempty
  have count := path.count
  have given := path.order.length_le
  have some_waypoint := List.length_pos_iff.mpr nonempty
  rw [List.length_cons] at given
  have times := length_segmentTimes sqrt maxVel points
  rw [planGlobalTrajWaypoints, made]
  by_cases inner : 3 ≤ points.length
  · refine ⟨solved inverse points startVel endVel startAcc endAcc (segmentTimes sqrt maxVel points),
      ?_, ?_⟩
    · simp only [Option.bind_eq_bind, Option.bind_some, if_pos inner,
        minSnapTraj_eq inverse startVel endVel startAcc endAcc
          (show 2 ≤ (segmentTimes sqrt maxVel points).length by omega)
          (show (segmentTimes sqrt maxVel points).length + 1 ≤ points.length by omega)]
    · rw [solved, ofSolution, times]
      omega
  · refine ⟨oneSegmentTrajGen solve startPos startVel startAcc (points.getD 1 0) endVel endAcc
      ((segmentTimes sqrt maxVel points).getD 0 0), ?_, ?_⟩
    · simp only [Option.bind_eq_bind, Option.bind_some, if_neg inner,
        if_pos (show points.length = 2 by omega)]
    · rw [oneSegmentTrajGen, addSegment]
      simp only [List.nil_append, List.length_singleton]
      omega

end Path

/-- A short leg and one of three thresholds. -/
theorem interPoints_path_detour :
    ∃ len points, totalLen Real.sqrt 0 [⟨3, 0, 0⟩, ⟨3, 12, 0⟩] = some len ∧
      interPoints Real.sqrt 0 [⟨3, 0, 0⟩, ⟨3, 12, 0⟩] = some (max (len / 8) 4, points) ∧
      WayPointPath Real.sqrt (max (len / 8) 4) 0 [⟨3, 0, 0⟩, ⟨3, 12, 0⟩] points :=
  interPoints_path Vec3.isSqrt_sqrt 0 (List.cons_ne_nil _ _)

end RobocupDrone.Planner.GlobalWaypoints
