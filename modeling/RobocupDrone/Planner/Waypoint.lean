import Mathlib.Data.Nat.Sqrt
import RobocupDrone.Controller.Invariants

/-! The planner's side of a goal: `waypointCallback` and `planNextWaypoint`, and whether the
controller recognises the end point that they adopt. -/

namespace RobocupDrone.Planner

open Geometry Controller

inductive FsmExecState
  | init | waitTarget | genNewTraj | replanTraj | execTraj | emergencyStop | sequentialStart
  deriving DecidableEq, Repr

structure EgoReplanFsm where
  execState : FsmExecState
  continouslyCalledTimes : Int
  haveTarget : Bool
  haveNewTarget : Bool
  odomPos : Vec3 ℚ
  initPt : Vec3 ℚ
  endPt : Vec3 ℚ
  endVel : Vec3 ℚ
  deriving DecidableEq, Repr

def changeFSMExecState (newState : FsmExecState) (s : EgoReplanFsm) : EgoReplanFsm :=
  { s with
    continouslyCalledTimes := if newState = s.execState then s.continouslyCalledTimes + 1 else 1
    execState := newState }

/-- `floor(dist / dist_thresh) + 1` for a distance above the threshold of 4 m, computed on
the squared distance. -/
def idNum (distSq : ℚ) : Nat :=
  if distSq > 4 * 4 then Nat.sqrt ⌊distSq / (4 * 4)⌋₊ + 1 else 1

def interPt (a b : Vec3 ℚ) (j idNum : Nat) : Vec3 ℚ :=
  let along (u v : ℚ) : ℚ := u * (1 - j / idNum) + v * j / idNum
  ⟨along a.x b.x, along a.y b.y, along a.z b.z⟩

def interPoints (startPos endPos : Vec3 ℚ) : List (Vec3 ℚ) :=
  let n := idNum (endPos - startPos).normSq
  startPos :: (List.range (n - 1)).map (fun j => interPt startPos endPos (j + 1) n) ++ [endPos]

/-- The points of the global trajectory; `none` where the source returns false. -/
def planGlobalTraj (startPos endPos : Vec3 ℚ) : Option (List (Vec3 ℚ)) :=
  let points := interPoints startPos endPos
  if 2 ≤ points.length then some points else none

/-- One look at the loop condition of `planNextWaypoint`. The flag says that the callback
goes on waiting; other callbacks run before it looks again. -/
def awaitExecTraj (s : EgoReplanFsm) : EgoReplanFsm × Bool :=
  if s.execState = .execTraj then (changeFSMExecState .replanTraj s, false) else (s, true)

def planNextWaypoint (nextWp : Vec3 ℚ) (s : EgoReplanFsm) : EgoReplanFsm × Bool :=
  match planGlobalTraj s.odomPos nextWp with
  | some _ =>
      let s := { s with
        endPt := nextWp
        endVel := ⟨0, 0, 0⟩
        haveTarget := true
        haveNewTarget := true }
      if s.execState = .waitTarget then (changeFSMExecState .genNewTraj s, false)
      else awaitExecTraj s
  | none => (s, false)

def waypointCallback (msg : PoseStamped) (s : EgoReplanFsm) : EgoReplanFsm × Bool :=
  if msg.position.z < -0.1 then (s, false)
  else planNextWaypoint ⟨msg.position.x, msg.position.y, 1.0⟩ { s with initPt := s.odomPos }

theorem idNum_floor (v : Vec3 ℚ) (far : 4 * 4 < v.normSq) :
    idNum v.normSq = ⌊v.norm / 4⌋₊ + 1 := by
  have positive : 0 ≤ v.normSq := le_trans (by norm_num) far.le
  have nonneg : (0 : ℝ) ≤ v.normSq := by exact_mod_cast positive
  have length := v.norm_nonneg
  have same : Nat.sqrt ⌊v.normSq / (4 * 4)⌋₊ = ⌊v.norm / 4⌋₊ := by
    apply eq_of_forall_le_iff
    intro k
    rw [Nat.le_sqrt', Nat.le_floor_iff (by positivity), Nat.le_floor_iff (by positivity),
      le_div_iff₀ (by norm_num), le_div_iff₀ (by norm_num), Vec3.norm,
      Real.le_sqrt (by positivity) nonneg, mul_pow]
    constructor
    · intro below
      have real : ((k ^ 2 : ℕ) : ℝ) * (4 * 4) ≤ v.normSq := by exact_mod_cast below
      push_cast at real
      linarith
    · intro below
      have real : ((k ^ 2 : ℕ) : ℝ) * (4 * 4) ≤ v.normSq := by
        push_cast
        linarith
      exact_mod_cast real
  rw [idNum, if_pos far, same]

theorem planGlobalTraj_succeeds (startPos endPos : Vec3 ℚ) :
    planGlobalTraj startPos endPos = some (interPoints startPos endPos) := by
  have enough : 2 ≤ (interPoints startPos endPos).length := by
    simp only [interPoints, List.cons_append, List.length_cons, List.length_append]
    omega
  simp [planGlobalTraj, enough]

theorem planNextWaypoint_endPt (nextWp : Vec3 ℚ) (s : EgoReplanFsm) :
    (planNextWaypoint nextWp s).1.endPt = nextWp := by
  simp only [planNextWaypoint, planGlobalTraj_succeeds, awaitExecTraj]
  split_ifs <;> rfl

theorem waypointCallback_endPt {msg : PoseStamped} (admitted : -0.1 ≤ msg.position.z)
    (s : EgoReplanFsm) :
    (waypointCallback msg s).1.endPt = ⟨msg.position.x, msg.position.y, 1⟩ := by
  rw [waypointCallback, if_neg (not_lt.mpr admitted), planNextWaypoint_endPt]
  norm_num

theorem checkPOS_iff (s : Fsm) :
    (checkPOS s).pauseTrack = true ↔ (s.odomPos - s.curTarget).norm < ((1 / 2 : ℚ) : ℝ) := by
  rw [Vec3.norm_lt_iff _ (by norm_num)]
  simp only [checkPOS, decide_eq_true_eq]
  norm_num

/-- For every goal message that publishing `target` sends, a vehicle at the end point that
`planner` adopts for it is less than 0.5 m from `cur_target_`, so that a tick in `TRACKING`
ends it. -/
def ArrivalAgrees (cfg : Config) (inp : TickInput) (target : Vec3 ℚ) (s : Fsm)
    (planner : EgoReplanFsm) : Prop :=
  ∀ goal, Effect.targetPub goal ∈ (pubNewTarget inp target s).2 →
    let arrived := { (pubNewTarget inp target s).1 with
      odomPos := (waypointCallback goal planner).1.endPt }
    (arrived.odomPos - arrived.curTarget).norm < ((1 / 2 : ℚ) : ℝ) ∧
      (fsmStateLoopCallback cfg inp { arrived with fsmState := .tracking }).1.fsmState = .hold

theorem tracking_ends_iff (cfg : Config) (inp : TickInput) {s : Fsm}
    (state : s.fsmState = .tracking) :
    (fsmStateLoopCallback cfg inp s).1.fsmState = .hold ↔
      (s.odomPos - s.curTarget).norm < ((1 / 2 : ℚ) : ℝ) := by
  have opened : (openTick inp s).fsmState = .tracking := state
  rw [← checkPOS_iff]
  change _ ↔ (openTick inp s).pauseTrack = true
  simp only [fsmStateLoopCallback, opened, trackingTick]
  split_ifs with near
  · simp [changeFSMState, near]
  · simp [opened, near]

theorem arrival_distance {x y z w : ℚ} :
    ((⟨x, y, w⟩ : Vec3 ℚ) - ⟨x, y, z⟩).norm < ((1 / 2 : ℚ) : ℝ) ↔ |z - w| < 1 / 2 := by
  rw [Vec3.norm_lt_iff _ (by norm_num), Vec3.normSq_vertical, abs_sub_comm, ← abs_mul_abs_self]
  constructor
  · intro below
    exact lt_of_mul_self_lt_mul_self₀ (by norm_num) below
  · intro below
    exact mul_self_lt_mul_self (abs_nonneg _) below

/-- The controller keeps the configured height and the planner replaces it by 1 m, so they
agree exactly about the targets less than 0.5 m away from that height. -/
theorem arrival_agrees_iff (cfg : Config) (inp : TickInput) (target : Vec3 ℚ)
    (admitted : -0.1 ≤ target.z) (s : Fsm) (planner : EgoReplanFsm) :
    ArrivalAgrees cfg inp target s planner ↔ |target.z - 1| < 1 / 2 := by
  have adopted : (waypointCallback ⟨inp.now .goalStamp, "world", target⟩ planner).1.endPt =
      ⟨target.x, target.y, 1⟩ := waypointCallback_endPt admitted planner
  rw [← arrival_distance (x := target.x) (y := target.y) (z := target.z) (w := 1)]
  simp only [ArrivalAgrees, pubNewTarget, List.mem_singleton, Effect.targetPub.injEq, forall_eq,
    adopted, tracking_ends_iff]
  exact and_self_iff

def idlePlanner : EgoReplanFsm :=
  ⟨.waitTarget, 1, false, false, takeoffPos, ⟨0, 0, 0⟩, ⟨0, 0, 0⟩, ⟨0, 0, 0⟩⟩

theorem arrival_agrees_first_target :
    ArrivalAgrees expTest2 ⟨fun _ => 0, none, false⟩ (expTest2.targetPoints 0)
      (.init zeroMemory 0) idlePlanner :=
  (arrival_agrees_iff _ _ _ (by decide +kernel) _ _).mpr (by decide +kernel)

/-- The fourth target of `exp_test2.launch` lies at 0.5 m: at the planner's end point the
controller goes on tracking. -/
theorem low_target_missed :
    -0.1 ≤ (expTest2.targetPoints 3).z ∧
      ¬ArrivalAgrees expTest2 ⟨fun _ => 0, none, false⟩ (expTest2.targetPoints 3)
        (.init zeroMemory 0) idlePlanner := by
  refine ⟨by decide +kernel, fun agrees => ?_⟩
  have ended := (agrees _ (List.mem_singleton_self _)).2
  revert ended
  decide +kernel

end RobocupDrone.Planner
