import Mathlib.Algebra.Order.Round
import RobocupDrone.Planner.Waypoint

/-! `EGOReplanFSM`: its members and callbacks. The optimiser, the occupancy map and the stored
trajectories of the other drones answer through the inputs of a callback. -/

namespace RobocupDrone.Planner

open Geometry Reactive
open Controller (Time PoseStamped)

def toSec (duration : Time) : ℚ := duration / 1000000000

def manualTarget : Int := 1

def presetTarget : Int := 2

/-- The parameters that `init` reads; `wps` are the given way-points. -/
structure ReplanConfig where
  targetType : Int
  noReplanThresh : ℚ
  replanThresh : ℚ
  waypointNum : Int
  wps : Nat → Vec3 ℚ
  planningHorizen : ℚ
  emergencyTime : ℚ
  realworldExperiment : Bool
  failSafe : Bool
  droneId : Int
  swarmClearance : ℚ

/-- `LocalTrajData`. The position trajectory is given by its values `evaluateDeBoorT(t)`. -/
structure LocalTrajData where
  startTime : Time
  duration : ℚ
  position : ℚ → Vec3 ℚ

/-- The members that the callbacks read or set. `depthOdomTimeout` is the flag of the map, and
`waiting` counts the calls of `planNextWaypoint` that spin. -/
structure ReplanFsm extends EgoReplanFsm where
  haveOdom : Bool
  haveTrigger : Bool
  haveRecvPreAgent : Bool
  flagEscapeEmergency : Bool
  enableFailSafe : Bool
  odomVel : Vec3 ℚ
  localTargetPt : Vec3 ℚ
  wpId : Nat
  localData : LocalTrajData
  depthOdomTimeout : Bool
  waiting : Nat

/-- One call of `reboundReplan`: the local target chosen before it and, on success, the
trajectory that it stores. -/
structure Attempt where
  localTargetPt : Vec3 ℚ
  planned : Option LocalTrajData

structure ExecInput where
  now : Time
  attempts : Nat → Attempt

/-- An entry of `swarm_trajs_buf_` with its prediction for the current time. -/
structure SwarmAgent where
  droneId : Int
  predicted : Vec3 ℚ

structure SafetyInput where
  now : Time
  inflateOccupancy : Vec3 ℚ → Int
  swarm : List SwarmAgent
  attempts : Nat → Attempt

/-- A broadcast trajectory: `startPt` is its first point, and `collision` the answer of
`planner_manager_->checkCollision(id)` once it is stored. -/
structure BroadcastInput where
  droneId : Int
  startTime : Time
  now : Time
  startPt : Vec3 ℚ
  collision : Bool

inductive Event
  | exec (inp : ExecInput)
  | safety (inp : SafetyInput)
  | targetCheck
  | waypoint (msg : PoseStamped)
  | trigger
  | odom (position velocity : Vec3 ℚ)
  | swarmTrajs (droneIdFrom : Int) (orders : List Int)
  | broadcastBspline (msg : BroadcastInput)
  /-- `updateOccupancyCallback` finds odometry or depth lost -/
  | depthLost
  /-- `readGivenWps` plans to the first of the given way-points -/
  | givenWps
  /-- the innermost waiting `planNextWaypoint` looks at its condition -/
  | spin

inductive Effect
  | egoState (data : Bool)
  | bspline (traj : LocalTrajData)
  | swarmTrajs
  | broadcastBspline (traj : LocalTrajData)
  /-- `callEmergencyStop`, which publishes the trajectory that rests at `stopPos` -/
  | emergencyStop (stopPos : Vec3 ℚ)
  | targetExist (data : Bool)

def ReplanFsm.change (newState : FsmExecState) (s : ReplanFsm) : ReplanFsm :=
  { s with toEgoReplanFsm := changeFSMExecState newState s.toEgoReplanFsm }

/-- `norm() < r` and `norm() > r` on squared lengths. -/
def normLt (v : Vec3 ℚ) (r : ℚ) : Bool := decide (0 < r ∧ v.normSq < r * r)

def normGt (v : Vec3 ℚ) (r : ℚ) : Bool := decide (r < 0 ∨ r * r < v.normSq)

def callReboundReplan (attempt : Attempt) (s : ReplanFsm) : ReplanFsm × List Effect × Bool :=
  let s := { s with localTargetPt := attempt.localTargetPt, haveNewTarget := false }
  match attempt.planned with
  | some traj => ({ s with localData := traj }, [.bspline traj], true)
  | none => (s, [], false)

def tryReplan (attempts : Nat → Attempt) : Nat → Nat → ReplanFsm →
    ReplanFsm × List Effect × Bool
  | 0, _, s => (s, [], false)
  | trials + 1, index, s =>
      match callReboundReplan (attempts index) s with
      | (s, effects, true) => (s, effects, true)
      | (s, _, false) => tryReplan attempts trials (index + 1) s

def planFromGlobalTraj (trialTimes : Nat) (attempts : Nat → Attempt) (s : ReplanFsm) :
    ReplanFsm × List Effect × Bool :=
  tryReplan attempts trialTimes 0 s

/-- From the current trajectory, then with a polynomial, then `trialTimes` times with a random
one. -/
def planFromCurrentTraj (trialTimes : Nat) (attempts : Nat → Attempt) (s : ReplanFsm) :
    ReplanFsm × List Effect × Bool :=
  tryReplan attempts (2 + trialTimes) 0 s

def publishSwarmTrajs (startupPub : Bool) (s : ReplanFsm) : List Effect :=
  if startupPub then [.swarmTrajs, .broadcastBspline s.localData]
  else [.broadcastBspline s.localData]

/-- What `SEQUENTIAL_START`, `GEN_NEW_TRAJ` and `REPLAN_TRAJ` do with the outcome of planning. -/
def adoptPlan (startupPub : Bool) (failed : FsmExecState)
    (outcome : ReplanFsm × List Effect × Bool) : ReplanFsm × List Effect :=
  match outcome with
  | (s, effects, true) => (s.change .execTraj, effects ++ publishSwarmTrajs startupPub s)
  | (s, effects, false) => (s.change failed, effects)

def ReplanFsm.planNextWaypoint (nextWp : Vec3 ℚ) (s : ReplanFsm) : ReplanFsm :=
  let (ego, waits) := Planner.planNextWaypoint nextWp s.toEgoReplanFsm
  { s with
    toEgoReplanFsm := ego
    waiting := if waits then s.waiting + 1 else s.waiting }

/-- The trajectory of `EmergencyStop` has six equal control points and lasts three seconds. -/
def callEmergencyStop (now : Time) (stopPos : Vec3 ℚ) (s : ReplanFsm) :
    ReplanFsm × List Effect :=
  ({ s with localData := ⟨now, 3, fun _ => stopPos⟩ }, [.emergencyStop stopPos])

def initTick (s : ReplanFsm) : ReplanFsm × List Effect :=
  if s.haveOdom = false then (s, []) else (s.change .waitTarget, [])

def waitTargetTick (s : ReplanFsm) : ReplanFsm × List Effect :=
  if s.haveTarget = false ∨ s.haveTrigger = false then (s, [.egoState true])
  else (s.change .sequentialStart, [])

def sequentialStartTick (cfg : ReplanConfig) (inp : ExecInput) (s : ReplanFsm) :
    ReplanFsm × List Effect :=
  if cfg.droneId ≤ 0 ∨ (1 ≤ cfg.droneId ∧ s.haveRecvPreAgent = true) then
    if s.haveOdom = true ∧ s.haveTarget = true ∧ s.haveTrigger = true then
      adoptPlan true .sequentialStart (planFromGlobalTraj 10 inp.attempts s)
    else (s, [])
  else (s, [])

def genNewTrajTick (inp : ExecInput) (s : ReplanFsm) : ReplanFsm × List Effect :=
  let outcome := planFromGlobalTraj 10 inp.attempts s
  let (s, effects) := adoptPlan false .genNewTraj outcome
  if outcome.2.2 then ({ s with flagEscapeEmergency := true }, effects) else (s, effects)

def replanTrajTick (inp : ExecInput) (s : ReplanFsm) : ReplanFsm × List Effect :=
  adoptPlan false .replanTraj (planFromCurrentTraj 1 inp.attempts s)

def execTrajTick (cfg : ReplanConfig) (inp : ExecInput) (s : ReplanFsm) :
    ReplanFsm × List Effect :=
  let info := s.localData
  let tCur := min info.duration (toSec (inp.now - info.startTime))
  let pos := info.position tCur
  if cfg.targetType = presetTarget ∧ (s.wpId : Int) < cfg.waypointNum - 1 ∧
      normLt (s.endPt - pos) cfg.noReplanThresh then
    ({ s with wpId := s.wpId + 1 }.planNextWaypoint (cfg.wps (s.wpId + 1)), [])
  else if normLt (s.localTargetPt - s.endPt) 0.001 then
    if tCur > info.duration - 0.01 then
      let s := { s with haveTarget := false, haveTrigger := false }
      let s := if cfg.targetType = presetTarget then
        { s with wpId := 0 }.planNextWaypoint (cfg.wps 0) else s
      (s.change .waitTarget, [])
    else if normGt (s.endPt - pos) cfg.noReplanThresh ∧ tCur > cfg.replanThresh then
      (s.change .replanTraj, [])
    else (s, [])
  else if tCur > cfg.replanThresh then (s.change .replanTraj, [])
  else (s, [])

def emergencyStopTick (inp : ExecInput) (s : ReplanFsm) : ReplanFsm × List Effect :=
  let (s, effects) :=
    if s.flagEscapeEmergency then callEmergencyStop inp.now s.odomPos s
    else if s.enableFailSafe = true ∧ normLt s.odomVel 0.1 then (s.change .genNewTraj, [])
    else (s, [])
  ({ s with flagEscapeEmergency := false }, effects)

def execFSMCallback (cfg : ReplanConfig) (inp : ExecInput) (s : ReplanFsm) :
    ReplanFsm × List Effect :=
  match s.execState with
  | .init => initTick s
  | .waitTarget => waitTargetTick s
  | .sequentialStart => sequentialStartTick cfg inp s
  | .genNewTraj => genNewTrajTick inp s
  | .replanTraj => replanTrajTick inp s
  | .execTraj => execTrajTick cfg inp s
  | .emergencyStop => emergencyStopTick inp s

def SafetyIdle (s : ReplanFsm) : Prop :=
  s.execState = .waitTarget ∨ toSec s.localData.startTime < 0.00001

instance (s : ReplanFsm) : Decidable (SafetyIdle s) := inferInstanceAs (Decidable (_ ∨ _))

def agentClose (cfg : ReplanConfig) (swarm : List SwarmAgent) (pCur : Vec3 ℚ) : Bool :=
  swarm.zipIdx.any fun (agent, id) =>
    agent.droneId = id ∧ agent.droneId ≠ cfg.droneId ∧
      normLt (pCur - agent.predicted) cfg.swarmClearance

/-- The times `t` of the loop of `checkCollisionCallback`. -/
def sampleTimes (tCur duration : ℚ) : List ℚ :=
  ((List.range ⌈(duration - tCur) / 0.01⌉₊).map fun (k : Nat) => tCur + k * 0.01).takeWhile
    fun t => !decide (tCur < duration * 2 / 3 ∧ duration * 2 / 3 ≤ t)

def firstOccupied (cfg : ReplanConfig) (inp : SafetyInput) (info : LocalTrajData) : Option ℚ :=
  let tCur := toSec (inp.now - info.startTime)
  (sampleTimes tCur info.duration).find? fun t =>
    decide (inp.inflateOccupancy (info.position t) ≠ 0) ||
      agentClose cfg inp.swarm (info.position tCur)

def checkTrajectory (cfg : ReplanConfig) (inp : SafetyInput) (s : ReplanFsm) :
    ReplanFsm × List Effect :=
  match firstOccupied cfg inp s.localData with
  | none => (s, [])
  | some t =>
      let tCur := toSec (inp.now - s.localData.startTime)
      match planFromCurrentTraj 1 inp.attempts s with
      | (s, effects, true) => (s.change .execTraj, effects ++ publishSwarmTrajs false s)
      | (s, effects, false) =>
          if t - tCur < cfg.emergencyTime then (s.change .emergencyStop, effects)
          else (s.change .replanTraj, effects)

def checkCollisionCallback (cfg : ReplanConfig) (inp : SafetyInput) (s : ReplanFsm) :
    ReplanFsm × List Effect :=
  if SafetyIdle s then (s, [])
  else if s.depthOdomTimeout then
    checkTrajectory cfg inp ({ s with enableFailSafe := false }.change .emergencyStop)
  else checkTrajectory cfg inp s

def BroadcastCollides (cfg : ReplanConfig) (msg : BroadcastInput) (s : ReplanFsm) : Prop :=
  msg.droneId ≠ cfg.droneId ∧ |toSec (msg.now - msg.startTime)| ≤ 0.25 ∧
    normGt (msg.startPt - s.odomPos) (cfg.planningHorizen * 4 / 3) = false ∧
    msg.collision = true

instance (cfg : ReplanConfig) (msg : BroadcastInput) (s : ReplanFsm) :
    Decidable (BroadcastCollides cfg msg s) :=
  inferInstanceAs (Decidable (_ ∧ _))

def broadcastBsplineCallback (cfg : ReplanConfig) (msg : BroadcastInput) (s : ReplanFsm) :
    ReplanFsm :=
  if msg.droneId = cfg.droneId then s
  else if |toSec (msg.now - msg.startTime)| > 0.25 then s
  else if normGt (msg.startPt - s.odomPos) (cfg.planningHorizen * 4 / 3) then s
  else if msg.collision then s.change .replanTraj
  else s

def swarmTrajsCallback (droneIdFrom : Int) (orders : List Int) (s : ReplanFsm) : ReplanFsm :=
  if s.haveOdom = false then s
  else if (orders.length : Int) ≠ droneIdFrom + 1 then s
  else if orders.head? ≠ some 3 then s
  else { s with haveRecvPreAgent := true }

def ReplanFsm.waypointCallback (msg : PoseStamped) (s : ReplanFsm) : ReplanFsm :=
  let (ego, waits) := Planner.waypointCallback msg s.toEgoReplanFsm
  { s with
    toEgoReplanFsm := ego
    waiting := if waits then s.waiting + 1 else s.waiting }

/-- A waiting call that finds `EXEC_TRAJ` returns. -/
def ReplanFsm.spinOnce (s : ReplanFsm) : ReplanFsm :=
  if s.waiting = 0 then s
  else
    let (ego, waits) := awaitExecTraj s.toEgoReplanFsm
    { s with
      toEgoReplanFsm := ego
      waiting := if waits then s.waiting else s.waiting - 1 }

def checkTargetExistCallback (s : ReplanFsm) : List Effect :=
  if s.haveTarget = false then [.targetExist false] else []

def step (cfg : ReplanConfig) (s : ReplanFsm) : Event → ReplanFsm × List Effect
  | .exec inp => execFSMCallback cfg inp s
  | .safety inp => checkCollisionCallback cfg inp s
  | .targetCheck => (s, checkTargetExistCallback s)
  | .waypoint msg =>
      if cfg.targetType = manualTarget then (s.waypointCallback msg, []) else (s, [])
  | .trigger =>
      if cfg.targetType = presetTarget then
        ({ s with haveTrigger := true, initPt := s.odomPos }, [])
      else (s, [])
  | .odom position velocity =>
      ({ s with odomPos := position, odomVel := velocity, haveOdom := true }, [])
  | .swarmTrajs droneIdFrom orders => (swarmTrajsCallback droneIdFrom orders s, [])
  | .broadcastBspline msg => (broadcastBsplineCallback cfg msg s, [])
  | .depthLost => ({ s with depthOdomTimeout := true }, [])
  | .givenWps =>
      if cfg.targetType = presetTarget ∧ 0 < cfg.waypointNum then
        ({ s with wpId := 0 }.planNextWaypoint (cfg.wps 0), [])
      else (s, [])
  | .spin => (s.spinOnce, [])

/-- The members after `init`; the others have no initial value. -/
structure Initial (cfg : ReplanConfig) (s : ReplanFsm) : Prop where
  execState : s.execState = .init
  calledTimes : s.continouslyCalledTimes = 0
  target : s.haveTarget = false
  odom : s.haveOdom = false
  preAgent : s.haveRecvPreAgent = false
  trigger : s.haveTrigger = !cfg.realworldExperiment
  failSafe : s.enableFailSafe = cfg.failSafe
  startTime : s.localData.startTime = 0
  depth : s.depthOdomTimeout = false
  waiting : s.waiting = 0

def replanner (cfg : ReplanConfig) : Machine ReplanFsm Event Effect where
  start := Initial cfg
  step := step cfg

end RobocupDrone.Planner
