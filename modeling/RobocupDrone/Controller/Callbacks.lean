import Mathlib.Algebra.Order.Ring.Rat
import Mathlib.Data.Rat.Floor
import RobocupDrone.Controller.State
import RobocupDrone.Library.Machine

/-! The callbacks of `fsm.cpp`, each a function from the object to the object and what it
publishes or requests. The node spins on one thread, so callbacks run one at a time. -/

namespace RobocupDrone.Controller

open Geometry Reactive

/-- The calls of `ros::Time::now()` in one tick, by what the reading is used for. Each is
made at most once in a tick. -/
inductive Reading
  /-- the initial value of the static `last_request` -/
  | firstRequest
  /-- compared with `last_request` before a mode request -/
  | request
  /-- compared with `last_request` before an arming request -/
  | armRequest
  | requestMark
  | goalStamp
  /-- compared with `last_pub_time_` -/
  | gate
  /-- stored in `last_pub_time_` -/
  | pubMark
  | pnpStamp
  | poseStamp
  /-- compared with `hold_time_` -/
  | holdCheck
  /-- stored in `hold_time_` -/
  | holdMark
  deriving DecidableEq, Repr

/-- What one tick receives from outside: clock readings and the outcomes of the service
calls it makes. `yolo` is `none` when the call returns false. -/
structure TickInput where
  now : Reading → Time
  yolo : Option YoloResponse
  servoMove : Bool

inductive Event
  | odom (position : Vec3 ℚ)
  | px4State (msg : Px4State)
  | posCmd (cmd : PositionCommand)
  | egoState (data : Bool)
  | tick (inp : TickInput)
  | missionTimer

inductive Effect
  | px4CtrlPub (msg : PositionTarget)
  | targetPub (goal : PoseStamped)
  | putPub (data : Int)
  | setMode (customMode : String)
  | arming (value : Bool)
  | yolo
  | servoMove (servoNum : Int) (succeeded : Bool)
  deriving DecidableEq, Repr

def px4StateCallback (msg : Px4State) (s : Fsm) : Fsm :=
  { s with px4LastState := s.px4CurrentState, px4CurrentState := msg }

def egoInitCallback (data : Bool) (s : Fsm) : Fsm :=
  if s.egoInit ≠ data then { s with egoInit := data } else s

def odomCallback (position : Vec3 ℚ) (s : Fsm) : Fsm :=
  { s with odomPos := position, haveOdom := true }

def changeFSMState (newState : FsmState) (s : Fsm) : Fsm := { s with fsmState := newState }

def changeMissionAction (newAction : MissionAction) (s : Fsm) : Fsm :=
  { s with missionAction := newAction }

def quadmsgCallback (cmd : PositionCommand) (s : Fsm) : Fsm :=
  let s := { s with targetPos := cmd.position, egoYaw := cmd.yaw }
  if s.fsmState = .hold ∧ s.pauseTrack = false then changeFSMState .tracking s else s

/-- `norm() < 0.5`, on squared lengths. -/
def checkPOS (s : Fsm) : Fsm :=
  { s with pauseTrack := decide ((s.odomPos - s.curTarget).normSq < 0.5 * 0.5) }

def pubNewTarget (inp : TickInput) (nextTarget : Vec3 ℚ) (s : Fsm) : Fsm × List Effect :=
  ({ s with curTarget := nextTarget },
    [.targetPub ⟨inp.now .goalStamp, "world", nextTarget⟩])

def startMissionTimer (cfg : Config) (inp : TickInput) (s : Fsm) : Fsm :=
  { s with
    missionPose := { s.missionPose with
      stamp := inp.now .poseStamp
      position := ⟨s.odomPos.x, s.odomPos.y, cfg.detectHeight⟩ }
    missionLoopTimer := true }

def stopMissionTimer (s : Fsm) : Fsm := { s with missionLoopTimer := false }

def missionTimerLoopCallback (s : Fsm) : List Effect :=
  if s.missionLoopTimer then [.px4CtrlPub s.missionPose] else []

def clampPnp (limit d : ℚ) : ℚ :=
  if d > limit then limit else if d < -limit then -limit else d

def updatepnpPos (cfg : Config) (inp : TickInput) (dx dy : ℚ) (s : Fsm) : Fsm :=
  let mDx := clampPnp cfg.pnpLimit dx
  let mDy := clampPnp cfg.pnpLimit dy
  { s with missionPose := { s.missionPose with
      stamp := inp.now .pnpStamp
      position := ⟨s.odomPos.x - mDy - 0.15, s.odomPos.y - mDx, s.missionPose.position.z⟩ } }

def setMissionHeight (inp : TickInput) (z : ℚ) (s : Fsm) : Fsm :=
  { s with missionPose := { s.missionPose with
      stamp := inp.now .poseStamp
      position := { s.missionPose.position with z := z } } }

/-- The offsets `[dx, dy]` in metres, shifted by the place of the servo that is used next. -/
def servoOffsets (putServoId : Int) (response : YoloResponse) : ℚ × ℚ :=
  let dx := response.x / 100
  let dy := response.y / 100
  if putServoId = 2 then (dx + 0.1, dy)
  else if putServoId = 3 then (dx, dy - 0.1)
  else if putServoId = 1 then (dx - 0.1, dy)
  else (dx, dy)

/-- The offsets that `DROP_LAND` uses: no servo is involved. -/
def landOffsets (response : YoloResponse) : ℚ × ℚ := (response.x / 100, response.y / 100)

def offsetsBelow (limit : ℚ) (offsets : ℚ × ℚ) : Bool :=
  decide (|offsets.1| < limit ∧ |offsets.2| < limit)

def initTick (s : Fsm) : Fsm :=
  if s.px4CurrentState.connected = false then s
  else if s.haveOdom = false then s
  else changeFSMState .takingOff s

/-- `set_mode_client_` and `arming_client_` in simulation; their answers are only logged. -/
def requestOffboard (inp : TickInput) (lastRequest : Time) (s : Fsm) : Fsm × List Effect :=
  if s.px4CurrentState.mode ≠ "OFFBOARD" ∧ sec 2 < inp.now .request - lastRequest then
    ({ s with lastRequest := some (inp.now .requestMark) }, [.setMode "OFFBOARD"])
  else if s.px4CurrentState.armed = false ∧ sec 2 < inp.now .armRequest - lastRequest then
    ({ s with lastRequest := some (inp.now .requestMark) }, [.arming true])
  else (s, [])

def takingOffTick (cfg : Config) (inp : TickInput) (lastRequest : Time) (s : Fsm) :
    Fsm × List Effect :=
  let (s, requests) := if cfg.useSim then requestOffboard inp lastRequest s else (s, [])
  let effects := requests ++ [.px4CtrlPub s.takingOffPose]
  if (s.odomPos - takeoffPos).normSq < 0.3 * 0.3 then
    ({ changeFSMState .hold s with holdPose := s.takingOffPose }, effects)
  else (s, effects)

def startMission (s : Fsm) : Fsm :=
  changeMissionAction .yoloInit (changeFSMState .execMission s)

/-- The tail of the second and the third branch of `HOLD`. -/
def publishNextTarget (cfg : Config) (inp : TickInput) (s : Fsm) : Fsm × List Effect :=
  let s := { s with lastPubTime := inp.now .pubMark }
  let (s, goal) := pubNewTarget inp (cfg.targetPoints s.targetId) s
  ({ s with haveJustPut := false, targetId := s.targetId + 1 }, goal)

def holdTick (cfg : Config) (inp : TickInput) (s : Fsm) : Fsm × List Effect :=
  if s.egoInit = false then (s, [])
  else if cfg.targetPointNum < 1 then (s, [])
  else if s.targetId = 0 then
    let (s, goal) := pubNewTarget inp (cfg.targetPoints s.targetId) s
    ({ s with lastPubTime := inp.now .pubMark, targetId := s.targetId + 1 }, goal)
  else if s.targetId ≤ 4 then
    if inp.now .gate - s.lastPubTime < sec 2 then (s, [])
    else if cfg.doMission = true ∧ s.haveJustPut = false ∧ 1 ≤ s.putServoId ∧
        cfg.ifDoPut (s.targetId - 1) = true then (startMission s, [])
    else publishNextTarget cfg inp s
  else if (s.targetId : Int) < cfg.targetPointNum then
    if inp.now .gate - s.lastPubTime < sec 2 then (s, [])
    else publishNextTarget cfg inp s
  else if (s.targetId : Int) = cfg.targetPointNum then
    if inp.now .gate - s.lastPubTime < sec 2 then (s, [])
    else (startMission { s with doLand := true }, [])
  else (s, [])

/-- The detection timeout at the end of `ADJUST`. -/
def adjustTimeout (cfg : Config) (s : Fsm) : Fsm :=
  if s.overtimeT > cfg.overtimeThre1 * 60 ∧ 2 ≤ s.nn then
    { changeMissionAction .drop { s with overtimeT := 0 } with nn := 0 }
  else if s.overtimeT > cfg.overtimeThre1 * 60 then
    { s with
      overtimeT := 0
      missionPose := { s.missionPose with
        position := { s.missionPose.position with z := s.missionPose.position.z + 0.30 } }
      nn := s.nn + 1 }
  else s

def adjustTick (cfg : Config) (inp : TickInput) (s : Fsm) : Fsm :=
  match inp.yolo with
  | some response =>
      let s := { s with yoloDetect := response, overtimeT := 0 }
      let offsets := servoOffsets s.putServoId response
      let s := updatepnpPos cfg inp offsets.1 offsets.2 s
      let s := { s with detectOvertime := s.detectOvertime + 1 }
      if (offsetsBelow 0.2 offsets ∨ s.detectOvertime > 800) ∧ s.haveAdjusted = false then
        let s := setMissionHeight inp cfg.adjustHeight { s with holdTime := inp.now .holdMark }
        { s with detectOvertime := 0, haveAdjusted := true }
      else if (offsetsBelow 0.1 offsets ∨ s.detectOvertime > 80) ∧
          sec 5 ≤ inp.now .holdCheck - s.holdTime then
        if s.doLand then changeMissionAction .dropLand s
        else
          let s := changeMissionAction .drop { s with detectOvertime := 0 }
          { s with holdTime := inp.now .holdMark }
      else adjustTimeout cfg s
  | none => adjustTimeout cfg { s with overtimeT := s.overtimeT + 1 }

/-- The detection at the beginning of `DROP`. -/
def dropDetect (cfg : Config) (inp : TickInput) (s : Fsm) : Fsm :=
  match inp.yolo with
  | some response =>
      let s := { s with yoloDetect := response, overtimeT := 0 }
      let offsets := servoOffsets s.putServoId response
      updatepnpPos cfg inp offsets.1 offsets.2 s
  | none => { s with overtimeT := s.overtimeT + 1 }

def dropTick (cfg : Config) (inp : TickInput) (s : Fsm) : Fsm :=
  let s := setMissionHeight inp cfg.putHeight (dropDetect cfg inp s)
  if (|s.odomPos.z - cfg.putHeight| < 0.2 ∨ s.overtimeT > cfg.overtimeThre2 * 100) ∧
      sec 5 ≤ inp.now .holdCheck - s.holdTime then
    { changeMissionAction .put s with holdTime := inp.now .holdMark }
  else s

def riseTick (cfg : Config) (inp : TickInput) (s : Fsm) : Fsm × List Effect :=
  let s := setMissionHeight inp cfg.holdHeight s
  let put := [Effect.putPub s.yoloDetect.minType]
  if |s.odomPos.z - cfg.holdHeight| < 0.1 then
    let s := { stopMissionTimer s with haveJustPut := true, haveAdjusted := false }
    ({ changeFSMState .hold s with holdPose := s.missionPose }, put)
  else (s, put)

def putTick (cfg : Config) (inp : TickInput) (s : Fsm) : Fsm × List Effect :=
  if cfg.doPut then
    if sec 3 ≤ inp.now .holdCheck - s.holdTime then
      let request := [Effect.servoMove s.putServoId inp.servoMove]
      if inp.servoMove then
        (changeMissionAction .rise { s with putServoId := s.putServoId - 1 }, request)
      else (s, request)
    else (s, [])
  else (changeMissionAction .rise s, [])

def dropLandTick (cfg : Config) (inp : TickInput) (s : Fsm) : Fsm :=
  match inp.yolo with
  | some response =>
      let s := { s with yoloDetect := response, overtimeT := 0 }
      let offsets := landOffsets response
      let s := updatepnpPos cfg inp offsets.1 offsets.2 s
      let s := { s with detectOvertime := s.detectOvertime + 1 }
      if (offsetsBelow 0.2 offsets ∨ s.detectOvertime > cfg.overtimeThre2 * 100) ∧
          s.haveAdjusted = false then
        let s := setMissionHeight inp 0.6 { s with holdTime := inp.now .holdMark }
        { s with detectOvertime := 0, haveAdjusted := true }
      else if offsetsBelow 0.1 offsets ∨ s.detectOvertime > 80 then
        let s := setMissionHeight inp 0.3 s
        if sec 5 ≤ inp.now .holdCheck - s.holdTime then changeFSMState .land s else s
      else s
  | none => { s with overtimeT := s.overtimeT + 1 }

def execMissionTick (cfg : Config) (inp : TickInput) (s : Fsm) : Fsm × List Effect :=
  match s.missionAction with
  | .yoloInit => (changeMissionAction .adjust (startMissionTimer cfg inp s), [])
  | .adjust => (adjustTick cfg inp s, [.yolo])
  | .drop => (dropTick cfg inp s, [.yolo])
  | .rise => riseTick cfg inp s
  | .put => putTick cfg inp s
  | .dropLand => (dropLandTick cfg inp s, [.yolo])

def landTick (inp : TickInput) (lastRequest : Time) (s : Fsm) : Fsm × List Effect :=
  if s.px4CurrentState.mode ≠ "AUTO.LAND" ∧ sec 2 < inp.now .request - lastRequest then
    ({ s with lastRequest := some (inp.now .requestMark) }, [.setMode "AUTO.LAND"])
  else (s, [])

def track (cfg : Config) (inp : TickInput) (s : Fsm) : List Effect :=
  [.px4CtrlPub ⟨inp.now .poseStamp, localFrame, positionMask, s.targetPos,
    if cfg.useYaw then s.egoYaw else 0⟩]

def trackingTick (cfg : Config) (inp : TickInput) (s : Fsm) : Fsm × List Effect :=
  if s.pauseTrack then
    ({ changeFSMState .hold s with holdPose := { s.holdPose with
        stamp := inp.now .poseStamp, position := s.odomPos } }, [])
  else (s, track cfg inp s)

/-- The prologue of every tick: the static is set up and the position checked. -/
def openTick (inp : TickInput) (s : Fsm) : Fsm :=
  checkPOS { s with lastRequest := some (s.lastRequest.getD (inp.now .firstRequest)) }

def fsmStateLoopCallback (cfg : Config) (inp : TickInput) (s : Fsm) : Fsm × List Effect :=
  let lastRequest := s.lastRequest.getD (inp.now .firstRequest)
  let s := openTick inp s
  match s.fsmState with
  | .init => (initTick s, [])
  | .takingOff => takingOffTick cfg inp lastRequest s
  | .hold =>
      let (s', effects) := holdTick cfg inp s
      (s', .px4CtrlPub s.holdPose :: effects)
  | .execMission => execMissionTick cfg inp s
  | .land => landTick inp lastRequest s
  | .across => (s, [])
  | .tracking => trackingTick cfg inp s

def step (cfg : Config) (s : Fsm) : Event → Fsm × List Effect
  | .odom position => (odomCallback position s, [])
  | .px4State msg => (px4StateCallback msg s, [])
  | .posCmd cmd => (quadmsgCallback cmd s, [])
  | .egoState data => (egoInitCallback data s, [])
  | .tick inp => fsmStateLoopCallback cfg inp s
  | .missionTimer => (s, missionTimerLoopCallback s)

def controller (cfg : Config) : Machine Fsm Event Effect where
  start s := ∃ memory now, s = Fsm.init memory now
  step := step cfg

end RobocupDrone.Controller
