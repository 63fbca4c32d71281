import Mathlib.Data.Rat.Defs
import RobocupDrone.Library.Vec3

/-! The controller's messages, parameters and members, as `fsm.h` declares them. Doubles
are exact rationals; the counters are unbounded integers. -/

namespace RobocupDrone.Controller

open Geometry

abbrev Time := Int

def sec (n : Int) : Time := n * 1000000000

inductive FsmState
  | init | takingOff | land | hold | execMission | across | tracking
  deriving DecidableEq, Repr

inductive MissionAction
  | yoloInit | adjust | drop | rise | put | dropLand
  deriving DecidableEq, Repr

structure Px4State where
  connected : Bool
  armed : Bool
  mode : String
  deriving DecidableEq, Repr

/-- `mavros_msgs::PositionTarget`, restricted to the position mode used here. -/
structure PositionTarget where
  stamp : Time
  coordinateFrame : Nat
  typeMask : Nat
  position : Vec3 ℚ
  yaw : ℚ
  deriving DecidableEq, Repr

/-- The part of `geometry_msgs::PoseStamped` that a goal sets; its orientation is
always the identity. -/
structure PoseStamped where
  stamp : Time
  frameId : String
  position : Vec3 ℚ
  deriving DecidableEq, Repr

structure PositionCommand where
  position : Vec3 ℚ
  yaw : ℚ
  deriving DecidableEq, Repr

structure YoloResponse where
  minType : Int
  x : ℚ
  y : ℚ
  z : ℚ
  deriving DecidableEq, Repr

structure ParamServer where
  useSim : Option Bool
  putHeight : Option ℚ
  holdHeight : Option ℚ
  detectHeight : Option ℚ
  adjustHeight : Option ℚ
  doMission : Option Bool
  doPut : Option Bool
  useYaw : Option Bool
  pnpLimit : Option ℚ
  overtimeThre1 : Option Int
  overtimeThre2 : Option Int
  targetPointNum : Option Int
  targetPointsX : Nat → Option ℚ
  targetPointsY : Nat → Option ℚ
  targetPointsZ : Nat → Option ℚ

structure Config where
  useSim : Bool
  putHeight : ℚ
  holdHeight : ℚ
  detectHeight : ℚ
  adjustHeight : ℚ
  doMission : Bool
  doPut : Bool
  useYaw : Bool
  pnpLimit : ℚ
  overtimeThre1 : Int
  overtimeThre2 : Int
  targetPointNum : Int
  targetPoints : Nat → Vec3 ℚ
  ifDoPut : Nat → Bool

/-- `none` stands for any exception while the file is loaded or converted. -/
def readYamlAndUpdateConfig (yaml : Option (List Bool)) (doPut : Nat → Bool) : Nat → Bool :=
  match yaml with
  | some ifDoPut => if ifDoPut.length = 4 then fun i => ifDoPut.getD i (doPut i) else doPut
  | none => doPut

/-- The entry of `target_points_` that `init` reads from the parameters. -/
def ParamServer.targetPoint (nhPrivate : ParamServer) (i : Nat) : Vec3 ℚ :=
  ⟨(nhPrivate.targetPointsX i).getD (-1), (nhPrivate.targetPointsY i).getD (-1),
    (nhPrivate.targetPointsZ i).getD (-1)⟩

/-- The parameter section of `init`. The arrays keep the contents of `memory` where the
parameters and the YAML file do not fill them. -/
def Config.load (nhPrivate : ParamServer) (yaml : Option (List Bool)) (memory : Config) :
    Config :=
  let targetPointNum := nhPrivate.targetPointNum.getD (-1)
  { useSim := nhPrivate.useSim.getD false
    putHeight := nhPrivate.putHeight.getD 0.5
    holdHeight := nhPrivate.holdHeight.getD 1.0
    detectHeight := nhPrivate.detectHeight.getD 1.5
    adjustHeight := nhPrivate.adjustHeight.getD 1.0
    doMission := nhPrivate.doMission.getD false
    doPut := nhPrivate.doPut.getD false
    useYaw := nhPrivate.useYaw.getD false
    pnpLimit := nhPrivate.pnpLimit.getD 0.05
    overtimeThre1 := nhPrivate.overtimeThre1.getD 5
    overtimeThre2 := nhPrivate.overtimeThre2.getD 5
    targetPointNum := targetPointNum
    targetPoints := fun i =>
      if (i : Int) < targetPointNum then nhPrivate.targetPoint i else memory.targetPoints i
    ifDoPut := readYamlAndUpdateConfig yaml memory.ifDoPut }

structure Control where
  fsmState : FsmState
  missionAction : MissionAction
  egoInit : Bool
  pauseTrack : Bool
  haveJustPut : Bool
  haveAdjusted : Bool
  doLand : Bool
  overtimeT : Int
  detectOvertime : Int
  /-- The counter that `ADJUST` keeps in a function-local static. -/
  nn : Int
  putServoId : Int
  targetId : Nat
  curTarget : Vec3 ℚ
  lastPubTime : Time
  holdTime : Time
  missionLoopTimer : Bool
  deriving DecidableEq, Repr

structure Fsm extends Control where
  haveOdom : Bool
  odomPos : Vec3 ℚ
  px4LastState : Px4State
  px4CurrentState : Px4State
  targetPos : Vec3 ℚ
  egoYaw : ℚ
  takingOffPose : PositionTarget
  holdPose : PositionTarget
  missionPose : PositionTarget
  yoloDetect : YoloResponse
  /-- The static of `fsm_state_loopCallback`, unset before the first tick. -/
  lastRequest : Option Time
  deriving DecidableEq, Repr

def localFrame : Nat := 1

def positionMask : Nat := 2552

def takeoffPos : Vec3 ℚ := ⟨0, 0, 1.1⟩

def blankPose : PositionTarget := ⟨0, localFrame, positionMask, ⟨0, 0, 0⟩, 0⟩

/-- The members that have no initializer and that `init` does not set. -/
structure Uninitialized where
  haveOdom : Bool
  odomPos : Vec3 ℚ
  curTarget : Vec3 ℚ
  targetPos : Vec3 ℚ
  egoYaw : ℚ
  deriving DecidableEq, Repr

def Fsm.init (memory : Uninitialized) (now : Time) : Fsm where
  fsmState := .init
  missionAction := .yoloInit
  egoInit := false
  pauseTrack := false
  haveJustPut := false
  haveAdjusted := false
  doLand := false
  overtimeT := 0
  detectOvertime := 0
  nn := 0
  putServoId := 3
  targetId := 0
  curTarget := memory.curTarget
  lastPubTime := 0
  holdTime := 0
  missionLoopTimer := false
  haveOdom := memory.haveOdom
  odomPos := memory.odomPos
  px4LastState := ⟨false, false, ""⟩
  px4CurrentState := ⟨false, false, ""⟩
  targetPos := memory.targetPos
  egoYaw := memory.egoYaw
  takingOffPose := { blankPose with stamp := now, position := takeoffPos }
  holdPose := blankPose
  missionPose := blankPose
  yoloDetect := ⟨0, 0, 0, 0⟩
  lastRequest := none

end RobocupDrone.Controller
