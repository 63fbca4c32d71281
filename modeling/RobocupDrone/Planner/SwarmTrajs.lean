import RobocupDrone.Planner.ReplanFsm
import RobocupDrone.Planner.UniformBspline

/-! The trajectories of the other drones: `swarm_trajs_buf_` and `multi_bspline_msgs_buf_`, and the
callbacks that fill, read and forward them. `none` is a program stopped by an index out of range
or by a vector that cannot grow. -/

namespace RobocupDrone.Planner.Swarm

open Geometry Reactive
open Controller (Time PoseStamped)

structure Bspline where
  droneId : Int
  order : Int
  trajId : Int
  startTime : Time
  knots : List ℚ
  posPts : List (Vec3 ℚ)
  yawPts : List ℚ
  yawDt : ℚ
  deriving DecidableEq

structure MultiBsplines where
  droneIdFrom : Int
  traj : List Bspline
  deriving DecidableEq

structure OneTrajDataOfSwarm where
  droneId : Int
  duration : ℚ
  startTime : Time
  startPos : Vec3 ℚ
  positionTraj : UniformBspline ℚ

/-- The members that `ReplanFsm` leaves out. `localData` gives the own trajectory by its values;
`positionTraj` holds its control points and knots, which only `publishSwarmTrajs` reads. -/
structure SwarmFsm extends ReplanFsm where
  trajId : Int
  positionTraj : UniformBspline ℚ
  multiBsplineMsgsBuf : MultiBsplines
  swarmTrajsBuf : List OneTrajDataOfSwarm

inductive SwarmMessage
  | swarmTrajs (msg : MultiBsplines)
  | broadcastBspline (msg : Bspline)

/-- `UniformBspline()`, and zeros for the members without an initial value. -/
def blank : OneTrajDataOfSwarm := ⟨-1, 0, 0, 0, ⟨[], 0, 0, 0, [], 0⟩⟩

def swarmStartPt (msg : Bspline) : Option (Vec3 ℚ) := do
  let cp0 ← msg.posPts[0]?
  let cp1 ← msg.posPts[1]?
  let cp2 ← msg.posPts[2]?
  some ((cp0 + (4 : ℚ) • cp1 + cp2) / (6 : ℚ))

def tooFar (cfg : ReplanConfig) (odomPos startPt : Vec3 ℚ) : Bool :=
  normGt (startPt - odomPos) (cfg.planningHorizen * 4 / 3)

def storedDuration (msg : Bspline) : Option ℚ :=
  let cutback : ℚ := (msg.order : ℚ) / 2 + 1.5
  if msg.order % 2 ≠ 0 then entry msg.knots (msg.knots.length - ⌈cutback⌉)
  else do
    let late ← entry msg.knots (msg.knots.length - ⌊cutback⌋)
    let early ← entry msg.knots (msg.knots.length - ⌈cutback⌉)
    some ((late + early) / 2)

def storedTraj (msg : Bspline) : Option (UniformBspline ℚ) := do
  let second ← msg.knots[1]?
  let first ← msg.knots[0]?
  let posTraj ← UniformBspline.setUniformBspline msg.posPts msg.order (second - first)
  some (posTraj.setKnot msg.knots)

def storeData (id : Nat) (msg : Bspline) : Option OneTrajDataOfSwarm := do
  let duration ← storedDuration msg
  let posTraj ← storedTraj msg
  let startPos ← posTraj.evaluateDeBoorT 0
  some ⟨id, duration, msg.startTime, startPos, posTraj⟩

/-- One round of the loop, on an entry that `resize` has just made. -/
def receiveTraj (cfg : ReplanConfig) (odomPos : Vec3 ℚ) (i : Nat) (msg : Bspline) :
    Option OneTrajDataOfSwarm := do
  let startPt ← swarmStartPt msg
  if tooFar cfg odomPos startPt then some blank else storeData i msg

def receiveTrajs (cfg : ReplanConfig) (odomPos : Vec3 ℚ) :
    Nat → List Bspline → Option (List OneTrajDataOfSwarm)
  | _, [] => some []
  | i, msg :: rest => do
      let received ← receiveTraj cfg odomPos i msg
      let later ← receiveTrajs cfg odomPos (i + 1) rest
      some (received :: later)

def swarmTrajsCallback (cfg : ReplanConfig) (msg : MultiBsplines) (s : SwarmFsm) :
    Option SwarmFsm :=
  let s := { s with multiBsplineMsgsBuf := msg }
  if s.haveOdom = false then some s
  else if (msg.traj.length : Int) ≠ msg.droneIdFrom + 1 then some s
  else do
    let first ← msg.traj[0]?
    if first.order ≠ 3 then some s
    else
      let received ← receiveTrajs cfg s.odomPos 0 msg.traj
      some { s with swarmTrajsBuf := received, haveRecvPreAgent := true }

def sizeT (i : Int) : Nat := (i % 2 ^ 64).toNat

def vectorMaxSize : Nat := 2 ^ 63 - 1

def pushBlanks : Nat → List OneTrajDataOfSwarm → List OneTrajDataOfSwarm
  | 0, buf => buf
  | rounds + 1, buf => pushBlanks rounds (buf ++ [blank])

/-- The loop from `size()` to `id`; `push_back` throws when the vector is full. -/
def fillUp (id : Nat) (buf : List OneTrajDataOfSwarm) : Option (List OneTrajDataOfSwarm) :=
  if vectorMaxSize < id + 1 then none
  else some (pushBlanks (id + 1 - buf.length) buf)

/-- `norm() < getSwarmClearance()` at the absolute time `t`. -/
def closeAt (cfg : ReplanConfig) (own : LocalTrajData) (other : OneTrajDataOfSwarm) (t : ℚ) :
    Option Bool := do
  let position ← other.positionTraj.evaluateDeBoorT (t - toSec other.startTime)
  some (normLt (own.position (t - toSec own.startTime) - position) cfg.swarmClearance)

def firstClose {α : Type} (close : α → Option Bool) : List α → Option Bool
  | [] => some false
  | t :: rest => do if ← close t then some true else firstClose close rest

def sampleInstants (own : LocalTrajData) (other : OneTrajDataOfSwarm) : List ℚ :=
  let tStart := max (toSec own.startTime) (toSec other.startTime)
  let tEnd := min (toSec own.startTime + own.duration * 2 / 3)
    (toSec other.startTime + other.duration)
  (List.range ⌈(tEnd - tStart) / 0.03⌉₊).map fun (k : Nat) => tStart + k * 0.03

def checkCollision (cfg : ReplanConfig) (own : LocalTrajData) (other : OneTrajDataOfSwarm) :
    Option Bool :=
  if toSec own.startTime < 1000000000 then some false
  else firstClose (closeAt cfg own other) (sampleInstants own other)

def storeBroadcast (cfg : ReplanConfig) (msg : Bspline) (s : SwarmFsm) : Option SwarmFsm := do
  let id := sizeT msg.droneId
  let buf ← fillUp id s.swarmTrajsBuf
  let startPt ← swarmStartPt msg
  if tooFar cfg s.odomPos startPt then
    some { s with swarmTrajsBuf := buf.modify id fun agent => { agent with droneId := -1 } }
  else
    let stored ← storeData id msg
    let s := { s with swarmTrajsBuf := buf.set id stored }
    if ← checkCollision cfg s.localData stored then
      some { s with toReplanFsm := s.toReplanFsm.change .replanTraj }
    else some s

def broadcastBsplineCallback (cfg : ReplanConfig) (now : Time) (msg : Bspline) (s : SwarmFsm) :
    Option SwarmFsm :=
  if msg.droneId = cfg.droneId then some s
  else if |toSec (now - msg.startTime)| > 0.25 then some s
  else storeBroadcast cfg msg s

def SwarmFsm.bspline (cfg : ReplanConfig) (s : SwarmFsm) : Bspline where
  droneId := cfg.droneId
  order := 3
  trajId := s.trajId
  startTime := s.localData.startTime
  knots := s.positionTraj.u
  posPts := s.positionTraj.controlPoints
  yawPts := []
  yawDt := 0

def startupTraj (droneId : Int) (bspline : Bspline) (traj : List Bspline) :
    Option (List Bspline) :=
  if (traj.length : Int) = droneId + 1 then
    if traj = [] then none else some (traj.dropLast ++ [bspline])
  else if (traj.length : Int) = droneId then some (traj ++ [bspline])
  else some traj

def startupPub (cfg : ReplanConfig) (s : SwarmFsm) : Option (SwarmFsm × List SwarmMessage) := do
  let traj ← startupTraj cfg.droneId (s.bspline cfg) s.multiBsplineMsgsBuf.traj
  let s := { s with multiBsplineMsgsBuf := ⟨cfg.droneId, traj⟩ }
  some (s, [.swarmTrajs s.multiBsplineMsgsBuf])

def publishSwarmTrajs (cfg : ReplanConfig) (startup : Bool) (s : SwarmFsm) :
    Option (SwarmFsm × List SwarmMessage) := do
  let (s, sent) ← if startup then startupPub cfg s else some (s, [])
  some (s, sent ++ [.broadcastBspline (s.bspline cfg)])

structure SafetyTick where
  now : Time
  inflateOccupancy : Vec3 ℚ → Int
  attempts : Nat → Attempt

def OneTrajDataOfSwarm.predicted (now : Time) (agent : OneTrajDataOfSwarm) :
    Option (Vec3 ℚ) :=
  agent.positionTraj.evaluateDeBoorT (toSec now - toSec agent.startTime)

def agentNear (cfg : ReplanConfig) (now : Time) (pCur : Vec3 ℚ) :
    Nat → List OneTrajDataOfSwarm → Option Bool
  | _, [] => some false
  | id, agent :: rest =>
      if agent.droneId ≠ id ∨ agent.droneId = cfg.droneId then
        agentNear cfg now pCur (id + 1) rest
      else do
        let position ← agent.predicted now
        if normLt (pCur - position) cfg.swarmClearance then some true
        else agentNear cfg now pCur (id + 1) rest

/-- The loop over the sampled times: the first at which `occ` is set. -/
def firstOcc (occupied : ℚ → Bool) (near : Option Bool) : List ℚ → Option (Option ℚ)
  | [] => some none
  | t :: rest => do
      let close ← near
      if occupied t || close then some (some t) else firstOcc occupied near rest

/-- The loop of `checkCollisionCallback`: the sampled time at which it sets `occ`. -/
def reported (cfg : ReplanConfig) (inp : SafetyTick) (s : SwarmFsm) : Option (Option ℚ) :=
  let info := s.localData
  let tCur := toSec (inp.now - info.startTime)
  firstOcc (fun t => decide (inp.inflateOccupancy (info.position t) ≠ 0))
    (agentNear cfg inp.now (info.position tCur) 0 s.swarmTrajsBuf) (sampleTimes tCur info.duration)

/-- The callbacks. `planned` is the trajectory that a callback stores when its planning
succeeds. -/
inductive SwarmEvent
  | exec (inp : ExecInput) (planned : UniformBspline ℚ)
  | safety (inp : SafetyTick) (planned : UniformBspline ℚ)
  | swarmTrajs (msg : MultiBsplines)
  | broadcastBspline (now : Time) (msg : Bspline)
  | targetCheck
  | waypoint (msg : PoseStamped)
  | trigger
  | odom (position velocity : Vec3 ℚ)
  | depthLost
  | givenWps
  | spin

/-- What `checkCollisionCallback` sees of the stored trajectories. -/
def SafetyTick.observe (inp : SafetyTick) (buf : List OneTrajDataOfSwarm) : SafetyInput where
  now := inp.now
  inflateOccupancy := inp.inflateOccupancy
  swarm := buf.map fun agent => ⟨agent.droneId, (agent.predicted inp.now).getD 0⟩
  attempts := inp.attempts

/-- What `BroadcastBsplineCallback` finds out about a message. -/
def observeBroadcast (cfg : ReplanConfig) (now : Time) (msg : Bspline) (s : SwarmFsm) :
    BroadcastInput where
  droneId := msg.droneId
  startTime := msg.startTime
  now := now
  startPt := (swarmStartPt msg).getD 0
  collision :=
    ((storeData (sizeT msg.droneId) msg).bind (checkCollision cfg s.localData)).getD false

def SwarmEvent.toEvent (cfg : ReplanConfig) (s : SwarmFsm) : SwarmEvent → Event
  | .exec inp _ => .exec inp
  | .safety inp _ => .safety (inp.observe s.swarmTrajsBuf)
  | .swarmTrajs msg => .swarmTrajs msg.droneIdFrom (msg.traj.map (·.order))
  | .broadcastBspline now msg => .broadcastBspline (observeBroadcast cfg now msg s)
  | .targetCheck => .targetCheck
  | .waypoint msg => .waypoint msg
  | .trigger => .trigger
  | .odom position velocity => .odom position velocity
  | .depthLost => .depthLost
  | .givenWps => .givenWps
  | .spin => .spin

def SwarmFsm.updateTrajInfo (traj : UniformBspline ℚ) (s : SwarmFsm) : SwarmFsm :=
  { s with trajId := s.trajId + 1, positionTraj := traj }

/-- The swarm members at one effect of the state machine: `updateTrajInfo` where it stores a
trajectory, and the two halves of `publishSwarmTrajs`. -/
def follow (cfg : ReplanConfig) (planned : UniformBspline ℚ) (s : SwarmFsm) :
    Effect → Option (SwarmFsm × List SwarmMessage)
  | .bspline _ => some (s.updateTrajInfo planned, [])
  | .emergencyStop stopPos => do
      let traj ← UniformBspline.setUniformBspline (List.replicate 6 stopPos) 3 1
      some (s.updateTrajInfo traj, [])
  | .swarmTrajs => startupPub cfg s
  | .broadcastBspline _ => some (s, [.broadcastBspline (s.bspline cfg)])
  | .egoState _ | .targetExist _ => some (s, [])

def followAll (cfg : ReplanConfig) (planned : UniformBspline ℚ) :
    List Effect → SwarmFsm → Option (SwarmFsm × List SwarmMessage)
  | [], s => some (s, [])
  | effect :: rest, s => do
      let (s, sent) ← follow cfg planned s effect
      let (s, later) ← followAll cfg planned rest s
      some (s, sent ++ later)

def SwarmFsm.carry (cfg : ReplanConfig) (planned : UniformBspline ℚ) (event : Event)
    (s : SwarmFsm) : Option (SwarmFsm × List SwarmMessage) :=
  let (fsm, effects) := Planner.step cfg s.toReplanFsm event
  followAll cfg planned effects { s with toReplanFsm := fsm }

def checkCollisionCallback (cfg : ReplanConfig) (inp : SafetyTick) (planned : UniformBspline ℚ)
    (s : SwarmFsm) : Option (SwarmFsm × List SwarmMessage) :=
  if SafetyIdle s.toReplanFsm then some (s, [])
  else do
    let _ ← reported cfg inp s
    s.carry cfg planned (.safety (inp.observe s.swarmTrajsBuf))

/-- The sampled time at which `checkCollisionCallback` sets `occ`; its first guard returns before
the loop. -/
def callbackOcc (cfg : ReplanConfig) (inp : SafetyTick) (s : SwarmFsm) : Option (Option ℚ) :=
  if SafetyIdle s.toReplanFsm then some none else reported cfg inp s

def handle (cfg : ReplanConfig) (s : SwarmFsm) (event : SwarmEvent) :
    Option (SwarmFsm × List SwarmMessage) :=
  match event with
  | .exec inp planned => s.carry cfg planned (.exec inp)
  | .safety inp planned => checkCollisionCallback cfg inp planned s
  | .swarmTrajs msg => (swarmTrajsCallback cfg msg s).map fun s => (s, [])
  | .broadcastBspline now msg => (broadcastBsplineCallback cfg now msg s).map fun s => (s, [])
  | event => s.carry cfg s.positionTraj (event.toEvent cfg s)

structure Initial (cfg : ReplanConfig) (s : SwarmFsm) : Prop where
  fsm : Planner.Initial cfg s.toReplanFsm
  msgs : s.multiBsplineMsgsBuf = ⟨0, []⟩
  trajs : s.swarmTrajsBuf = []

def swarmPlanner (cfg : ReplanConfig) : Machine (Option SwarmFsm) SwarmEvent SwarmMessage where
  start := fun s => ∃ fsm, s = some fsm ∧ Initial cfg fsm
  step := fun s event =>
    match s.bind fun fsm => handle cfg fsm event with
    | some (fsm, sent) => (some fsm, sent)
    | none => (none, [])

end RobocupDrone.Planner.Swarm
