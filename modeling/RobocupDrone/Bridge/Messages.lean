import RobocupDrone.Library.Codec
import RobocupDrone.Library.Vec3

/-! `bridge_node.cpp`: the messages sent between the drones, the bytes they are stored as in a
send buffer, and the functions that read them back from a receive buffer. -/

namespace RobocupDrone.Bridge

open Codec Codec.Decoder Geometry

/-- The bits of a `double`, which the bridge copies. -/
abbrev Double := BitVec 64

structure Stamp where
  sec : BitVec 32
  nsec : BitVec 32
  deriving DecidableEq

/-- The conversions of `ros::Time`; `fromSec` throws on a time out of range. -/
structure RosTime where
  toSec : Stamp → Double
  fromSec : Double → Option Stamp

structure Bspline where
  droneId : BitVec 32
  order : BitVec 32
  trajId : BitVec 64
  startTime : Stamp
  knots : List Double
  posPts : List (Vec3 Double)
  yawPts : List Double
  yawDt : Double
  deriving DecidableEq

structure MultiBsplines where
  droneIdFrom : BitVec 32
  traj : List Bspline
  deriving DecidableEq

/-- `std_msgs::Header`; a string is the list of its characters. -/
structure Header where
  seq : BitVec 32
  stamp : Stamp
  frameId : List UInt8

structure Quaternion where
  x : Double
  y : Double
  z : Double
  w : Double

structure Pose where
  position : Vec3 Double
  orientation : Quaternion
  covariance : List.Vector Double 36

structure Twist where
  linear : Vec3 Double
  angular : Vec3 Double
  covariance : List.Vector Double 36

structure Odometry where
  header : Header
  childFrameId : List UInt8
  pose : Pose
  twist : Twist

def bufLen : Nat := 1048576

inductive MessageType
  | odom
  | multiTraj
  | oneTraj
  | stop

def MessageType.value : MessageType → Nat
  | .odom => 888
  | .multiTraj => 889
  | .oneTraj => 890
  | .stop => 891

def tag (messageType : MessageType) : List UInt8 := leBytes 4 messageType.value

def encodePoint (p : Vec3 Double) : List UInt8 :=
  [encodeWord p.x, encodeWord p.y, encodeWord p.z].flatten

def encodeQuaternion (q : Quaternion) : List UInt8 :=
  [encodeWord q.w, encodeWord q.x, encodeWord q.y, encodeWord q.z].flatten

def encodePose (p : Pose) : List UInt8 :=
  [encodePoint p.position, encodeQuaternion p.orientation,
    p.covariance.toList.flatMap encodeWord].flatten

def encodeTwist (t : Twist) : List UInt8 :=
  [encodePoint t.linear, encodePoint t.angular, t.covariance.toList.flatMap encodeWord].flatten

def encodeString (s : List UInt8) : List UInt8 := leBytes 8 s.length ++ s

/-- What a trajectory adds to `total_len`. -/
def bsplineLen (msg : Bspline) : Nat :=
  4 + 4 + 8 + 8 + 8 + (8 + msg.knots.length * 8) + (8 + 3 * msg.posPts.length * 8) +
    (8 + msg.yawPts.length * 8)

def encodeBspline (clock : RosTime) (msg : Bspline) : List UInt8 :=
  [encodeWord msg.droneId, encodeWord msg.order, encodeWord (clock.toSec msg.startTime),
    encodeWord msg.trajId, encodeWord msg.yawDt, encodeVector encodeWord msg.knots,
    encodeVector encodePoint msg.posPts, encodeVector encodeWord msg.yawPts].flatten

/-- Reject a message by its `total_len`, or store its bytes one after another: the store that
misses the buffer exists exactly when there are more than `BUF_LEN` bytes. -/
def serialize (totalLen : Nat) (bytes : List UInt8) : Except Fault (Option (List UInt8)) :=
  if totalLen + 1 > bufLen then .ok none
  else if bytes.length ≤ bufLen then .ok (some bytes)
  else .error .outOfBounds

def multiBsplinesLen (msg : MultiBsplines) : Nat :=
  4 + 4 + 8 + (msg.traj.map bsplineLen).sum

def encodeMultiBsplines (clock : RosTime) (msg : MultiBsplines) : List UInt8 :=
  [tag .multiTraj, encodeWord msg.droneIdFrom,
    encodeVector (encodeBspline clock) msg.traj].flatten

def serializeMultiBsplines (clock : RosTime) (msg : MultiBsplines) :
    Except Fault (Option (List UInt8)) :=
  serialize (multiBsplinesLen msg) (encodeMultiBsplines clock msg)

def odomLen (msg : Odometry) : Nat :=
  8 + msg.childFrameId.length + 8 + msg.header.frameId.length + 4 + 8 + 7 * 8 + 36 * 8 + 6 * 8 +
    36 * 8

def encodeOdom (clock : RosTime) (msg : Odometry) : List UInt8 :=
  [tag .odom, encodeString msg.childFrameId, encodeString msg.header.frameId,
    encodeWord msg.header.seq, encodeWord (clock.toSec msg.header.stamp), encodePose msg.pose,
    encodeTwist msg.twist].flatten

def serializeOdom (clock : RosTime) (msg : Odometry) : Except Fault (Option (List UInt8)) :=
  serialize (odomLen msg) (encodeOdom clock msg)

def serializeStop : Except Fault (Option (List UInt8)) := .ok (some (tag .stop))

/-- Unlike the other lengths this one and that of an odometry leave out the tag. -/
def oneTrajLen (msg : Bspline) : Nat := bsplineLen msg

def encodeOneTraj (clock : RosTime) (msg : Bspline) : List UInt8 :=
  tag .oneTraj ++ encodeBspline clock msg

def serializeOneTraj (clock : RosTime) (msg : Bspline) : Except Fault (Option (List UInt8)) :=
  serialize (oneTrajLen msg) (encodeOneTraj clock msg)

abbrev Reader := Decoder bufLen

/-- `max_size()` of a vector whose elements take `sizeof` bytes. -/
def maxSize (sizeof : Nat) : Nat := (2 ^ 63 - 1) / sizeof

def readStamp (clock : RosTime) : Reader Stamp := do
  let seconds ← word 64
  ofExcept (match clock.fromSec seconds with
    | some stamp => .ok stamp
    | none => .error .conversion)

def readPoint : Reader (Vec3 Double) := do
  let x ← word 64
  let y ← word 64
  let z ← word 64
  return ⟨x, y, z⟩

def readQuaternion : Reader Quaternion := do
  let w ← word 64
  let x ← word 64
  let y ← word 64
  let z ← word 64
  return ⟨x, y, z, w⟩

def readDoubles (old : List Double) : Reader (List Double) :=
  vector (maxSize 8) 0 old fun _ => word 64

def readCovariance (old : List.Vector Double 36) : Reader (List.Vector Double 36) :=
  array (fun _ => word 64) old

def readPose (old : Pose) : Reader Pose := do
  let position ← readPoint
  let orientation ← readQuaternion
  let covariance ← readCovariance old.covariance
  return ⟨position, orientation, covariance⟩

def readTwist (old : Twist) : Reader Twist := do
  let linear ← readPoint
  let angular ← readPoint
  let covariance ← readCovariance old.covariance
  return ⟨linear, angular, covariance⟩

def readBspline (clock : RosTime) (old : Bspline) : Reader Bspline := do
  let droneId ← word 32
  let order ← word 32
  let startTime ← readStamp clock
  let trajId ← word 64
  let yawDt ← word 64
  let knots ← readDoubles old.knots
  let posPts ← vector (maxSize 24) ⟨0, 0, 0⟩ old.posPts fun _ => readPoint
  let yawPts ← readDoubles old.yawPts
  return ⟨droneId, order, trajId, startTime, knots, posPts, yawPts, yawDt⟩

def deserializeOneTraj (clock : RosTime) (old : Bspline) : Reader Bspline := do
  skip 4
  readBspline clock old

def deserializeStop : Nat := 0

def deserializeOdom (clock : RosTime) (old : Odometry) : Reader Odometry := do
  skip 4
  let childFrameId ← string (maxSize 1)
  let frameId ← string (maxSize 1)
  let seq ← word 32
  let stamp ← readStamp clock
  let pose ← readPose old.pose
  let twist ← readTwist old.twist
  return ⟨⟨seq, stamp, frameId⟩, childFrameId, pose, twist⟩

/-- The trajectory that `resize` appends. -/
def emptyBspline : Bspline := ⟨0, 0, 0, ⟨0, 0⟩, [], [], [], 0⟩

def deserializeMultiBsplines (clock : RosTime) (old : MultiBsplines) : Reader MultiBsplines := do
  skip 4
  let droneIdFrom ← word 32
  let traj ← vector (maxSize 104) emptyBspline old.traj (readBspline clock)
  return ⟨droneIdFrom, traj⟩

theorem length_encodePoint (p : Vec3 Double) : (encodePoint p).length = 24 := by
  simp [encodePoint]

theorem length_encodeBspline (clock : RosTime) (msg : Bspline) :
    (encodeBspline clock msg).length = bsplineLen msg := by
  simp [encodeBspline, length_encodeVector, length_encodePoint, bsplineLen]
  omega

theorem length_encodeOneTraj (clock : RosTime) (msg : Bspline) :
    (encodeOneTraj clock msg).length = bsplineLen msg + 4 := by
  simp [encodeOneTraj, tag, length_encodeBspline, add_comm]

/-- The length of a trajectory is a multiple of eight, so the four bytes of the tag still fit. -/
theorem length_encodeOneTraj_le (clock : RosTime) {msg : Bspline}
    (accepted : oneTrajLen msg + 1 ≤ bufLen) : (encodeOneTraj clock msg).length ≤ bufLen := by
  rw [length_encodeOneTraj]
  unfold oneTrajLen bsplineLen bufLen at *
  omega

theorem length_encodeMultiBsplines (clock : RosTime) (msg : MultiBsplines) :
    (encodeMultiBsplines clock msg).length = multiBsplinesLen msg := by
  have each : (msg.traj.map fun traj => (encodeBspline clock traj).length) =
      msg.traj.map bsplineLen :=
    List.map_congr_left fun traj _ => length_encodeBspline clock traj
  simp only [encodeMultiBsplines, List.flatten_cons, List.flatten_nil, List.length_append,
    List.length_nil, tag, length_leBytes, length_encodeWord, length_encodeVector, each,
    multiBsplinesLen]
  omega

theorem length_encodeOdom (clock : RosTime) (msg : Odometry) :
    (encodeOdom clock msg).length = odomLen msg + 4 := by
  simp [encodeOdom, tag, encodeString, encodePose, encodeTwist, encodeQuaternion,
    length_encodePoint, odomLen]
  omega

def NamesFit (msg : Odometry) : Prop :=
  msg.childFrameId.length + msg.header.frameId.length ≤ bufLen - 712

theorem length_encodeOdom_le_iff (clock : RosTime) (msg : Odometry) :
    (encodeOdom clock msg).length ≤ bufLen ↔ NamesFit msg := by
  rw [length_encodeOdom, NamesFit, odomLen, bufLen]
  omega

end RobocupDrone.Bridge
