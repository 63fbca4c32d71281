import RobocupDrone.Bridge.Messages

/-! Where the counts stored in a receive buffer place the parts and the end of a message, and when
reading it ends without a fault. -/

namespace RobocupDrone.Bridge

open Codec Codec.Decoder Geometry

variable {clock : RosTime} {buffer : Buffer} {start : Nat}

theorem runs_word {w : Nat} {Q : BitVec w → Nat → Prop} :
    (word w : Reader (BitVec w)).Runs buffer start Q ↔
      start + w / 8 ≤ bufLen ∧
        Q (BitVec.ofNat w (leWord buffer start (w / 8))) (start + w / 8) := by
  simp [word]

/-- The `double` at an offset. -/
def doubleAt (buffer : Buffer) (offset : Nat) : Double := BitVec.ofNat 64 (leWord buffer offset 8)

theorem runs_stamp {Q : Stamp → Nat → Prop} :
    (readStamp clock).Runs buffer start Q ↔ start + 8 ≤ bufLen ∧
      ∃ stamp, clock.fromSec (doubleAt buffer start) = some stamp ∧ Q stamp (start + 8) := by
  simp only [readStamp, runs_bind, runs_word, runs_ofExcept, doubleAt]
  cases clock.fromSec (BitVec.ofNat 64 (leWord buffer start (64 / 8))) with
  | none => simp
  | some stamp => simp

theorem fixed_double : (word 64 : Reader Double).Fixed 8 := fixed_word 64

theorem fixed_point : readPoint.Fixed 24 :=
  fixed_double.bind fun _ => fixed_double.bind fun _ => fixed_double.bind fun _ => fixed_pure _

theorem fixed_quaternion : readQuaternion.Fixed 32 :=
  fixed_double.bind fun _ => fixed_double.bind fun _ => fixed_double.bind fun _ =>
    fixed_double.bind fun _ => fixed_pure _

theorem fixed_covariance (old : List.Vector Double 36) : (readCovariance old).Fixed 288 :=
  fixed_array (fun _ => fixed_double) old

theorem fixed_pose (old : Pose) : (readPose old).Fixed 344 :=
  fixed_point.bind fun _ => fixed_quaternion.bind fun _ =>
    (fixed_covariance old.covariance).bind fun _ => fixed_pure _

theorem fixed_twist (old : Twist) : (readTwist old).Fixed 336 :=
  fixed_point.bind fun _ => fixed_point.bind fun _ =>
    (fixed_covariance old.covariance).bind fun _ => fixed_pure _

/-- Where the counts of a trajectory that starts at `start` place its vectors and its end. -/
def pointsAt (buffer : Buffer) (start : Nat) : Nat :=
  start + 32 + 8 + 8 * leWord buffer (start + 32) 8

def yawPointsAt (buffer : Buffer) (start : Nat) : Nat :=
  pointsAt buffer start + 8 + 24 * leWord buffer (pointsAt buffer start) 8

def bsplineEnd (buffer : Buffer) (start : Nat) : Nat :=
  yawPointsAt buffer start + 8 + 8 * leWord buffer (yawPointsAt buffer start) 8

theorem runs_doubles (old : List Double) (buffer : Buffer) (start : Nat) :
    ∃ values : List Double, values.length = leWord buffer start 8 ∧ ∀ Q,
      (readDoubles old).Runs buffer start Q ↔
        start + 8 + 8 * leWord buffer start 8 ≤ bufLen ∧
          Q values (start + 8 + 8 * leWord buffer start 8) :=
  runs_vector _ 0 old (fun _ => fixed_double) (by decide) (by decide) buffer start

/-- Reading a trajectory ends well if and only if its announced end lies within the buffer and its
start time is one that `ros::Time` can hold. -/
theorem runs_bspline (clock : RosTime) (old : Bspline) (buffer : Buffer) (start : Nat) :
    ∃ msg : Stamp → Bspline, (∀ stamp, bsplineEnd buffer start = start + bsplineLen (msg stamp)) ∧
      ∀ Q, (readBspline clock old).Runs buffer start Q ↔
        bsplineEnd buffer start ≤ bufLen ∧
          ∃ stamp, clock.fromSec (doubleAt buffer (start + 8)) = some stamp ∧
            Q (msg stamp) (bsplineEnd buffer start) := by
  obtain ⟨knots, knotCount, readKnots⟩ := runs_doubles old.knots buffer (start + 32)
  obtain ⟨points, pointCount, readPoints⟩ := runs_vector (maxSize 24) ⟨0, 0, 0⟩
    old.posPts (fun _ => fixed_point) (by decide) (by decide) buffer (pointsAt buffer start)
  obtain ⟨yawPoints, yawCount, readYaw⟩ :=
    runs_doubles old.yawPts buffer (yawPointsAt buffer start)
  rw [← pointsAt] at readKnots
  rw [← yawPointsAt] at readPoints
  rw [← bsplineEnd] at readYaw
  refine ⟨fun stamp => ⟨BitVec.ofNat 32 (leWord buffer start 4),
    BitVec.ofNat 32 (leWord buffer (start + 4) 4), doubleAt buffer (start + 16), stamp, knots,
    points, yawPoints, doubleAt buffer (start + 24)⟩, fun stamp => ?_, fun Q => ?_⟩
  · simp only [bsplineLen, knotCount, pointCount, yawCount, bsplineEnd, yawPointsAt, pointsAt]
    omega
  · simp only [readBspline, runs_bind, runs_word, runs_stamp, runs_pure, Nat.add_assoc,
      Nat.reduceDiv, Nat.reduceAdd, readKnots, readPoints, readYaw]
    constructor
    · rintro ⟨-, -, -, stamp, converted, -, -, -, -, room, holds⟩
      exact ⟨room, stamp, converted, holds⟩
    · rintro ⟨room, stamp, converted, holds⟩
      have yawRoom : yawPointsAt buffer start ≤ bufLen :=
        le_trans (by simp [bsplineEnd]; omega) room
      have pointsRoom : pointsAt buffer start ≤ bufLen :=
        le_trans (by simp [yawPointsAt]; omega) yawRoom
      have header : start + 40 ≤ bufLen := le_trans (by simp [pointsAt]) pointsRoom
      exact ⟨by omega, by omega, by omega, stamp, converted, by omega, by omega, pointsRoom,
        yawRoom, room, holds⟩

/-- The counts in the buffer place the end of a message at `stop`: reading it ends well if and only
if that lies within the buffer and the stamp is one that `ros::Time` can hold. -/
def Announces {α : Type} (clock : RosTime) (d : Reader α) (buffer : Buffer) (len : α → Nat)
    (stampAt stop : Nat) : Prop :=
  ∃ msg : Stamp → α, (∀ stamp, stop = len (msg stamp) + 4) ∧ ∀ Q, d.Runs buffer 0 Q ↔
    stop ≤ bufLen ∧ ∃ stamp, clock.fromSec (doubleAt buffer stampAt) = some stamp ∧
      Q (msg stamp) stop

section Announced

variable {α : Type} {d : Reader α} {len : α → Nat} {stampAt stop : Nat}

theorem Announces.ok_iff (announced : Announces clock d buffer len stampAt stop) :
    (∃ reading, d.run buffer 0 = .ok reading) ↔
      stop ≤ bufLen ∧ (clock.fromSec (doubleAt buffer stampAt)).isSome = true := by
  obtain ⟨msg, -, runs⟩ := announced
  have whole := runs fun _ _ => True
  simpa [Runs, Option.isSome_iff_exists] using whole

theorem Announces.stop_eq (announced : Announces clock d buffer len stampAt stop)
    {reading : Reading α} (outcome : d.run buffer 0 = .ok reading) :
    reading.stop = len reading.value + 4 := by
  obtain ⟨msg, length, runs⟩ := announced
  have same := (runs fun value stop => value = reading.value ∧ stop = reading.stop).mp
    ⟨reading, outcome, rfl, rfl⟩
  obtain ⟨-, stamp, -, value, stop⟩ := same
  rw [← value, ← stop]
  exact length stamp

end Announced

theorem oneTraj_announces (clock : RosTime) (old : Bspline) (buffer : Buffer) :
    Announces clock (deserializeOneTraj clock old) buffer bsplineLen 12 (bsplineEnd buffer 4) := by
  obtain ⟨msg, length, runs⟩ := runs_bspline clock old buffer 4
  refine ⟨msg, fun stamp => (length stamp).trans (Nat.add_comm _ _), fun Q => ?_⟩
  rw [deserializeOneTraj, runs_bind, runs_skip]
  exact runs Q

/-- Where the lengths of the two names place the second name, what follows it and the end. -/
def frameIdAt (buffer : Buffer) : Nat := 4 + 8 + leWord buffer 4 8

def seqAt (buffer : Buffer) : Nat := frameIdAt buffer + 8 + leWord buffer (frameIdAt buffer) 8

def odomEnd (buffer : Buffer) : Nat := seqAt buffer + 4 + 8 + 680

theorem odom_announces (clock : RosTime) (old : Odometry) (buffer : Buffer) :
    Announces clock (deserializeOdom clock old) buffer odomLen (seqAt buffer + 4)
      (odomEnd buffer) := by
  obtain ⟨childFrameId, childLength, readChild⟩ :=
    runs_string (maxSize 1) (show bufLen ≤ maxSize 1 by decide) buffer 4
  obtain ⟨frameId, frameLength, readFrame⟩ :=
    runs_string (maxSize 1) (show bufLen ≤ maxSize 1 by decide) buffer (frameIdAt buffer)
  rw [← seqAt] at readFrame
  obtain ⟨pose, poseLayout⟩ := fixed_pose old.pose
  obtain ⟨twist, twistLayout⟩ := fixed_twist old.twist
  let body := seqAt buffer + 12
  refine ⟨fun stamp => ⟨⟨BitVec.ofNat 32 (leWord buffer (seqAt buffer) 4), stamp, frameId⟩,
    childFrameId, pose buffer body, twist buffer (body + 344)⟩, fun stamp => ?_, fun Q => ?_⟩
  · simp only [odomLen, childLength, frameLength, odomEnd, seqAt, frameIdAt]
    omega
  · simp only [deserializeOdom, runs_bind, runs_skip, Nat.zero_add, readChild]
    rw [show 4 + 8 + leWord buffer 4 8 = frameIdAt buffer from rfl]
    simp only [readFrame, runs_word, runs_stamp, Nat.add_assoc, Nat.reduceDiv, Nat.reduceAdd]
    constructor
    · rintro ⟨-, -, -, room, stamp, converted, rest⟩
      obtain ⟨poseRoom, rest⟩ := (poseLayout buffer body room _).mp rest
      obtain ⟨twistRoom, rest⟩ := (twistLayout buffer _ poseRoom _).mp rest
      exact ⟨twistRoom, stamp, converted, runs_pure.mp rest⟩
    · rintro ⟨room, stamp, converted, holds⟩
      have bodyRoom : body ≤ bufLen := le_trans (Nat.le_add_right _ 680) room
      have poseRoom : body + 344 ≤ bufLen := le_trans (Nat.le_add_right _ 336) room
      have names : frameIdAt buffer ≤ seqAt buffer := by
        rw [seqAt]
        omega
      refine ⟨by omega, by omega, by omega, bodyRoom, stamp, converted, ?_⟩
      rw [poseLayout buffer body bodyRoom]
      refine ⟨poseRoom, ?_⟩
      rw [twistLayout buffer _ poseRoom]
      exact ⟨room, runs_pure.mpr holds⟩

end RobocupDrone.Bridge
