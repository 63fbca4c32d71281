import RobocupDrone.Bridge.Messages

/-! Every message that fits the buffers is read back as it was written. -/

namespace RobocupDrone.Bridge

open Codec Codec.Decoder Geometry

variable {clock : RosTime}

theorem decodes_bits (value : Double) :
    (word 64 : Reader Double).Decodes (encodeWord value) value :=
  decodes_word rfl value

theorem decodes_stamp {stamp : Stamp} (kept : clock.fromSec (clock.toSec stamp) = some stamp) :
    (readStamp clock).Decodes (encodeWord (clock.toSec stamp)) stamp := by
  rw [← List.append_nil (encodeWord _)]
  apply (decodes_bits (clock.toSec stamp)).bind
  rw [kept]
  intro buffer start _ _
  simp

theorem decodes_point (p : Vec3 Double) : readPoint.Decodes (encodePoint p) p :=
  (decodes_bits p.x).bind ((decodes_bits p.y).bind ((decodes_bits p.z).bind (decodes_pure p)))

theorem decodes_quaternion (q : Quaternion) : readQuaternion.Decodes (encodeQuaternion q) q :=
  (decodes_bits q.w).bind ((decodes_bits q.x).bind ((decodes_bits q.y).bind
    ((decodes_bits q.z).bind (decodes_pure q))))

theorem decodes_doubles (old : List Double) {values : List Double}
    (small : values.length * 8 ≤ bufLen) :
    (readDoubles old).Decodes (encodeVector encodeWord values) values := by
  have allowed : values.length ≤ maxSize 8 := by
    rw [bufLen] at small
    rw [maxSize]
    omega
  exact decodes_vector allowed (by decide) fun _ value _ => decodes_bits value

theorem decodes_covariance (old values : List.Vector Double 36) :
    (readCovariance old).Decodes (values.toList.flatMap encodeWord) values :=
  decodes_array (fun _ value => decodes_bits value) old values

theorem decodes_pose (old p : Pose) : (readPose old).Decodes (encodePose p) p :=
  (decodes_point p.position).bind ((decodes_quaternion p.orientation).bind
    ((decodes_covariance old.covariance p.covariance).bind (decodes_pure p)))

theorem decodes_twist (old t : Twist) : (readTwist old).Decodes (encodeTwist t) t :=
  (decodes_point t.linear).bind ((decodes_point t.angular).bind
    ((decodes_covariance old.covariance t.covariance).bind (decodes_pure t)))

theorem decodes_chars {s : List UInt8} (small : s.length ≤ bufLen) :
    (string (maxSize 1) : Reader (List UInt8)).Decodes (encodeString s) s := by
  have allowed : s.length ≤ maxSize 1 := small.trans (by decide)
  exact decodes_string allowed (by decide)

theorem decodes_bspline (old : Bspline) {msg : Bspline} (small : bsplineLen msg ≤ bufLen)
    (kept : clock.fromSec (clock.toSec msg.startTime) = some msg.startTime) :
    (readBspline clock old).Decodes (encodeBspline clock msg) msg := by
  have points : msg.posPts.length ≤ maxSize 24 := by
    rw [bsplineLen, bufLen] at small
    rw [maxSize]
    omega
  rw [bsplineLen] at small
  have knots : msg.knots.length * 8 ≤ bufLen := by omega
  have yawPts : msg.yawPts.length * 8 ≤ bufLen := by omega
  apply (decodes_word rfl msg.droneId).bind
  apply (decodes_word rfl msg.order).bind
  apply (decodes_stamp kept).bind
  apply (decodes_bits msg.trajId).bind
  apply (decodes_bits msg.yawDt).bind
  apply (decodes_doubles old.knots knots).bind
  apply (decodes_vector points (by decide) fun _ p _ => decodes_point p).bind
  apply (decodes_doubles old.yawPts yawPts).bind
  exact decodes_pure msg

theorem decodes_oneTraj (old : Bspline) {msg : Bspline} (small : bsplineLen msg ≤ bufLen)
    (kept : clock.fromSec (clock.toSec msg.startTime) = some msg.startTime) :
    (deserializeOneTraj clock old).Decodes (encodeOneTraj clock msg) msg :=
  (decodes_skip (tag .oneTraj) (length_leBytes _ _)).bind (decodes_bspline old small kept)

theorem decodes_odom (old : Odometry) {msg : Odometry} (small : odomLen msg ≤ bufLen)
    (kept : clock.fromSec (clock.toSec msg.header.stamp) = some msg.header.stamp) :
    (deserializeOdom clock old).Decodes (encodeOdom clock msg) msg := by
  rw [odomLen] at small
  apply (decodes_skip (tag .odom) (length_leBytes _ _)).bind
  apply (decodes_chars (s := msg.childFrameId) (by omega)).bind
  apply (decodes_chars (s := msg.header.frameId) (by omega)).bind
  apply (decodes_word rfl msg.header.seq).bind
  apply (decodes_stamp kept).bind
  apply (decodes_pose old.pose msg.pose).bind
  apply (decodes_twist old.twist msg.twist).bind
  exact decodes_pure msg

theorem decodes_multiBsplines (old : MultiBsplines) {msg : MultiBsplines}
    (small : multiBsplinesLen msg ≤ bufLen)
    (kept : ∀ traj ∈ msg.traj, clock.fromSec (clock.toSec traj.startTime) = some traj.startTime) :
    (deserializeMultiBsplines clock old).Decodes (encodeMultiBsplines clock msg) msg := by
  rw [multiBsplinesLen] at small
  have fits : ∀ traj ∈ msg.traj, bsplineLen traj ≤ bufLen := by
    intro traj member
    have part := List.single_le_sum (fun _ _ => Nat.zero_le _) _
      (List.mem_map_of_mem (f := bsplineLen) member)
    omega
  have count : msg.traj.length ≤ maxSize 104 := by
    have nonempty : ∀ len ∈ msg.traj.map bsplineLen, 1 ≤ len := by
      intro len member
      obtain ⟨traj, -, rfl⟩ := List.mem_map.mp member
      rw [bsplineLen]
      omega
    have total := List.length_le_sum_of_one_le _ nonempty
    rw [List.length_map] at total
    exact le_trans (by omega) (show bufLen ≤ maxSize 104 by decide)
  apply (decodes_skip (tag .multiTraj) (length_leBytes _ _)).bind
  apply (decodes_word rfl msg.droneIdFrom).bind
  apply (decodes_vector count (by decide) fun old traj member =>
    decodes_bspline old (fits traj member) (kept traj member)).bind
  exact decodes_pure msg

/-- A message with a serializer that checks a length and a deserializer of the same message. -/
inductive Message
  | multiTraj (msg : MultiBsplines)
  | oneTraj (msg : Bspline)
  | odom (msg : Odometry)

/-- The bytes, placed at the start of any receive buffer, are read back over any old object as
the same message with the same length, and are produced again from it. -/
def RoundTrip {α : Type} (serialize : α → Except Fault (Option (List UInt8)))
    (deserialize : α → Reader α) (msg : α) : Prop :=
  ∃ bytes, serialize msg = .ok (some bytes) ∧
    ∀ buffer old, (deserialize old).Runs (place bytes buffer) 0 fun decoded length =>
      decoded = msg ∧ length = bytes.length ∧ serialize decoded = .ok (some bytes)

theorem serialize_rejects_iff (totalLen : Nat) (bytes : List UInt8) :
    serialize totalLen bytes = .ok none ↔ bufLen < totalLen + 1 := by
  unfold serialize
  split_ifs with large fits
  · exact iff_of_true rfl large
  · simpa using large
  · simpa using large

theorem roundTrip_iff {α : Type} {len : α → Nat} {encode : α → List UInt8}
    {deserialize : α → Reader α} {msg : α} (accepted : len msg + 1 ≤ bufLen)
    (decodes : ∀ old, (deserialize old).Decodes (encode msg) msg) :
    RoundTrip (fun msg => serialize (len msg) (encode msg)) deserialize msg ↔
      (encode msg).length ≤ bufLen := by
  have size : ¬len msg + 1 > bufLen := by omega
  constructor
  · rintro ⟨bytes, produced, -⟩
    simp only [serialize, if_neg size] at produced
    split_ifs at produced with fits
    exact fits
  · intro fits
    have produced : serialize (len msg) (encode msg) = .ok (some (encode msg)) := by
      rw [serialize, if_neg size, if_pos fits]
    refine ⟨encode msg, produced, fun buffer old => ?_⟩
    have held := holds_place (encode msg) buffer
    apply (decodes old _ _ held (by omega)).mono
    rintro _ _ ⟨rfl, rfl⟩
    exact ⟨rfl, Nat.zero_add _, produced⟩

namespace Message

def RoundTrips (clock : RosTime) : Message → Prop
  | .multiTraj msg =>
      RoundTrip (serializeMultiBsplines clock) (deserializeMultiBsplines clock) msg
  | .oneTraj msg => RoundTrip (serializeOneTraj clock) (deserializeOneTraj clock) msg
  | .odom msg => RoundTrip (serializeOdom clock) (deserializeOdom clock) msg

def Rejected (clock : RosTime) : Message → Prop
  | .multiTraj msg => serializeMultiBsplines clock msg = .ok none
  | .oneTraj msg => serializeOneTraj clock msg = .ok none
  | .odom msg => serializeOdom clock msg = .ok none

def stamps : Message → List Stamp
  | .multiTraj msg => msg.traj.map Bspline.startTime
  | .oneTraj msg => [msg.startTime]
  | .odom msg => [msg.header.stamp]

def Fits : Message → Prop
  | .odom msg => NamesFit msg
  | _ => True

end Message

/-- Accepted trajectories always survive the trip, an odometry exactly when its names leave room
for the tag. -/
theorem round_trips_iff (m : Message) (accepted : ¬m.Rejected clock)
    (kept : ∀ stamp ∈ m.stamps, clock.fromSec (clock.toSec stamp) = some stamp) :
    m.RoundTrips clock ↔ m.Fits := by
  cases m with
  | multiTraj msg =>
      have size : multiBsplinesLen msg + 1 ≤ bufLen := by
        rwa [Message.Rejected, serializeMultiBsplines, serialize_rejects_iff, not_lt] at accepted
      have stamps : ∀ traj ∈ msg.traj,
          clock.fromSec (clock.toSec traj.startTime) = some traj.startTime :=
        fun traj member => kept _ (List.mem_map_of_mem member)
      have trip := roundTrip_iff size fun old =>
        decodes_multiBsplines old ((Nat.le_succ _).trans size) stamps
      refine iff_of_true (trip.mpr ?_) trivial
      rw [length_encodeMultiBsplines]
      omega
  | oneTraj msg =>
      have size : oneTrajLen msg + 1 ≤ bufLen := by
        rwa [Message.Rejected, serializeOneTraj, serialize_rejects_iff, not_lt] at accepted
      have trip := roundTrip_iff size fun old =>
        decodes_oneTraj old ((Nat.le_succ _).trans size) (kept _ List.mem_cons_self)
      exact iff_of_true (trip.mpr (length_encodeOneTraj_le clock size)) trivial
  | odom msg =>
      have size : odomLen msg + 1 ≤ bufLen := by
        rwa [Message.Rejected, serializeOdom, serialize_rejects_iff, not_lt] at accepted
      have trip := roundTrip_iff size fun old =>
        decodes_odom old ((Nat.le_succ _).trans size) (kept _ List.mem_cons_self)
      exact trip.trans (length_encodeOdom_le_iff clock msg)

/-- The conversions of `ros::Time` on whole seconds, in IEEE format. -/
def wholeSeconds : RosTime where
  toSec stamp :=
    let n := stamp.sec.toNat
    if n = 0 then 0
    else BitVec.ofNat 64 ((1023 + n.log2) * 2 ^ 52 + (n - 2 ^ n.log2) * 2 ^ (52 - n.log2))
  fromSec seconds :=
    let exponent := seconds.toNat / 2 ^ 52
    if exponent < 1023 then some ⟨0, 0⟩
    else if exponent ≤ 1023 + 31 then
      some ⟨BitVec.ofNat 32 ((2 ^ 52 + seconds.toNat % 2 ^ 52) / 2 ^ (1075 - exponent)), 0⟩
    else none

def restingOdom (childFrameId : List UInt8) : Odometry where
  header := ⟨1, ⟨10, 0⟩, [119, 111, 114, 108, 100]⟩
  childFrameId := childFrameId
  pose := ⟨⟨0, 0, 0⟩, ⟨0, 0, 0, 0x3ff0000000000000⟩, .replicate 36 0⟩
  twist := ⟨⟨0, 0, 0⟩, ⟨0, 0, 0⟩, .replicate 36 0⟩

theorem restingOdom_kept (childFrameId : List UInt8) :
    ∀ stamp ∈ (Message.odom (restingOdom childFrameId)).stamps,
      wholeSeconds.fromSec (wholeSeconds.toSec stamp) = some stamp := by
  intro stamp member
  rw [List.mem_singleton.mp member]
  change wholeSeconds.fromSec (wholeSeconds.toSec ⟨10, 0⟩) = some ⟨10, 0⟩
  decide +kernel

theorem restingOdom_accepted {childFrameId : List UInt8}
    (small : childFrameId.length ≤ bufLen - 714) :
    ¬(Message.odom (restingOdom childFrameId)).Rejected wholeSeconds := by
  rw [Message.Rejected, serializeOdom, serialize_rejects_iff]
  simp only [odomLen, restingOdom, List.length_cons, List.length_nil]
  rw [bufLen] at *
  omega

/-- `drone_1` -/
theorem round_trips_drone_1 :
    (Message.odom (restingOdom [100, 114, 111, 110, 101, 95, 49])).RoundTrips wholeSeconds :=
  (round_trips_iff _ (restingOdom_accepted (by decide)) (restingOdom_kept _)).mpr
    (show _ ≤ bufLen - 712 by decide)

theorem restingOdom_overruns {childFrameId : List UInt8}
    (length : childFrameId.length = bufLen - 714) :
    ¬(Message.odom (restingOdom childFrameId)).RoundTrips wholeSeconds := by
  rintro ⟨bytes, produced, -⟩
  have large : ¬(encodeOdom wholeSeconds (restingOdom childFrameId)).length ≤ bufLen := by
    rw [length_encodeOdom, odomLen]
    simp only [restingOdom, List.length_cons, List.length_nil, length]
    decide
  rw [serializeOdom, serialize, if_neg large] at produced
  split_ifs at produced
  cases produced

/-- A name with which the odometry passes the check but leaves no room for the tag. -/
def longName : List UInt8 := List.replicate (bufLen - 714) 97

theorem long_odom_overruns :
    ¬(Message.odom (restingOdom longName)).Rejected wholeSeconds ∧
      (∀ stamp ∈ (Message.odom (restingOdom longName)).stamps,
        wholeSeconds.fromSec (wholeSeconds.toSec stamp) = some stamp) ∧
      ¬(Message.odom (restingOdom longName)).RoundTrips wholeSeconds := by
  have length : longName.length = bufLen - 714 := List.length_replicate
  exact ⟨restingOdom_accepted length.le, restingOdom_kept longName, restingOdom_overruns length⟩

end RobocupDrone.Bridge
