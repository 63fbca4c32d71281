import RobocupDrone.Bridge.Counts
import RobocupDrone.Bridge.RoundTrip
import RobocupDrone.Library.Machine

/-! `udp_recv_fun`: which datagrams it decodes safely and which frames it publishes. -/

namespace RobocupDrone.Bridge

open Codec Codec.Decoder Reactive

variable {clock : RosTime}

/-- What the UDP serializers send and what the receiver publishes. -/
inductive UdpMessage
  | odom (msg : Odometry)
  | oneTraj (msg : Bspline)
  | stop

/-- `udp_recv_buf_` and the messages that are reused. -/
structure UdpReceiver where
  udpRecvBuf : Buffer
  odomMsg : Odometry
  bsplineMsg : Bspline

/-- `recvfrom` copies what fits over the old bytes. -/
def recvfrom (datagram : List UInt8) (r : UdpReceiver) : UdpReceiver :=
  { r with udpRecvBuf := place (datagram.take bufLen) r.udpRecvBuf }

/-- What one turn of the loop leaves behind, publishes and reads from the buffer. -/
structure Turn where
  receiver : UdpReceiver
  published : List UdpMessage
  reads : List (Nat × Nat)

def sizeofEmpty : Nat := 1

def handleDatagram (clock : RosTime) (valread : Nat) (r : UdpReceiver) : Except Fault Turn :=
  let messageType := leWord r.udpRecvBuf 0 4
  if messageType = MessageType.stop.value then
    if valread = sizeofEmpty then
      if valread = deserializeStop then .ok ⟨r, [.stop], [(0, 4)]⟩
      else .ok ⟨r, [], [(0, 4)]⟩
    else .ok ⟨r, [], [(0, 4)]⟩
  else if messageType = MessageType.odom.value then do
    let reading ← (deserializeOdom clock r.odomMsg).run r.udpRecvBuf 0
    .ok ⟨{ r with odomMsg := reading.value },
      if valread = reading.stop then [.odom reading.value] else [], (0, 4) :: reading.reads⟩
  else if messageType = MessageType.oneTraj.value then do
    let reading ← (deserializeOneTraj clock r.bsplineMsg).run r.udpRecvBuf 0
    .ok ⟨{ r with bsplineMsg := reading.value },
      if valread = reading.stop then [.oneTraj reading.value] else [], (0, 4) :: reading.reads⟩
  else .ok ⟨r, [], [(0, 4)]⟩

def udpRecv (clock : RosTime) (datagram : List UInt8) (r : UdpReceiver) : Except Fault Turn :=
  handleDatagram clock (min datagram.length bufLen) (recvfrom datagram r)

/-- The thread; `none` once a fault has ended it. -/
def udpReceiver (clock : RosTime) : Machine (Option UdpReceiver) (List UInt8) UdpMessage where
  start s := ∃ r, s = some r
  step
    | none, _ => (none, [])
    | some r, datagram =>
        match udpRecv clock datagram r with
        | .ok turn => (some turn.receiver, turn.published)
        | .error _ => (none, [])

/-- Decoding stays within the buffer and ends with at most one publication, and what is published
was read from the bytes received. -/
def DecodesSafely (clock : RosTime) (datagram : List UInt8) (r : UdpReceiver) : Prop :=
  ∃ turn, udpRecv clock datagram r = .ok turn ∧ turn.published.length ≤ 1 ∧
    ∀ segment ∈ turn.reads, segment.2 ≤ bufLen ∧
      (turn.published ≠ [] → segment.2 ≤ min datagram.length bufLen)

/-- The counts in the buffer place the end of the announced message within the buffer, and its
stamp is a time that `ros::Time` can hold. -/
def AnnouncedInside (clock : RosTime) (buffer : Buffer) : Prop :=
  (leWord buffer 0 4 = MessageType.odom.value → odomEnd buffer ≤ bufLen ∧
    (clock.fromSec (doubleAt buffer (seqAt buffer + 4))).isSome = true) ∧
  (leWord buffer 0 4 = MessageType.oneTraj.value → bsplineEnd buffer 4 ≤ bufLen ∧
    (clock.fromSec (doubleAt buffer 12)).isSome = true)

variable {valread : Nat} {r : UdpReceiver}

theorem published_received {α : Type} {d : Reader α} {len : α → Nat} {buffer : Buffer}
    {stampAt stop : Nat} {reading : Reading α}
    (announced : Announces clock d buffer len stampAt stop)
    (outcome : d.run buffer 0 = .ok reading) (message : UdpMessage) :
    let published := if valread = reading.stop then [message] else []
    published.length ≤ 1 ∧ ∀ segment ∈ (0, 4) :: reading.reads, segment.2 ≤ bufLen ∧
      (published ≠ [] → segment.2 ≤ valread) := by
  dsimp only
  constructor
  · split_ifs <;> simp
  · intro segment member
    have within : segment.2 ≤ bufLen ∧ segment.2 ≤ reading.stop := by
      rcases List.mem_cons.mp member with rfl | decoded
      · rw [announced.stop_eq outcome]
        exact ⟨by decide, Nat.le_add_left _ _⟩
      · have bounds := (d.sequential outcome).2 segment decoded
        exact ⟨bounds.2.2, bounds.2.1⟩
    refine ⟨within.1, fun published => ?_⟩
    by_cases whole : valread = reading.stop
    · rw [whole]
      exact within.2
    · simp [whole] at published

theorem handleDatagram_safe (valread : Nat) (inside : AnnouncedInside clock r.udpRecvBuf) :
    ∃ turn, handleDatagram clock valread r = .ok turn ∧ turn.published.length ≤ 1 ∧
      ∀ segment ∈ turn.reads, segment.2 ≤ bufLen ∧
        (turn.published ≠ [] → segment.2 ≤ valread) := by
  have silent : ∀ segment ∈ [(0, 4)], segment.2 ≤ bufLen ∧
      (([] : List UdpMessage) ≠ [] → segment.2 ≤ valread) := by
    intro segment member
    rw [List.mem_singleton.mp member]
    exact ⟨by decide, fun published => absurd rfl published⟩
  unfold handleDatagram
  dsimp only
  split_ifs with stop one zero odom oneTraj
  · cases one.symm.trans zero
  · exact ⟨_, rfl, Nat.zero_le _, silent⟩
  · exact ⟨_, rfl, Nat.zero_le _, silent⟩
  · have announced := odom_announces clock r.odomMsg r.udpRecvBuf
    obtain ⟨reading, outcome⟩ := announced.ok_iff.mpr (inside.1 odom)
    rw [outcome]
    exact ⟨_, rfl, published_received announced outcome _⟩
  · have announced := oneTraj_announces clock r.bsplineMsg r.udpRecvBuf
    obtain ⟨reading, outcome⟩ := announced.ok_iff.mpr (inside.2 oneTraj)
    rw [outcome]
    exact ⟨_, rfl, published_received announced outcome _⟩
  · exact ⟨_, rfl, Nat.zero_le _, silent⟩

theorem ok_of_bind {α β : Type} {first : Except Fault α} {next : α → Except Fault β} {result : β}
    (outcome : (first >>= next) = .ok result) :
    ∃ value, first = .ok value ∧ next value = .ok result := by
  cases first with
  | error fault => cases outcome
  | ok value => exact ⟨value, rfl, outcome⟩

theorem handleDatagram_inside {turn : Turn} (outcome : handleDatagram clock valread r = .ok turn) :
    AnnouncedInside clock r.udpRecvBuf := by
  unfold handleDatagram at outcome
  dsimp only at outcome
  constructor
  · intro odom
    rw [odom, if_neg (by decide), if_pos rfl] at outcome
    obtain ⟨reading, decoded, -⟩ := ok_of_bind outcome
    exact (odom_announces clock r.odomMsg r.udpRecvBuf).ok_iff.mp ⟨reading, decoded⟩
  · intro oneTraj
    rw [oneTraj, if_neg (by decide), if_neg (by decide), if_pos rfl] at outcome
    obtain ⟨reading, decoded, -⟩ := ok_of_bind outcome
    exact (oneTraj_announces clock r.bsplineMsg r.udpRecvBuf).ok_iff.mp ⟨reading, decoded⟩

/-- A datagram is decoded safely exactly when the message that it and the old bytes announce ends
within the buffer. -/
theorem decodes_safely_iff (clock : RosTime) (datagram : List UInt8) (r : UdpReceiver) :
    DecodesSafely clock datagram r ↔ AnnouncedInside clock (recvfrom datagram r).udpRecvBuf := by
  constructor
  · rintro ⟨turn, outcome, -⟩
    exact handleDatagram_inside outcome
  · exact handleDatagram_safe _

def idleReceiver : UdpReceiver where
  udpRecvBuf := fun _ => 0
  odomMsg := ⟨⟨0, ⟨0, 0⟩, []⟩, [], ⟨⟨0, 0, 0⟩, ⟨0, 0, 0, 0⟩, .replicate 36 0⟩,
    ⟨⟨0, 0, 0⟩, ⟨0, 0, 0⟩, .replicate 36 0⟩⟩
  bsplineMsg := emptyBspline

def hugeName : List UInt8 := tag .odom ++ leBytes 8 (2 ^ 32)

theorem huge_name_unsafe :
    hugeName.length ≤ bufLen ∧ ¬DecodesSafely wholeSeconds hugeName idleReceiver := by
  refine ⟨by decide, ?_⟩
  rintro ⟨turn, outcome, -⟩
  have inside := handleDatagram_inside outcome
  have announced :
      leWord (recvfrom hugeName idleReceiver).udpRecvBuf 0 4 = MessageType.odom.value := by
    decide +kernel
  have room := (inside.1 announced).1
  have behind : ¬odomEnd (recvfrom hugeName idleReceiver).udpRecvBuf ≤ bufLen := by
    decide +kernel
  exact behind room

namespace UdpMessage

def frame (clock : RosTime) : UdpMessage → List UInt8
  | .odom msg => encodeOdom clock msg
  | .oneTraj msg => encodeOneTraj clock msg
  | .stop => tag .stop

def Rejected (clock : RosTime) : UdpMessage → Prop
  | .odom msg => serializeOdom clock msg = .ok none
  | .oneTraj msg => serializeOneTraj clock msg = .ok none
  | .stop => serializeStop = .ok none

def stamps : UdpMessage → List Stamp
  | .odom msg => [msg.header.stamp]
  | .oneTraj msg => [msg.startTime]
  | .stop => []

def Receivable : UdpMessage → Prop
  | .odom msg => NamesFit msg
  | .oneTraj _ => True
  | .stop => False

end UdpMessage

def Survives (clock : RosTime) (t : Transition (Option UdpReceiver) (List UInt8)) : Prop :=
  ∀ r, t.pre = some r → AnnouncedInside clock (recvfrom t.input r).udpRecvBuf

theorem survives_run {history : History (Option UdpReceiver) (List UInt8)} {s : Option UdpReceiver}
    (run : (udpReceiver clock).Run history s) :
    (∃ r, s = some r) ↔ Throughout (fun t _ => Survives clock t) history := by
  refine Machine.Run.induct (I := fun history s =>
    (∃ r, s = some r) ↔ Throughout (fun t _ => Survives clock t) history) ?_ ?_ run
  · intro s initial
    exact iff_of_true initial trivial
  · intro past s datagram _ ih
    rw [throughout_cons, ← ih]
    cases s with
    | none => simp [udpReceiver]
    | some r =>
        simp only [udpReceiver, Survives, Option.some.injEq, forall_eq']
        cases outcome : udpRecv clock datagram r with
        | ok turn => exact iff_of_true ⟨_, rfl⟩ ⟨handleDatagram_inside outcome, r, rfl⟩
        | error fault =>
            refine iff_of_false (by simp) ?_
            rintro ⟨inside, -⟩
            obtain ⟨turn, safe, -⟩ := handleDatagram_safe
              (min datagram.length bufLen) inside
            exact absurd (outcome.symm.trans safe) (by simp)

theorem tag_received (messageType : MessageType) (rest : List UInt8) (r : UdpReceiver) :
    leWord (recvfrom (tag messageType ++ rest) r).udpRecvBuf 0 4 = messageType.value := by
  have length : (tag messageType).length = 4 := length_leBytes _ _
  have front : (tag messageType ++ rest).take bufLen =
      tag messageType ++ rest.take (bufLen - 4) := by
    rw [List.take_append, List.take_of_length_le (by rw [length]; decide), length]
  have held := holds_place (tag messageType ++ rest.take (bufLen - 4)) r.udpRecvBuf
  have word := leWord_of_holds ((holds_append _ _ _ _).mp held).1
  rw [← front] at word
  cases messageType <;> exact word

theorem decodes_received {α : Type} {d : Reader α} {bytes : List UInt8} {msg : α}
    (decodes : d.Decodes bytes msg) (fits : bytes.length ≤ bufLen) (r : UdpReceiver) :
    ∃ reads, d.run (recvfrom bytes r).udpRecvBuf 0 = .ok ⟨msg, bytes.length, reads⟩ := by
  have held := holds_place bytes r.udpRecvBuf
  have whole : (recvfrom bytes r).udpRecvBuf = place bytes r.udpRecvBuf := by
    rw [recvfrom, List.take_of_length_le fits]
  obtain ⟨⟨value, stop, reads⟩, outcome, rfl, rfl⟩ := decodes _ 0 held (by omega)
  rw [Nat.zero_add] at outcome
  exact ⟨reads, whole ▸ outcome⟩

theorem step_publishes_iff {datagram : List UInt8} {m : UdpMessage} :
    ((udpReceiver clock).step (some r) datagram).2 = [m] ↔
      ∃ turn, udpRecv clock datagram r = .ok turn ∧ turn.published = [m] := by
  simp only [udpReceiver]
  cases udpRecv clock datagram r with
  | error fault => simp
  | ok turn => simp

theorem publishes_decoded_iff {α : Type} {run : Except Fault (Reading α)} {wrap : α → UdpMessage}
    (injective : Function.Injective wrap) (update : α → UdpReceiver) (msg : α) :
    (∃ turn, (do
        let reading ← run
        .ok ⟨update reading.value, if valread = reading.stop then [wrap reading.value] else [],
          (0, 4) :: reading.reads⟩ : Except Fault Turn) = .ok turn ∧
        turn.published = [wrap msg]) ↔
      ∃ reads, run = .ok ⟨msg, valread, reads⟩ := by
  cases run with
  | error fault => simp [Bind.bind, Except.bind]
  | ok reading =>
      obtain ⟨value, stop, reads⟩ := reading
      simp only [Bind.bind, Except.bind, Except.ok.injEq, exists_eq_left', Reading.mk.injEq]
      split_ifs with whole
      · simp [whole, injective.eq_iff]
      · simp [Ne.symm whole]

theorem publishes_odom_iff {datagram : List UInt8} (msg : Odometry)
    (tagged : leWord (recvfrom datagram r).udpRecvBuf 0 4 = MessageType.odom.value) :
    ((udpReceiver clock).step (some r) datagram).2 = [.odom msg] ↔
      ∃ reads, (deserializeOdom clock r.odomMsg).run (recvfrom datagram r).udpRecvBuf 0 =
        .ok ⟨msg, min datagram.length bufLen, reads⟩ := by
  rw [step_publishes_iff]
  simp only [udpRecv, handleDatagram, tagged]
  rw [if_neg (by decide), if_pos trivial]
  exact publishes_decoded_iff (fun _ _ => UdpMessage.odom.inj)
    (fun value => { recvfrom datagram r with odomMsg := value }) msg

theorem publishes_oneTraj_iff {datagram : List UInt8} (msg : Bspline)
    (tagged : leWord (recvfrom datagram r).udpRecvBuf 0 4 = MessageType.oneTraj.value) :
    ((udpReceiver clock).step (some r) datagram).2 = [.oneTraj msg] ↔
      ∃ reads, (deserializeOneTraj clock r.bsplineMsg).run (recvfrom datagram r).udpRecvBuf 0 =
        .ok ⟨msg, min datagram.length bufLen, reads⟩ := by
  rw [step_publishes_iff]
  simp only [udpRecv, handleDatagram, tagged]
  rw [if_neg (by decide), if_neg (by decide), if_pos trivial]
  exact publishes_decoded_iff (fun _ _ => UdpMessage.oneTraj.inj)
    (fun value => { recvfrom datagram r with bsplineMsg := value }) msg

theorem publishes_stop_frame :
    ((udpReceiver clock).step (some r) (UdpMessage.stop.frame clock)).2 ≠ [.stop] := by
  have tagged := tag_received .stop [] r
  rw [List.append_nil] at tagged
  rw [UdpMessage.frame, Ne, step_publishes_iff]
  simp only [udpRecv, handleDatagram, tagged]
  rw [if_pos trivial, if_neg (by decide)]
  simp

theorem publishes_oneTraj_frame {msg : Bspline} (size : oneTrajLen msg + 1 ≤ bufLen)
    (kept : ∀ stamp ∈ (UdpMessage.oneTraj msg).stamps,
      clock.fromSec (clock.toSec stamp) = some stamp) :
    ((udpReceiver clock).step (some r) ((UdpMessage.oneTraj msg).frame clock)).2 =
      [.oneTraj msg] := by
  have decodes := decodes_oneTraj r.bsplineMsg ((Nat.le_succ _).trans size)
    (kept _ List.mem_cons_self)
  have fits := length_encodeOneTraj_le clock size
  have tagged : leWord (recvfrom (encodeOneTraj clock msg) r).udpRecvBuf 0 4 =
      MessageType.oneTraj.value := tag_received .oneTraj _ r
  rw [UdpMessage.frame, publishes_oneTraj_iff msg tagged, min_eq_left fits]
  exact decodes_received decodes fits r

theorem publishes_odom_frame_iff {msg : Odometry} (size : odomLen msg + 1 ≤ bufLen)
    (kept : ∀ stamp ∈ (UdpMessage.odom msg).stamps,
      clock.fromSec (clock.toSec stamp) = some stamp) :
    ((udpReceiver clock).step (some r) ((UdpMessage.odom msg).frame clock)).2 = [.odom msg] ↔
      (UdpMessage.odom msg).Receivable := by
  have tagged : leWord (recvfrom (encodeOdom clock msg) r).udpRecvBuf 0 4 =
      MessageType.odom.value := tag_received .odom _ r
  rw [UdpMessage.frame, publishes_odom_iff msg tagged, UdpMessage.Receivable,
    ← length_encodeOdom_le_iff clock]
  constructor
  · intro received
    rcases received with ⟨reads, outcome⟩
    have stop := (odom_announces clock r.odomMsg _).stop_eq outcome
    rw [length_encodeOdom] at stop ⊢
    dsimp only at stop
    omega
  · intro fits
    have decodes := decodes_odom r.odomMsg ((Nat.le_succ _).trans size)
      (kept _ List.mem_cons_self)
    rw [min_eq_left fits]
    exact decodes_received decodes fits r

theorem publishes_frame (m : UdpMessage) (accepted : ¬m.Rejected clock)
    (kept : ∀ stamp ∈ m.stamps, clock.fromSec (clock.toSec stamp) = some stamp) :
    ((udpReceiver clock).step (some r) (m.frame clock)).2 = [m] ↔ m.Receivable := by
  cases m with
  | stop => exact iff_of_false publishes_stop_frame not_false
  | oneTraj msg =>
      rw [UdpMessage.Rejected, serializeOneTraj, serialize_rejects_iff, not_lt] at accepted
      exact iff_of_true (publishes_oneTraj_frame accepted kept) trivial
  | odom msg =>
      rw [UdpMessage.Rejected, serializeOdom, serialize_rejects_iff, not_lt] at accepted
      exact publishes_odom_frame_iff accepted kept

/-- A frame is published exactly when it is no stop, fits the buffer, and no earlier datagram has
ended the thread. -/
theorem publishes_frame_iff {history : History (Option UdpReceiver) (List UInt8)}
    {s : Option UdpReceiver} (run : (udpReceiver clock).Run history s) (m : UdpMessage)
    (accepted : ¬m.Rejected clock)
    (kept : ∀ stamp ∈ m.stamps, clock.fromSec (clock.toSec stamp) = some stamp) :
    ((udpReceiver clock).step s (m.frame clock)).2 = [m] ↔
      m.Receivable ∧ Throughout (fun t _ => Survives clock t) history := by
  rw [← survives_run run]
  cases s with
  | none => simp [udpReceiver]
  | some r =>
      rw [publishes_frame m accepted kept]
      simp

theorem idleReceiver_run (clock : RosTime) :
    (udpReceiver clock).Run [] (some idleReceiver) := .start ⟨idleReceiver, rfl⟩

def droneOdom : UdpMessage := .odom (restingOdom [100, 114, 111, 110, 101, 95, 49])

theorem publishes_frame_drone_1 :
    ((udpReceiver wholeSeconds).step (some idleReceiver) (droneOdom.frame wholeSeconds)).2 =
      [droneOdom] :=
  (publishes_frame_iff (idleReceiver_run wholeSeconds) droneOdom
    (restingOdom_accepted (by decide)) (restingOdom_kept _)).mpr
      ⟨show _ ≤ bufLen - 712 by decide, trivial⟩

/-- The frame of a stop is accepted by its serializer and published by nobody. -/
theorem stop_unpublished :
    serializeStop = .ok (some (UdpMessage.stop.frame wholeSeconds)) ∧
      (udpReceiver wholeSeconds).Run [] (some idleReceiver) ∧
      ((udpReceiver wholeSeconds).step (some idleReceiver) (UdpMessage.stop.frame wholeSeconds)).2 =
        [] := by
  refine ⟨rfl, idleReceiver_run wholeSeconds, ?_⟩
  decide +kernel

end RobocupDrone.Bridge
