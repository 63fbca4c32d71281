import RobocupDrone.Bridge.UdpReceiver

/-! The callbacks that send a message: what they hand to `send` and `sendto`. -/

namespace RobocupDrone.Bridge

open Codec Codec.Decoder Reactive

/-- `too_soon` stands for the test of `t_now` and `t_last` against `odom_broadcast_freq_`, which is
made in `double` arithmetic. -/
structure SenderConfig where
  droneId : ℤ
  tooSoon : Stamp → Stamp → Bool

/-- The two send buffers and the static time of `odom_sub_udp_cb`. -/
structure Sender where
  sendBuf : Buffer
  udpSendBuf : Buffer
  tLast : Stamp

/-- The `int` that a serializer returns. -/
def returned : Option (List UInt8) → ℤ
  | none => -1
  | some bytes => bytes.length

def stored (buffer : Buffer) : Option (List UInt8) → Buffer
  | none => buffer
  | some bytes => place bytes buffer

/-- The bytes that `send` and `sendto` are given; the length becomes a `size_t`. -/
def hand (buffer : Buffer) (len : ℤ) : Except Fault (List UInt8) :=
  let count := (len % 2 ^ 64).toNat
  if count ≤ bufLen then .ok ((List.range count).map buffer) else .error .outOfBounds

structure Sending where
  sender : Sender
  handed : Option (List UInt8)

def multitrajSubTcpCb (clock : RosTime) (msg : MultiBsplines) (s : Sender) :
    Except Fault Sending := do
  let len ← serializeMultiBsplines clock msg
  let sendBuf := stored s.sendBuf len
  let bytes ← hand sendBuf (returned len)
  return ⟨{ s with sendBuf }, some bytes⟩

/-- Serialize and `sendto`, the end of the three callbacks for datagrams. -/
def sendUdp (serialized : Except Fault (Option (List UInt8))) (s : Sender) :
    Except Fault Sending := do
  let len ← serialized
  let udpSendBuf := stored s.udpSendBuf len
  let bytes ← hand udpSendBuf (returned len)
  return ⟨{ s with udpSendBuf }, some bytes⟩

def droneName (droneId : ℤ) : List UInt8 :=
  ("drone_" ++ toString droneId).toList.map fun c => c.toNat.toUInt8

def named (cfg : SenderConfig) (msg : Odometry) : Odometry :=
  { msg with childFrameId := droneName cfg.droneId }

def odomSubUdpCb (clock : RosTime) (cfg : SenderConfig) (tNow : Stamp) (msg : Odometry)
    (s : Sender) : Except Fault Sending :=
  if cfg.tooSoon tNow s.tLast then .ok ⟨s, none⟩
  else sendUdp (serializeOdom clock (named cfg msg)) { s with tLast := tNow }

def emergencyStopSubUdpCb (s : Sender) : Except Fault Sending := sendUdp serializeStop s

def oneTrajSubUdpCb (clock : RosTime) (msg : Bspline) (s : Sender) : Except Fault Sending :=
  sendUdp (serializeOneTraj clock msg) s

/-- The messages that the node is to send; an odometry with the reading of the clock. -/
inductive Outgoing
  | multiTraj (msg : MultiBsplines)
  | odom (tNow : Stamp) (msg : Odometry)
  | stop
  | oneTraj (msg : Bspline)

namespace Outgoing

variable (clock : RosTime) (cfg : SenderConfig)

def callback : Outgoing → Sender → Except Fault Sending
  | .multiTraj msg => multitrajSubTcpCb clock msg
  | .odom tNow msg => odomSubUdpCb clock cfg tNow msg
  | .stop => emergencyStopSubUdpCb
  | .oneTraj msg => oneTrajSubUdpCb clock msg

def serialized (s : Sender) : Outgoing → Option (Except Fault (Option (List UInt8)))
  | .multiTraj msg => some (serializeMultiBsplines clock msg)
  | .odom tNow msg =>
      if cfg.tooSoon tNow s.tLast then none else some (serializeOdom clock (named cfg msg))
  | .stop => some serializeStop
  | .oneTraj msg => some (serializeOneTraj clock msg)

end Outgoing

def InBounds (serialized : Except Fault (Option (List UInt8))) : Prop :=
  serialized = .ok none ∨ ∃ bytes, serialized = .ok (some bytes) ∧ bytes.length ≤ bufLen

structure Honoured (serialized : Except Fault (Option (List UInt8)))
    (outcome : Except Fault Sending) : Prop where
  written : ∀ bytes, serialized = .ok (some bytes) →
    ∃ sending, outcome = .ok sending ∧ sending.handed = some bytes
  rejected : serialized = .ok none → ∃ sending, outcome = .ok sending ∧ sending.handed = none

def SentRight (clock : RosTime) (cfg : SenderConfig) (m : Outgoing) (s : Sender) : Prop :=
  match m.serialized clock cfg s with
  | none => m.callback clock cfg s = .ok ⟨s, none⟩
  | some serialized => InBounds serialized ∧ Honoured serialized (m.callback clock cfg s)

theorem inBounds_serialize_iff (totalLen : Nat) (bytes : List UInt8) :
    InBounds (serialize totalLen bytes) ↔ bufLen < totalLen + 1 ∨ bytes.length ≤ bufLen := by
  unfold InBounds
  rw [serialize_rejects_iff]
  by_cases large : bufLen < totalLen + 1
  · exact iff_of_true (.inl large) (.inl large)
  · rw [or_iff_right large, or_iff_right large, serialize, if_neg large]
    split_ifs with fits
    · exact iff_of_true ⟨bytes, rfl, fits⟩ fits
    · refine iff_of_false ?_ fits
      rintro ⟨_, produced, _⟩
      contradiction

theorem hand_place {bytes : List UInt8} (fits : bytes.length ≤ bufLen) (buffer : Buffer) :
    hand (place bytes buffer) bytes.length = .ok bytes := by
  have count : ((bytes.length : ℤ) % 2 ^ 64).toNat = bytes.length := by
    unfold bufLen at fits
    omega
  have read : (List.range bytes.length).map (place bytes buffer) = bytes := by
    apply List.ext_getElem
    · simp
    · intro i _ inside
      simp [place, inside]
  rw [hand, count, if_pos fits, read]

theorem hand_minus_one (buffer : Buffer) : hand buffer (-1) = .error .outOfBounds := by
  have large : ¬((-1 : ℤ) % 2 ^ 64).toNat ≤ bufLen := by decide
  rw [hand, if_neg large]

theorem serialize_writes_iff (totalLen : Nat) (bytes : List UInt8) :
    (∃ written, serialize totalLen bytes = .ok (some written) ∧ written.length ≤ bufLen) ↔
      totalLen + 1 ≤ bufLen ∧ bytes.length ≤ bufLen := by
  rw [serialize]
  split_ifs with large fits
  · refine iff_of_false (by simp) ?_
    omega
  · refine iff_of_true ⟨bytes, rfl, fits⟩ ⟨?_, fits⟩
    omega
  · simp [fits]

theorem honoured_iff (serialized : Except Fault (Option (List UInt8))) (buffer : Buffer)
    (after : Option (List UInt8) → Sender) :
    InBounds serialized ∧ Honoured serialized (do
        let len ← serialized
        let bytes ← hand (stored buffer len) (returned len)
        return ⟨after len, some bytes⟩) ↔
      ∃ bytes, serialized = .ok (some bytes) ∧ bytes.length ≤ bufLen := by
  cases serialized with
  | error fault => simp [InBounds]
  | ok len =>
      cases len with
      | none =>
          refine iff_of_false ?_ (by simp)
          rintro ⟨_, honoured⟩
          rcases honoured.rejected rfl with ⟨sending, outcome, _⟩
          simp [Bind.bind, Except.bind, returned, hand_minus_one] at outcome
      | some bytes =>
          constructor
          · rintro ⟨in_bounds, _⟩
            rcases in_bounds with rejected | written
            · simp at rejected
            · exact written
          · rintro ⟨written, same, fits⟩
            have equal : bytes = written := Option.some.inj (Except.ok.inj same)
            rw [equal]
            refine ⟨.inr ⟨written, rfl, fits⟩, ?_, ?_⟩
            · intro other again
              rw [← Option.some.inj (Except.ok.inj again)]
              refine ⟨⟨after (some written), some written⟩, ?_, rfl⟩
              simp only [Bind.bind, Except.bind, returned, stored, hand_place fits]
              rfl
            · intro rejected
              simp at rejected

/-- The message fits its send buffer, with the byte that the check asks for on top. -/
def Outgoing.FitsBuffer (cfg : SenderConfig) (s : Sender) : Outgoing → Prop
  | .multiTraj msg => multiBsplinesLen msg + 1 ≤ bufLen
  | .odom tNow msg => cfg.tooSoon tNow s.tLast = true ∨ NamesFit (named cfg msg)
  | .stop => True
  | .oneTraj msg => oneTrajLen msg + 1 ≤ bufLen

theorem sentRight_iff (clock : RosTime) (cfg : SenderConfig) (m : Outgoing) (s : Sender) :
    SentRight clock cfg m s ↔ m.FitsBuffer cfg s := by
  cases m with
  | multiTraj msg =>
      have honoured := honoured_iff (serializeMultiBsplines clock msg) s.sendBuf
        fun len => { s with sendBuf := stored s.sendBuf len }
      refine (honoured.trans (serialize_writes_iff _ _)).trans ?_
      rw [length_encodeMultiBsplines, Outgoing.FitsBuffer]
      omega
  | odom tNow msg =>
      unfold SentRight Outgoing.FitsBuffer Outgoing.callback Outgoing.serialized odomSubUdpCb
      by_cases soon : cfg.tooSoon tNow s.tLast = true
      · simp [soon]
      · rw [Bool.not_eq_true] at soon
        simp only [soon, Bool.false_eq_true, if_false, false_or]
        have honoured := honoured_iff (serializeOdom clock (named cfg msg)) s.udpSendBuf
          fun len => { s with udpSendBuf := stored s.udpSendBuf len, tLast := tNow }
        refine (honoured.trans (serialize_writes_iff _ _)).trans ?_
        rw [length_encodeOdom_le_iff]
        unfold NamesFit odomLen bufLen
        omega
  | stop =>
      have honoured := honoured_iff serializeStop s.udpSendBuf
        fun len => { s with udpSendBuf := stored s.udpSendBuf len }
      refine honoured.trans (iff_of_true ⟨tag .stop, rfl, ?_⟩ trivial)
      decide
  | oneTraj msg =>
      have honoured := honoured_iff (serializeOneTraj clock msg) s.udpSendBuf
        fun len => { s with udpSendBuf := stored s.udpSendBuf len }
      refine (honoured.trans (serialize_writes_iff _ _)).trans ?_
      exact and_iff_left_of_imp (length_encodeOneTraj_le clock)

def longTraj : Bspline := { emptyBspline with knots := List.replicate 131072 0 }

/-- The sending node; `none` once a callback has left the bounds of a buffer. -/
def bridgeSender (clock : RosTime) (cfg : SenderConfig) :
    Machine (Option Sender) Outgoing (List UInt8) where
  start s := ∃ sender, s = some sender
  step
    | none, _ => (none, [])
    | some s, m =>
        match m.callback clock cfg s with
        | .ok sending => (some sending.sender, sending.handed.toList)
        | .error _ => (none, [])

def Outgoing.packets (clock : RosTime) (cfg : SenderConfig) (s : Sender) :
    Outgoing → List (List UInt8)
  | .multiTraj msg => [encodeMultiBsplines clock msg]
  | .odom tNow msg =>
      if cfg.tooSoon tNow s.tLast then [] else [encodeOdom clock (named cfg msg)]
  | .stop => [tag .stop]
  | .oneTraj msg => [encodeOneTraj clock msg]

variable {clock : RosTime} {cfg : SenderConfig}

theorem serialize_eq_some {totalLen : Nat} {bytes : List UInt8}
    (accepted : totalLen + 1 ≤ bufLen) (fits : bytes.length ≤ bufLen) :
    serialize totalLen bytes = .ok (some bytes) := by
  rw [serialize, if_neg (by omega), if_pos fits]

theorem callback_sends {m : Outgoing} {s : Sender} (fits : m.FitsBuffer cfg s) :
    ∃ sending, m.callback clock cfg s = .ok sending ∧
      sending.handed.toList = m.packets clock cfg s := by
  have right := (sentRight_iff clock cfg m s).mpr fits
  cases m with
  | multiTraj msg =>
      have size : (encodeMultiBsplines clock msg).length ≤ bufLen := by
        rw [length_encodeMultiBsplines]
        exact (Nat.le_succ _).trans fits
      rcases right.2.written _ (serialize_eq_some fits size) with ⟨sending, outcome, handed⟩
      exact ⟨sending, outcome, by rw [handed]; rfl⟩
  | odom tNow msg =>
      by_cases soon : cfg.tooSoon tNow s.tLast = true
      · have skipped : (Outgoing.odom tNow msg).serialized clock cfg s = none := if_pos soon
        have nothing : (Outgoing.odom tNow msg).packets clock cfg s = [] := if_pos soon
        rw [SentRight, skipped] at right
        rw [nothing]
        exact ⟨⟨s, none⟩, right, rfl⟩
      · have called : (Outgoing.odom tNow msg).serialized clock cfg s =
            some (serializeOdom clock (named cfg msg)) := if_neg soon
        have packet : (Outgoing.odom tNow msg).packets clock cfg s =
            [encodeOdom clock (named cfg msg)] := if_neg soon
        rw [SentRight, called] at right
        rw [packet]
        have names : NamesFit (named cfg msg) := fits.resolve_left soon
        have size := (length_encodeOdom_le_iff clock (named cfg msg)).mpr names
        have accepted : odomLen (named cfg msg) + 1 ≤ bufLen := by
          rw [length_encodeOdom] at size
          omega
        rcases right.2.written _ (serialize_eq_some accepted size) with ⟨sending, outcome, handed⟩
        exact ⟨sending, outcome, by rw [handed]; rfl⟩
  | stop =>
      rcases right.2.written _ rfl with ⟨sending, outcome, handed⟩
      exact ⟨sending, outcome, by rw [handed]; rfl⟩
  | oneTraj msg =>
      have size := length_encodeOneTraj_le clock fits
      rcases right.2.written _ (serialize_eq_some fits size) with ⟨sending, outcome, handed⟩
      exact ⟨sending, outcome, by rw [handed]; rfl⟩

theorem sender_step {m : Outgoing} {s : Sender} (fits : m.FitsBuffer cfg s) :
    ∃ after, (bridgeSender clock cfg).step (some s) m = (some after, m.packets clock cfg s) := by
  rcases callback_sends fits with ⟨sending, outcome, handed⟩
  refine ⟨sending.sender, ?_⟩
  rw [← handed]
  simp only [bridgeSender, outcome]

theorem sender_faithful {history : History (Option Sender) Outgoing} {s : Option Sender}
    (run : (bridgeSender clock cfg).Run history s)
    (fits : Throughout (fun t _ => ∀ sender, t.pre = some sender →
      t.input.FitsBuffer cfg sender) history) :
    (∃ sender, s = some sender) ∧
      Throughout (fun t _ => ∀ sender, t.pre = some sender →
        (bridgeSender clock cfg).outputs t = t.input.packets clock cfg sender) history := by
  constructor
  · refine run.induct_where (I := fun _ s => ∃ sender, s = some sender) ?_ ?_ fits
    · exact fun _ initial => initial
    · rintro past _ m _ fits ⟨sender, rfl⟩
      rcases sender_step (fits sender rfl) with ⟨after, step⟩
      exact ⟨after, by rw [step]⟩
  · apply fits.mono
    intro t _ fits sender before
    rcases sender_step (fits sender before) with ⟨after, step⟩
    rw [Machine.outputs, before, step]

theorem sent_trajectory_published {msg : Bspline} (fits : oneTrajLen msg + 1 ≤ bufLen)
    (kept : clock.fromSec (clock.toSec msg.startTime) = some msg.startTime) (s : Sender)
    (r : UdpReceiver) :
    ∃ datagram, ((bridgeSender clock cfg).step (some s) (.oneTraj msg)).2 = [datagram] ∧
      ((udpReceiver clock).step (some r) datagram).2 = [.oneTraj msg] := by
  have fits_buffer : (Outgoing.oneTraj msg).FitsBuffer cfg s := fits
  rcases sender_step fits_buffer with ⟨after, step⟩
  refine ⟨encodeOneTraj clock msg, by rw [step]; rfl, ?_⟩
  have stamps : ∀ stamp ∈ (UdpMessage.oneTraj msg).stamps,
      clock.fromSec (clock.toSec stamp) = some stamp := by
    intro stamp member
    rw [List.mem_singleton.mp member]
    exact kept
  have frame : (UdpMessage.oneTraj msg).frame clock = encodeOneTraj clock msg := rfl
  rw [← frame]
  exact publishes_oneTraj_frame fits stamps

end RobocupDrone.Bridge
