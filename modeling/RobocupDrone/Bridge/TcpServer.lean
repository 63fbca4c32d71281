import RobocupDrone.Bridge.Counts
import RobocupDrone.Bridge.RoundTrip
import RobocupDrone.Library.Machine

/-! `server_fun`: which deliveries of a stream of frames it publishes as they were sent. -/

namespace RobocupDrone.Bridge

open Codec Codec.Decoder Reactive

variable {clock : RosTime}

structure TcpServer where
  recvBuf : Buffer
  bsplinesMsg : MultiBsplines

/-- One turn of the loop, for the bytes that `read` has put at the start of the buffer. -/
def handleChunk (clock : RosTime) (chunk : List UInt8) (s : TcpServer) :
    Except Fault (TcpServer × List MultiBsplines) := do
  let recvBuf := place chunk s.recvBuf
  let reading ← (deserializeMultiBsplines clock s.bsplinesMsg).run recvBuf 0
  .ok (⟨recvBuf, reading.value⟩, if chunk.length = reading.stop then [reading.value] else [])

/-- The thread; `none` once it has returned or a fault has ended it. -/
def serverFun (clock : RosTime) : Machine (Option TcpServer) (List UInt8) MultiBsplines where
  start s := ∃ server, s = some server
  step
    | none, _ => (none, [])
    | some s, chunk =>
        if chunk.length = 0 then (none, [])
        else match handleChunk clock chunk s with
          | .ok (s, published) => (some s, published)
          | .error _ => (none, [])

theorem multiBsplines_stop {old : MultiBsplines} {buffer : Buffer} {reading : Reading MultiBsplines}
    (outcome : (deserializeMultiBsplines clock old).run buffer 0 = .ok reading) :
    reading.stop = multiBsplinesLen reading.value := by
  have element (old : Bspline) : (readBspline clock old).Measured bsplineLen := by
    intro buffer start Q runs
    obtain ⟨msg, length, values⟩ := runs_bspline clock old buffer start
    obtain ⟨room, stamp, converted, holds⟩ := (values Q).mp runs
    exact (values _).mpr ⟨room, stamp, converted, length stamp, holds⟩
  have runs : (deserializeMultiBsplines clock old).Runs buffer 0 fun value stop =>
      value = reading.value ∧ stop = reading.stop := ⟨reading, outcome, rfl, rfl⟩
  simp only [deserializeMultiBsplines, runs_bind, runs_skip, runs_word] at runs
  obtain ⟨-, rest⟩ := runs
  obtain ⟨read, -, stop, last⟩ := measured_vector element _ _ _ rest
  rw [runs_pure] at last
  rw [← last.2, stop, ← last.1, multiBsplinesLen]
  simp only [Nat.reduceDiv]
  omega

def decodeChunk (clock : RosTime) (chunk : List UInt8) (s : TcpServer) :
    Except Fault (Reading MultiBsplines) :=
  (deserializeMultiBsplines clock s.bsplinesMsg).run (place chunk s.recvBuf) 0

theorem step_decoded {chunk : List UInt8} {s : TcpServer} {reading : Reading MultiBsplines}
    (nonempty : ¬chunk.length = 0) (decoded : decodeChunk clock chunk s = .ok reading) :
    (serverFun clock).step (some s) chunk =
      (some ⟨place chunk s.recvBuf, reading.value⟩,
        if chunk.length = reading.stop then [reading.value] else []) := by
  have handled : handleChunk clock chunk s = .ok (⟨place chunk s.recvBuf, reading.value⟩,
      if chunk.length = reading.stop then [reading.value] else []) := by
    rw [decodeChunk] at decoded
    rw [handleChunk, decoded]
    rfl
  simp only [serverFun]
  rw [if_neg nonempty, handled]

theorem step_publishes (clock : RosTime) (server : Option TcpServer) (chunk : List UInt8) :
    ((serverFun clock).step server chunk).2 = [] ∨
      ∃ msg, ((serverFun clock).step server chunk).2 = [msg] ∧
        multiBsplinesLen msg = chunk.length := by
  cases server with
  | none => exact .inl rfl
  | some s =>
      by_cases empty : chunk.length = 0
      · left
        simp only [serverFun]
        rw [if_pos empty]
      · cases decoded : decodeChunk clock chunk s with
        | error fault =>
            left
            have failed : handleChunk clock chunk s = .error fault := by
              rw [decodeChunk] at decoded
              rw [handleChunk, decoded]
              rfl
            simp only [serverFun]
            rw [if_neg empty, failed]
        | ok reading =>
            rw [step_decoded empty decoded]
            by_cases whole : chunk.length = reading.stop
            · right
              exact ⟨reading.value, if_pos whole,
                (multiBsplines_stop decoded).symm.trans whole.symm⟩
            · exact .inl (if_neg whole)

theorem emitted_lengths (clock : RosTime) (server : Option TcpServer) (chunks : List (List UInt8)) :
    (((serverFun clock).emitted server chunks).map multiBsplinesLen).Sublist
      (chunks.map List.length) := by
  induction chunks generalizing server with
  | nil => exact .slnil
  | cons chunk chunks ih =>
      rw [Machine.emitted, List.map_append, List.map_cons]
      have rest := ih ((serverFun clock).step server chunk).1
      rcases step_publishes clock server chunk with silent | ⟨msg, published, length⟩
      · rw [silent]
        exact rest.cons _
      · rw [published, List.map_cons, length]
        exact rest.cons_cons _

theorem emitted_frames (messages : List MultiBsplines) (s : TcpServer)
    (accepted : ∀ msg ∈ messages, ¬serializeMultiBsplines clock msg = .ok none)
    (kept : ∀ msg ∈ messages, ∀ traj ∈ msg.traj,
      clock.fromSec (clock.toSec traj.startTime) = some traj.startTime) :
    (serverFun clock).emitted (some s) (messages.map (encodeMultiBsplines clock)) = messages := by
  induction messages generalizing s with
  | nil => rfl
  | cons msg messages ih =>
      have size : multiBsplinesLen msg + 1 ≤ bufLen := by
        have small := accepted msg List.mem_cons_self
        rwa [serializeMultiBsplines, serialize_rejects_iff, not_lt] at small
      have length := length_encodeMultiBsplines clock msg
      have nonempty : ¬(encodeMultiBsplines clock msg).length = 0 := by
        rw [length, multiBsplinesLen]
        omega
      have decodes := decodes_multiBsplines s.bsplinesMsg ((Nat.le_succ _).trans size)
        (kept msg List.mem_cons_self)
      obtain ⟨reading, decoded, value, stop⟩ := decodes (place (encodeMultiBsplines clock msg)
        s.recvBuf) 0 (holds_place _ _) (by omega)
      rw [List.map_cons, Machine.emitted, step_decoded nonempty decoded]
      rw [if_pos (by rw [stop, Nat.zero_add]), value]
      rw [ih _ (fun later member => accepted later (List.mem_cons_of_mem _ member))
        (fun later member => kept later (List.mem_cons_of_mem _ member))]
      rfl

theorem eq_of_sublist_sum {front back : List Nat} (sublist : front.Sublist back)
    (positive : ∀ n ∈ back, 0 < n) (total : front.sum = back.sum) : front = back := by
  induction sublist with
  | slnil => rfl
  | @cons front back n sublist ih =>
      have part := sublist.sum_le_sum fun _ _ => Nat.zero_le _
      have head := positive n List.mem_cons_self
      rw [List.sum_cons] at total
      omega
  | @cons_cons front back n sublist ih =>
      rw [List.sum_cons, List.sum_cons] at total
      rw [ih (fun m member => positive m (List.mem_cons_of_mem _ member)) (by omega)]

/-- The messages are published as they were sent exactly when each `read` returns one frame. -/
theorem stream_delivered_iff (clock : RosTime) (s : TcpServer) (messages : List MultiBsplines)
    (accepted : ∀ msg ∈ messages, ¬serializeMultiBsplines clock msg = .ok none)
    (kept : ∀ msg ∈ messages, ∀ traj ∈ msg.traj,
      clock.fromSec (clock.toSec traj.startTime) = some traj.startTime)
    (chunks : List (List UInt8))
    (sizes : ∀ chunk ∈ chunks, 1 ≤ chunk.length ∧ chunk.length ≤ bufLen)
    (stream : chunks.flatten = (messages.map (encodeMultiBsplines clock)).flatten) :
    (serverFun clock).trace ((serverFun clock).exec [] (some s) chunks).1 = messages ↔
      chunks = messages.map (encodeMultiBsplines clock) := by
  rw [Machine.trace_exec, Machine.trace, List.nil_append]
  constructor
  · intro delivered
    have lengths : (messages.map (encodeMultiBsplines clock)).map List.length =
        messages.map multiBsplinesLen := by
      simp [List.map_map, Function.comp_def, length_encodeMultiBsplines]
    have sublist := emitted_lengths clock (some s) chunks
    rw [delivered, ← lengths] at sublist
    have positive : ∀ n ∈ chunks.map List.length, 0 < n := by
      intro n member
      obtain ⟨chunk, present, rfl⟩ := List.mem_map.mp member
      exact (sizes chunk present).1
    have total := congrArg List.length stream
    rw [List.length_flatten, List.length_flatten] at total
    rw [List.eq_iff_flatten_eq]
    exact ⟨stream, (eq_of_sublist_sum sublist positive total.symm).symm⟩
  · intro framed
    rw [framed]
    exact emitted_frames messages s accepted kept

def swarmTrajs (droneIdFrom : BitVec 32) : MultiBsplines where
  droneIdFrom := droneIdFrom
  traj := [⟨droneIdFrom, 3, 1, ⟨10, 0⟩, [0, 0x3fb999999999999a], [⟨0, 0, 0x3ff0000000000000⟩], [],
    0⟩]

theorem swarmTrajs_accepted (messages : List (BitVec 32)) :
    ∀ msg ∈ messages.map swarmTrajs, ¬serializeMultiBsplines wholeSeconds msg = .ok none := by
  intro msg member
  obtain ⟨droneIdFrom, -, rfl⟩ := List.mem_map.mp member
  rw [serializeMultiBsplines, serialize_rejects_iff, multiBsplinesLen]
  simp [swarmTrajs, bsplineLen, bufLen]

theorem swarmTrajs_kept (messages : List (BitVec 32)) :
    ∀ msg ∈ messages.map swarmTrajs, ∀ traj ∈ msg.traj,
      wholeSeconds.fromSec (wholeSeconds.toSec traj.startTime) = some traj.startTime := by
  intro msg member traj present
  obtain ⟨droneIdFrom, -, rfl⟩ := List.mem_map.mp member
  rw [List.mem_singleton.mp present]
  change wholeSeconds.fromSec (wholeSeconds.toSec ⟨10, 0⟩) = some ⟨10, 0⟩
  decide +kernel

def idleServer : TcpServer := ⟨fun _ => 0, ⟨0, []⟩⟩

theorem stream_delivered_apart :
    (serverFun wholeSeconds).trace ((serverFun wholeSeconds).exec [] (some idleServer)
        ([0, 1].map fun id => encodeMultiBsplines wholeSeconds (swarmTrajs id))).1 =
      [swarmTrajs 0, swarmTrajs 1] :=
  (stream_delivered_iff wholeSeconds idleServer ([0, 1].map swarmTrajs)
    (swarmTrajs_accepted [0, 1]) (swarmTrajs_kept [0, 1]) _ (by decide +kernel) rfl).mpr rfl

/-- Two messages that arrive in one chunk are both lost. -/
theorem joined_frames_lost :
    let messages := [swarmTrajs 0, swarmTrajs 1]
    let chunks := [(messages.map (encodeMultiBsplines wholeSeconds)).flatten]
    (∀ msg ∈ messages, ¬serializeMultiBsplines wholeSeconds msg = .ok none) ∧
      (∀ chunk ∈ chunks, 1 ≤ chunk.length ∧ chunk.length ≤ bufLen) ∧
      chunks.flatten = (messages.map (encodeMultiBsplines wholeSeconds)).flatten ∧
      (serverFun wholeSeconds).trace ((serverFun wholeSeconds).exec [] (some idleServer) chunks).1 =
        [] := by
  refine ⟨swarmTrajs_accepted [0, 1], by decide +kernel, List.append_nil _, by decide +kernel⟩

end RobocupDrone.Bridge
