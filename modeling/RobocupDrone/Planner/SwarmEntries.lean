import RobocupDrone.Planner.SwarmBroadcast

/-! The buffer of the other drones over whole runs, and what a rejected message leaves behind. -/

namespace RobocupDrone.Planner.Swarm

open Geometry Reactive
open Controller (Time)

variable {cfg : ReplanConfig}

/-- The callback changes nothing, so that the same messages are sent from then on. -/
def LeavesAsItWas (cfg : ReplanConfig) (msg : MultiBsplines) (s : SwarmFsm) : Prop :=
  ∃ after, swarmTrajsCallback cfg msg s = some after ∧ after = s ∧
    ∀ events, (swarmPlanner cfg).emitted (some after) events =
      (swarmPlanner cfg).emitted (some s) events

/-- `multi_bspline_msgs_buf_ = *msg` comes before the tests. -/
theorem rejected_leaves_iff {msg : MultiBsplines} {s : SwarmFsm} (rejected : Rejects msg s) :
    LeavesAsItWas cfg msg s ↔ s.multiBsplineMsgsBuf = msg := by
  unfold LeavesAsItWas
  rw [swarmTrajsCallback_rejects rejected]
  constructor
  · rintro ⟨after, done, same, _⟩
    rw [same, Option.some.injEq] at done
    exact (congrArg SwarmFsm.multiBsplineMsgsBuf done).symm
  · intro buffered
    refine ⟨s, ?_, rfl, fun _ => rfl⟩
    rw [← buffered]

def secondDrone : ReplanConfig := { typeOneFlight with droneId := 1 }

def waitingSecond : SwarmFsm :=
  { parkedSwarm with
    execState := .sequentialStart
    haveOdom := true
    haveTarget := true
    haveRecvPreAgent := true
    multiBsplineMsgsBuf := ⟨0, [resting 0]⟩ }

def stray : MultiBsplines := ⟨0, [resting 0, resting 1, resting 2]⟩

theorem stray_rejected : Rejects stray waitingSecond := .inr (.inl (by decide))

theorem repeated_message_harmless :
    LeavesAsItWas secondDrone stray { waitingSecond with multiBsplineMsgsBuf := stray } :=
  (rejected_leaves_iff (.inr (.inl (by decide)))).mpr rfl

/-- How many trajectories the next `publishSwarmTrajs(true)` sends. -/
def forwardedTrajs (cfg : ReplanConfig) (s : SwarmFsm) : Option Nat :=
  (startupPub cfg s).map fun outcome => outcome.1.multiBsplineMsgsBuf.traj.length

theorem rejected_message_forwarded :
    Rejects stray waitingSecond ∧ ¬LeavesAsItWas secondDrone stray waitingSecond ∧
      forwardedTrajs secondDrone waitingSecond = some 2 ∧
      (swarmTrajsCallback secondDrone stray waitingSecond).bind (forwardedTrajs secondDrone) =
        some 3 := by
  refine ⟨stray_rejected, ?_, by decide +kernel, by decide +kernel⟩
  rintro ⟨after, done, same, _⟩
  rw [swarmTrajsCallback_rejects stray_rejected, same, Option.some.injEq] at done
  have buffered : stray = ⟨0, [resting 0]⟩ := congrArg SwarmFsm.multiBsplineMsgsBuf done
  have sizes := congrArg (fun msg => msg.traj.length) buffered
  simp [stray] at sizes

def Near (cfg : ReplanConfig) (msg : Bspline) (s : SwarmFsm) : Prop :=
  ((swarmStartPt msg).map (tooFar cfg s.odomPos)) = some false

instance (msg : Bspline) (s : SwarmFsm) : Decidable (Near cfg msg s) :=
  inferInstanceAs (Decidable (_ = _))

/-- The trajectory that a callback accepts for drone `i`. -/
def acceptedFor (cfg : ReplanConfig) (i : Nat) (t : Transition (Option SwarmFsm) SwarmEvent) :
    Option Bspline :=
  match t.pre, t.input with
  | some s, .swarmTrajs msg =>
      if Accepts msg s then msg.traj[i]?.filter fun traj => decide (Near cfg traj s) else none
  | some s, .broadcastBspline now msg =>
      if sizeT msg.droneId = i ∧ msg.droneId ≠ cfg.droneId ∧
        |toSec (now - msg.startTime)| ≤ 0.25 ∧ Near cfg msg s then some msg else none
  | _, _ => none

/-- The trajectory accepted last for drone `i`. -/
def lastAccepted (cfg : ReplanConfig) (i : Nat)
    (history : History (Option SwarmFsm) SwarmEvent) : Option Bspline :=
  history.findSome? (acceptedFor cfg i)

theorem lastAccepted_cons_none {i : Nat} {t : Transition (Option SwarmFsm) SwarmEvent}
    (nothing : acceptedFor cfg i t = none) (past : History (Option SwarmFsm) SwarmEvent) :
    lastAccepted cfg i (t :: past) = lastAccepted cfg i past := by
  simp [lastAccepted, nothing]

theorem lastAccepted_cons_some {i : Nat} {t : Transition (Option SwarmFsm) SwarmEvent}
    {msg : Bspline} (accepted : acceptedFor cfg i t = some msg)
    (past : History (Option SwarmFsm) SwarmEvent) :
    lastAccepted cfg i (t :: past) = some msg := by
  simp [lastAccepted, accepted]

/-- Every entry is blanked, or what `storeData` makes of the trajectory accepted last. -/
def FromLastAccepted (cfg : ReplanConfig) (history : History (Option SwarmFsm) SwarmEvent)
    (buf : List OneTrajDataOfSwarm) : Prop :=
  ∀ i agent, buf[i]? = some agent → agent.droneId = -1 ∨
    ∃ msg, lastAccepted cfg i history = some msg ∧ storeData i msg = some agent

theorem receiveTrajs_entry {odomPos : Vec3 ℚ} {first i : Nat} {msgs : List Bspline}
    {received : List OneTrajDataOfSwarm} {agent : OneTrajDataOfSwarm}
    (done : receiveTrajs cfg odomPos first msgs = some received)
    (present : received[i]? = some agent) :
    ∃ msg, msgs[i]? = some msg ∧ receiveTraj cfg odomPos (first + i) msg = some agent := by
  induction msgs generalizing first i received with
  | nil =>
      rw [receiveTrajs, Option.some.injEq] at done
      simp [← done] at present
  | cons msg rest ih =>
      simp only [receiveTrajs, Option.bind_eq_bind, Option.bind_eq_some_iff,
        Option.some.injEq] at done
      rcases done with ⟨head, here, later, others, same⟩
      rw [← same] at present
      cases i with
      | zero =>
          rw [List.getElem?_cons_zero, Option.some.injEq] at present
          exact ⟨msg, rfl, present ▸ here⟩
      | succ i =>
          rw [List.getElem?_cons_succ] at present
          rcases ih others present with ⟨found, inside, stored⟩
          refine ⟨found, inside, ?_⟩
          rw [← stored]
          congr 1
          omega

theorem receiveTraj_cases {odomPos : Vec3 ℚ} {i : Nat} {msg : Bspline}
    {agent : OneTrajDataOfSwarm} (done : receiveTraj cfg odomPos i msg = some agent) :
    agent = blank ∨
      ((swarmStartPt msg).map (tooFar cfg odomPos) = some false ∧
        storeData i msg = some agent) := by
  simp only [receiveTraj, Option.bind_eq_bind, Option.bind_eq_some_iff] at done
  rcases done with ⟨startPt, read, done⟩
  split_ifs at done with far
  · exact .inl (Option.some.inj done).symm
  · refine .inr ⟨?_, done⟩
    rw [read, Option.map_some]
    simpa using far

theorem swarmTrajs_entries {msg : MultiBsplines} {s after : SwarmFsm}
    {past : History (Option SwarmFsm) SwarmEvent}
    (before : FromLastAccepted cfg past s.swarmTrajsBuf)
    (done : swarmTrajsCallback cfg msg s = some after) :
    FromLastAccepted cfg (⟨some s, .swarmTrajs msg⟩ :: past) after.swarmTrajsBuf := by
  intro i agent present
  rcases swarmTrajsCallback_cases done with ⟨rejected, same⟩ | ⟨accepted, received, stored, same⟩
  · rw [lastAccepted_cons_none (by simp [acceptedFor, rejected.not_accepts])]
    rw [same] at present
    exact before i agent present
  · rw [same] at present
    rcases receiveTrajs_entry stored present with ⟨traj, inside, storing⟩
    rw [Nat.zero_add] at storing
    rcases receiveTraj_cases storing with isBlank | ⟨near, kept⟩
    · exact .inl (by rw [isBlank]; rfl)
    · refine .inr ⟨traj, lastAccepted_cons_some ?_ past, kept⟩
      have close : Near cfg traj s := near
      simp [acceptedFor, accepted, inside, close]

theorem storeBroadcast_entries {now : Time} {msg : Bspline} {s after : SwarmFsm}
    {past : History (Option SwarmFsm) SwarmEvent}
    (before : FromLastAccepted cfg past s.swarmTrajsBuf) (other : msg.droneId ≠ cfg.droneId)
    (fresh : |toSec (now - msg.startTime)| ≤ 0.25) (done : storeBroadcast cfg msg s = some after) :
    FromLastAccepted cfg (⟨some s, .broadcastBspline now msg⟩ :: past) after.swarmTrajsBuf := by
  intro i agent present
  by_cases sender : sizeT msg.droneId = i
  · rcases storeBroadcast_cases done with ⟨filled, startPt, grown, read, far | near⟩
    · left
      rw [far.2, sender, List.getElem?_modify_eq, Option.map_eq_map,
        Option.map_eq_some_iff] at present
      rcases present with ⟨old, _, blanked⟩
      rw [← blanked]
    · right
      rcases near with ⟨close, stored, collision, storing, _, same⟩
      have inside : i < filled.length := by
        rw [(fillUp_eq_some grown).2, List.length_append, List.length_replicate]
        omega
      rw [same, sender, List.getElem?_set_self inside, Option.some.injEq] at present
      refine ⟨msg, lastAccepted_cons_some ?_ past, ?_⟩
      · simp [acceptedFor, sender, other, fresh, Near, read, close]
      · rw [← sender, ← present]
        exact storing
  · rcases storeBroadcast_others done with ⟨filled, grown, others⟩
    rw [others i (Ne.symm sender)] at present
    rw [lastAccepted_cons_none (by simp [acceptedFor, sender])]
    by_cases old : i < s.swarmTrajsBuf.length
    · rw [fillUp_old grown old] at present
      exact before i agent present
    · left
      rw [fillUp_new grown (not_lt.mp old) present]
      rfl

theorem handle_entries {s after : SwarmFsm} {event : SwarmEvent} {sent : List SwarmMessage}
    {past : History (Option SwarmFsm) SwarmEvent}
    (before : FromLastAccepted cfg past s.swarmTrajsBuf)
    (done : handle cfg s event = some (after, sent)) :
    FromLastAccepted cfg (⟨some s, event⟩ :: past) after.swarmTrajsBuf := by
  rcases handle_cases done with ⟨unrelated, planned, carried⟩ | ⟨msg, same, called, _⟩ |
    ⟨now, msg, same, called, _⟩
  · intro i agent present
    rw [lastAccepted_cons_none (by cases event <;> simp_all [acceptedFor, SwarmEvent.received])]
    rw [(carry_frame carried).2] at present
    exact before i agent present
  · rw [same]
    exact swarmTrajs_entries before called
  · rw [same]
    unfold broadcastBsplineCallback at called
    split_ifs at called with own late
    · intro i agent present
      rw [lastAccepted_cons_none (by simp [acceptedFor, own])]
      rw [← Option.some.inj called] at present
      exact before i agent present
    · intro i agent present
      rw [lastAccepted_cons_none (by simp [acceptedFor, not_le.mpr late])]
      rw [← Option.some.inj called] at present
      exact before i agent present
    · exact storeBroadcast_entries before own (not_lt.mp late) called

theorem run_entries {history : History (Option SwarmFsm) SwarmEvent} {state : Option SwarmFsm}
    (run : (swarmPlanner cfg).Run history state) :
    ∀ s, state = some s → FromLastAccepted cfg history s.swarmTrajsBuf := by
  induction run with
  | start initial =>
      rintro s rfl
      rcases initial with ⟨fsm, same, initial⟩
      rw [Option.some.inj same, initial.trajs]
      intro i agent present
      simp at present
  | step event run ih =>
      intro after alive
      rcases swarmPlanner_step alive with ⟨s, sent, before, done⟩
      rw [before]
      exact handle_entries (ih s before) done

theorem entries_from_last_accepted {history : History (Option SwarmFsm) SwarmEvent}
    {s : SwarmFsm} (run : (swarmPlanner cfg).Run history (some s)) {i : Nat}
    {agent : OneTrajDataOfSwarm} (present : s.swarmTrajsBuf[i]? = some agent) :
    agent.droneId = -1 ∨ (agent.droneId = i ∧ ∃ msg, lastAccepted cfg i history = some msg ∧
      agent.startTime = msg.startTime ∧ storedDuration msg = some agent.duration ∧
      storedTraj msg = some agent.positionTraj ∧
      agent.positionTraj.evaluateDeBoorT 0 = some agent.startPos) := by
  rcases run_entries run s rfl i agent present with blanked | ⟨msg, last, storing⟩
  · exact .inl blanked
  · have fields := storeData_fields storing
    exact .inr ⟨fields.1, msg, last, fields.2⟩

def hearFirst : History (Option SwarmFsm) SwarmEvent × Option SwarmFsm :=
  (swarmPlanner secondDrone).exec [] (some parkedSwarm)
    [.odom ⟨0, 0, 1⟩ ⟨0, 0, 0⟩, .swarmTrajs ⟨0, [resting 0]⟩]

theorem entries_from_first :
    ∃ s agent, hearFirst.2 = some s ∧ s.swarmTrajsBuf[0]? = some agent ∧
      (agent.droneId = -1 ∨ (agent.droneId = ((0 : Nat) : Int) ∧ ∃ msg,
        lastAccepted secondDrone 0 hearFirst.1 = some msg ∧ agent.startTime = msg.startTime ∧
          storedDuration msg = some agent.duration ∧ storedTraj msg = some agent.positionTraj ∧
          agent.positionTraj.evaluateDeBoorT 0 = some agent.startPos)) := by
  have initial : (swarmPlanner secondDrone).Run [] (some parkedSwarm) :=
    .start ⟨parkedSwarm, rfl, ⟨by constructor <;> rfl, rfl, rfl⟩⟩
  have run : (swarmPlanner secondDrone).Run hearFirst.1 hearFirst.2 := initial.exec _
  have stored : (hearFirst.2.bind fun s => s.swarmTrajsBuf[0]?).isSome = true := by decide +kernel
  rcases Option.isSome_iff_exists.mp stored with ⟨agent, stored⟩
  rcases Option.bind_eq_some_iff.mp stored with ⟨s, alive, present⟩
  rw [alive] at run
  exact ⟨s, agent, alive, present, entries_from_last_accepted run present⟩

theorem receiveTrajs_returns (odomPos : Vec3 ℚ) (first : Nat) {msgs : List Bspline}
    (formed : ∀ msg ∈ msgs, WellFormed msg) :
    ∃ received, receiveTrajs cfg odomPos first msgs = some received := by
  induction msgs generalizing first with
  | nil => exact ⟨[], rfl⟩
  | cons msg rest ih =>
      have here := formed msg List.mem_cons_self
      rcases ih (first + 1) (fun m member => formed m (List.mem_cons_of_mem msg member)) with
        ⟨later, others⟩
      rcases Option.isSome_iff_exists.mp ((swarmStartPt_isSome_iff msg).mpr here.points) with
        ⟨startPt, read⟩
      rcases Option.isSome_iff_exists.mp ((storeData_isSome_iff here.points first).mpr
        ⟨here.sized, here.spanInside 0⟩) with ⟨stored, storing⟩
      have received : ∃ agent, receiveTraj cfg odomPos first msg = some agent := by
        simp only [receiveTraj, read, storing, Option.bind_eq_bind, Option.bind_some]
        split_ifs
        · exact ⟨blank, rfl⟩
        · exact ⟨stored, rfl⟩
      rcases received with ⟨agent, received⟩
      exact ⟨agent :: later, by simp [receiveTrajs, received, others]⟩

theorem swarmTrajs_returns {msg : MultiBsplines} (s : SwarmFsm) (nonempty : 0 ≤ msg.droneIdFrom)
    (formed : ∀ traj ∈ msg.traj, WellFormed traj) :
    ∃ after, swarmTrajsCallback cfg msg s = some after := by
  have loop : ∃ received, receiveTrajs cfg s.odomPos 0 msg.traj = some received :=
    receiveTrajs_returns s.odomPos 0 formed
  rcases loop with ⟨received, stored⟩
  simp only [swarmTrajsCallback]
  split_ifs with noOdom wrongSize
  · exact ⟨_, rfl⟩
  · exact ⟨_, rfl⟩
  · have present : msg.traj[0]? = some msg.traj[0] := List.getElem?_eq_getElem (by omega)
    simp only [present, stored, Option.bind_eq_bind, Option.bind_some]
    split_ifs
    · exact ⟨_, rfl⟩
    · exact ⟨_, rfl⟩

end RobocupDrone.Planner.Swarm
