import Mathlib.Data.Fin.Basic
import Mathlib.Logic.Function.Basic
import RobocupDrone.Planner.SwarmBroadcast

/-! The start of the swarm: drone `k` receives the `swarm_trajs` topic of drone `k - 1`, puts its
own trajectory behind those it has received and publishes them. -/

namespace RobocupDrone.Planner.Swarm

open Geometry Reactive
open Controller (Time sec)

/-- The parameters of drone `k`. -/
def droneConfig {n : Nat} (cfg : Fin n → ReplanConfig) (k : Fin n) : ReplanConfig :=
  { cfg k with droneId := (k : Nat) }

/-- The planners of the drones, `none` while one is not running, and all that was ever sent on the
topic of each. -/
structure Chain (n : Nat) where
  drone : Fin n → Option SwarmFsm
  topic : Fin n → List MultiBsplines

/-- A message of a topic may be lost, repeated or overtaken. -/
inductive ChainEvent {n : Nat} (cfg : Fin n → ReplanConfig)
  | callback (k : Fin n) (event : SwarmEvent) (own : ∀ msg, event ≠ .swarmTrajs msg)
  | deliver (source target : Fin n) (next : (target : Nat) = source + 1) (index : Nat)
  | restart (k : Fin n) (fresh : SwarmFsm) (initial : Initial (droneConfig cfg k) fresh)

/-- The `swarm_trajs` messages among the outputs of a callback. -/
def onTopic (messages : List SwarmMessage) : List MultiBsplines :=
  messages.filterMap fun message =>
    match message with
    | .swarmTrajs msg => some msg
    | .broadcastBspline _ => none

section Chains

variable {n : Nat} {cfg : Fin n → ReplanConfig}

def Chain.act (cfg : Fin n → ReplanConfig) (k : Fin n) (event : SwarmEvent) (c : Chain n) :
    Chain n × List (Fin n × MultiBsplines) :=
  let (drone, messages) := (swarmPlanner (droneConfig cfg k)).step (c.drone k) event
  (⟨Function.update c.drone k drone,
      Function.update c.topic k (c.topic k ++ onTopic messages)⟩,
    (onTopic messages).map fun msg => (k, msg))

def Chain.step (c : Chain n) : ChainEvent cfg → Chain n × List (Fin n × MultiBsplines)
  | .callback k event _ => c.act cfg k event
  | .deliver source target _ index =>
      match (c.topic source)[index]? with
      | some msg => c.act cfg target (.swarmTrajs msg)
      | none => (c, [])
  | .restart k fresh _ => ({ c with drone := Function.update c.drone k (some fresh) }, [])

/-- Nobody has sent anything; a drone has just been started or will be later. -/
def chain (cfg : Fin n → ReplanConfig) :
    Machine (Chain n) (ChainEvent cfg) (Fin n × MultiBsplines) where
  start := fun c =>
    (∀ k s, c.drone k = some s → Initial (droneConfig cfg k) s) ∧ ∀ k, c.topic k = []
  step := Chain.step

end Chains

section Planners

variable {cfg : ReplanConfig}

/-- The outcome of a callback: a message on the topic only from the first drone or after a message
of the drone before it. -/
def StartsInTurn (cfg : ReplanConfig) (s : ReplanFsm) (outcome : ReplanFsm × List Effect) : Prop :=
  (Effect.swarmTrajs ∈ outcome.2 → cfg.droneId ≤ 0 ∨ s.haveRecvPreAgent = true) ∧
    outcome.1.haveRecvPreAgent = s.haveRecvPreAgent

theorem tryReplan_startup (attempts : Nat → Attempt) (trials index : Nat) (s : ReplanFsm) :
    Effect.swarmTrajs ∉ (tryReplan attempts trials index s).2.1 ∧
      (tryReplan attempts trials index s).1.haveRecvPreAgent = s.haveRecvPreAgent := by
  induction trials generalizing index s with
  | zero => simp [tryReplan]
  | succ trials ih =>
      simp only [tryReplan, callReboundReplan]
      cases (attempts index).planned with
      | some traj => simp
      | none => exact ih (index + 1) _

theorem adoptPlan_startup (startup : Bool) (failed : FsmExecState) (attempts : Nat → Attempt)
    (trials index : Nat) (s : ReplanFsm) :
    let outcome := adoptPlan startup failed (tryReplan attempts trials index s)
    (Effect.swarmTrajs ∈ outcome.2 → startup = true) ∧
      outcome.1.haveRecvPreAgent = s.haveRecvPreAgent := by
  have planning := tryReplan_startup attempts trials index s
  generalize tryReplan attempts trials index s = outcome at planning ⊢
  rcases outcome with ⟨planned, effects, success⟩
  cases success with
  | false => exact ⟨fun sent => absurd sent planning.1, planning.2⟩
  | true =>
      cases startup with
      | true => exact ⟨fun _ => rfl, planning.2⟩
      | false =>
          refine ⟨fun sent => ?_, planning.2⟩
          simp [adoptPlan, Planner.publishSwarmTrajs, planning.1] at sent

theorem adoptPlan_inTurn (failed : FsmExecState) (attempts : Nat → Attempt)
    (trials index : Nat) (s : ReplanFsm) :
    StartsInTurn cfg s (adoptPlan false failed (tryReplan attempts trials index s)) := by
  have adopted := adoptPlan_startup false failed attempts trials index s
  exact ⟨fun sent => absurd (adopted.1 sent) Bool.false_ne_true, adopted.2⟩

theorem execFSMCallback_inTurn (inp : ExecInput) (s : ReplanFsm) :
    StartsInTurn cfg s (execFSMCallback cfg inp s) := by
  unfold execFSMCallback
  cases s.execState with
  | init => simp only [initTick]; split_ifs <;> simp [StartsInTurn, ReplanFsm.change]
  | waitTarget => simp only [waitTargetTick]; split_ifs <;> simp [StartsInTurn, ReplanFsm.change]
  | sequentialStart =>
      simp only [sequentialStartTick]
      split_ifs with turn
      · have adopted := adoptPlan_startup true .sequentialStart inp.attempts 10 0 s
        exact ⟨fun _ => turn.imp_right And.right, adopted.2⟩
      · simp [StartsInTurn]
      · simp [StartsInTurn]
  | genNewTraj =>
      have adopted : StartsInTurn cfg s _ := adoptPlan_inTurn .genNewTraj inp.attempts 10 0 s
      simp only [genNewTrajTick]
      split_ifs <;> exact adopted
  | replanTraj => exact adoptPlan_inTurn .replanTraj inp.attempts (2 + 1) 0 s
  | execTraj =>
      simp only [execTrajTick]
      split_ifs <;> simp [StartsInTurn, ReplanFsm.change, ReplanFsm.planNextWaypoint]
  | emergencyStop =>
      simp only [emergencyStopTick, callEmergencyStop]
      split_ifs <;> simp [StartsInTurn, ReplanFsm.change]

theorem checkTrajectory_inTurn (inp : SafetyInput) (s : ReplanFsm) :
    StartsInTurn cfg s (checkTrajectory cfg inp s) := by
  have planning := tryReplan_startup inp.attempts (2 + 1) 0 s
  unfold checkTrajectory planFromCurrentTraj
  cases firstOccupied cfg inp s.localData with
  | none => simp [StartsInTurn]
  | some t =>
      generalize tryReplan inp.attempts (2 + 1) 0 s = outcome at planning ⊢
      rcases outcome with ⟨planned, effects, success⟩
      cases success with
      | true =>
          refine ⟨fun sent => ?_, planning.2⟩
          simp [Planner.publishSwarmTrajs, planning.1] at sent
      | false =>
          dsimp only
          split_ifs
          · exact ⟨fun sent => absurd sent planning.1, planning.2⟩
          · exact ⟨fun sent => absurd sent planning.1, planning.2⟩

theorem step_inTurn {event : Event} (s : ReplanFsm)
    (own : ∀ droneIdFrom orders, event ≠ .swarmTrajs droneIdFrom orders) :
    StartsInTurn cfg s (Planner.step cfg s event) := by
  cases event with
  | exec inp => exact execFSMCallback_inTurn inp s
  | safety inp =>
      simp only [Planner.step, Planner.checkCollisionCallback]
      split_ifs
      · simp [StartsInTurn]
      · exact checkTrajectory_inTurn inp ({ s with enableFailSafe := false }.change .emergencyStop)
      · exact checkTrajectory_inTurn inp s
  | targetCheck =>
      simp only [Planner.step, checkTargetExistCallback]
      split_ifs <;> simp [StartsInTurn]
  | waypoint msg =>
      simp only [Planner.step]
      split_ifs <;> simp [StartsInTurn, ReplanFsm.waypointCallback]
  | trigger =>
      simp only [Planner.step]
      split_ifs <;> simp [StartsInTurn]
  | swarmTrajs droneIdFrom orders => exact absurd rfl (own droneIdFrom orders)
  | broadcastBspline msg =>
      simp only [Planner.step, Planner.broadcastBsplineCallback]
      split_ifs <;> simp [StartsInTurn, ReplanFsm.change]
  | givenWps =>
      simp only [Planner.step]
      split_ifs <;> simp [StartsInTurn, ReplanFsm.planNextWaypoint]
  | spin =>
      simp only [Planner.step, ReplanFsm.spinOnce]
      split_ifs <;> simp [StartsInTurn]
  | odom position velocity => simp [StartsInTurn, Planner.step]
  | depthLost => simp [StartsInTurn, Planner.step]

def IdsInOrder (traj : List Bspline) : Prop :=
  ∀ (i : Nat) bspline, traj[i]? = some bspline → bspline.droneId = i

structure Complete (k : Nat) (msg : MultiBsplines) : Prop where
  sender : msg.droneIdFrom = k
  size : msg.traj.length = k + 1
  ids : IdsInOrder msg.traj

/-- The buffer of drone `k` is empty, or lacks at most the own trajectory. -/
structure Prepared (k : Nat) (s : SwarmFsm) : Prop where
  size : s.multiBsplineMsgsBuf.traj.length = k ∨ s.multiBsplineMsgsBuf.traj.length = k + 1 ∨
    (s.multiBsplineMsgsBuf.traj = [] ∧ s.haveRecvPreAgent = false)
  ids : IdsInOrder s.multiBsplineMsgsBuf.traj

theorem idsInOrder_append {traj : List Bspline} {bspline : Bspline} (ids : IdsInOrder traj)
    (isLast : bspline.droneId = traj.length) : IdsInOrder (traj ++ [bspline]) := by
  intro i entry present
  rcases lt_trichotomy i traj.length with old | own | beyond
  · rw [List.getElem?_append_left old] at present
    exact ids i entry present
  · rw [own, List.getElem?_concat_length, Option.some.injEq] at present
    rw [← present, isLast, own]
  · rw [List.getElem?_eq_none (by rw [List.length_append, List.length_singleton]; omega)] at present
    contradiction

theorem idsInOrder_dropLast {traj : List Bspline} (ids : IdsInOrder traj) :
    IdsInOrder traj.dropLast := by
  intro i entry present
  rw [List.getElem?_dropLast] at present
  split_ifs at present
  exact ids i entry present

theorem startupTraj_complete {k : Nat} {bspline : Bspline} {traj sent : List Bspline}
    (isOwn : bspline.droneId = k) (size : traj.length = k ∨ traj.length = k + 1)
    (ids : IdsInOrder traj) (done : startupTraj k bspline traj = some sent) :
    sent.length = k + 1 ∧ IdsInOrder sent := by
  unfold startupTraj at done
  split_ifs at done with replace missing push
  · rw [← Option.some.inj done]
    have length : traj.dropLast.length = k := by
      rw [List.length_dropLast]
      omega
    refine ⟨by rw [List.length_append, length, List.length_singleton], ?_⟩
    exact idsInOrder_append (idsInOrder_dropLast ids) (by rw [length, isOwn])
  · rw [← Option.some.inj done]
    have length : traj.length = k := by omega
    refine ⟨by rw [List.length_append, length, List.length_singleton], ?_⟩
    exact idsInOrder_append ids (by rw [length, isOwn])
  · omega

theorem startupPub_complete {k : Nat} {s after : SwarmFsm} {messages : List SwarmMessage}
    (isId : cfg.droneId = k) (prepared : Prepared k s)
    (turn : cfg.droneId ≤ 0 ∨ s.haveRecvPreAgent = true)
    (done : startupPub cfg s = some (after, messages)) :
    Prepared k after ∧ ∀ msg ∈ onTopic messages, Complete k msg := by
  simp only [startupPub, Option.bind_eq_bind, Option.bind_eq_some_iff, Option.some.injEq,
    Prod.mk.injEq] at done
  rcases done with ⟨sent, made, same, published⟩
  have size : s.multiBsplineMsgsBuf.traj.length = k ∨
      s.multiBsplineMsgsBuf.traj.length = k + 1 := by
    rcases prepared.size with missing | full | ⟨empty, unheard⟩
    · exact .inl missing
    · exact .inr full
    · rcases turn with first | heard
      · rw [empty, List.length_nil]
        omega
      · rw [unheard] at heard
        contradiction
  rw [isId] at made
  have complete := startupTraj_complete isId size prepared.ids made
  rw [← same, ← published]
  refine ⟨⟨.inr (.inl complete.1), complete.2⟩, ?_⟩
  intro msg member
  simp only [onTopic, List.filterMap_cons, List.filterMap_nil, List.mem_singleton] at member
  rw [member]
  exact ⟨isId, complete.1, complete.2⟩

theorem follow_startup {planned : UniformBspline ℚ} {s after : SwarmFsm} {effect : Effect}
    {messages : List SwarmMessage}
    (done : follow cfg planned s effect = some (after, messages)) :
    (after.multiBsplineMsgsBuf = s.multiBsplineMsgsBuf ∧ onTopic messages = []) ∨
      (effect = .swarmTrajs ∧ startupPub cfg s = some (after, messages)) := by
  cases effect with
  | swarmTrajs => exact .inr ⟨rfl, done⟩
  | emergencyStop stopPos =>
      simp only [follow, Option.bind_eq_bind, Option.bind_eq_some_iff, Option.some.injEq,
        Prod.mk.injEq] at done
      rcases done with ⟨traj, _, stored, silent⟩
      exact .inl ⟨by rw [← stored]; rfl, by rw [← silent]; rfl⟩
  | _ =>
      rcases Prod.mk.inj (Option.some.inj done) with ⟨stored, silent⟩
      exact .inl ⟨by simp [← stored, SwarmFsm.updateTrajInfo], by rw [← silent]; rfl⟩

theorem follow_complete {k : Nat} {planned : UniformBspline ℚ} {s after : SwarmFsm}
    {effect : Effect} {messages : List SwarmMessage} (isId : cfg.droneId = k)
    (prepared : Prepared k s)
    (turn : effect = .swarmTrajs → cfg.droneId ≤ 0 ∨ s.haveRecvPreAgent = true)
    (done : follow cfg planned s effect = some (after, messages)) :
    Prepared k after ∧ ∀ msg ∈ onTopic messages, Complete k msg ∧ effect = .swarmTrajs := by
  rcases follow_startup done with ⟨kept, silent⟩ | ⟨startup, published⟩
  · have heard := congrArg ReplanFsm.haveRecvPreAgent (follow_frame done).1
    rw [silent]
    refine ⟨⟨?_, ?_⟩, by simp⟩
    · rw [kept, heard]
      exact prepared.size
    · rw [kept]
      exact prepared.ids
  · have complete := startupPub_complete isId prepared (turn startup) published
    exact ⟨complete.1, fun msg member => ⟨complete.2 msg member, startup⟩⟩

theorem onTopic_append (early late : List SwarmMessage) :
    onTopic (early ++ late) = onTopic early ++ onTopic late :=
  List.filterMap_append

theorem followAll_complete {k : Nat} {planned : UniformBspline ℚ} {effects : List Effect}
    {s after : SwarmFsm} {messages : List SwarmMessage} (isId : cfg.droneId = k)
    (prepared : Prepared k s)
    (turn : Effect.swarmTrajs ∈ effects → cfg.droneId ≤ 0 ∨ s.haveRecvPreAgent = true)
    (done : followAll cfg planned effects s = some (after, messages)) :
    Prepared k after ∧
      ∀ msg ∈ onTopic messages, Complete k msg ∧ Effect.swarmTrajs ∈ effects := by
  induction effects generalizing s messages with
  | nil =>
      rcases Prod.mk.inj (Option.some.inj done) with ⟨same, silent⟩
      rw [← same, ← silent]
      exact ⟨prepared, by simp [onTopic]⟩
  | cons effect rest ih =>
      rcases followAll_cons done with ⟨middle, early, late, first, others, joined⟩
      have here := follow_complete isId prepared
        (fun startup => turn (startup ▸ List.mem_cons_self)) first
      have heard := congrArg ReplanFsm.haveRecvPreAgent (follow_frame first).1
      have later := ih here.1
        (fun member => heard ▸ turn (List.mem_cons_of_mem effect member)) others
      refine ⟨later.1, ?_⟩
      rw [joined, onTopic_append]
      intro msg member
      rcases List.mem_append.mp member with inEarly | inLate
      · have sent := here.2 msg inEarly
        exact ⟨sent.1, sent.2 ▸ List.mem_cons_self⟩
      · have sent := later.2 msg inLate
        exact ⟨sent.1, List.mem_cons_of_mem effect sent.2⟩

theorem broadcast_keeps_buffer {now : Time} {msg : Bspline} {s after : SwarmFsm}
    (done : broadcastBsplineCallback cfg now msg s = some after) :
    after.multiBsplineMsgsBuf = s.multiBsplineMsgsBuf := by
  unfold broadcastBsplineCallback at done
  split_ifs at done
  · rw [← Option.some.inj done]
  · rw [← Option.some.inj done]
  · rcases storeBroadcast_cases done with ⟨_, _, _, _, far | ⟨_, _, _, _, _, same⟩⟩
    · rw [far.2]
    · rw [same]

theorem handle_own_complete {k : Nat} {event : SwarmEvent} {s after : SwarmFsm}
    {messages : List SwarmMessage} (isId : cfg.droneId = k) (prepared : Prepared k s)
    (own : ∀ msg, event ≠ .swarmTrajs msg)
    (done : handle cfg s event = some (after, messages)) :
    Prepared k after ∧ after.haveRecvPreAgent = s.haveRecvPreAgent ∧
      ∀ msg ∈ onTopic messages,
        Complete k msg ∧ (cfg.droneId ≤ 0 ∨ s.haveRecvPreAgent = true) := by
  have inTurn : StartsInTurn cfg s.toReplanFsm
      (Planner.step cfg s.toReplanFsm (event.toEvent cfg s)) := by
    apply step_inTurn
    cases event <;> simp [SwarmEvent.toEvent]
    exact own _ rfl
  have heard : after.haveRecvPreAgent = s.haveRecvPreAgent :=
    (congrArg ReplanFsm.haveRecvPreAgent (handle_refines done)).trans inTurn.2
  rcases handle_cases done with ⟨_, planned, carried⟩ | ⟨msg, same, _⟩ |
    ⟨now, msg, _, called, silent⟩
  · have before : Prepared k { s with
        toReplanFsm := (Planner.step cfg s.toReplanFsm (event.toEvent cfg s)).1 } :=
      ⟨by rw [inTurn.2]; exact prepared.size, prepared.ids⟩
    have complete := followAll_complete isId before
      (fun startup => by rw [inTurn.2]; exact inTurn.1 startup) carried
    refine ⟨complete.1, heard, fun msg member => ?_⟩
    have sent := complete.2 msg member
    exact ⟨sent.1, inTurn.1 sent.2⟩
  · exact absurd same (own msg)
  · have kept := broadcast_keeps_buffer called
    rw [silent]
    refine ⟨⟨?_, ?_⟩, heard, by simp [onTopic]⟩
    · rw [kept, heard]
      exact prepared.size
    · rw [kept]
      exact prepared.ids

theorem handle_delivery_prepared {k : Nat} {msg : MultiBsplines} {s after : SwarmFsm}
    {messages : List SwarmMessage} (complete : Complete k msg)
    (done : handle cfg s (.swarmTrajs msg) = some (after, messages)) :
    Prepared (k + 1) after ∧ onTopic messages = [] ∧
      (after.haveRecvPreAgent = true → s.haveRecvPreAgent = true ∨
        (Accepts msg s ∧ swarmTrajsCallback cfg msg s = some after)) := by
  rcases Option.map_eq_some_iff.mp done with ⟨final, called, same⟩
  rcases Prod.mk.inj same with ⟨rfl, rfl⟩
  have stored : final.multiBsplineMsgsBuf = msg := by
    rcases swarmTrajsCallback_cases called with ⟨_, same⟩ | ⟨_, _, _, same⟩ <;> rw [same]
  refine ⟨⟨?_, ?_⟩, rfl, ?_⟩
  · rw [stored]
    exact .inl complete.size
  · rw [stored]
    exact complete.ids
  · intro heard
    rcases swarmTrajsCallback_cases called with ⟨_, same⟩ | ⟨accepted, _⟩
    · rw [same] at heard
      exact .inl heard
    · exact .inr ⟨accepted, called⟩

end Planners

section Runs

variable {n : Nat} {cfg : Fin n → ReplanConfig}

/-- Drone `k` accepts a message of the drone before it. -/
def AcceptsPrevious (k : Fin n) (t : Transition (Chain n) (ChainEvent cfg)) : Prop :=
  ∃ source next index msg s after, t.input = .deliver source k next index ∧
    (t.pre.topic source)[index]? = some msg ∧ t.pre.drone k = some s ∧ Accepts msg s ∧
    swarmTrajsCallback (droneConfig cfg k) msg s = some after

def restarts (k : Fin n) (t : Transition (Chain n) (ChainEvent cfg)) : Bool :=
  match t.input with
  | .restart j _ _ => j = k
  | _ => false

/-- What a drone sends is complete, and every drone but the first has accepted a message of the
drone before it since it was started. -/
def PublishesInTurn (t : Transition (Chain n) (ChainEvent cfg))
    (past : History (Chain n) (ChainEvent cfg)) : Prop :=
  ∀ k msg, (k, msg) ∈ (chain cfg).outputs t →
    Complete k msg ∧ (1 ≤ (k : Nat) → ∃ u ∈ since (restarts k) past, AcceptsPrevious k u)

structure Sound (history : History (Chain n) (ChainEvent cfg)) (c : Chain n) : Prop where
  drones : ∀ k s, c.drone k = some s → Prepared k s
  topics : ∀ k, ∀ msg ∈ c.topic k, Complete k msg
  heard : ∀ k s, c.drone k = some s → s.haveRecvPreAgent = true →
    ∃ u ∈ since (restarts k) history, AcceptsPrevious k u

def Handles (cfg : Fin n → ReplanConfig) (c : Chain n) (k : Fin n) (event : SwarmEvent)
    (s after : SwarmFsm) (messages : List SwarmMessage) : Prop :=
  c.drone k = some s ∧ handle (droneConfig cfg k) s event = some (after, messages)

theorem swarmPlanner_outputs {k : Fin n} {event : SwarmEvent} {c : Chain n} {msg : MultiBsplines}
    (sent : msg ∈ onTopic ((swarmPlanner (droneConfig cfg k)).step (c.drone k) event).2) :
    ∃ s after messages, Handles cfg c k event s after messages ∧ msg ∈ onTopic messages := by
  unfold Handles
  cases running : c.drone k with
  | none => simp [swarmPlanner, running, onTopic] at sent
  | some s =>
      cases done : handle (droneConfig cfg k) s event with
      | none => simp [swarmPlanner, running, done, onTopic] at sent
      | some outcome =>
          simp only [swarmPlanner, running, Option.bind_some, done] at sent
          exact ⟨s, outcome.1, outcome.2, ⟨rfl, done⟩, sent⟩

theorem act_drone {j k : Fin n} {event : SwarmEvent} {c : Chain n} {after : SwarmFsm}
    (running : (c.act cfg k event).1.drone j = some after) :
    c.drone j = some after ∨ (j = k ∧ ∃ s messages, Handles cfg c k event s after messages) := by
  simp only [Chain.act] at running
  by_cases acting : j = k
  · rw [acting, Function.update_self] at running
    rcases swarmPlanner_step running with ⟨s, messages, before, done⟩
    exact .inr ⟨acting, s, messages, before, done⟩
  · rw [Function.update_of_ne acting] at running
    exact .inl running

theorem act_topic {j k : Fin n} {event : SwarmEvent} {c : Chain n} {msg : MultiBsplines}
    (sent : msg ∈ (c.act cfg k event).1.topic j) :
    msg ∈ c.topic j ∨ (j = k ∧ ∃ s after messages,
      Handles cfg c k event s after messages ∧ msg ∈ onTopic messages) := by
  simp only [Chain.act] at sent
  by_cases acting : j = k
  · rw [acting, Function.update_self] at sent
    rcases List.mem_append.mp sent with before | new
    · exact .inl (acting ▸ before)
    · exact .inr ⟨acting, swarmPlanner_outputs new⟩
  · rw [Function.update_of_ne acting] at sent
    exact .inl sent

theorem act_outputs {j k : Fin n} {event : SwarmEvent} {c : Chain n} {msg : MultiBsplines}
    (sent : (j, msg) ∈ (c.act cfg k event).2) : j = k ∧ ∃ s after messages,
      Handles cfg c k event s after messages ∧ msg ∈ onTopic messages := by
  rcases List.mem_map.mp sent with ⟨new, member, same⟩
  rcases Prod.mk.inj same with ⟨acting, rfl⟩
  exact ⟨acting.symm, swarmPlanner_outputs member⟩

/-- What a callback of drone `k` must establish at the transition `t`. -/
def DroneStep (k : Fin n) (t : Transition (Chain n) (ChainEvent cfg)) (s after : SwarmFsm)
    (messages : List SwarmMessage) : Prop :=
  Prepared k after ∧
    (∀ msg ∈ onTopic messages,
      Complete k msg ∧ (1 ≤ (k : Nat) → s.haveRecvPreAgent = true)) ∧
    (after.haveRecvPreAgent = true → s.haveRecvPreAgent = true ∨ AcceptsPrevious k t)

theorem accepted_earlier {j : Fin n} {t : Transition (Chain n) (ChainEvent cfg)}
    {past : History (Chain n) (ChainEvent cfg)} (running : restarts j t = false)
    (before : ∃ u ∈ since (restarts j) past, AcceptsPrevious j u) :
    ∃ u ∈ since (restarts j) (t :: past), AcceptsPrevious j u := by
  rcases before with ⟨u, member, accepted⟩
  rw [since_cons_unmarked _ running]
  exact ⟨u, List.mem_cons_of_mem t member, accepted⟩

theorem initial_prepared {k : Fin n} {s : SwarmFsm} (initial : Initial (droneConfig cfg k) s) :
    Prepared k s := by
  constructor
  · exact .inr (.inr ⟨by rw [initial.msgs], initial.fsm.preAgent⟩)
  · intro i bspline present
    simp [initial.msgs] at present

theorem act_sound {t : Transition (Chain n) (ChainEvent cfg)}
    {past : History (Chain n) (ChainEvent cfg)} {k : Fin n} {event : SwarmEvent}
    (running : ∀ j, restarts j t = false) (sound : Sound past t.pre)
    (stepped : ∀ s after messages, Handles cfg t.pre k event s after messages →
      DroneStep k t s after messages) :
    Sound (t :: past) (t.pre.act cfg k event).1 ∧
      ∀ j msg, (j, msg) ∈ (t.pre.act cfg k event).2 → Complete j msg ∧
        (1 ≤ (j : Nat) → ∃ u ∈ since (restarts j) past, AcceptsPrevious j u) := by
  refine ⟨⟨?_, ?_, ?_⟩, ?_⟩
  · intro j after alive
    rcases act_drone alive with before | ⟨rfl, s, messages, handled⟩
    · exact sound.drones j after before
    · exact (stepped s after messages handled).1
  · intro j msg sent
    rcases act_topic sent with before | ⟨rfl, s, after, messages, handled, new⟩
    · exact sound.topics j msg before
    · exact ((stepped s after messages handled).2.1 msg new).1
  · intro j after alive heard
    rcases act_drone alive with before | ⟨rfl, s, messages, handled⟩
    · exact accepted_earlier (running j) (sound.heard j after before heard)
    · rcases (stepped s after messages handled).2.2 heard with already | now
      · exact accepted_earlier (running j) (sound.heard j s handled.1 already)
      · refine ⟨t, ?_, now⟩
        rw [since_cons_unmarked _ (running j)]
        exact List.mem_cons_self
  · intro j msg sent
    rcases act_outputs sent with ⟨rfl, s, after, messages, handled, new⟩
    have published := (stepped s after messages handled).2.1 msg new
    exact ⟨published.1, fun later => sound.heard j s handled.1 (published.2 later)⟩

theorem callback_sound {past : History (Chain n) (ChainEvent cfg)} {c : Chain n} (k : Fin n)
    (event : SwarmEvent) (own : ∀ msg, event ≠ .swarmTrajs msg) (sound : Sound past c) :
    Sound (⟨c, .callback k event own⟩ :: past) ((chain cfg).step c (.callback k event own)).1 ∧
      PublishesInTurn ⟨c, .callback k event own⟩ past := by
  apply act_sound (fun j => rfl) sound
  intro s after messages handled
  have complete := handle_own_complete rfl (sound.drones k s handled.1) own handled.2
  refine ⟨complete.1, fun msg member => ?_, fun heard => .inl (complete.2.1 ▸ heard)⟩
  have sent := complete.2.2 msg member
  refine ⟨sent.1, fun later => sent.2.resolve_left ?_⟩
  simp only [droneConfig]
  omega

theorem deliver_sound {past : History (Chain n) (ChainEvent cfg)} {c : Chain n}
    (source target : Fin n) (next : (target : Nat) = source + 1) (index : Nat)
    (sound : Sound past c) :
    Sound (⟨c, .deliver source target next index⟩ :: past)
        ((chain cfg).step c (.deliver source target next index)).1 ∧
      PublishesInTurn ⟨c, .deliver source target next index⟩ past := by
  unfold PublishesInTurn Machine.outputs
  simp only [chain, Chain.step]
  cases present : (c.topic source)[index]? with
  | none =>
      refine ⟨⟨sound.drones, sound.topics, fun k s alive heard => ?_⟩, by simp⟩
      exact accepted_earlier rfl (sound.heard k s alive heard)
  | some msg =>
      apply act_sound (fun j => rfl) sound
      intro s after messages handled
      have complete := sound.topics source msg (List.mem_of_getElem? present)
      have delivered := handle_delivery_prepared complete handled.2
      refine ⟨next ▸ delivered.1, by simp [delivered.2.1], fun heard => ?_⟩
      refine (delivered.2.2 heard).imp_right fun accepted => ?_
      exact ⟨source, next, index, msg, s, after, rfl, present, handled.1, accepted⟩

theorem restart_sound {past : History (Chain n) (ChainEvent cfg)} {c : Chain n} (k : Fin n)
    (fresh : SwarmFsm) (initial : Initial (droneConfig cfg k) fresh) (sound : Sound past c) :
    Sound (⟨c, .restart k fresh initial⟩ :: past)
      ((chain cfg).step c (.restart k fresh initial)).1 := by
  refine ⟨?_, sound.topics, ?_⟩
  · intro j s alive
    simp only [chain, Chain.step] at alive
    by_cases fresh_start : j = k
    · rw [fresh_start, Function.update_self, Option.some.injEq] at alive
      rw [← alive, fresh_start]
      exact initial_prepared initial
    · rw [Function.update_of_ne fresh_start] at alive
      exact sound.drones j s alive
  · intro j s alive heard
    simp only [chain, Chain.step] at alive
    by_cases fresh_start : j = k
    · rw [fresh_start, Function.update_self, Option.some.injEq] at alive
      rw [← alive, initial.fsm.preAgent] at heard
      contradiction
    · rw [Function.update_of_ne fresh_start] at alive
      apply accepted_earlier _ (sound.heard j s alive heard)
      simpa [restarts] using Ne.symm fresh_start

theorem chain_step_sound {past : History (Chain n) (ChainEvent cfg)} {c : Chain n}
    (event : ChainEvent cfg) (sound : Sound past c) :
    Sound (⟨c, event⟩ :: past) ((chain cfg).step c event).1 ∧
      PublishesInTurn ⟨c, event⟩ past := by
  cases event with
  | callback k event own => exact callback_sound k event own sound
  | deliver source target next index => exact deliver_sound source target next index sound
  | restart k fresh initial =>
      refine ⟨restart_sound k fresh initial sound, ?_⟩
      simp [PublishesInTurn, Machine.outputs, chain, Chain.step]

theorem run_sound {history : History (Chain n) (ChainEvent cfg)} {c : Chain n}
    (run : (chain cfg).Run history c) : Sound history c := by
  induction run with
  | start initial =>
      refine ⟨fun k s alive => initial_prepared (initial.1 k s alive), ?_, ?_⟩
      · intro k msg sent
        simp [initial.2 k] at sent
      · intro k s alive heard
        rw [(initial.1 k s alive).fsm.preAgent] at heard
        contradiction
  | step event run ih => exact (chain_step_sound event ih).1

theorem chain_publishes_in_turn {history : History (Chain n) (ChainEvent cfg)} {c : Chain n}
    (run : (chain cfg).Run history c) : Throughout PublishesInTurn history := by
  apply run.throughout
  intro past c event run
  exact (chain_step_sound event (run_sound run)).2

end Runs

def pair : Fin 2 → ReplanConfig := fun _ => typeOneFlight

/-- Odometry arrives, a goal is set, and the third tick plans the first trajectory. -/
def departs (k : Fin 2) : List (ChainEvent pair) :=
  [.callback k (.odom ⟨0, 0, 1⟩ ⟨0, 0, 0⟩) (by simp),
    .callback k (.waypoint ⟨sec 9, "world", ⟨8, 0, 1⟩⟩) (by simp),
    .callback k (.exec ⟨sec 9, failing⟩ (splineOf (resting 0))) (by simp),
    .callback k (.exec ⟨sec 9, failing⟩ (splineOf (resting 0))) (by simp),
    .callback k (.exec ⟨sec 10, planned (sec 10)⟩ (splineOf (resting 0))) (by simp)]

/-- Drone 1 is ready before drone 0, and plans again when it has heard of it. -/
def startup : History (Chain 2) (ChainEvent pair) × Chain 2 :=
  (chain pair).exec [] ⟨fun _ => some parkedSwarm, fun _ => []⟩
    (departs 1 ++ departs 0 ++ [.deliver 0 1 rfl 0] ++ departs 1)

theorem startup_in_turn : Throughout PublishesInTurn startup.1 := by
  have initial : (chain pair).Run [] ⟨fun _ => some parkedSwarm, fun _ => []⟩ := by
    refine .start ⟨fun k s alive => ?_, fun _ => rfl⟩
    rw [← Option.some.inj alive]
    exact ⟨by constructor <;> rfl, rfl, rfl⟩
  exact chain_publishes_in_turn (initial.exec _)

example : ((chain pair).trace startup.1).map (fun sent => (sent.1, sent.2.traj.map (·.droneId))) =
    [(0, [0]), (1, [0, 1])] := by
  decide +kernel

end RobocupDrone.Planner.Swarm
