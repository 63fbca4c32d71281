import RobocupDrone.Planner.SwarmTrajs

/-! What each callback does to the swarm members, and that the callbacks are those of `ReplanFsm` on
the other members. -/

namespace RobocupDrone.Planner.Swarm

open Geometry Reactive
open Controller (Time PoseStamped)

variable {cfg : ReplanConfig}

theorem follow_frame {planned : UniformBspline ℚ} {s after : SwarmFsm} {effect : Effect}
    {sent : List SwarmMessage} (done : follow cfg planned s effect = some (after, sent)) :
    after.toReplanFsm = s.toReplanFsm ∧ after.swarmTrajsBuf = s.swarmTrajsBuf := by
  cases effect with
  | bspline traj =>
      simp only [follow, Option.some.injEq, Prod.mk.injEq] at done
      simp [← done.1, SwarmFsm.updateTrajInfo]
  | emergencyStop stopPos =>
      simp only [follow, Option.bind_eq_bind, Option.bind_eq_some_iff, Option.some.injEq,
        Prod.mk.injEq] at done
      rcases done with ⟨traj, _, stored, _⟩
      simp [← stored, SwarmFsm.updateTrajInfo]
  | swarmTrajs =>
      simp only [follow, startupPub, Option.bind_eq_bind, Option.bind_eq_some_iff,
        Option.some.injEq, Prod.mk.injEq] at done
      rcases done with ⟨traj, _, forwarded, _⟩
      simp [← forwarded]
  | broadcastBspline traj =>
      simp only [follow, Option.some.injEq, Prod.mk.injEq] at done
      simp [← done.1]
  | egoState data =>
      simp only [follow, Option.some.injEq, Prod.mk.injEq] at done
      simp [← done.1]
  | targetExist data =>
      simp only [follow, Option.some.injEq, Prod.mk.injEq] at done
      simp [← done.1]

theorem followAll_cons {planned : UniformBspline ℚ} {effect : Effect} {rest : List Effect}
    {s after : SwarmFsm} {sent : List SwarmMessage}
    (done : followAll cfg planned (effect :: rest) s = some (after, sent)) :
    ∃ middle early late, follow cfg planned s effect = some (middle, early) ∧
      followAll cfg planned rest middle = some (after, late) ∧ sent = early ++ late := by
  simp only [followAll, Option.bind_eq_bind, Option.bind_eq_some_iff, Option.some.injEq,
    Prod.mk.injEq, Prod.exists] at done
  rcases done with ⟨middle, early, first, last, late, others, same, joined⟩
  exact ⟨middle, early, late, first, same ▸ others, joined.symm⟩

theorem followAll_frame {planned : UniformBspline ℚ} {effects : List Effect}
    {s after : SwarmFsm} {sent : List SwarmMessage}
    (done : followAll cfg planned effects s = some (after, sent)) :
    after.toReplanFsm = s.toReplanFsm ∧ after.swarmTrajsBuf = s.swarmTrajsBuf := by
  induction effects generalizing s sent with
  | nil =>
      simp only [followAll, Option.some.injEq, Prod.mk.injEq] at done
      simp [← done.1]
  | cons effect rest ih =>
      rcases followAll_cons done with ⟨middle, early, late, first, others, _⟩
      have here := follow_frame first
      have later := ih others
      exact ⟨later.1.trans here.1, later.2.trans here.2⟩

theorem carry_frame {planned : UniformBspline ℚ} {event : Event} {s after : SwarmFsm}
    {sent : List SwarmMessage} (done : s.carry cfg planned event = some (after, sent)) :
    after.toReplanFsm = (Planner.step cfg s.toReplanFsm event).1 ∧
      after.swarmTrajsBuf = s.swarmTrajsBuf :=
  followAll_frame done

theorem agentNear_agentClose {now : Time} {pCur : Vec3 ℚ} {id : Nat}
    {buf : List OneTrajDataOfSwarm} {near : Bool}
    (found : agentNear cfg now pCur id buf = some near) :
    near =
      ((buf.map fun agent =>
        (⟨agent.droneId, (agent.predicted now).getD 0⟩ : SwarmAgent)).zipIdx id).any
          fun (agent, id) =>
            agent.droneId = id ∧ agent.droneId ≠ cfg.droneId ∧
              normLt (pCur - agent.predicted) cfg.swarmClearance := by
  induction buf generalizing id with
  | nil =>
      simp only [agentNear, Option.some.injEq] at found
      simp [← found]
  | cons agent rest ih =>
      simp only [agentNear] at found
      simp only [List.map_cons, List.zipIdx_cons, List.any_cons]
      split_ifs at found with skipped
      · rw [← ih found]
        have absent : ¬(agent.droneId = id ∧ agent.droneId ≠ cfg.droneId) := by tauto
        simp only [← and_assoc, absent, false_and, decide_false, Bool.false_or]
      · simp only [Option.bind_eq_bind, Option.bind_eq_some_iff] at found
        rcases found with ⟨position, evaluated, found⟩
        have present : agent.droneId = id ∧ agent.droneId ≠ cfg.droneId := by tauto
        split_ifs at found with close
        · simp only [Option.some.injEq] at found
          simp [present.1, ← found, evaluated, close]
          simp [← present.1, present.2]
        · rw [← ih found]
          simp [evaluated, close]

theorem firstOcc_find {occupied : ℚ → Bool} {near : Option Bool} {times : List ℚ}
    {found : Option ℚ} (scanned : firstOcc occupied near times = some found) (fallback : Bool) :
    found = times.find? fun t => occupied t || near.getD fallback := by
  induction times with
  | nil =>
      simp only [firstOcc, Option.some.injEq] at scanned
      simp [← scanned]
  | cons t rest ih =>
      simp only [firstOcc, Option.bind_eq_bind, Option.bind_eq_some_iff] at scanned
      rcases scanned with ⟨close, known, scanned⟩
      rw [List.find?_cons]
      by_cases hit : (occupied t || near.getD fallback) = true
      · rw [known, Option.getD_some] at hit
        simp only [hit, if_true, Option.some.injEq] at scanned
        simp [known, hit, ← scanned]
      · rw [known, Option.getD_some] at hit
        simp only [hit, Bool.false_eq_true, if_false] at scanned
        rw [ih scanned]
        simp [known, hit]

theorem reported_firstOccupied {inp : SafetyTick} {s : SwarmFsm} {found : Option ℚ}
    (scanned : reported cfg inp s = some found) :
    found = firstOccupied cfg (inp.observe s.swarmTrajsBuf) s.localData := by
  rw [firstOcc_find scanned (agentClose cfg (inp.observe s.swarmTrajsBuf).swarm
    (s.localData.position (toSec (inp.now - s.localData.startTime))))]
  unfold firstOccupied
  congr 1
  funext t
  congr 1
  cases near : agentNear cfg inp.now
      (s.localData.position (toSec (inp.now - s.localData.startTime))) 0 s.swarmTrajsBuf with
  | none => rfl
  | some close => exact agentNear_agentClose near

/-- The loop gets as far as `t`. -/
def Reaches {α : Type} (close : α → Option Bool) : List α → α → Prop
  | [], _ => False
  | head :: rest, t => t = head ∨ (close head = some false ∧ Reaches close rest t)

theorem reaches_mem {α : Type} {close : α → Option Bool} {items : List α} {t : α}
    (reached : Reaches close items t) : t ∈ items := by
  induction items with
  | nil => exact reached.elim
  | cons head rest ih =>
      rcases reached with here | ⟨_, later⟩
      · rw [here]
        exact List.mem_cons_self
      · exact List.mem_cons_of_mem head (ih later)

section FirstClose

variable {α : Type} (close : α → Option Bool) (items : List α)

theorem firstClose_isSome_iff :
    (firstClose close items).isSome ↔ ∀ t, Reaches close items t → (close t).isSome := by
  induction items with
  | nil => simp [firstClose, Reaches]
  | cons head rest ih =>
      simp only [Reaches, or_imp, forall_and, forall_eq]
      cases here : close head with
      | none => simp [firstClose, here]
      | some near => cases near <;> simp [firstClose, here, ih]

theorem firstClose_true_iff :
    firstClose close items = some true ↔ ∃ t, Reaches close items t ∧ close t = some true := by
  induction items with
  | nil => simp [firstClose, Reaches]
  | cons head rest ih =>
      simp only [Reaches, or_and_right, exists_or, exists_eq_left]
      cases here : close head with
      | none => simp [firstClose, here]
      | some near => cases near <;> simp [firstClose, here, ih]

theorem firstClose_false_iff :
    firstClose close items = some false ↔ ∀ t ∈ items, close t = some false := by
  induction items with
  | nil => simp [firstClose]
  | cons head rest ih =>
      rw [List.forall_mem_cons]
      cases here : close head with
      | none => simp [firstClose, here]
      | some near => cases near <;> simp [firstClose, here, ih]

end FirstClose

/-- The three ways in which `swarmTrajsCallback` turns a message down. -/
def Rejects (msg : MultiBsplines) (s : SwarmFsm) : Prop :=
  s.haveOdom = false ∨ (msg.traj.length : Int) ≠ msg.droneIdFrom + 1 ∨
    ∃ first, msg.traj[0]? = some first ∧ first.order ≠ 3

def Accepts (msg : MultiBsplines) (s : SwarmFsm) : Prop :=
  s.haveOdom = true ∧ (msg.traj.length : Int) = msg.droneIdFrom + 1 ∧
    msg.traj[0]?.map (·.order) = some 3

instance (msg : MultiBsplines) (s : SwarmFsm) : Decidable (Accepts msg s) :=
  inferInstanceAs (Decidable (_ ∧ _))

theorem Rejects.not_accepts {msg : MultiBsplines} {s : SwarmFsm} (rejected : Rejects msg s) :
    ¬Accepts msg s := by
  rintro ⟨odom, size, order⟩
  rcases rejected with noOdom | wrongSize | ⟨head, present, wrongOrder⟩
  · rw [odom] at noOdom
    contradiction
  · exact wrongSize size
  · rw [present, Option.map_some, Option.some.injEq] at order
    exact wrongOrder order

theorem swarmTrajsCallback_rejects {msg : MultiBsplines} {s : SwarmFsm} (rejected : Rejects msg s) :
    swarmTrajsCallback cfg msg s = some { s with multiBsplineMsgsBuf := msg } := by
  simp only [swarmTrajsCallback]
  rcases rejected with noOdom | wrongSize | ⟨head, present, wrongOrder⟩
  · rw [if_pos noOdom]
  · rw [if_pos wrongSize, ite_self]
  · simp [present, wrongOrder]

theorem swarmTrajsCallback_cases {msg : MultiBsplines} {s after : SwarmFsm}
    (done : swarmTrajsCallback cfg msg s = some after) :
    (Rejects msg s ∧ after = { s with multiBsplineMsgsBuf := msg }) ∨
      (Accepts msg s ∧ ∃ received, receiveTrajs cfg s.odomPos 0 msg.traj = some received ∧
        after = { s with
          multiBsplineMsgsBuf := msg, swarmTrajsBuf := received, haveRecvPreAgent := true }) := by
  by_cases rejected : Rejects msg s
  · rw [swarmTrajsCallback_rejects rejected] at done
    exact .inl ⟨rejected, (Option.some.inj done).symm⟩
  · right
    simp only [Rejects, not_or, Bool.not_eq_false, not_not, not_exists, not_and] at rejected
    rcases rejected with ⟨odom, size, order⟩
    simp only [swarmTrajsCallback, odom, size, Bool.true_eq_false, ne_eq, not_true_eq_false,
      if_false, Option.bind_eq_bind, Option.bind_eq_some_iff] at done
    rcases done with ⟨head, present, done⟩
    rw [if_neg (not_not.mpr (order head present))] at done
    rcases Option.bind_eq_some_iff.mp done with ⟨received, stored, final⟩
    have sender := order head present
    refine ⟨⟨odom, size, by rw [present, Option.map_some, sender]⟩, received, stored, ?_⟩
    rw [← Option.some.inj final, odom]

theorem swarmTrajsCallback_refines {msg : MultiBsplines} {s after : SwarmFsm}
    (done : swarmTrajsCallback cfg msg s = some after) :
    after.toReplanFsm =
      Planner.swarmTrajsCallback msg.droneIdFrom (msg.traj.map (·.order)) s.toReplanFsm := by
  unfold Planner.swarmTrajsCallback
  rcases swarmTrajsCallback_cases done with ⟨rejected, same⟩ | ⟨accepted, received, stored, same⟩
  · rw [same]
    rcases rejected with noOdom | wrongSize | ⟨head, present, wrongOrder⟩
    · simp [noOdom]
    · simp [wrongSize]
    · rw [← List.head?_eq_getElem?] at present
      simp [present, wrongOrder]
  · rw [same]
    rcases accepted with ⟨odom, size, order⟩
    rw [← List.head?_eq_getElem?] at order
    simp [odom, size, order]

theorem storeBroadcast_cases {msg : Bspline} {s after : SwarmFsm}
    (done : storeBroadcast cfg msg s = some after) :
    ∃ buf startPt, fillUp (sizeT msg.droneId) s.swarmTrajsBuf = some buf ∧
      swarmStartPt msg = some startPt ∧
      ((tooFar cfg s.odomPos startPt = true ∧ after = { s with
          swarmTrajsBuf := buf.modify (sizeT msg.droneId) fun agent =>
            { agent with droneId := -1 } }) ∨
        (tooFar cfg s.odomPos startPt = false ∧ ∃ stored collision,
          storeData (sizeT msg.droneId) msg = some stored ∧
          checkCollision cfg s.localData stored = some collision ∧
          after = { s with
            toReplanFsm := if collision then s.toReplanFsm.change .replanTraj else s.toReplanFsm
            swarmTrajsBuf := buf.set (sizeT msg.droneId) stored })) := by
  simp only [storeBroadcast, Option.bind_eq_bind, Option.bind_eq_some_iff] at done
  rcases done with ⟨buf, filled, startPt, read, done⟩
  refine ⟨buf, startPt, filled, read, ?_⟩
  split_ifs at done with far
  · exact .inl ⟨far, (Option.some.inj done).symm⟩
  · rcases Option.bind_eq_some_iff.mp done with ⟨stored, storing, done⟩
    rcases Option.bind_eq_some_iff.mp done with ⟨collision, checked, done⟩
    refine .inr ⟨by simpa using far, stored, collision, storing, checked, ?_⟩
    cases collision with
    | false => exact (Option.some.inj done).symm
    | true => exact (Option.some.inj done).symm

theorem broadcastBsplineCallback_refines {now : Time} {msg : Bspline} {s after : SwarmFsm}
    (done : broadcastBsplineCallback cfg now msg s = some after) :
    after.toReplanFsm =
      Planner.broadcastBsplineCallback cfg (observeBroadcast cfg now msg s) s.toReplanFsm := by
  unfold broadcastBsplineCallback at done
  by_cases own : msg.droneId = cfg.droneId
  · rw [if_pos own] at done
    simp [Planner.broadcastBsplineCallback, observeBroadcast, own, ← Option.some.inj done]
  rw [if_neg own] at done
  by_cases late : |toSec (now - msg.startTime)| > 0.25
  · rw [if_pos late] at done
    simp [Planner.broadcastBsplineCallback, observeBroadcast, late, ← Option.some.inj done]
  rw [if_neg late] at done
  rcases storeBroadcast_cases done with ⟨buf, startPt, _, read, far | near⟩
  · have kept : normGt (startPt - s.odomPos) (cfg.planningHorizen * 4 / 3) = true := far.1
    simp [Planner.broadcastBsplineCallback, observeBroadcast, own, late, read, kept, far.2]
  · rcases near with ⟨close, stored, collision, storing, checked, same⟩
    have inside : normGt (startPt - s.odomPos) (cfg.planningHorizen * 4 / 3) = false := close
    simp [Planner.broadcastBsplineCallback, observeBroadcast, own, late, read, inside, storing,
      checked, same]

def SwarmEvent.received : SwarmEvent → Bool
  | .swarmTrajs _ | .broadcastBspline _ _ => true
  | _ => false

theorem handle_cases {s after : SwarmFsm} {event : SwarmEvent} {sent : List SwarmMessage}
    (done : handle cfg s event = some (after, sent)) :
    (event.received = false ∧ ∃ planned,
        s.carry cfg planned (event.toEvent cfg s) = some (after, sent)) ∨
      (∃ msg, event = .swarmTrajs msg ∧ swarmTrajsCallback cfg msg s = some after ∧ sent = []) ∨
      (∃ now msg, event = .broadcastBspline now msg ∧
        broadcastBsplineCallback cfg now msg s = some after ∧ sent = []) := by
  cases event with
  | safety inp planned =>
      refine .inl ⟨rfl, planned, ?_⟩
      simp only [handle, checkCollisionCallback] at done
      split_ifs at done with idle
      · simp [SwarmFsm.carry, SwarmEvent.toEvent, Planner.step, Planner.checkCollisionCallback,
          idle, followAll, done]
      · rcases Option.bind_eq_some_iff.mp done with ⟨found, _, carried⟩
        exact carried
  | swarmTrajs msg =>
      rcases Option.map_eq_some_iff.mp done with ⟨final, called, same⟩
      rcases Prod.mk.inj same with ⟨rfl, rfl⟩
      exact .inr (.inl ⟨msg, rfl, called, rfl⟩)
  | broadcastBspline now msg =>
      rcases Option.map_eq_some_iff.mp done with ⟨final, called, same⟩
      rcases Prod.mk.inj same with ⟨rfl, rfl⟩
      exact .inr (.inr ⟨now, msg, rfl, called, rfl⟩)
  | exec inp planned =>
      simp only [handle] at done
      exact .inl ⟨rfl, planned, done⟩
  | _ =>
      simp only [handle] at done
      exact .inl ⟨rfl, s.positionTraj, done⟩

theorem handle_refines {s after : SwarmFsm} {event : SwarmEvent} {sent : List SwarmMessage}
    (done : handle cfg s event = some (after, sent)) :
    after.toReplanFsm = (Planner.step cfg s.toReplanFsm (event.toEvent cfg s)).1 := by
  rcases handle_cases done with ⟨_, planned, carried⟩ | ⟨msg, same, called, _⟩ |
    ⟨now, msg, same, called, _⟩
  · exact (carry_frame carried).1
  · rw [same]
    exact swarmTrajsCallback_refines called
  · rw [same]
    exact broadcastBsplineCallback_refines called

theorem swarmPlanner_step {state : Option SwarmFsm} {event : SwarmEvent} {after : SwarmFsm}
    (alive : ((swarmPlanner cfg).step state event).1 = some after) :
    ∃ s sent, state = some s ∧ handle cfg s event = some (after, sent) := by
  cases state with
  | none => simp [swarmPlanner] at alive
  | some s =>
      cases done : handle cfg s event with
      | none => simp [swarmPlanner, done] at alive
      | some outcome =>
          refine ⟨s, outcome.2, rfl, ?_⟩
          simp only [swarmPlanner, Option.bind_some, done, Option.some.injEq] at alive
          rw [← alive]
          exact done

end RobocupDrone.Planner.Swarm
