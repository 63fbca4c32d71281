import Mathlib.Tactic.IntervalCases
import RobocupDrone.Controller.Invariants

/-! The order of the published goals, and what arrival at a goal rests on. -/

namespace RobocupDrone.Controller

open Geometry Reactive

variable {cfg : Config} {s : Fsm} {e : Event} {inp : TickInput} {c : Control}
  {published : List (Vec3 ℚ)} {requested : List (Int × Bool)}

theorem goals_append (first second : List Effect) :
    goals (first ++ second) = goals first ++ goals second := by
  simp [goals]

theorem Move.goal_step (move : Move cfg s e c published requested) :
    (c.targetId = s.targetId ∧ c.curTarget = s.curTarget ∧ published = []) ∨
      (c.targetId = s.targetId + 1 ∧ c.curTarget = cfg.targetPoints s.targetId ∧
        published = [cfg.targetPoints s.targetId]) := by
  cases move with
  | tick inp move =>
      cases move with
      | firstGoal | nextGoal => exact .inr ⟨rfl, rfl, rfl⟩
      | _ => exact .inl ⟨rfl, rfl, rfl⟩
  | _ => exact .inl ⟨rfl, rfl, rfl⟩

theorem goals_published {history : History Fsm Event} {s : Fsm}
    (run : (controller cfg).Run history s) :
    goals ((controller cfg).trace history) = (List.range s.targetId).map cfg.targetPoints := by
  induction run with
  | start initial =>
      obtain ⟨memory, now, rfl⟩ := initial
      rfl
  | @step past s e run ih =>
      have move := (post_move cfg s e).goal_step
      simp only [Machine.trace, goals_append, ih]
      rcases move with ⟨same, -, quiet⟩ | ⟨next, -, published⟩
      · rw [quiet, List.append_nil]
        exact congrArg (fun n => (List.range n).map cfg.targetPoints) same.symm
      · rw [published, ← List.map_singleton, ← List.map_append, ← List.range_succ]
        exact congrArg (fun n => (List.range n).map cfg.targetPoints) next.symm

theorem Move.target_bound (move : Move cfg s e c published requested)
    (enough : 5 ≤ cfg.targetPointNum) (bound : (s.targetId : Int) ≤ cfg.targetPointNum) :
    (c.targetId : Int) ≤ cfg.targetPointNum := by
  cases move with
  | tick inp move =>
      cases move with
      | firstGoal state ego someTarget fresh =>
          have unpublished : s.targetId = 0 := fresh
          change ((s.targetId + 1 : Nat) : Int) ≤ cfg.targetPointNum
          omega
      | nextGoal gate branch =>
          have room : s.targetId ≤ 4 ∨ (s.targetId : Int) < cfg.targetPointNum := branch
          change ((s.targetId + 1 : Nat) : Int) ≤ cfg.targetPointNum
          omega
      | _ => exact bound
  | _ => exact bound

theorem target_bounded {history : History Fsm Event} {s : Fsm}
    (enough : 5 ≤ cfg.targetPointNum) (run : (controller cfg).Run history s) :
    (s.targetId : Int) ≤ cfg.targetPointNum := by
  apply run.invariant (I := fun s => (s.targetId : Int) ≤ cfg.targetPointNum)
  · rintro _ ⟨memory, now, rfl⟩
    change ((0 : Nat) : Int) ≤ cfg.targetPointNum
    omega
  · intro s e bound
    exact (step_move cfg s e).target_bound enough bound

/-- The goals published so far are the first `target_id_` targets that `init` read from
the parameters, and `target_id_` has not run past their number. -/
def RouteInOrder (nhPrivate : ParamServer) (n : Int) (published : List (Vec3 ℚ)) (s : Fsm) :
    Prop :=
  (s.targetId : Int) ≤ n ∧ published = (List.range s.targetId).map nhPrivate.targetPoint

def fiveGates : List Event :=
  [tickAt 0 none false, tickAt (sec 2) none false, tickAt (sec 4) none false,
    tickAt (sec 6) none false, tickAt (sec 8) none false]

theorem few_targets_overrun {n : Int} (positive : 1 ≤ n) (few : n < 5) :
    (script (.load (launch n) none zeroConfig) (takeoff ++ fiveGates)).2.targetId = 5 := by
  interval_cases n <;> decide +kernel

/-- The second branch of `HOLD` compares `target_id_` with 4 and not with the number of
targets, so the route is kept exactly when there are five targets or more. The array
`target_points_` has room for 50. -/
theorem route_in_order_iff (n : Int) (positive : 1 ≤ n) (_fits : n ≤ 50) :
    (∀ nhPrivate yaml memory, nhPrivate.targetPointNum = some n →
      ∀ history s, (controller (.load nhPrivate yaml memory)).Run history s →
        RouteInOrder nhPrivate n
          (goals ((controller (.load nhPrivate yaml memory)).trace history)) s) ↔ 5 ≤ n := by
  constructor
  · intro ordered
    by_contra few
    have overrun := few_targets_overrun positive (not_le.mp few)
    have bound := (ordered (launch n) none zeroConfig rfl _ _
      (script_run _ (takeoff ++ fiveGates))).1
    rw [overrun] at bound
    omega
  · intro enough nhPrivate yaml memory configured history s run
    have count : (Config.load nhPrivate yaml memory).targetPointNum = n := by
      simp [Config.load, configured]
    have bound := target_bounded (by rw [count]; exact enough) run
    rw [count] at bound
    refine ⟨bound, ?_⟩
    rw [goals_published run]
    apply List.map_congr_left
    intro i member
    have inside : (i : Int) < n := by
      have := List.mem_range.mp member
      omega
    simp [Config.load, configured, inside]

/-- `fsm_run.launch`: two targets are configured, points for five are given. -/
def fsmRunLaunch : ParamServer :=
  { launch 2 with
    useSim := some false
    doMission := some false
    useYaw := some false
    targetPointsX := fun i => [3.0, 4.5, 5.2, 7.0, 8.4][i]?
    targetPointsY := fun i => [0.0, -2.0, -0.5, 0.75, 0.75][i]?
    targetPointsZ := fun i => [0.7, 0.7, 0.7, 0.7, 0.7][i]? }

def fiveTargets : ParamServer := { fsmRunLaunch with targetPointNum := some 5 }

theorem route_in_order_five :
    let cfg := Config.load fiveTargets none zeroConfig
    let run := script cfg (takeoff ++ fiveGates)
    RouteInOrder fiveTargets 5 (goals ((controller cfg).trace run.1)) run.2 ∧
      run.2.targetId = 5 :=
  ⟨(route_in_order_iff 5 (by decide) (by decide)).mpr le_rfl fiveTargets none zeroConfig rfl _ _
    (script_run _ _), by decide +kernel⟩

/-- With that launch file a third goal is published, from memory that `init` never wrote. -/
theorem two_targets_overrun :
    let cfg := Config.load fsmRunLaunch none zeroConfig
    let run := script cfg (takeoff ++ fiveGates)
    (controller cfg).Run run.1 run.2 ∧
      ¬RouteInOrder fsmRunLaunch 2 (goals ((controller cfg).trace run.1)) run.2 := by
  refine ⟨script_run _ _, fun ordered => ?_⟩
  have bound := ordered.1
  revert bound
  decide +kernel

section Arrival

variable (cfg)

def publishes (t : Transition Fsm Event) : Bool := !(goals ((controller cfg).outputs t)).isEmpty

def sinceGoal (past : History Fsm Event) : History Fsm Event := since (publishes cfg) past

def EntersMission (t : Transition Fsm Event) : Prop :=
  t.pre.fsmState ≠ .execMission ∧ ((controller cfg).post t).fsmState = .execMission

/-- The step is a tick whose position check would find the vehicle at `goal`. -/
def nearAt (goal : Vec3 ℚ) (t : Transition Fsm Event) : Bool :=
  match t.input with
  | .tick _ => decide ((t.pre.odomPos - goal).normSq < 0.5 * 0.5)
  | _ => false

/-- The step is a command that starts `TRACKING`. -/
def takesUp (t : Transition Fsm Event) : Bool :=
  match t.input with
  | .posCmd _ => decide (t.pre.fsmState = .hold ∧ t.pre.pauseTrack = false)
  | _ => false

def LeavesGoal (t : Transition Fsm Event) : Prop :=
  (t.pre.targetId ≠ 0 ∧ publishes cfg t = true) ∨ EntersMission cfg t

def GoalReached (t : Transition Fsm Event) (past : History Fsm Event) : Prop :=
  (goals ((controller cfg).trace past)).getLast?.any
    (fun goal => (t :: sinceGoal cfg past).any (nearAt goal)) = true

/-- The step is a tick outside `TRACKING` whose position check would find the vehicle at
`goal`. -/
def idlesAt (goal : Vec3 ℚ) (t : Transition Fsm Event) : Bool :=
  nearAt goal t && decide (t.pre.fsmState ≠ .tracking)

/-- A tick that finds `HOLD` past its gate comes after a command was taken up since the last
publication, unless the vehicle has been at the goal without any tracking. -/
def PlannerInTime (t : Transition Fsm Event) (past : History Fsm Event) : Prop :=
  ∀ inp, t.input = .tick inp → PastGate cfg inp t.pre →
    (sinceGoal cfg past).any takesUp = true ∨
      (goals ((controller cfg).trace past)).getLast?.any
        (fun goal => (t :: sinceGoal cfg past).any (idlesAt goal)) = true

instance (t : Transition Fsm Event) : Decidable (EntersMission cfg t) :=
  inferInstanceAs (Decidable (_ ∧ _))

instance (t : Transition Fsm Event) : Decidable (LeavesGoal cfg t) :=
  inferInstanceAs (Decidable (_ ∨ _))

instance (t : Transition Fsm Event) (past : History Fsm Event) :
    Decidable (GoalReached cfg t past) :=
  inferInstanceAs (Decidable (_ = _))

instance (t : Transition Fsm Event) (past : History Fsm Event) :
    Decidable (PlannerInTime cfg t past) :=
  inferInstanceAs (Decidable (∀ _, _ → _))

end Arrival

theorem cur_target_published {history : History Fsm Event} {s : Fsm}
    (run : (controller cfg).Run history s) (published : s.targetId ≠ 0) :
    (goals ((controller cfg).trace history)).getLast? = some s.curTarget := by
  induction run with
  | start initial =>
      obtain ⟨memory, now, rfl⟩ := initial
      exact absurd rfl published
  | @step past s e run ih =>
      simp only [Machine.trace, goals_append]
      rcases (post_move cfg s e).goal_step with ⟨same, target, quiet⟩ | ⟨-, target, goal⟩
      · rw [quiet, List.append_nil]
        exact (ih (fun zero => published (same.trans zero))).trans (congrArg some target.symm)
      · rw [goal, List.getLast?_concat]
        exact congrArg some target.symm

theorem Move.tracking_step (move : Move cfg s e c published requested)
    (state : s.fsmState = .tracking) :
    c.fsmState = .tracking ∨ nearAt s.curTarget ⟨s, e⟩ = true := by
  cases move with
  | tick inp move =>
      cases move with
      | arrive _ near => exact .inr near
      | connect other | tookOff other | riseDone other =>
          exact FsmState.noConfusion (other.symm.trans state)
      | missionEntry gate | landEntry gate =>
          exact FsmState.noConfusion (gate.state.symm.trans state)
      | landed _ leaving => exact FsmState.noConfusion (leaving.1.symm.trans state)
      | _ => exact .inl state
  | command cmd => exact .inl rfl
  | _ => exact .inl state

theorem taken_up_arrives {history : History Fsm Event} {s : Fsm}
    (run : (controller cfg).Run history s) (taken : (sinceGoal cfg history).any takesUp = true) :
    s.fsmState = .tracking ∨ (sinceGoal cfg history).any (nearAt s.curTarget) = true := by
  induction run with
  | start _ => simp [sinceGoal] at taken
  | @step past s e run ih =>
      rcases (post_move cfg s e).goal_step with ⟨-, target, quiet⟩ | ⟨-, -, goal⟩
      · have unmarked : publishes cfg ⟨s, e⟩ = false := by simp [publishes, quiet]
        have target : ((controller cfg).step s e).1.curTarget = s.curTarget := target
        simp only [sinceGoal, since_cons_unmarked _ unmarked, List.any_cons, Bool.or_eq_true,
          target] at taken ⊢
        rcases taken with now | earlier
        · left
          cases e with
          | posCmd cmd =>
              have free : s.fsmState = .hold ∧ s.pauseTrack = false := by simpa [takesUp] using now
              simp [controller, step, quadmsgCallback, changeFSMState, free]
          | _ => simp [takesUp] at now
        · rcases ih earlier with tracking | arrived
          · rcases (post_move cfg s e).tracking_step tracking with still | near
            · exact .inl still
            · exact .inr (.inl near)
          · exact .inr (.inr arrived)
      · have marked : publishes cfg ⟨s, e⟩ = true := by simp [publishes, goal]
        simp [sinceGoal, since_cons_marked _ marked] at taken

theorem Move.publishes_in_hold (move : Move cfg s e c published requested)
    (goal : published ≠ []) : c.fsmState = .hold := by
  cases move with
  | tick inp move =>
      cases move with
      | firstGoal state => exact state
      | nextGoal gate => exact gate.state
      | _ => exact absurd rfl goal
  | _ => exact absurd rfl goal

theorem TickMove.past_gate
    (move : TickMove cfg inp s c published requested) (gate : PastGate cfg inp s) :
    published ≠ [] ∨ c.fsmState = .execMission := by
  have state := gate.state
  cases move with
  | nextGoal => exact .inl (List.cons_ne_nil _ _)
  | missionEntry | landEntry => exact .inr rfl
  | holdWait _ closed => exact absurd gate closed
  | firstGoal _ _ _ fresh => exact absurd fresh gate.started
  | stay parked => simp [state] at parked
  | adjustLand _ leaving | adjustDrop _ leaving | landed _ leaving => simp [leaving.1] at state
  | adjustTimeout leaving | dropPut leaving => simp [leaving.1] at state
  | _ => simp_all

theorem past_gate_leaves {s : Fsm} {inp : TickInput} (gate : PastGate cfg inp s) :
    LeavesGoal cfg ⟨s, .tick inp⟩ := by
  have opened := past_gate_open_iff.mpr gate
  rcases (post_move cfg s (.tick inp)).of_tick.past_gate opened with goal | mission
  · exact .inl ⟨gate.started, by simpa [publishes] using goal⟩
  · exact .inr ⟨by simp [gate.state], mission⟩

theorem Move.publishes_at_gate (move : Move cfg s e c published requested)
    (started : s.targetId ≠ 0) (goal : published ≠ []) :
    ∃ inp, e = .tick inp ∧ PastGate cfg inp s := by
  cases move with
  | tick inp move =>
      cases move with
      | firstGoal _ _ _ fresh => exact absurd fresh started
      | nextGoal gate => exact ⟨inp, rfl, past_gate_open_iff.mp gate⟩
      | _ => exact absurd rfl goal
  | _ => exact absurd rfl goal

theorem Move.enters (move : Move cfg s e c published requested)
    (outside : s.fsmState ≠ .execMission) (inside : c.fsmState = .execMission) :
    (∃ inp, e = .tick inp ∧ PastGate cfg inp s) ∧ c.missionAction = .yoloInit ∧
      c.overtimeT = s.overtimeT ∧ c.detectOvertime = s.detectOvertime ∧
      c.haveAdjusted = s.haveAdjusted ∧ c.nn = s.nn := by
  cases move with
  | tick inp move =>
      cases move with
      | missionEntry gate | landEntry gate =>
          exact ⟨⟨inp, rfl, past_gate_open_iff.mp gate⟩, rfl, rfl, rfl, rfl, rfl⟩
      | adjustLand _ leaving | adjustDrop _ leaving => exact absurd leaving.1 outside
      | adjustTimeout leaving | dropPut leaving => exact absurd leaving.1 outside
      | connect | tookOff | arrive | riseDone | landed => exact FsmState.noConfusion inside
      | _ => exact absurd inside outside
  | command => exact FsmState.noConfusion inside
  | _ => exact absurd inside outside

theorem leaves_at_gate (leaves : LeavesGoal cfg ⟨s, e⟩) :
    ∃ inp, e = .tick inp ∧ PastGate cfg inp s := by
  have moved := post_move cfg s e
  rcases leaves with ⟨started, publishing⟩ | enters
  · have goal : goals ((controller cfg).outputs ⟨s, e⟩) ≠ [] := by
      simpa [publishes] using publishing
    exact moved.publishes_at_gate started goal
  · exact (moved.enters enters.1 enters.2).1

theorem Move.tracking_source (move : Move cfg s e c published requested)
    (state : c.fsmState = .tracking) : s.fsmState = .tracking ∨ takesUp ⟨s, e⟩ = true := by
  cases move with
  | tick inp move =>
      cases move with
      | connect | tookOff | arrive | missionEntry | landEntry | riseDone | landed =>
          exact FsmState.noConfusion state
      | _ => exact .inl state
  | command cmd hold away => exact .inr (decide_eq_true ⟨hold, away⟩)
  | _ => exact .inl state

theorem untaken_idles {history : History Fsm Event} {s : Fsm}
    (run : (controller cfg).Run history s)
    (untaken : (sinceGoal cfg history).any takesUp = false) :
    s.fsmState ≠ .tracking ∧ ∀ u ∈ sinceGoal cfg history, u.pre.fsmState ≠ .tracking := by
  induction run with
  | start initial =>
      obtain ⟨memory, now, rfl⟩ := initial
      exact ⟨FsmState.noConfusion, by simp [sinceGoal]⟩
  | @step past s e run ih =>
      have moved := post_move cfg s e
      by_cases marked : publishes cfg ⟨s, e⟩ = true
      · have goal : goals ((controller cfg).outputs ⟨s, e⟩) ≠ [] := by
          simpa [publishes] using marked
        rw [sinceGoal, since_cons_marked _ marked]
        refine ⟨fun state => ?_, by simp⟩
        exact FsmState.noConfusion ((moved.publishes_in_hold goal).symm.trans state)
      · have unmarked : publishes cfg ⟨s, e⟩ = false := by simpa using marked
        rw [sinceGoal, since_cons_unmarked _ unmarked] at untaken ⊢
        rw [List.any_cons, Bool.or_eq_false_iff] at untaken
        obtain ⟨before, older⟩ := ih untaken.2
        refine ⟨fun state => ?_, List.forall_mem_cons.mpr ⟨before, older⟩⟩
        rcases moved.tracking_source state with tracking | taken
        · exact before tracking
        · exact Bool.noConfusion (taken.symm.trans untaken.1)

/-- `HOLD` itself never asks for the arrival: the goals are reached before they are left
exactly in the runs in which the planner answers each goal within the gate. -/
theorem goal_reached_iff {history : History Fsm Event} {s : Fsm}
    (run : (controller cfg).Run history s) :
    Throughout (fun t past => LeavesGoal cfg t → GoalReached cfg t past) history ↔
      Throughout (PlannerInTime cfg) history := by
  apply Throughout.congr
  apply run.throughout
  intro past s e run
  constructor
  · intro leaving inp same gate
    cases same
    have reached := leaving (past_gate_leaves gate)
    cases taken : (sinceGoal cfg past).any takesUp with
    | true => exact .inl rfl
    | false =>
        have idle := (untaken_idles run taken).2
        simp only [GoalReached, cur_target_published run gate.started, Option.any_some,
          List.any_eq_true] at reached ⊢
        obtain ⟨u, member, near⟩ := reached
        refine .inr ⟨u, member, ?_⟩
        rw [idlesAt, near, Bool.true_and, decide_eq_true_eq]
        rcases List.mem_cons.mp member with newest | older
        · rw [newest, gate.state]
          exact FsmState.noConfusion
        · exact idle u older
  · intro answered leaves
    obtain ⟨inp, rfl, gate⟩ := leaves_at_gate leaves
    have found := answered inp rfl gate
    simp only [GoalReached, cur_target_published run gate.started, Option.any_some] at found ⊢
    rcases found with taken | idle
    · rcases taken_up_arrives run taken with tracking | near
      · exact FsmState.noConfusion (gate.state.symm.trans tracking)
      · rw [List.any_cons, near, Bool.or_true]
    · obtain ⟨u, member, near⟩ := List.any_eq_true.mp idle
      rw [idlesAt, Bool.and_eq_true] at near
      exact List.any_eq_true.mpr ⟨u, member, near.1⟩

def answered : List Event :=
  takeoff ++ [tickAt 0 none false, tickAt 0 none false, .posCmd ⟨⟨1.04, -3.02, 1.0⟩, 0⟩,
    .odom ⟨1.04, -3.02, 1.0⟩, tickAt (sec 1) none false, tickAt (sec 2) none false]

theorem goal_reached_answered :
    let run := script expTest2 answered
    Throughout (fun t past => LeavesGoal expTest2 t → GoalReached expTest2 t past) run.1 :=
  (goal_reached_iff (script_run expTest2 answered)).mpr (by decide +kernel)

/-- A planner that is silent for two seconds: the mission of the first waypoint starts at
the take-off point. -/
theorem silent_planner_skips :
    let run := script expTest2 (takeoff ++ [tickAt 0 none false, tickAt (sec 2) none false])
    (controller expTest2).Run run.1 run.2 ∧
      ¬Throughout (fun t past => LeavesGoal expTest2 t → GoalReached expTest2 t past) run.1 :=
  ⟨script_run _ _, by decide +kernel⟩

end RobocupDrone.Controller
