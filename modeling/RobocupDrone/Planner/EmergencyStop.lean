import RobocupDrone.Planner.ReplanFsm

/-! Emergency stops of the planner: who leaves `EMERGENCY_STOP` after the depth image is lost,
and which stops are answered with a stop trajectory. -/

namespace RobocupDrone.Planner

open Geometry Reactive
open Controller (Time sec)

variable {cfg : ReplanConfig} {s : ReplanFsm}

/-- The first `trials` attempts contain a success. -/
def PlanAccepted (trials : Nat) (attempts : Nat → Attempt) : Prop :=
  ∃ index < trials, (attempts index).planned.isSome = true

instance (trials : Nat) (attempts : Nat → Attempt) : Decidable (PlanAccepted trials attempts) :=
  inferInstanceAs (Decidable (∃ index < trials, _))

theorem tryReplan_frame (attempts : Nat → Attempt) (trials index : Nat) (s : ReplanFsm) :
    let planned := (tryReplan attempts trials index s).1
    planned.execState = s.execState ∧ planned.flagEscapeEmergency = s.flagEscapeEmergency ∧
      planned.enableFailSafe = s.enableFailSafe := by
  induction trials generalizing index s with
  | zero => exact ⟨rfl, rfl, rfl⟩
  | succ trials ih =>
      simp only [tryReplan, callReboundReplan]
      cases (attempts index).planned with
      | some traj => exact ⟨rfl, rfl, rfl⟩
      | none => exact ih (index + 1) _

theorem tryReplan_succeeds (attempts : Nat → Attempt) (trials index : Nat) (s : ReplanFsm) :
    (tryReplan attempts trials index s).2.2 = true ↔
      ∃ k < trials, (attempts (index + k)).planned.isSome = true := by
  induction trials generalizing index s with
  | zero => simp [tryReplan]
  | succ trials ih =>
      simp only [tryReplan, callReboundReplan]
      cases outcome : (attempts index).planned with
      | some traj =>
          refine iff_of_true rfl ⟨0, by omega, ?_⟩
          simp [outcome]
      | none =>
          rw [ih]
          constructor
          · rintro ⟨k, below, success⟩
            exact ⟨k + 1, by omega, by rwa [show index + (k + 1) = index + 1 + k by omega]⟩
          · rintro ⟨k, below, success⟩
            cases k with
            | zero => simp [outcome] at success
            | succ k =>
                exact ⟨k, by omega, by rwa [show index + 1 + k = index + (k + 1) by omega]⟩

theorem planFromGlobalTraj_succeeds (trials : Nat) (attempts : Nat → Attempt) (s : ReplanFsm) :
    (planFromGlobalTraj trials attempts s).2.2 = true ↔ PlanAccepted trials attempts := by
  rw [planFromGlobalTraj, tryReplan_succeeds]
  simp only [PlanAccepted, Nat.zero_add]

theorem planFromCurrentTraj_succeeds (trials : Nat) (attempts : Nat → Attempt) (s : ReplanFsm) :
    (planFromCurrentTraj trials attempts s).2.2 = true ↔ PlanAccepted (2 + trials) attempts := by
  rw [planFromCurrentTraj, tryReplan_succeeds]
  simp only [PlanAccepted, Nat.zero_add]

theorem adoptPlan_frame (startupPub : Bool) (failed : FsmExecState)
    (outcome : ReplanFsm × List Effect × Bool) :
    let adopted := (adoptPlan startupPub failed outcome).1
    adopted.flagEscapeEmergency = outcome.1.flagEscapeEmergency ∧
      adopted.enableFailSafe = outcome.1.enableFailSafe := by
  obtain ⟨planned, effects, success⟩ := outcome
  cases success <;> exact ⟨rfl, rfl⟩

theorem planNextWaypoint_spins (nextWp : Vec3 ℚ) (s : ReplanFsm)
    (state : s.execState = .emergencyStop) :
    (s.planNextWaypoint nextWp).execState = .emergencyStop := by
  simp [ReplanFsm.planNextWaypoint, planNextWaypoint, planGlobalTraj_succeeds, awaitExecTraj, state]

def typeOneFlight : ReplanConfig where
  targetType := 1
  noReplanThresh := 1
  replanThresh := 1
  waypointNum := 1
  wps := fun _ => ⟨15, 0, 1⟩
  planningHorizen := 6
  emergencyTime := 1
  realworldExperiment := false
  failSafe := true
  droneId := 0
  swarmClearance := 0.5

def parkedReplanner : ReplanFsm where
  execState := .init
  continouslyCalledTimes := 0
  haveTarget := false
  haveNewTarget := false
  odomPos := ⟨0, 0, 0⟩
  initPt := ⟨0, 0, 0⟩
  endPt := ⟨0, 0, 0⟩
  endVel := ⟨0, 0, 0⟩
  haveOdom := false
  haveTrigger := true
  haveRecvPreAgent := false
  flagEscapeEmergency := false
  enableFailSafe := true
  odomVel := ⟨0, 0, 0⟩
  localTargetPt := ⟨0, 0, 0⟩
  wpId := 0
  localData := ⟨0, 0, fun _ => ⟨0, 0, 0⟩⟩
  depthOdomTimeout := false
  waiting := 0

def ahead (startTime : Time) : LocalTrajData := ⟨startTime, 10, fun t => ⟨t / 2, 0, 1⟩⟩

def planned (startTime : Time) : Nat → Attempt := fun _ => ⟨⟨6, 0, 1⟩, some (ahead startTime)⟩

def failing : Nat → Attempt := fun _ => ⟨⟨6, 0, 1⟩, none⟩

def wall (p : Vec3 ℚ) : Int := if 0.6 < p.x then 1 else 0

def departure : List Event :=
  [.odom ⟨0, 0, 1⟩ ⟨0, 0, 0⟩, .exec ⟨sec 9, failing⟩, .waypoint ⟨sec 9, "world", ⟨8, 0, 1⟩⟩,
    .exec ⟨sec 10, planned (sec 10)⟩]

def flight (events : List Event) : History ReplanFsm Event × ReplanFsm :=
  (replanner typeOneFlight).exec [] parkedReplanner events

theorem parked_initial : Initial typeOneFlight parkedReplanner := by
  constructor <;> rfl

theorem flight_run (events : List Event) :
    (replanner typeOneFlight).Run (flight events).1 (flight events).2 := by
  have initial : (replanner typeOneFlight).Run [] parkedReplanner := .start parked_initial
  exact initial.exec events

/-- A safety tick evaluates `getOdomDepthTimeout()` and finds it true. -/
def SeesDepthLoss (t : Transition ReplanFsm Event) : Prop :=
  ∃ inp, t.input = .safety inp ∧ ¬SafetyIdle t.pre ∧ t.pre.depthOdomTimeout = true

/-- The trajectory check finds an occupied sample, and either replanning succeeds or the sample
is at least `emergency_time_` ahead. -/
def CheckReleases (cfg : ReplanConfig) (inp : SafetyInput) (s : ReplanFsm) : Prop :=
  ∃ t, firstOccupied cfg inp s.localData = some t ∧
    (PlanAccepted 3 inp.attempts ∨
      cfg.emergencyTime ≤ t - toSec (inp.now - s.localData.startTime))

/-- The callback assigns `EXEC_TRAJ` or `REPLAN_TRAJ` whatever the state is. -/
def Releases (cfg : ReplanConfig) (t : Transition ReplanFsm Event) : Prop :=
  match t.input with
  | .safety inp => ¬SafetyIdle t.pre ∧ CheckReleases cfg inp t.pre
  | .broadcastBspline msg => BroadcastCollides cfg msg t.pre
  | _ => False

def StoppedForGood (s : ReplanFsm) : Prop :=
  s.execState = .emergencyStop ∧ s.enableFailSafe = false

theorem checkTrajectory_kept {inp : SafetyInput} (kept : ¬CheckReleases cfg inp s)
    (stopped : StoppedForGood s) : StoppedForGood (checkTrajectory cfg inp s).1 := by
  unfold checkTrajectory
  cases found : firstOccupied cfg inp s.localData with
  | none => exact stopped
  | some t =>
      have failed : ¬(planFromCurrentTraj 1 inp.attempts s).2.2 = true := by
        rw [planFromCurrentTraj_succeeds]
        exact fun accepted => kept ⟨t, found, .inl accepted⟩
      have near : t - toSec (inp.now - s.localData.startTime) < cfg.emergencyTime := by
        rw [← not_le]
        exact fun ahead => kept ⟨t, found, .inr ahead⟩
      have frame := tryReplan_frame inp.attempts (2 + 1) 0 s
      dsimp only
      split
      · rename_i success
        simp [success] at failed
      · rename_i planned effects outcome
        rw [if_pos near]
        rw [planFromCurrentTraj] at outcome
        rw [outcome] at frame
        exact ⟨rfl, frame.2.2.trans stopped.2⟩

theorem checkTrajectory_releases {inp : SafetyInput} (release : CheckReleases cfg inp s) :
    (checkTrajectory cfg inp s).1.execState ≠ .emergencyStop := by
  obtain ⟨t, found, reason⟩ := release
  unfold checkTrajectory
  rw [found]
  dsimp only
  split
  · simp [ReplanFsm.change, changeFSMExecState]
  · rename_i planned effects outcome
    have failed : ¬PlanAccepted 3 inp.attempts := by
      rw [← planFromCurrentTraj_succeeds 1 inp.attempts s, outcome]
      simp
    rw [if_neg (not_lt.mpr (reason.resolve_left failed))]
    simp [ReplanFsm.change, changeFSMExecState]

theorem releases_leaves (t : Transition ReplanFsm Event) (release : Releases cfg t) :
    ((replanner cfg).post t).execState ≠ .emergencyStop := by
  obtain ⟨s, e⟩ := t
  cases e with
  | safety inp =>
      obtain ⟨active, release⟩ := release
      change (checkCollisionCallback cfg inp s).1.execState ≠ .emergencyStop
      rw [checkCollisionCallback, if_neg active]
      split_ifs
      · exact checkTrajectory_releases release
      · exact checkTrajectory_releases release
  | broadcastBspline msg =>
      obtain ⟨other, recent, near, collision⟩ := release
      change (broadcastBsplineCallback cfg msg s).execState ≠ .emergencyStop
      rw [broadcastBsplineCallback, if_neg other, if_neg (not_lt.mpr recent), near, collision]
      simp [ReplanFsm.change, changeFSMExecState]
  | _ => exact release.elim

theorem sees_depth_loss_stops (t : Transition ReplanFsm Event) (seen : SeesDepthLoss t)
    (kept : ¬Releases cfg t) : StoppedForGood ((replanner cfg).post t) := by
  obtain ⟨s, e⟩ := t
  obtain ⟨inp, safety, active, lost⟩ := seen
  cases safety
  change StoppedForGood (checkCollisionCallback cfg inp s).1
  rw [checkCollisionCallback, if_neg active, if_pos lost]
  apply checkTrajectory_kept
  · exact fun release => kept ⟨active, release⟩
  · exact ⟨rfl, rfl⟩

theorem stopped_step (s : ReplanFsm) (e : Event) (stopped : StoppedForGood s)
    (kept : ¬Releases cfg ⟨s, e⟩) : StoppedForGood ((replanner cfg).step s e).1 := by
  obtain ⟨state, failSafe⟩ := stopped
  cases e with
  | exec inp =>
      simp only [replanner, step, execFSMCallback, state, emergencyStopTick, failSafe]
      split_ifs <;> first
        | exact ⟨state, failSafe⟩
        | simp_all
  | safety inp =>
      change StoppedForGood (checkCollisionCallback cfg inp s).1
      rw [checkCollisionCallback]
      split_ifs with idle lost
      · exact ⟨state, failSafe⟩
      · exact checkTrajectory_kept (fun release => kept ⟨idle, release⟩) ⟨rfl, rfl⟩
      · exact checkTrajectory_kept (fun release => kept ⟨idle, release⟩) ⟨state, failSafe⟩
  | targetCheck => exact ⟨state, failSafe⟩
  | waypoint msg =>
      simp only [replanner, step]
      split_ifs
      · refine ⟨?_, failSafe⟩
        simp only [ReplanFsm.waypointCallback, waypointCallback]
        split_ifs
        · exact state
        · exact planNextWaypoint_spins _ { s with initPt := s.odomPos } state
      · exact ⟨state, failSafe⟩
  | trigger =>
      simp only [replanner, step]
      split_ifs <;> exact ⟨state, failSafe⟩
  | odom position velocity => exact ⟨state, failSafe⟩
  | swarmTrajs droneIdFrom orders =>
      simp only [replanner, step, swarmTrajsCallback]
      split_ifs <;> exact ⟨state, failSafe⟩
  | broadcastBspline msg =>
      simp only [replanner, step, broadcastBsplineCallback]
      split_ifs with own old far collision
      · exact ⟨state, failSafe⟩
      · exact ⟨state, failSafe⟩
      · exact ⟨state, failSafe⟩
      · exact absurd ⟨own, not_lt.mp old, by simpa using far, collision⟩ kept
      · exact ⟨state, failSafe⟩
  | depthLost => exact ⟨state, failSafe⟩
  | givenWps =>
      simp only [replanner, step]
      split_ifs
      · exact ⟨planNextWaypoint_spins _ _ state, failSafe⟩
      · exact ⟨state, failSafe⟩
  | spin =>
      have waits : awaitExecTraj s.toEgoReplanFsm = (s.toEgoReplanFsm, true) := by
        simp [awaitExecTraj, state]
      simp only [replanner, step, ReplanFsm.spinOnce, waits]
      split_ifs <;> exact ⟨state, failSafe⟩

def DepthLossSeen (t : Transition ReplanFsm Event) (past : History ReplanFsm Event) : Prop :=
  ∃ u ∈ t :: past, SeesDepthLoss u

instance : (t : Transition ReplanFsm Event) → Decidable (SeesDepthLoss t)
  | ⟨s, .safety inp⟩ =>
      decidable_of_iff (¬SafetyIdle s ∧ s.depthOdomTimeout = true)
        ⟨fun seen => ⟨inp, rfl, seen⟩, fun ⟨_, _, seen⟩ => seen⟩
  | ⟨_, .exec _⟩ | ⟨_, .targetCheck⟩ | ⟨_, .waypoint _⟩ | ⟨_, .trigger⟩ | ⟨_, .odom _ _⟩
  | ⟨_, .swarmTrajs _ _⟩ | ⟨_, .broadcastBspline _⟩ | ⟨_, .depthLost⟩ | ⟨_, .givenWps⟩
  | ⟨_, .spin⟩ => isFalse nofun

instance (t : Transition ReplanFsm Event) (past : History ReplanFsm Event) :
    Decidable (DepthLossSeen t past) :=
  inferInstanceAs (Decidable (∃ u ∈ t :: past, _))

instance (inp : SafetyInput) (s : ReplanFsm) : Decidable (CheckReleases cfg inp s) :=
  inferInstanceAs (Decidable (∃ t ∈ firstOccupied cfg inp s.localData, _))

instance : (t : Transition ReplanFsm Event) → Decidable (Releases cfg t)
  | ⟨s, .safety inp⟩ => inferInstanceAs (Decidable (¬SafetyIdle s ∧ CheckReleases cfg inp s))
  | ⟨s, .broadcastBspline msg⟩ => inferInstanceAs (Decidable (BroadcastCollides cfg msg s))
  | ⟨_, .exec _⟩ | ⟨_, .targetCheck⟩ | ⟨_, .waypoint _⟩ | ⟨_, .trigger⟩ | ⟨_, .odom _ _⟩
  | ⟨_, .swarmTrajs _ _⟩ | ⟨_, .depthLost⟩ | ⟨_, .givenWps⟩ | ⟨_, .spin⟩ => isFalse id

def StopsOnDepthLoss (cfg : ReplanConfig) (t : Transition ReplanFsm Event)
    (past : History ReplanFsm Event) : Prop :=
  DepthLossSeen t past → StoppedForGood ((replanner cfg).post t)

/-- Once the loss of depth has been seen, the stop lasts as long as no callback assigns another
state. -/
theorem stops_on_depth_loss_iff {history : History ReplanFsm Event}
    (run : (replanner cfg).Run history s) :
    Throughout (StopsOnDepthLoss cfg) history ↔
      Throughout (fun t past => DepthLossSeen t past → ¬Releases cfg t) history := by
  constructor
  · intro stops
    apply stops.mono
    intro t past stopped seen release
    exact releases_leaves t release (stopped seen).1
  · intro kept
    refine run.throughout_where ?_ kept
    intro past s e run before now seen
    -- by induction on the run, a machine that has seen the loss is still stopped
    have stopped : (∃ u ∈ past, SeesDepthLoss u) → StoppedForGood s := by
      refine Machine.Run.induct_where (I := fun past s =>
        (∃ u ∈ past, SeesDepthLoss u) → StoppedForGood s) ?_ ?_ run before
      · simp
      · intro past s e _ kept held seen
        by_cases already : ∃ u ∈ past, SeesDepthLoss u
        · exact stopped_step s e (held already) (kept seen)
        · have first : SeesDepthLoss ⟨s, e⟩ := by simpa [already] using seen
          exact sees_depth_loss_stops _ first (kept seen)
    by_cases already : ∃ u ∈ past, SeesDepthLoss u
    · exact stopped_step s e (stopped already) (now seen)
    · have first : SeesDepthLoss ⟨s, e⟩ := by simpa [DepthLossSeen, already] using seen
      exact sees_depth_loss_stops _ first (now seen)

theorem stops_on_depth_loss_departure :
    let run := flight (departure ++ [.depthLost, .safety ⟨sec 10, fun _ => 0, [], failing⟩])
    Throughout (StopsOnDepthLoss typeOneFlight) run.1 :=
  (stops_on_depth_loss_iff (flight_run _)).mpr (by decide +kernel)

/-- The tick that sees the loss finds the wall ahead, replans and goes on flying. -/
theorem depth_loss_replanned :
    let before := flight (departure ++ [.depthLost])
    let t : Transition ReplanFsm Event :=
      ⟨before.2, .safety ⟨sec 11, wall, [], planned (sec 11)⟩⟩
    (replanner typeOneFlight).Run (t :: before.1) ((replanner typeOneFlight).post t) ∧
      ((replanner typeOneFlight).post t).execState = .execTraj ∧
      ¬Throughout (StopsOnDepthLoss typeOneFlight) (t :: before.1) := by
  intro before t
  have flying : ((replanner typeOneFlight).post t).execState = .execTraj := by decide +kernel
  have seen : SeesDepthLoss t := ⟨_, rfl, by decide +kernel, by decide +kernel⟩
  refine ⟨(flight_run _).step _, flying, fun stops => ?_⟩
  have stopped := (stops.1 ⟨t, List.mem_cons_self, seen⟩).1
  simp [flying] at stopped

/-- An exec tick finds the machine in `EMERGENCY_STOP`. -/
def handlesStop (t : Transition ReplanFsm Event) : Bool :=
  match t.input with
  | .exec _ => decide (t.pre.execState = .emergencyStop)
  | _ => false

/-- An exec tick accepts a trajectory in `GEN_NEW_TRAJ`. -/
def acceptsNewTraj (t : Transition ReplanFsm Event) : Bool :=
  match t.input with
  | .exec inp => decide (t.pre.execState = .genNewTraj ∧ PlanAccepted 10 inp.attempts)
  | _ => false

def EntersStop (cfg : ReplanConfig) (t : Transition ReplanFsm Event) : Prop :=
  t.pre.execState ≠ .emergencyStop ∧ ((replanner cfg).post t).execState = .emergencyStop

def CallsStop (cfg : ReplanConfig) (t : Transition ReplanFsm Event) : Prop :=
  ∃ stopPos, Effect.emergencyStop stopPos ∈ (replanner cfg).outputs t

/-- The planner from the moment when a trajectory is accepted in `GEN_NEW_TRAJ`. -/
def acceptedPlanner (cfg : ReplanConfig) : Machine ReplanFsm Event Effect where
  start s := ∃ t, acceptsNewTraj t = true ∧ s = (replanner cfg).post t
  step := step cfg

/-- An exec tick that is the first one to find a new stop calls `callEmergencyStop`. -/
def AnswersStop (cfg : ReplanConfig) (t : Transition ReplanFsm Event)
    (past : History ReplanFsm Event) : Prop :=
  handlesStop t = true → (∃ u ∈ since handlesStop past, EntersStop cfg u) → CallsStop cfg t

/-- No exec tick has handled a stop before, or since the last one that did a trajectory has
been accepted in `GEN_NEW_TRAJ`. -/
def Rearmed (past : History ReplanFsm Event) : Prop :=
  (∀ u ∈ past, handlesStop u = false) ∨ ∃ u ∈ since handlesStop past, acceptsNewTraj u = true

instance (t : Transition ReplanFsm Event) : Decidable (EntersStop cfg t) :=
  inferInstanceAs (Decidable (_ ∧ _))

instance (past : History ReplanFsm Event) : Decidable (Rearmed past) :=
  inferInstanceAs (Decidable (_ ∨ _))

theorem genNewTrajTick_flag (inp : ExecInput) (s : ReplanFsm) :
    (genNewTrajTick inp s).1.flagEscapeEmergency =
      (decide (PlanAccepted 10 inp.attempts) || s.flagEscapeEmergency) := by
  have accepted := planFromGlobalTraj_succeeds 10 inp.attempts s
  have adopted := (adoptPlan_frame false .genNewTraj (planFromGlobalTraj 10 inp.attempts s)).1
  have planned := (tryReplan_frame inp.attempts 10 0 s).2.1
  unfold genNewTrajTick
  dsimp only
  split_ifs with success
  · simp [accepted.mp success]
  · have failed : ¬PlanAccepted 10 inp.attempts := fun plan => success (accepted.mpr plan)
    simpa [failed] using adopted.trans planned

theorem execFSMCallback_flag (inp : ExecInput) (s : ReplanFsm) :
    (execFSMCallback cfg inp s).1.flagEscapeEmergency =
      (!handlesStop ⟨s, .exec inp⟩ &&
        (acceptsNewTraj ⟨s, .exec inp⟩ || s.flagEscapeEmergency)) := by
  simp only [execFSMCallback, handlesStop, acceptsNewTraj]
  cases state : s.execState with
  | init => simp only [initTick]; split_ifs <;> simp [ReplanFsm.change]
  | waitTarget => simp only [waitTargetTick]; split_ifs <;> simp [ReplanFsm.change]
  | sequentialStart =>
      let outcome := planFromGlobalTraj 10 inp.attempts s
      have planned : outcome.1.flagEscapeEmergency = s.flagEscapeEmergency :=
        (tryReplan_frame inp.attempts 10 0 s).2.1
      simp only [sequentialStartTick]
      split_ifs
      · simpa using (adoptPlan_frame true .sequentialStart outcome).1.trans planned
      · simp
      · simp
  | genNewTraj => simpa using genNewTrajTick_flag inp s
  | replanTraj =>
      let outcome := planFromCurrentTraj 1 inp.attempts s
      have planned : outcome.1.flagEscapeEmergency = s.flagEscapeEmergency :=
        (tryReplan_frame inp.attempts (2 + 1) 0 s).2.1
      simpa [replanTrajTick] using (adoptPlan_frame false .replanTraj outcome).1.trans planned
  | execTraj =>
      simp only [execTrajTick]
      split_ifs <;> simp [ReplanFsm.change, ReplanFsm.planNextWaypoint]
  | emergencyStop => simp [emergencyStopTick]

theorem checkTrajectory_flag (cfg : ReplanConfig) (inp : SafetyInput) (s : ReplanFsm) :
    (checkTrajectory cfg inp s).1.flagEscapeEmergency = s.flagEscapeEmergency := by
  have planned := (tryReplan_frame inp.attempts (2 + 1) 0 s).2.1
  unfold checkTrajectory
  cases firstOccupied cfg inp s.localData with
  | none => rfl
  | some t =>
      dsimp only
      split <;> rename_i outcome <;> rw [planFromCurrentTraj] at outcome <;>
        rw [outcome] at planned
      · exact planned
      · split_ifs <;> exact planned

theorem flag_step (cfg : ReplanConfig) (s : ReplanFsm) (e : Event) :
    ((replanner cfg).step s e).1.flagEscapeEmergency =
      (!handlesStop ⟨s, e⟩ && (acceptsNewTraj ⟨s, e⟩ || s.flagEscapeEmergency)) := by
  cases e with
  | exec inp => exact execFSMCallback_flag inp s
  | safety inp =>
      simp only [replanner, step, checkCollisionCallback, handlesStop, acceptsNewTraj]
      split_ifs <;> simp [checkTrajectory_flag, ReplanFsm.change]
  | waypoint msg => simp only [replanner, step]; split_ifs <;> rfl
  | trigger => simp only [replanner, step]; split_ifs <;> rfl
  | swarmTrajs droneIdFrom orders =>
      simp only [replanner, step, swarmTrajsCallback]
      split_ifs <;> rfl
  | broadcastBspline msg =>
      simp only [replanner, step, broadcastBsplineCallback]
      split_ifs <;> rfl
  | givenWps => simp only [replanner, step]; split_ifs <;> rfl
  | spin => simp only [replanner, step, ReplanFsm.spinOnce]; split_ifs <;> rfl
  | _ => rfl

theorem rearmed_cons (t : Transition ReplanFsm Event) (past : History ReplanFsm Event) :
    Rearmed (t :: past) ↔
      handlesStop t = false ∧ (acceptsNewTraj t = true ∨ Rearmed past) := by
  cases handled : handlesStop t with
  | true =>
      simp [Rearmed, since_cons_marked handlesStop handled, handled]
  | false =>
      simp only [Rearmed, since_cons_unmarked handlesStop handled, List.forall_mem_cons, handled,
        true_and, List.exists_mem_cons_iff]
      tauto

theorem run_rearmed {history : History ReplanFsm Event}
    (run : (acceptedPlanner cfg).Run history s) :
    s.flagEscapeEmergency = true ↔ Rearmed history := by
  refine Machine.Run.induct (I := fun history s =>
    s.flagEscapeEmergency = true ↔ Rearmed history) ?_ ?_ run
  · rintro _ ⟨⟨before, e⟩, accepted, rfl⟩
    refine iff_of_true ?_ (.inl (by simp))
    have flag := flag_step cfg before e
    change ((replanner cfg).step before e).1.flagEscapeEmergency = true
    rw [flag, accepted]
    cases e <;> simp_all [handlesStop, acceptsNewTraj]
  · intro past s e _ held
    have flag := flag_step cfg s e
    change ((replanner cfg).step s e).1.flagEscapeEmergency = true ↔ _
    rw [flag, rearmed_cons, ← held]
    simp

theorem calls_stop_iff (t : Transition ReplanFsm Event) (handled : handlesStop t = true) :
    CallsStop cfg t ↔ t.pre.flagEscapeEmergency = true := by
  obtain ⟨s, e⟩ := t
  cases e with
  | exec inp =>
      have state : s.execState = .emergencyStop := by simpa [handlesStop] using handled
      simp only [CallsStop, Machine.outputs, replanner, step, execFSMCallback, state,
        emergencyStopTick]
      split_ifs with armed resume
      · simp [callEmergencyStop, armed]
      · simp [armed]
      · simp [armed]
  | _ => simp [handlesStop] at handled

/-- A new stop is answered exactly when the flag has been set again since the last one that was
handled. -/
theorem answers_stop_iff {history : History ReplanFsm Event}
    (run : (acceptedPlanner cfg).Run history s) :
    Throughout (AnswersStop cfg) history ↔
      Throughout (fun t past => handlesStop t = true →
        (∃ u ∈ since handlesStop past, EntersStop cfg u) → Rearmed past) history := by
  apply Throughout.congr
  apply run.throughout
  intro past s e run
  constructor
  · intro answers handled entered
    exact (run_rearmed run).mp ((calls_stop_iff _ handled).mp (answers handled entered))
  · intro rearmed handled entered
    exact (calls_stop_iff _ handled).mpr ((run_rearmed run).mpr (rearmed handled entered))

def acceptedFlight (events : List Event) : History ReplanFsm Event × ReplanFsm :=
  (acceptedPlanner typeOneFlight).exec [] (flight departure).2 events

theorem acceptedFlight_run (events : List Event) :
    (acceptedPlanner typeOneFlight).Run (acceptedFlight events).1 (acceptedFlight events).2 := by
  have accepted : (acceptedPlanner typeOneFlight).Run [] (flight departure).2 := by
    refine .start ⟨⟨(flight (departure.take 3)).2, .exec ⟨sec 10, planned (sec 10)⟩⟩, ?_, rfl⟩
    decide +kernel
  exact accepted.exec events

/-- A stop in front of the wall that is handled, an obstacle at the vehicle from which
replanning escapes, and the wall again. -/
def secondStop : List Event :=
  [.safety ⟨sec 11, wall, [], failing⟩, .exec ⟨sec 11, failing⟩,
    .safety ⟨sec 12, fun _ => 1, [], planned (sec 12)⟩, .safety ⟨sec 13, wall, [], failing⟩]

theorem answers_stop_first :
    let run := acceptedFlight (secondStop.take 2)
    Throughout (AnswersStop typeOneFlight) run.1 :=
  (answers_stop_iff (acceptedFlight_run _)).mpr (by decide +kernel)

/-- The second stop finds the flag still cleared and gets no stop trajectory. -/
theorem second_stop_unanswered :
    let before := acceptedFlight secondStop
    let t : Transition ReplanFsm Event := ⟨before.2, .exec ⟨sec 13, failing⟩⟩
    (acceptedPlanner typeOneFlight).Run (t :: before.1) ((replanner typeOneFlight).post t) ∧
      before.2.execState = .emergencyStop ∧
      ¬Throughout (AnswersStop typeOneFlight) (t :: before.1) := by
  intro before t
  have stopped : before.2.execState = .emergencyStop := by decide +kernel
  have handled : handlesStop t = true := by decide +kernel
  have cleared : before.2.flagEscapeEmergency = false := by decide +kernel
  refine ⟨(acceptedFlight_run _).step _, stopped, fun answers => ?_⟩
  have entered : ∃ u ∈ since handlesStop before.1, EntersStop typeOneFlight u := by
    refine ⟨_, List.mem_cons_self, ?_, ?_⟩
    · decide +kernel
    · decide +kernel
  have armed := (calls_stop_iff t handled).mp (answers.1 handled entered)
  simp [t, cleared] at armed

end RobocupDrone.Planner
