import RobocupDrone.Controller.Route

/-! The missions of the waypoints: one for each waypoint that wants it, and what the
counters of a mission start from. -/

namespace RobocupDrone.Controller

open Geometry Reactive

variable {cfg : Config} {s : Fsm} {e : Event} {inp : TickInput} {c : Control}
  {published : List (Vec3 ℚ)} {requested : List (Int × Bool)}

section Visits

variable (cfg)

/-- The step is a tick that finds `HOLD` past its gate. -/
def atGate (t : Transition Fsm Event) : Bool :=
  match t.input with
  | .tick inp => decide (PastGate cfg inp t.pre)
  | _ => false

def startsMission (t : Transition Fsm Event) : Bool := decide (EntersMission cfg t)

/-- The step completes a mission: `RISE` returns to `HOLD`. -/
def completesMission (t : Transition Fsm Event) : Bool :=
  decide (t.pre.fsmState = .execMission ∧ t.pre.missionAction = .rise ∧
    ((controller cfg).post t).fsmState = .hold)

/-- The steps of `visit` contain one mission, started and completed, if it was wanted when
`HOLD` was first past its gate, and none otherwise. -/
def OneMissionIfWanted (visit : History Fsm Event) : Prop :=
  ∃ gate, first (atGate cfg) visit = some gate ∧
    (MissionWanted cfg gate.pre → visit.countP (startsMission cfg) = 1 ∧
      visit.countP (completesMission cfg) = 1) ∧
    (¬MissionWanted cfg gate.pre → visit.countP (startsMission cfg) = 0 ∧
      visit.countP (completesMission cfg) = 0)

/-- When goal `k`, `1 ≤ k ≤ 4`, is published, the steps since goal `k - 1` contain the one
mission of the waypoint; and a mission before the last waypoint starts only where it was
wanted, at the first look past the gate. -/
def OneMissionPerWaypoint (t : Transition Fsm Event) (past : History Fsm Event) : Prop :=
  (publishes cfg t = true → 1 ≤ t.pre.targetId → t.pre.targetId ≤ 4 →
    OneMissionIfWanted cfg (t :: sinceGoal cfg past)) ∧
  (EntersMission cfg t → t.pre.targetId ≤ 4 →
    first (atGate cfg) (sinceGoal cfg past) = none ∧ atGate cfg t = true ∧
      MissionWanted cfg t.pre)

end Visits

theorem Move.visit_step (move : Move cfg s e c published requested)
    (inv : Coherent cfg s.toControl) (visiting : s.targetId ≠ 0 ∧ s.targetId ≤ 4) :
    (published ≠ [] ∧ atGate cfg ⟨s, e⟩ = true ∧
        ¬(MissionWanted cfg s ∧ s.haveJustPut = false) ∧ s.fsmState = .hold) ∨
      (published = [] ∧ atGate cfg ⟨s, e⟩ = true ∧ MissionWanted cfg s ∧
        s.haveJustPut = false ∧ s.fsmState = .hold ∧ c.fsmState = .execMission) ∨
      (published = [] ∧ atGate cfg ⟨s, e⟩ = false ∧ s.fsmState = .execMission ∧
        s.missionAction = .rise ∧ c.fsmState = .hold ∧ c.haveJustPut = true) ∨
      (published = [] ∧ atGate cfg ⟨s, e⟩ = false ∧
        (c.fsmState = .execMission ↔ s.fsmState = .execMission) ∧
        c.haveJustPut = s.haveJustPut) := by
  cases move with
  | tick inp move =>
      have opened (gate : PastGate cfg inp (openTick inp s)) :
          atGate cfg ⟨s, .tick inp⟩ = true := decide_eq_true (past_gate_open_iff.mp gate)
      have shut (closed : ¬PastGate cfg inp (openTick inp s)) :
          atGate cfg ⟨s, .tick inp⟩ = false := by
        apply decide_eq_false
        intro gate
        exact closed (past_gate_open_iff.mpr gate)
      have elsewhere (away : (openTick inp s).fsmState ≠ .hold) :
          atGate cfg ⟨s, .tick inp⟩ = false := shut fun gate => away gate.state
      cases move with
      | nextGoal gate branch settled =>
          exact .inl ⟨List.cons_ne_nil _ _, opened gate, settled visiting.2, gate.state⟩
      | missionEntry gate branch wanted unput =>
          exact .inr (.inl ⟨rfl, opened gate, wanted, unput, gate.state, rfl⟩)
      | riseDone state action =>
          exact .inr (.inr (.inl ⟨rfl, elsewhere (by simp [state]), state, action, rfl, rfl⟩))
      | holdWait state closed => exact .inr (.inr (.inr ⟨rfl, shut closed, Iff.rfl, rfl⟩))
      | firstGoal state ego target fresh => exact absurd fresh visiting.1
      | landEntry gate branch => exact absurd visiting.2 (not_le.mpr branch)
      | landed response leaving =>
          have flag := inv.dropLand leaving.2.1
          have ended := (inv.landing flag).1
          omega
      | connect state | tookOff state | arrive state =>
          exact .inr (.inr (.inr ⟨rfl, elsewhere (by simp [state]), by
            change s.fsmState = _ at state
            simp [state], rfl⟩))
      | stay parked =>
          refine .inr (.inr (.inr ⟨rfl, elsewhere ?_, Iff.rfl, rfl⟩))
          intro state
          simp [state] at parked
      | adjustLand _ leaving | adjustDrop _ leaving =>
          exact .inr (.inr (.inr ⟨rfl, elsewhere (by simp [leaving.1]), Iff.rfl, rfl⟩))
      | adjustTimeout leaving | dropPut leaving =>
          exact .inr (.inr (.inr ⟨rfl, elsewhere (by simp [leaving.1]), Iff.rfl, rfl⟩))
      | follow state | yoloInit state | adjusted _ state | adjustClimb state | adjustStay state
      | dropStay state | riseStay state | putSkip state | putWait state | putFailed state
      | putDone state | landAdjusted _ state | dropLandStay state =>
          exact .inr (.inr (.inr ⟨rfl, elsewhere (by simp [state]), Iff.rfl, rfl⟩))
  | command cmd state =>
      exact .inr (.inr (.inr ⟨rfl, rfl, by simp [state], rfl⟩))
  | _ => exact .inr (.inr (.inr ⟨rfl, rfl, Iff.rfl, rfl⟩))

/-- How far the mission of the current waypoint has come, from the steps `visit` made since
the last publication. -/
inductive VisitPhase (cfg : Config) (s : Fsm) (visit : History Fsm Event) : Prop
  | waiting (state : s.fsmState ≠ .execMission) (unput : s.haveJustPut = false)
      (closed : first (atGate cfg) visit = none)
      (started : visit.countP (startsMission cfg) = 0)
      (completed : visit.countP (completesMission cfg) = 0)
  | flying (state : s.fsmState = .execMission) (gate : Transition Fsm Event)
      (opened : first (atGate cfg) visit = some gate) (wanted : MissionWanted cfg gate.pre)
      (started : visit.countP (startsMission cfg) = 1)
      (completed : visit.countP (completesMission cfg) = 0)
  | finished (state : s.fsmState ≠ .execMission) (put : s.haveJustPut = true)
      (gate : Transition Fsm Event) (opened : first (atGate cfg) visit = some gate)
      (wanted : MissionWanted cfg gate.pre)
      (started : visit.countP (startsMission cfg) = 1)
      (completed : visit.countP (completesMission cfg) = 1)

theorem countP_quiet {mark : Transition Fsm Event → Bool} {t : Transition Fsm Event}
    (unmarked : mark t = false) (visit : History Fsm Event) :
    (t :: visit).countP mark = visit.countP mark :=
  List.countP_cons_of_neg (by simp [unmarked])

theorem VisitPhase.step {s : Fsm} {visit : History Fsm Event} (phase : VisitPhase cfg s visit)
    (inv : Coherent cfg s.toControl) (visiting : s.targetId ≠ 0 ∧ s.targetId ≤ 4) (e : Event)
    (quiet : goals ((controller cfg).outputs ⟨s, e⟩) = []) :
    VisitPhase cfg ((controller cfg).step s e).1 (⟨s, e⟩ :: visit) := by
  have move := (post_move cfg s e).visit_step inv visiting
  rcases move with published | entered | done | carried
  · exact absurd quiet published.1
  · obtain ⟨-, opened, wanted, unput, hold, mission⟩ := entered
    have starts : startsMission cfg ⟨s, e⟩ = true := by
      apply decide_eq_true
      exact ⟨by simp [hold], mission⟩
    have incomplete : completesMission cfg ⟨s, e⟩ = false := by simp [completesMission, hold]
    cases phase with
    | waiting _ _ closed started completed =>
        refine .flying mission ⟨s, e⟩ (first_cons_marked _ opened closed) wanted ?_ ?_
        · rw [List.countP_cons_of_pos starts, started]
        · rw [countP_quiet incomplete, completed]
    | flying state => simp [hold] at state
    | finished _ put => simp [unput] at put
  · obtain ⟨-, closed, mission, rise, hold, put⟩ := done
    have continues : startsMission cfg ⟨s, e⟩ = false := by
      simp [startsMission, EntersMission, mission]
    have completes : completesMission cfg ⟨s, e⟩ = true := decide_eq_true ⟨mission, rise, hold⟩
    have landed : ((controller cfg).step s e).1.fsmState ≠ .execMission := by
      intro state
      exact FsmState.noConfusion (hold.symm.trans state)
    cases phase with
    | flying _ gate opened wanted started completed =>
        refine .finished landed put gate (first_cons_some _ opened _) wanted ?_ ?_
        · rw [countP_quiet continues, started]
        · rw [List.countP_cons_of_pos completes, completed]
    | waiting state => exact absurd mission state
    | finished state => exact absurd mission state
  · obtain ⟨-, closed, same, kept⟩ := carried
    have continues : startsMission cfg ⟨s, e⟩ = false := by
      apply decide_eq_false
      intro entered
      exact entered.1 (same.mp entered.2)
    have incomplete : completesMission cfg ⟨s, e⟩ = false := by
      apply decide_eq_false
      intro done
      exact FsmState.noConfusion (done.2.2.symm.trans (same.mpr done.1))
    cases phase with
    | waiting state unput shut started completed =>
        refine .waiting (fun mission => state (same.mp mission)) (kept.trans unput) ?_ ?_ ?_
        · rw [first_cons_unmarked _ closed, shut]
        · rw [countP_quiet continues, started]
        · rw [countP_quiet incomplete, completed]
    | flying state gate opened wanted started completed =>
        refine .flying (same.mpr state) gate (first_cons_some _ opened _) wanted ?_ ?_
        · rw [countP_quiet continues, started]
        · rw [countP_quiet incomplete, completed]
    | finished state put gate opened wanted started completed =>
        refine .finished (fun mission => state (same.mp mission)) (kept.trans put) gate
          (first_cons_some _ opened _) wanted ?_ ?_
        · rw [countP_quiet continues, started]
        · rw [countP_quiet incomplete, completed]

theorem Move.opens_visit (move : Move cfg s e c published requested)
    (inv : Coherent cfg s.toControl) (goal : published ≠ []) : c.haveJustPut = false := by
  cases move with
  | tick inp move =>
      cases move with
      | firstGoal _ _ _ fresh => exact inv.fresh fresh
      | nextGoal => rfl
      | _ => exact absurd rfl goal
  | _ => exact absurd rfl goal

theorem visit_phase {history : History Fsm Event} {s : Fsm}
    (run : (controller cfg).Run history s) (visiting : s.targetId ≠ 0 ∧ s.targetId ≤ 4) :
    VisitPhase cfg s (sinceGoal cfg history) := by
  induction run with
  | start initial =>
      obtain ⟨memory, now, rfl⟩ := initial
      exact absurd rfl visiting.1
  | @step past s e run ih =>
      have inv := run_coherent run
      have moved := post_move cfg s e
      by_cases quiet : goals ((controller cfg).outputs ⟨s, e⟩) = []
      · have same : ((controller cfg).step s e).1.targetId = s.targetId := by
          rcases moved.goal_step with ⟨same, -, -⟩ | ⟨-, -, goal⟩
          · exact same
          · simp [goal] at quiet
        have unmarked : publishes cfg ⟨s, e⟩ = false := by simp [publishes, quiet]
        rw [same] at visiting
        rw [sinceGoal, since_cons_unmarked _ unmarked]
        exact (ih visiting).step inv visiting e quiet
      · have marked : publishes cfg ⟨s, e⟩ = true := by simpa [publishes] using quiet
        rw [sinceGoal, since_cons_marked _ marked]
        refine .waiting ?_ (moved.opens_visit inv quiet) rfl rfl rfl
        intro mission
        exact FsmState.noConfusion ((moved.publishes_in_hold quiet).symm.trans mission)

theorem VisitPhase.at_publication {s : Fsm} {visit : History Fsm Event}
    (phase : VisitPhase cfg s visit) (inv : Coherent cfg s.toControl)
    (visiting : s.targetId ≠ 0 ∧ s.targetId ≤ 4) (e : Event)
    (goal : goals ((controller cfg).outputs ⟨s, e⟩) ≠ []) :
    OneMissionIfWanted cfg (⟨s, e⟩ :: visit) := by
  have moved := post_move cfg s e
  have opened : atGate cfg ⟨s, e⟩ = true ∧ ¬(MissionWanted cfg s ∧ s.haveJustPut = false) ∧
      s.fsmState = .hold := by
    rcases moved.visit_step inv visiting with published | entered | done | carried
    · exact published.2
    · exact absurd entered.1 goal
    · exact absurd done.1 goal
    · exact absurd carried.1 goal
  obtain ⟨gate, settled, hold⟩ := opened
  have continues : startsMission cfg ⟨s, e⟩ = false := by
    apply decide_eq_false
    intro entered
    exact FsmState.noConfusion ((moved.publishes_in_hold goal).symm.trans entered.2)
  have incomplete : completesMission cfg ⟨s, e⟩ = false := by simp [completesMission, hold]
  cases phase with
  | waiting _ unput closed started completed =>
      refine ⟨⟨s, e⟩, first_cons_marked _ gate closed, ?_, ?_⟩
      · intro wanted
        exact absurd ⟨wanted, unput⟩ settled
      · intro _
        rw [countP_quiet continues, countP_quiet incomplete]
        exact ⟨started, completed⟩
  | flying state => simp [hold] at state
  | finished _ _ earlier before wanted started completed =>
      refine ⟨earlier, first_cons_some _ before _, ?_, ?_⟩
      · intro _
        rw [countP_quiet continues, countP_quiet incomplete]
        exact ⟨started, completed⟩
      · intro unwanted
        exact absurd wanted unwanted

theorem VisitPhase.entered {s : Fsm} {visit : History Fsm Event}
    (phase : VisitPhase cfg s visit) (inv : Coherent cfg s.toControl)
    (visiting : s.targetId ≠ 0 ∧ s.targetId ≤ 4) (e : Event)
    (enters : EntersMission cfg ⟨s, e⟩) :
    first (atGate cfg) visit = none ∧ atGate cfg ⟨s, e⟩ = true ∧ MissionWanted cfg s := by
  obtain ⟨outside, mission⟩ := enters
  have moved := post_move cfg s e
  rcases moved.visit_step inv visiting with published | entered | done | carried
  · have hold := moved.publishes_in_hold published.1
    exact FsmState.noConfusion (hold.symm.trans mission)
  · obtain ⟨-, gate, wanted, unput, -, -⟩ := entered
    refine ⟨?_, gate, wanted⟩
    cases phase with
    | waiting _ _ closed => exact closed
    | flying state => exact absurd state outside
    | finished _ put => simp [unput] at put
  · exact absurd done.2.2.1 outside
  · exact absurd (carried.2.2.1.mp mission) outside

theorem one_mission_per_waypoint {history : History Fsm Event} {s : Fsm}
    (run : (controller cfg).Run history s) :
    Throughout (OneMissionPerWaypoint cfg) history := by
  apply run.throughout
  intro past s e run
  have inv := run_coherent run
  constructor
  · intro publishing started route
    have goal : goals ((controller cfg).outputs ⟨s, e⟩) ≠ [] := by
      simpa [publishes] using publishing
    have visiting : s.targetId ≠ 0 ∧ s.targetId ≤ 4 := ⟨Nat.one_le_iff_ne_zero.mp started, route⟩
    exact (visit_phase run visiting).at_publication inv visiting e goal
  · intro enters route
    obtain ⟨⟨inp, -, gate⟩, -⟩ := (post_move cfg s e).enters enters.1 enters.2
    have visiting : s.targetId ≠ 0 ∧ s.targetId ≤ 4 := ⟨gate.started, route⟩
    exact (visit_phase run visiting).entered inv visiting e enters

/-- After the mission of the first waypoint of `exp_test2.launch` the second goal follows,
and after it the third, with no mission in between. -/
theorem one_mission_per_waypoint_route :
    let run := script expTest2 (firstMission (some centred) ++ [tickAt (sec 17) none false,
      tickAt (sec 20) none false])
    goals ((controller expTest2).trace run.1) = (List.range 3).map expTest2.targetPoints ∧
      run.1.countP (startsMission expTest2) = 1 ∧
      Throughout (OneMissionPerWaypoint expTest2) run.1 :=
  ⟨by decide +kernel, by decide +kernel, one_mission_per_waypoint (script_run expTest2 _)⟩

def InitialCounters (c : Control) : Prop :=
  c.overtimeT = 0 ∧ c.detectOvertime = 0 ∧ c.haveAdjusted = false ∧ c.nn = 0

section SinceEntry

variable (cfg)

/-- The steps after the last entry of `EXEC_MISSION`. -/
def sinceEntry (past : History Fsm Event) : History Fsm Event := since (startsMission cfg) past

def StartsInitialised (t : Transition Fsm Event) (_past : History Fsm Event) : Prop :=
  EntersMission cfg t → InitialCounters ((controller cfg).post t).toControl

/-- A step that leaves `DROP`, or `ADJUST` for `DROP`, finds at zero the counter that the exit
it takes does not reset. -/
def ExitResets (t : Transition Fsm Event) : Prop :=
  ∀ inp, t.input = .tick inp →
    (DropExit cfg inp t.pre → overtimeAfter inp t.pre = 0) ∧
    (TimeoutExit cfg inp t.pre → detectAfter inp t.pre = 0) ∧
    (∀ response, DetectionExit inp t.pre response → t.pre.doLand = false → t.pre.nn = 0)

def AfterResets (t : Transition Fsm Event) (past : History Fsm Event) : Prop :=
  EntersMission cfg t → ∀ u ∈ sinceEntry cfg past, ExitResets cfg u

instance (t : Transition Fsm Event) : Decidable (ExitResets cfg t) :=
  decidable_of_iff (∀ inp, t.input = .tick inp →
      (DropExit cfg inp t.pre → overtimeAfter inp t.pre = 0) ∧
      (TimeoutExit cfg inp t.pre → detectAfter inp t.pre = 0) ∧
      ∀ response ∈ inp.yolo, DetectionExit inp t.pre response → t.pre.doLand = false →
        t.pre.nn = 0) <| by
    constructor
    · rintro resets inp same
      refine ⟨(resets inp same).1, (resets inp same).2.1, fun response leaving => ?_⟩
      exact (resets inp same).2.2 response leaving.2.2.1 leaving
    · rintro resets inp same
      exact ⟨(resets inp same).1, (resets inp same).2.1,
        fun response _ leaving => (resets inp same).2.2 response leaving⟩

instance (t : Transition Fsm Event) (past : History Fsm Event) :
    Decidable (AfterResets cfg t past) :=
  inferInstanceAs (Decidable (_ → _))

end SinceEntry

def CountersZero (c : Control) : Prop := c.overtimeT = 0 ∧ c.detectOvertime = 0 ∧ c.nn = 0

/-- What the counters tell about the exits of the running or of the last mission. -/
structure Residue (c : Control) (resets : Prop) : Prop where
  before : c.fsmState = .execMission → c.missionAction = .yoloInit ∨ c.missionAction = .adjust →
    resets
  drop : c.fsmState = .execMission → c.missionAction = .drop →
    (c.detectOvertime = 0 ∧ c.nn = 0 ↔ resets)
  after : c.fsmState = .execMission → c.missionAction = .put ∨ c.missionAction = .rise →
    (CountersZero c ↔ resets)
  outside : c.fsmState ≠ .execMission → c.fsmState ≠ .land → (CountersZero c ↔ resets)

theorem DropExit.not_adjust {inp : TickInput} {s : Fsm} (leaving : DropExit cfg inp s) :
    s.missionAction ≠ .adjust := by
  simp [leaving.2.1]

theorem exit_resets_quiet {s : Fsm} {e : Event}
    (quiet : ∀ inp, e = .tick inp → ¬DropExit cfg inp s ∧ ¬TimeoutExit cfg inp s ∧
      ∀ response, DetectionExit inp s response → s.doLand = true) :
    ExitResets cfg ⟨s, e⟩ := by
  intro inp same
  obtain ⟨noDrop, noTimeout, landing⟩ := quiet inp same
  refine ⟨fun leaving => absurd leaving noDrop, fun leaving => absurd leaving noTimeout, ?_⟩
  intro response leaving flying
  exact Bool.noConfusion ((landing response leaving).symm.trans flying)

theorem exit_resets_drop {s : Fsm} {inp : TickInput} (leaving : DropExit cfg inp s) :
    ExitResets cfg ⟨s, .tick inp⟩ ↔ overtimeAfter inp s = 0 := by
  constructor
  · intro resets
    exact (resets inp rfl).1 leaving
  · rintro zero _ ⟨⟩
    refine ⟨fun _ => zero, fun timeout => ?_, fun response detection => ?_⟩
    · exact absurd timeout.2.1 leaving.not_adjust
    · exact absurd detection.2.1 leaving.not_adjust

theorem exit_resets_timeout {s : Fsm} {inp : TickInput} (leaving : TimeoutExit cfg inp s) :
    ExitResets cfg ⟨s, .tick inp⟩ ↔ detectAfter inp s = 0 := by
  constructor
  · intro resets
    exact (resets inp rfl).2.1 leaving
  · rintro zero _ ⟨⟩
    refine ⟨fun drop => absurd leaving.2.1 drop.not_adjust, fun _ => zero, ?_⟩
    intro response detection
    exact absurd leaving detection.not_timeout

theorem exit_resets_detection {s : Fsm} {inp : TickInput} {response : YoloResponse}
    (leaving : DetectionExit inp s response) (dropping : s.doLand = false) :
    ExitResets cfg ⟨s, .tick inp⟩ ↔ s.nn = 0 := by
  constructor
  · intro resets
    exact (resets inp rfl).2.2 response leaving dropping
  · rintro zero _ ⟨⟩
    refine ⟨fun drop => absurd leaving.2.1 drop.not_adjust, ?_, fun _ _ _ => zero⟩
    intro timeout
    exact absurd timeout leaving.not_timeout

theorem Residue.unchanged {c c' : Control} {resets exits : Prop} (residue : Residue c resets)
    (same : c'.fsmState = c.fsmState ∧ c'.missionAction = c.missionAction ∧
      c'.overtimeT = c.overtimeT ∧ c'.detectOvertime = c.detectOvertime ∧ c'.nn = c.nn)
    (quiet : exits) : Residue c' (exits ∧ resets) := by
  obtain ⟨state, action, overtime, detect, climbs⟩ := same
  obtain ⟨before, drop, after, outside⟩ := residue
  constructor <;> simp_all [CountersZero]

theorem Residue.leave {c : Control} {resets exits : Prop} (residue : Residue c resets)
    (outside : c.fsmState ≠ .execMission ∧ c.fsmState ≠ .land) (newState : FsmState)
    (away : newState ≠ .execMission) (quiet : exits) :
    Residue { c with fsmState := newState } (exits ∧ resets) := by
  have counters := residue.outside outside.1 outside.2
  constructor
  · exact fun state => absurd state away
  · exact fun state => absurd state away
  · exact fun state => absurd state away
  · intro _ _
    simpa [CountersZero, quiet] using counters

theorem Residue.inAdjust {c : Control} {resets : Prop} (state : c.fsmState = .execMission)
    (action : c.missionAction = .adjust) (holds : resets) : Residue c resets := by
  constructor <;> simp [state, action, holds]

theorem Residue.inDrop {c : Control} {resets : Prop} (state : c.fsmState = .execMission)
    (action : c.missionAction = .drop) (counters : c.detectOvertime = 0 ∧ c.nn = 0 ↔ resets) :
    Residue c resets := by
  constructor <;> simp [state, action, counters]

theorem Residue.inPut {c : Control} {resets : Prop} (state : c.fsmState = .execMission)
    (action : c.missionAction = .put ∨ c.missionAction = .rise)
    (counters : CountersZero c ↔ resets) : Residue c resets := by
  rcases action with action | action <;> constructor <;> simp [state, action, counters]

theorem Residue.inLanding {c : Control} {resets : Prop} (action : c.missionAction = .dropLand)
    (state : c.fsmState = .execMission ∨ c.fsmState = .land) : Residue c resets := by
  rcases state with state | state <;> constructor <;> simp [state, action]

theorem TickMove.residue (move : TickMove cfg inp s c published requested)
    {resets : Prop} (residue : Residue s.toControl resets)
    (inside : ¬(s.fsmState ≠ .execMission ∧ c.fsmState = .execMission)) :
    Residue c (ExitResets cfg ⟨s, .tick inp⟩ ∧ resets) := by
  have elsewhere (away : s.fsmState = .execMission →
      s.missionAction ≠ .adjust ∧ s.missionAction ≠ .drop) : ExitResets cfg ⟨s, .tick inp⟩ := by
    apply exit_resets_quiet
    rintro _ ⟨⟩
    refine ⟨fun drop => ?_, fun timeout => ?_, fun _ detection => ?_⟩
    · exact absurd drop.2.1 (away drop.1).2
    · exact absurd timeout.2.1 (away timeout.1).1
    · exact absurd detection.2.1 (away detection.1).1
  have adjusting (state : s.fsmState = .execMission) (action : s.missionAction = .adjust)
      (stays : c.missionAction = .adjust) : ExitResets cfg ⟨s, .tick inp⟩ := by
    obtain ⟨noTimeout, noDetection⟩ := move.stays_adjusting state action stays
    apply exit_resets_quiet
    rintro _ ⟨⟩
    refine ⟨fun drop => absurd action drop.not_adjust, noTimeout, ?_⟩
    intro response detection
    exact absurd detection (noDetection response)
  cases move with
  | missionEntry gate | landEntry gate => exact absurd ⟨by simp [gate.state], rfl⟩ inside
  | stay parked =>
      refine residue.unchanged ⟨rfl, rfl, rfl, rfl, rfl⟩ (elsewhere fun mission => ?_)
      simp [mission] at parked
  | nextGoal gate =>
      exact residue.unchanged ⟨rfl, rfl, rfl, rfl, rfl⟩ (elsewhere (by simp [gate.state]))
  | follow state | holdWait state | firstGoal state =>
      exact residue.unchanged ⟨rfl, rfl, rfl, rfl, rfl⟩ (elsewhere (by simp [state]))
  | riseStay state action | putWait state action | putFailed state action =>
      exact residue.unchanged ⟨rfl, rfl, rfl, rfl, rfl⟩ (elsewhere (by simp [action]))
  | connect state | tookOff state | arrive state =>
      exact residue.leave (by simp [state]) _ (by simp) (elsewhere (by simp [state]))
  | yoloInit state action =>
      exact .inAdjust state rfl ⟨elsewhere (by simp [action]), residue.before state (.inl action)⟩
  | adjusted _ state action | adjustClimb state action | adjustStay state action =>
      have quiet := adjusting state action action
      exact .inAdjust state action ⟨quiet, residue.before state (.inr action)⟩
  | adjustLand response leaving => exact .inLanding rfl (.inl leaving.1)
  | adjustDrop response leaving dropping =>
      have resets := residue.before leaving.1 (.inr leaving.2.1)
      refine .inDrop leaving.1 rfl ?_
      rw [exit_resets_detection leaving dropping]
      simp [resets]
  | adjustTimeout leaving =>
      have resets := residue.before leaving.1 (.inr leaving.2.1)
      refine .inDrop leaving.1 rfl ?_
      rw [exit_resets_timeout leaving]
      simp [resets]
  | dropStay state action staying =>
      have quiet : ExitResets cfg ⟨s, .tick inp⟩ := by
        apply exit_resets_quiet
        rintro _ ⟨⟩
        refine ⟨staying, fun timeout => ?_, fun _ detection => ?_⟩
        · simp [timeout.2.1] at action
        · simp [detection.2.1] at action
      refine .inDrop state action ?_
      simpa [quiet] using residue.drop state action
  | dropPut leaving =>
      have counters := residue.drop leaving.1 leaving.2.1
      refine .inPut leaving.1 (.inl rfl) ?_
      rw [exit_resets_drop leaving, ← counters]
      rfl
  | riseDone state action =>
      have counters := residue.after state (.inr action)
      have quiet := elsewhere (by simp [action])
      refine ⟨by simp, by simp, by simp, fun _ _ => ?_⟩
      simpa [quiet, CountersZero] using counters
  | putSkip state action | putDone state action =>
      have counters := residue.after state (.inl action)
      have quiet := elsewhere (by simp [action])
      refine .inPut state (.inr rfl) ?_
      simpa [quiet, CountersZero] using counters
  | landAdjusted response state action => exact .inLanding action (.inl state)
  | landed response leaving => exact .inLanding leaving.2.1 (.inr rfl)
  | dropLandStay state action => exact .inLanding action (.inl state)

theorem Move.residue (move : Move cfg s e c published requested)
    {resets : Prop} (residue : Residue s.toControl resets)
    (inside : ¬(s.fsmState ≠ .execMission ∧ c.fsmState = .execMission)) :
    Residue c (ExitResets cfg ⟨s, e⟩ ∧ resets) := by
  cases move with
  | tick inp move =>
      have opened : Residue (openTick inp s).toControl resets :=
        ⟨residue.before, residue.drop, residue.after, residue.outside⟩
      exact move.residue opened inside
  | command cmd state =>
      have quiet : ExitResets cfg ⟨s, .posCmd cmd⟩ := exit_resets_quiet (by simp)
      exact residue.leave (by simp [state]) .tracking (by simp) quiet
  | _ =>
      refine residue.unchanged ⟨rfl, rfl, rfl, rfl, rfl⟩ (exit_resets_quiet ?_)
      simp

theorem run_residue {history : History Fsm Event} {s : Fsm}
    (run : (controller cfg).Run history s) :
    Residue s.toControl (∀ u ∈ sinceEntry cfg history, ExitResets cfg u) := by
  induction run with
  | start initial =>
      obtain ⟨memory, now, rfl⟩ := initial
      constructor <;> simp [Fsm.init, sinceEntry, CountersZero]
  | @step past s e run ih =>
      have moved := post_move cfg s e
      by_cases enters : EntersMission cfg ⟨s, e⟩
      · rw [sinceEntry, since_cons_marked _ (decide_eq_true enters)]
        have started := (moved.enters enters.1 enters.2).2.1
        constructor
        · simp
        · intro _ action
          exact MissionAction.noConfusion (started.symm.trans action)
        · intro _ action
          rcases action with action | action <;>
            exact MissionAction.noConfusion (started.symm.trans action)
        · intro outside
          exact absurd enters.2 outside
      · rw [sinceEntry, since_cons_unmarked _ (decide_eq_false enters)]
        rw [List.forall_mem_cons]
        exact moved.residue ih enters

/-- A mission starts with the initial counters exactly after a mission each of whose exits
found the counter that it does not reset at zero. -/
theorem missions_start_initialised_iff {history : History Fsm Event} {s : Fsm}
    (run : (controller cfg).Run history s) :
    Throughout (StartsInitialised cfg) history ↔ Throughout (AfterResets cfg) history := by
  apply Throughout.congr
  apply run.throughout
  intro past s e run
  apply imp_congr_right
  intro enters
  obtain ⟨⟨inp, -, gate⟩, -, overtime, detect, adjusted, climbs⟩ :=
    (post_move cfg s e).enters enters.1 enters.2
  have unadjusted : s.haveAdjusted = false := by
    rw [← Bool.not_eq_true]
    intro raised
    have inside := ((run_coherent run).adjusted raised).2
    simp [gate.state] at inside
  have counters := (run_residue run).outside (by simp [gate.state]) (by simp [gate.state])
  rw [← counters, InitialCounters, overtime, detect, adjusted, climbs]
  simp [unadjusted, CountersZero]

def toThirdWaypoint : List Event :=
  [tickAt (sec 17) none false, tickAt (sec 20) none false, tickAt (sec 22) none false]

theorem missions_start_initialised_two :
    let run := script expTest2 (firstMission (some centred) ++ toThirdWaypoint)
    Throughout (StartsInitialised expTest2) run.1 :=
  (missions_start_initialised_iff (script_run expTest2 _)).mpr (by decide +kernel)

instance (t : Transition Fsm Event) (past : History Fsm Event) :
    Decidable (StartsInitialised cfg t past) :=
  inferInstanceAs (Decidable (_ → _ ∧ _))

/-- One failed detection in the frame that ends `DROP`: the next mission starts with
`overtime_t_` at 1. -/
theorem failed_frame_leaks :
    let run := script expTest2 (firstMission none ++ toThirdWaypoint)
    (controller expTest2).Run run.1 run.2 ∧
      ¬Throughout (StartsInitialised expTest2) run.1 ∧
      run.2.missionAction = .yoloInit ∧ run.2.overtimeT = 1 :=
  ⟨script_run _ _, by decide +kernel, by decide +kernel, by decide +kernel⟩

end RobocupDrone.Controller
