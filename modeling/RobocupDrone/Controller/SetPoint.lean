import RobocupDrone.Controller.Landing

/-! The set-points that the mission timer publishes: their altitude, and when the timer
runs. -/

namespace RobocupDrone.Controller

open Geometry Reactive

variable {cfg : Config} {s : Fsm} {e : Event} {inp : TickInput} {c : Control}
  {published : List (Vec3 ℚ)} {requested : List (Int × Bool)}

/-- The altitudes that a mission assigns: the four parameters and the two constants of
`DROP_LAND`. -/
def missionHeights (cfg : Config) : List ℚ :=
  [cfg.detectHeight, cfg.adjustHeight, cfg.putHeight, cfg.holdHeight, 0.6, 0.3]

def lowestHeight (cfg : Config) : ℚ :=
  min (min (min (min cfg.detectHeight cfg.adjustHeight) cfg.putHeight) cfg.holdHeight) 0.3

def highestHeight (cfg : Config) : ℚ :=
  max (max (max (max cfg.detectHeight cfg.adjustHeight) cfg.putHeight) cfg.holdHeight) 0.6

theorem mission_height_within {z : ℚ} (member : z ∈ missionHeights cfg) :
    lowestHeight cfg ≤ z ∧ z ≤ highestHeight cfg := by
  have constants : (0.3 : ℚ) ≤ 0.6 := by norm_num
  simp only [missionHeights, List.mem_cons, List.not_mem_nil, or_false] at member
  simp only [lowestHeight, highestHeight, min_le_iff, le_max_iff]
  rcases member with rfl | rfl | rfl | rfl | rfl | rfl <;> simp [constants]

/-- What a callback can do to the altitude, and to the counter that limits the climbs. -/
inductive AltitudeStep (cfg : Config) (s s' : Fsm) : Prop
  | keep (height : s'.missionPose.position.z = s.missionPose.position.z) (climbs : s'.nn = s.nn)
      (timer : s'.missionLoopTimer = true → s.missionLoopTimer = true)
      (action : s'.missionAction = .adjust → s.missionAction = .adjust)
  | assign (height : s'.missionPose.position.z ∈ missionHeights cfg) (climbs : s'.nn = s.nn)
  | climb (low : s.nn < 2) (action : s.missionAction = .adjust)
      (height : s'.missionPose.position.z = s.missionPose.position.z + 0.30)
      (climbs : s'.nn = s.nn + 1) (timer : s'.missionLoopTimer = s.missionLoopTimer)
  | timeout (height : s'.missionPose.position.z = s.missionPose.position.z)
      (climbs : s'.nn = 0) (timer : s'.missionLoopTimer = s.missionLoopTimer)
      (action : s'.missionAction = .drop)

theorem adjustTimeout_altitude (cfg : Config) (s : Fsm) (action : s.missionAction = .adjust) :
    AltitudeStep cfg s (adjustTimeout cfg s) := by
  unfold adjustTimeout
  split_ifs with leave late
  · exact .timeout rfl rfl rfl rfl
  · exact .climb (by omega) action rfl rfl rfl
  · exact .keep rfl rfl id id

theorem AltitudeStep.of_detected {detected s' : Fsm} (step : AltitudeStep cfg detected s')
    (height : detected.missionPose.position.z = s.missionPose.position.z)
    (climbs : detected.nn = s.nn) (timer : detected.missionLoopTimer = s.missionLoopTimer)
    (action : detected.missionAction = s.missionAction) : AltitudeStep cfg s s' := by
  cases step with
  | keep height' climbs' timer' action' =>
      exact .keep (height'.trans height) (climbs'.trans climbs)
        (fun running => timer ▸ timer' running) (fun adjusting => action ▸ action' adjusting)
  | assign height' climbs' => exact .assign height' (climbs'.trans climbs)
  | climb low action' height' climbs' timer' =>
      exact .climb (climbs ▸ low) (action ▸ action') (height ▸ height') (climbs ▸ climbs')
        (timer'.trans timer)
  | timeout height' climbs' timer' action' =>
      exact .timeout (height'.trans height) climbs' (timer'.trans timer) action'

theorem adjustTick_altitude (cfg : Config) (inp : TickInput) (s : Fsm)
    (action : s.missionAction = .adjust) : AltitudeStep cfg s (adjustTick cfg inp s) := by
  unfold adjustTick
  cases inp.yolo with
  | none =>
      have step := adjustTimeout_altitude cfg { s with overtimeT := s.overtimeT + 1 } action
      exact step.of_detected rfl rfl rfl rfl
  | some response =>
      dsimp only
      split_ifs with due exit landing
      · exact .assign (by simp [setMissionHeight, missionHeights]) rfl
      · exact .keep rfl rfl id fun _ => action
      · exact .keep rfl rfl id fun _ => action
      · refine AltitudeStep.of_detected (adjustTimeout_altitude cfg _ ?_) rfl rfl rfl rfl
        exact action

theorem dropTick_altitude (cfg : Config) (inp : TickInput) (s : Fsm) :
    AltitudeStep cfg s (dropTick cfg inp s) := by
  have climbs : (dropDetect cfg inp s).nn = s.nn := by rw [(dropDetect_frame cfg inp s).1]
  unfold dropTick
  dsimp only
  split_ifs
  · exact .assign (by simp [setMissionHeight, changeMissionAction, missionHeights]) climbs
  · exact .assign (by simp [setMissionHeight, missionHeights]) climbs

theorem dropLandTick_altitude (cfg : Config) (inp : TickInput) (s : Fsm) :
    AltitudeStep cfg s (dropLandTick cfg inp s) := by
  unfold dropLandTick
  cases inp.yolo with
  | none => exact .keep rfl rfl id id
  | some response =>
      dsimp only
      split_ifs with due centred late
      · exact .assign (by simp [setMissionHeight, missionHeights]) rfl
      · exact .assign (by simp [setMissionHeight, changeFSMState, missionHeights]) rfl
      · exact .assign (by simp [setMissionHeight, missionHeights]) rfl
      · exact .keep rfl rfl id id

theorem execMissionTick_altitude (cfg : Config) (inp : TickInput) (s : Fsm) :
    AltitudeStep cfg s (execMissionTick cfg inp s).1 := by
  unfold execMissionTick
  split <;> rename_i action
  · exact .assign (by simp [startMissionTimer, changeMissionAction, missionHeights]) rfl
  · exact adjustTick_altitude cfg inp s action
  · exact dropTick_altitude cfg inp s
  · unfold riseTick
    dsimp only
    split_ifs
    · exact .assign (by simp [setMissionHeight, stopMissionTimer, changeFSMState,
        missionHeights]) rfl
    · exact .assign (by simp [setMissionHeight, missionHeights]) rfl
  · unfold putTick
    split_ifs
    · exact .keep rfl rfl id (by simp [changeMissionAction])
    · exact .keep rfl rfl id id
    · exact .keep rfl rfl id id
    · exact .keep rfl rfl id (by simp [changeMissionAction])
  · exact dropLandTick_altitude cfg inp s

theorem holdTick_altitude (cfg : Config) (inp : TickInput) (s : Fsm) :
    AltitudeStep cfg s (holdTick cfg inp s).1 := by
  unfold holdTick
  split_ifs <;> first
    | exact .keep rfl rfl id id
    | exact .keep rfl rfl id (by simp [startMission, changeMissionAction])

theorem takingOffTick_altitude (cfg : Config) (inp : TickInput) (lastRequest : Time) (s : Fsm) :
    AltitudeStep cfg s (takingOffTick cfg inp lastRequest s).1 := by
  have requested : (requestOffboard inp lastRequest s).1.missionPose = s.missionPose := by
    unfold requestOffboard
    split_ifs <;> rfl
  have control := (requestOffboard_frame inp s lastRequest).1
  unfold takingOffTick
  dsimp only
  split_ifs
  · refine .keep ?_ ?_ ?_ ?_ <;> simp [changeFSMState, requested, control]
  · refine .keep ?_ ?_ ?_ ?_ <;> simp [requested, control]
  · exact .keep rfl rfl id id
  · exact .keep rfl rfl id id

theorem step_altitude (cfg : Config) (s : Fsm) (e : Event) :
    AltitudeStep cfg s (step cfg s e).1 := by
  cases e with
  | odom position => exact .keep rfl rfl id id
  | px4State msg => exact .keep rfl rfl id id
  | posCmd cmd =>
      simp only [step, quadmsgCallback]
      split_ifs <;> exact .keep rfl rfl id id
  | egoState data =>
      simp only [step, egoInitCallback]
      split_ifs <;> exact .keep rfl rfl id id
  | missionTimer => exact .keep rfl rfl id id
  | tick inp =>
      have opened (outcome : Fsm) (step : AltitudeStep cfg (openTick inp s) outcome) :
          AltitudeStep cfg s outcome := step.of_detected rfl rfl rfl rfl
      apply opened
      simp only [step, fsmStateLoopCallback]
      split
      · unfold initTick
        split_ifs <;> exact .keep rfl rfl id id
      · exact takingOffTick_altitude cfg inp _ _
      · exact holdTick_altitude cfg inp _
      · exact execMissionTick_altitude cfg inp _
      · unfold landTick
        split_ifs <;> exact .keep rfl rfl id id
      · exact .keep rfl rfl id id
      · unfold trackingTick
        split_ifs <;> exact .keep rfl rfl id id

/-- While the timer runs, the altitude exceeds the assigned ones by the climbs that `nn`
counts, and once `ADJUST` is left by at most two of them. -/
structure AltitudeBounded (cfg : Config) (s : Fsm) : Prop where
  climbs : 0 ≤ s.nn ∧ s.nn ≤ 2
  low : s.missionLoopTimer = true → lowestHeight cfg ≤ s.missionPose.position.z
  high : s.missionLoopTimer = true → s.missionPose.position.z ≤ highestHeight cfg + 0.6
  adjusting : s.missionLoopTimer = true → s.missionAction = .adjust →
    s.missionPose.position.z ≤ highestHeight cfg + 0.3 * s.nn

theorem AltitudeStep.bounded {s' : Fsm} (step : AltitudeStep cfg s s')
    (inv : AltitudeBounded cfg s) : AltitudeBounded cfg s' := by
  obtain ⟨climbs, low, high, adjusting⟩ := inv
  cases step with
  | keep height same timer action =>
      constructor
      · rwa [same]
      · exact fun running => height ▸ low (timer running)
      · exact fun running => height ▸ high (timer running)
      · intro running adjust
        rw [height, same]
        exact adjusting (timer running) (action adjust)
  | assign height same =>
      have bounds := mission_height_within height
      have counted : (0 : ℚ) ≤ s.nn := by exact_mod_cast climbs.1
      constructor
      · rwa [same]
      · exact fun _ => bounds.1
      · intro _
        linarith [bounds.2]
      · intro _ _
        rw [same]
        linarith [bounds.2]
  | climb few action height same timer =>
      have counted : (s.nn : ℚ) ≤ 1 := by exact_mod_cast Int.lt_add_one_iff.mp few
      constructor
      · omega
      · intro running
        rw [height]
        linarith [low (timer ▸ running)]
      · intro running
        rw [height]
        linarith [adjusting (timer ▸ running) action]
      · intro running _
        rw [height, same]
        push_cast
        linarith [adjusting (timer ▸ running) action]
  | timeout height same timer action =>
      constructor
      · omega
      · exact fun running => height ▸ low (timer ▸ running)
      · exact fun running => height ▸ high (timer ▸ running)
      · intro _ adjust
        simp [action] at adjust

theorem run_altitude {history : History Fsm Event} (run : (controller cfg).Run history s) :
    AltitudeBounded cfg s := by
  apply run.invariant (I := AltitudeBounded cfg)
  · rintro _ ⟨memory, now, rfl⟩
    constructor <;> simp [Fsm.init]
  · intro s e inv
    exact (step_altitude cfg s e).bounded inv

/-- Every set-point that the mission timer publishes is at an altitude that a mission
assigns, or at most two climbs above one. -/
def SetPointsWithin (cfg : Config) (t : Transition Fsm Event) (_past : History Fsm Event) :
    Prop :=
  t.input = .missionTimer → ∀ msg, Effect.px4CtrlPub msg ∈ (controller cfg).outputs t →
    lowestHeight cfg ≤ msg.position.z ∧ msg.position.z ≤ highestHeight cfg + 0.6

theorem set_points_within {history : History Fsm Event}
    (run : (controller cfg).Run history s) : Throughout (SetPointsWithin cfg) history := by
  apply run.throughout
  intro past s e run timer msg published
  cases timer
  have inv := run_altitude run
  change _ ∈ missionTimerLoopCallback s at published
  unfold missionTimerLoopCallback at published
  split_ifs at published with running
  · cases List.mem_singleton.mp published
    exact ⟨inv.low running, inv.high running⟩
  · cases published

/-- The first mission of `exp_test2.launch`, with the timer firing at each height. -/
def climbingMission : List Event :=
  takeoff ++ [tickAt 0 none false, tickAt (sec 2) none false, tickAt (sec 2) none false] ++
    List.replicate 122 (tickAt (sec 2) none false) ++ [.missionTimer]

theorem set_points_within_climbing :
    let run := script expTest2 climbingMission
    run.2.missionPose.position.z = 2 ∧ Throughout (SetPointsWithin expTest2) run.1 :=
  ⟨by decide +kernel, set_points_within (script_run expTest2 climbingMission)⟩

/-- The machine is in a mission past `YOLO_INIT`. -/
def InMission (c : Control) : Prop := c.fsmState = .execMission ∧ c.missionAction ≠ .yoloInit

instance (c : Control) : Decidable (InMission c) := inferInstanceAs (Decidable (_ ∧ _))

/-- The timer is started in `YOLO_INIT` and stopped in `RISE`; the exit to `LAND` does not
stop it. -/
def TimerPhase (c : Control) : Prop :=
  c.missionLoopTimer = true ↔ InMission c ∨ c.fsmState = .land

theorem TimerPhase.of_same {c' : Control} (inv : TimerPhase c)
    (timer : c'.missionLoopTimer = c.missionLoopTimer) (state : c'.fsmState = c.fsmState)
    (action : c'.missionAction = c.missionAction) : TimerPhase c' := by
  simpa only [TimerPhase, InMission, timer, state, action] using inv

theorem TimerPhase.act {c' : Control} (inv : TimerPhase c) (state : c.fsmState = .execMission)
    (action : c.missionAction ≠ .yoloInit) (timer : c'.missionLoopTimer = c.missionLoopTimer)
    (phase : InMission c' ∨ c'.fsmState = .land) : TimerPhase c' := by
  have running : c.missionLoopTimer = true := inv.mpr (.inl ⟨state, action⟩)
  exact iff_of_true (timer.trans running) phase

theorem TimerPhase.quiet {c' : Control} (inv : TimerPhase c)
    (outside : c.fsmState ≠ .execMission ∧ c.fsmState ≠ .land)
    (timer : c'.missionLoopTimer = c.missionLoopTimer)
    (phase : ¬InMission c' ∧ c'.fsmState ≠ .land) : TimerPhase c' := by
  have stopped : ¬c.missionLoopTimer = true := by
    intro running
    rcases inv.mp running with mission | land
    · exact outside.1 mission.1
    · exact outside.2 land
  exact iff_of_false (timer ▸ stopped) (not_or.mpr phase)

theorem TickMove.timer_phase (move : TickMove cfg inp s c published requested)
    (inv : TimerPhase s.toControl) : TimerPhase c := by
  cases move with
  | connect state | tookOff state | arrive state =>
      exact inv.quiet (by simp [state]) rfl (by simp [InMission])
  | missionEntry gate | landEntry gate =>
      exact inv.quiet (by simp [gate.state]) rfl (by simp [InMission])
  | yoloInit state => exact iff_of_true rfl (.inl ⟨state, by simp⟩)
  | adjustLand _ leaving | adjustDrop _ leaving | adjustTimeout leaving | dropPut leaving =>
      exact inv.act leaving.1 (by simp [leaving.2.1]) rfl (.inl ⟨leaving.1, by simp⟩)
  | putSkip state action | putDone state action =>
      exact inv.act state (by simp [action]) rfl (.inl ⟨state, by simp⟩)
  | landed _ leaving => exact inv.act leaving.1 (by simp [leaving.2.1]) rfl (.inr rfl)
  | riseDone => exact iff_of_false (by simp) (by simp [InMission])
  | _ => exact inv.of_same rfl rfl rfl

theorem Move.timer_phase (move : Move cfg s e c published requested)
    (inv : TimerPhase s.toControl) : TimerPhase c := by
  cases move with
  | tick inp move => exact move.timer_phase (inv.of_same rfl rfl rfl)
  | command cmd state => exact inv.quiet (by simp [state]) rfl (by simp [InMission])
  | _ => exact inv.of_same rfl rfl rfl

theorem run_timer_phase {history : History Fsm Event}
    (run : (controller cfg).Run history s) : TimerPhase s.toControl := by
  apply run.invariant (I := fun s => TimerPhase s.toControl)
  · rintro _ ⟨memory, now, rfl⟩
    exact iff_of_false (by simp [Fsm.init]) (by simp [Fsm.init, InMission])
  · intro s e inv
    exact (step_move cfg s e).timer_phase inv

/-- A callback publishes on `px4_ctrl_pub_`. -/
def Commands (cfg : Config) (s : Fsm) (e : Event) : Prop :=
  ∃ msg, Effect.px4CtrlPub msg ∈ (step cfg s e).2

/-- The timer runs exactly in a mission past `YOLO_INIT`, and where it publishes no tick
does. -/
def StreamExclusive (cfg : Config) (s : Fsm) : Prop :=
  (s.missionLoopTimer = true ↔ InMission s.toControl) ∧
    (Commands cfg s .missionTimer → ∀ inp, ¬Commands cfg s (.tick inp))

/-- A tick takes the exit from `DROP_LAND` to `LAND`. -/
def TouchesDown (cfg : Config) (t : Transition Fsm Event) : Prop :=
  ∃ inp response, t.input = .tick inp ∧ LandExit cfg inp t.pre response

instance (cfg : Config) (t : Transition Fsm Event) : Decidable (TouchesDown cfg t) :=
  decidable_of_iff
    (∃ inp, t.input = .tick inp ∧ ∃ response ∈ inp.yolo, LandExit cfg inp t.pre response)
    ⟨fun ⟨inp, same, response, _, leaving⟩ => ⟨inp, response, same, leaving⟩,
      fun ⟨inp, response, same, leaving⟩ => ⟨inp, same, response, leaving.2.2.1, leaving⟩⟩

theorem mission_tick_silent (cfg : Config) (inp : TickInput)
    (phase : s.fsmState = .execMission ∨ s.fsmState = .land) :
    ¬Commands cfg s (.tick inp) := by
  rintro ⟨msg, published⟩
  have opened : (openTick inp s).fsmState = s.fsmState := rfl
  rcases phase with state | state
  · simp only [step, fsmStateLoopCallback, opened, state, execMissionTick, riseTick,
      putTick] at published
    split at published <;> try split_ifs at published
    all_goals simp at published
  · simp only [step, fsmStateLoopCallback, opened, state, landTick] at published
    split_ifs at published <;> simp at published

theorem commands_timer_iff : Commands cfg s .missionTimer ↔ s.missionLoopTimer = true := by
  simp only [Commands, step, missionTimerLoopCallback]
  split_ifs with running
  · simp [running]
  · simp [running]

theorem Move.lands (move : Move cfg s e c published requested) (landed : c.fsmState = .land) :
    s.fsmState = .land ∨ TouchesDown cfg ⟨s, e⟩ := by
  cases move with
  | tick inp move =>
      cases move with
      | landed response leaving => exact .inr ⟨inp, response, rfl, leaving⟩
      | connect | tookOff | arrive | missionEntry | landEntry | riseDone => cases landed
      | _ => exact .inl landed
  | command => cases landed
  | _ => exact .inl landed

theorem dropLandTick_lands {response : YoloResponse} (leaving : LandExit cfg inp s response) :
    (dropLandTick cfg inp s).fsmState = .land := by
  obtain ⟨-, -, detected, undue, due⟩ := leaving
  unfold dropLandTick
  rw [detected]
  dsimp only
  split_ifs with adjust centred late
  · exact absurd adjust undue
  · rfl
  · exact absurd due.2 late
  · exact absurd due.1 centred

theorem touches_down_lands (t : Transition Fsm Event) (exit : TouchesDown cfg t) :
    ((controller cfg).post t).fsmState = .land := by
  obtain ⟨inp, response, tick, leaving⟩ := exit
  obtain ⟨s, e⟩ := t
  cases tick
  have opened : LandExit cfg inp (openTick inp s) response := leaving
  change (fsmStateLoopCallback cfg inp s).1.fsmState = .land
  simp only [fsmStateLoopCallback, opened.1, execMissionTick, opened.2.1]
  exact dropLandTick_lands opened

theorem landed_iff {history : History Fsm Event} (run : (controller cfg).Run history s) :
    s.fsmState = .land ↔ ∃ t ∈ history, TouchesDown cfg t := by
  constructor
  · intro landed
    induction run with
    | start initial =>
        obtain ⟨memory, now, rfl⟩ := initial
        cases landed
    | @step past s e run ih =>
        rcases (step_move cfg s e).lands landed with before | now
        · obtain ⟨t, member, exit⟩ := ih before
          exact ⟨t, List.mem_cons_of_mem _ member, exit⟩
        · exact ⟨_, List.mem_cons_self, now⟩
  · rintro ⟨t, member, exit⟩
    exact run.latched (land_stable cfg) ⟨t, member, touches_down_lands t exit⟩

theorem stream_exclusive_iff {history : History Fsm Event}
    (run : (controller cfg).Run history s) :
    StreamExclusive cfg s ↔ ∀ t ∈ history, ¬TouchesDown cfg t := by
  have phase := run_timer_phase run
  have flying : (∀ t ∈ history, ¬TouchesDown cfg t) ↔ s.fsmState ≠ .land := by
    rw [Ne, landed_iff run]
    push Not
    rfl
  rw [flying]
  constructor
  · intro exclusive landed
    have mission := exclusive.1.mp (phase.mpr (.inr landed))
    exact absurd (mission.1.symm.trans landed) (by simp)
  · intro flying
    have timer : s.missionLoopTimer = true ↔ InMission s.toControl :=
      Iff.trans phase (or_iff_left flying)
    refine ⟨timer, fun commands inp => ?_⟩
    exact mission_tick_silent cfg inp (.inl (timer.mp (commands_timer_iff.mp commands)).1)

theorem stream_exclusive_first_mission :
    let run := script expTest2 (firstMission (some centred))
    StreamExclusive expTest2 run.2 :=
  (stream_exclusive_iff (script_run expTest2 (firstMission (some centred)))).mpr (by decide +kernel)

/-- After touchdown the timer still publishes the last set-point of `DROP_LAND`. -/
theorem touchdown_keeps_streaming :
    let run := script routeOnly touchdown
    (controller routeOnly).Run run.1 run.2 ∧ run.2.fsmState = .land ∧
      ¬StreamExclusive routeOnly run.2 := by
  refine ⟨script_run _ _, by decide +kernel, fun exclusive => ?_⟩
  have timer := exclusive.1
  revert timer
  decide +kernel

end RobocupDrone.Controller
