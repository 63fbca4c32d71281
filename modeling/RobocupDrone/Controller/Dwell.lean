import RobocupDrone.Controller.Landing
import RobocupDrone.Controller.Missions

/-! The waits of a mission: what the 5 s in `ADJUST`, `DROP` and `DROP_LAND` are measured
from. -/

namespace RobocupDrone.Controller

open Geometry Reactive

variable {cfg : Config} {s : Fsm} {e : Event} {inp : TickInput} {c : Control}
  {published : List (Vec3 ℚ)} {requested : List (Int × Bool)}

/-- A clock reading of the step. A step that is no tick reads no clock. -/
def clock (t : Transition Fsm Event) (reading : Reading) : Time :=
  match t.input with
  | .tick inp => inp.now reading
  | _ => 0

def detection (t : Transition Fsm Event) : Option YoloResponse :=
  match t.input with
  | .tick inp => inp.yolo
  | _ => none

/-- The step is a tick that leaves `ADJUST` by the detection timeout. -/
def timeoutTick (cfg : Config) (t : Transition Fsm Event) : Bool :=
  match t.input with
  | .tick inp => decide (TimeoutExit cfg inp t.pre)
  | _ => false

section Adjusting

variable (cfg)

/-- A detection in `ADJUST` that sets `have_adjusted` and commands `adjust_height`. -/
def Adjusts (t : Transition Fsm Event) : Prop :=
  t.pre.fsmState = .execMission ∧ t.pre.missionAction = .adjust ∧
    (∃ response ∈ detection t, AdjustDue t.pre (servoOffsets t.pre.putServoId response)) ∧
    ((controller cfg).post t).haveAdjusted = true ∧
    ((controller cfg).post t).missionPose.position.z = cfg.adjustHeight

/-- `ADJUST` is left for `DROP` or `DROP_LAND`, and not by the detection timeout. -/
def LeavesByDetection (t : Transition Fsm Event) : Prop :=
  t.pre.fsmState = .execMission ∧ t.pre.missionAction = .adjust ∧
    (((controller cfg).post t).missionAction = .drop ∨
      ((controller cfg).post t).missionAction = .dropLand) ∧
    timeoutTick cfg t = false

/-- The detection branch leaves `ADJUST` only 5 s after `have_adjusted` was set in the same
mission. -/
def LeavesAdjusted (t : Transition Fsm Event) (past : History Fsm Event) : Prop :=
  LeavesByDetection cfg t →
    ∃ u ∈ sinceEntry cfg past, Adjusts cfg u ∧ sec 5 ≤ clock t .holdCheck - clock u .holdMark

/-- A detection that finds `have_adjusted` unset, the offsets outside the 0.2 m window, the
frame counter between the two limits and `hold_time_` 5 s old. -/
def UnadjustedDetection (t : Transition Fsm Event) (_past : History Fsm Event) : Prop :=
  ∃ response ∈ detection t,
    t.pre.fsmState = .execMission ∧ t.pre.missionAction = .adjust ∧ t.pre.haveAdjusted = false ∧
      offsetsBelow 0.2 (servoOffsets t.pre.putServoId response) = false ∧
      80 < t.pre.detectOvertime + 1 ∧ t.pre.detectOvertime + 1 ≤ 800 ∧
      sec 5 ≤ clock t .holdCheck - t.pre.holdTime

instance (t : Transition Fsm Event) (past : History Fsm Event) :
    Decidable (UnadjustedDetection t past) :=
  inferInstanceAs (Decidable (∃ response ∈ detection t, _))

instance (t : Transition Fsm Event) : Decidable (Adjusts cfg t) :=
  inferInstanceAs (Decidable (_ ∧ _))

instance (t : Transition Fsm Event) : Decidable (LeavesByDetection cfg t) :=
  inferInstanceAs (Decidable (_ ∧ _))

instance (t : Transition Fsm Event) (past : History Fsm Event) :
    Decidable (LeavesAdjusted cfg t past) :=
  inferInstanceAs (Decidable (_ → _))

end Adjusting

theorem offsetsBelow_mono {small large : ℚ} (le : small ≤ large) {offsets : ℚ × ℚ}
    (below : offsetsBelow small offsets = true) : offsetsBelow large offsets = true := by
  simp only [offsetsBelow, decide_eq_true_eq] at below ⊢
  exact ⟨below.1.trans_le le, below.2.trans_le le⟩

theorem detection_exit_unadjusted_iff {inp : TickInput} {s : Fsm} {response : YoloResponse}
    (unadjusted : s.haveAdjusted = false) :
    DetectionExit inp s response ↔
      s.fsmState = .execMission ∧ s.missionAction = .adjust ∧ inp.yolo = some response ∧
        offsetsBelow 0.2 (servoOffsets s.putServoId response) = false ∧
        80 < s.detectOvertime + 1 ∧ s.detectOvertime + 1 ≤ 800 ∧
        sec 5 ≤ inp.now .holdCheck - s.holdTime := by
  have nested : offsetsBelow 0.1 (servoOffsets s.putServoId response) = true →
      offsetsBelow 0.2 (servoOffsets s.putServoId response) = true :=
    offsetsBelow_mono (by norm_num)
  simp only [DetectionExit, AdjustDue, ExitDue, unadjusted, and_true, not_or, not_lt,
    Bool.not_eq_true]
  constructor
  · intro leaving
    obtain ⟨state, action, detected, ⟨outside, few⟩, centred | many, late⟩ := leaving
    · simp [nested centred] at outside
    · exact ⟨state, action, detected, outside, many, few, late⟩
  · intro frames
    obtain ⟨state, action, detected, outside, many, few, late⟩ := frames
    exact ⟨state, action, detected, ⟨outside, few⟩, .inr many, late⟩

theorem leaves_by_detection_iff {s : Fsm} {e : Event} :
    LeavesByDetection cfg ⟨s, e⟩ ↔
      ∃ inp response, e = .tick inp ∧ DetectionExit inp s response := by
  constructor
  · intro leaves
    obtain ⟨state, action, left, detected⟩ := leaves
    have changed : ((controller cfg).post ⟨s, e⟩).missionAction ≠ s.missionAction := by
      intro same
      have adjust : s.missionAction = .adjust := action
      simp [same, adjust] at left
    obtain ⟨inp, rfl⟩ := (post_move cfg s e).action_changes changed
    rcases (post_move cfg s (.tick inp)).of_tick.adjust_cases state action with
      due | detection | timeout | staying
    · obtain ⟨-, -, -, stays, -⟩ := due
      simp [stays] at left
    · obtain ⟨response, leaving, -⟩ := detection
      exact ⟨inp, response, rfl, leaving⟩
    · exact absurd timeout.1 (of_decide_eq_false detected)
    · simp [staying.2.2.1] at left
  · intro detection
    obtain ⟨inp, response, rfl, leaving⟩ := detection
    refine ⟨leaving.1, leaving.2.1, ?_, decide_eq_false leaving.not_timeout⟩
    rcases (post_move cfg s (.tick inp)).of_tick.adjust_cases leaving.1 leaving.2.1 with
      due | detection | timeout | staying
    · obtain ⟨other, detected, due, -⟩ := due
      cases detected.symm.trans leaving.2.2.1
      exact absurd due leaving.2.2.2.1
    · obtain ⟨-, -, left⟩ := detection
      exact left
    · exact absurd timeout.1 leaving.not_timeout
    · exact absurd leaving.2.2.2.2 (staying.1 response leaving.2.2.1).2

theorem adjustTick_due {inp : TickInput} {s : Fsm} {response : YoloResponse}
    (detected : inp.yolo = some response)
    (due : AdjustDue s (servoOffsets s.putServoId response)) :
    (adjustTick cfg inp s).haveAdjusted = true ∧
      (adjustTick cfg inp s).missionPose.position.z = cfg.adjustHeight := by
  unfold adjustTick
  rw [detected]
  dsimp only
  split_ifs with first
  · exact ⟨rfl, rfl⟩
  all_goals exact absurd due first

theorem adjusts_of_due {inp : TickInput} {s : Fsm} {response : YoloResponse}
    (state : s.fsmState = .execMission) (action : s.missionAction = .adjust)
    (detected : inp.yolo = some response)
    (due : AdjustDue s (servoOffsets s.putServoId response)) :
    Adjusts cfg ⟨s, .tick inp⟩ := by
  have opened : (openTick inp s).fsmState = .execMission := state
  have adjusting : (openTick inp s).missionAction = .adjust := action
  have effect : ((controller cfg).post ⟨s, .tick inp⟩) = adjustTick cfg inp (openTick inp s) := by
    change (fsmStateLoopCallback cfg inp s).1 = _
    simp [fsmStateLoopCallback, execMissionTick, opened, adjusting]
  have commanded : (adjustTick cfg inp (openTick inp s)).haveAdjusted = true ∧
      (adjustTick cfg inp (openTick inp s)).missionPose.position.z = cfg.adjustHeight :=
    adjustTick_due detected due
  refine ⟨state, action, ⟨response, detected, due⟩, ?_, ?_⟩
  · rw [effect]
    exact commanded.1
  · rw [effect]
    exact commanded.2

theorem Move.adjusted_step (move : Move cfg s e c published requested)
    (inv : Coherent cfg s.toControl) (state : c.fsmState = .execMission)
    (action : c.missionAction = .adjust) (adjusted : c.haveAdjusted = true) :
    s.fsmState = .execMission ∧
      ((s.missionAction = .adjust ∧ s.haveAdjusted = true ∧ c.holdTime = s.holdTime) ∨
        (Adjusts cfg ⟨s, e⟩ ∧ c.holdTime = clock ⟨s, e⟩ .holdMark)) := by
  cases move.mission_step state with
  | keep state same kept stamp =>
      exact ⟨state, .inl ⟨same.symm.trans action, kept.symm.trans adjusted, stamp⟩⟩
  | adjusted response state adjusting detected due _ stamp =>
      exact ⟨state, .inr ⟨adjusts_of_due state adjusting detected due, stamp⟩⟩
  | search _ fresh _ kept => exact absurd fresh (inv.adjusted (kept.symm.trans adjusted)).1
  | enter _ next | landAdjusted _ _ _ _ _ next | adjustDrop _ _ next | adjustLand _ _ next
  | adjustTimeout _ next | dropPut _ next | putRise _ _ next =>
      exact MissionAction.noConfusion (next.symm.trans action)

theorem Move.adjusted_kept (move : Move cfg s e c published requested)
    (state : c.fsmState = .execMission) (adjusted : s.haveAdjusted = true) :
    c.haveAdjusted = true := by
  cases move with
  | tick inp move =>
      cases move with
      | riseDone => exact FsmState.noConfusion state
      | adjusted | landAdjusted => rfl
      | _ => exact adjusted
  | _ => exact adjusted

theorem adjusted_since {history : History Fsm Event} {s : Fsm}
    (run : (controller cfg).Run history s) (state : s.fsmState = .execMission)
    (action : s.missionAction = .adjust) (adjusted : s.haveAdjusted = true) :
    ∃ u ∈ sinceEntry cfg history, Adjusts cfg u ∧ s.holdTime = clock u .holdMark := by
  induction run with
  | start initial =>
      obtain ⟨memory, now, rfl⟩ := initial
      exact FsmState.noConfusion state
  | @step past s e run ih =>
      obtain ⟨before, source⟩ :=
        (post_move cfg s e).adjusted_step (run_coherent run) state action adjusted
      have inside : startsMission cfg ⟨s, e⟩ = false := by
        apply decide_eq_false
        intro enters
        exact enters.1 before
      rw [sinceEntry, since_cons_unmarked _ inside]
      rcases source with ⟨adjusting, earlier, kept⟩ | now
      · obtain ⟨u, member, stamped⟩ := ih before adjusting earlier
        have same : ((controller cfg).step s e).1.holdTime = s.holdTime := kept
        rw [same]
        exact ⟨u, List.mem_cons_of_mem _ member, stamped⟩
      · exact ⟨⟨s, e⟩, List.mem_cons_self, now⟩

theorem since_adjusted {history : History Fsm Event} {s : Fsm}
    (run : (controller cfg).Run history s) (state : s.fsmState = .execMission)
    (set : ∃ u ∈ sinceEntry cfg history, ((controller cfg).post u).haveAdjusted = true) :
    s.haveAdjusted = true := by
  induction run with
  | start _ => simp [sinceEntry] at set
  | @step past s e run ih =>
      by_cases enters : EntersMission cfg ⟨s, e⟩
      · rw [sinceEntry, since_cons_marked _ (decide_eq_true enters)] at set
        simp at set
      · rw [sinceEntry, since_cons_unmarked _ (decide_eq_false enters)] at set
        obtain ⟨u, member, adjusted⟩ := set
        rcases List.mem_cons.mp member with newest | older
        · rw [newest] at adjusted
          exact adjusted
        · have before : s.fsmState = .execMission := by
            by_contra outside
            exact enters ⟨outside, state⟩
          have earlier := ih before ⟨u, older, adjusted⟩
          exact (post_move cfg s e).adjusted_kept state earlier

/-- The second test of a detection does not ask for `have_adjusted`. The wait in `ADJUST` is
kept exactly in the runs in which no detection gets there without it. -/
theorem leaves_adjusted_iff {history : History Fsm Event} {s : Fsm}
    (run : (controller cfg).Run history s) :
    Throughout (LeavesAdjusted cfg) history ↔
      Throughout (fun t past => ¬UnadjustedDetection t past) history := by
  apply Throughout.congr
  apply run.throughout
  intro past s e run
  constructor
  · intro leaves unadjusted
    cases e with
    | tick inp =>
        obtain ⟨response, detected, state, action, unset, frames⟩ := unadjusted
        have leaving : DetectionExit inp s response :=
          (detection_exit_unadjusted_iff unset).mpr ⟨state, action, detected, frames⟩
        obtain ⟨u, member, adjusts, -⟩ :=
          leaves (leaves_by_detection_iff.mpr ⟨inp, response, rfl, leaving⟩)
        have set := since_adjusted run state ⟨u, member, adjusts.2.2.2.1⟩
        exact Bool.noConfusion (set.symm.trans unset)
    | _ => simp [UnadjustedDetection, detection] at unadjusted
  · intro adjusted leaves
    obtain ⟨inp, response, rfl, leaving⟩ := leaves_by_detection_iff.mp leaves
    have set : s.haveAdjusted = true := by
      rw [← Bool.not_eq_false]
      intro unset
      obtain ⟨state, action, detected, frames⟩ :=
        (detection_exit_unadjusted_iff unset).mp leaving
      exact adjusted ⟨response, detected, state, action, unset, frames⟩
    obtain ⟨u, member, adjusts, stamp⟩ := adjusted_since run leaving.1 leaving.2.1 set
    refine ⟨u, member, adjusts, ?_⟩
    rw [← stamp]
    exact leaving.2.2.2.2.2

theorem leaves_adjusted_first :
    let run := script expTest2 (firstMission (some centred))
    Throughout (LeavesAdjusted expTest2) run.1 :=
  (leaves_adjusted_iff (script_run expTest2 _)).mpr (by decide +kernel)

def offCentre : List Event :=
  takeoff ++ [tickAt 0 none false, tickAt (sec 2) none false, tickAt (sec 2) none false] ++
    List.replicate 81 (tickAt (sec 7) (some ⟨3, 100, 100, 100⟩) false)

theorem off_centre_drops :
    let run := script expTest2 offCentre
    (controller expTest2).Run run.1 run.2 ∧
      ¬Throughout (LeavesAdjusted expTest2) run.1 ∧
      run.2.missionAction = .drop ∧ run.2.haveAdjusted = false :=
  ⟨script_run _ _, by decide +kernel, by decide +kernel, by decide +kernel⟩

section Phases

variable (cfg)

def entersPhase (action : MissionAction) (t : Transition Fsm Event) : Bool :=
  decide ((((controller cfg).post t).fsmState = .execMission ∧
      ((controller cfg).post t).missionAction = action) ∧
    ¬(t.pre.fsmState = .execMission ∧ t.pre.missionAction = action))

def Dwelt (action : MissionAction) (t : Transition Fsm Event) (past : History Fsm Event) :
    Prop :=
  ∃ u ∈ past.find? (entersPhase cfg action), sec 5 ≤ clock t .holdCheck - clock u .holdMark

def LeavesDrop (t : Transition Fsm Event) : Prop :=
  t.pre.fsmState = .execMission ∧ t.pre.missionAction = .drop ∧
    ((controller cfg).post t).missionAction = .put

def LeavesDropLand (t : Transition Fsm Event) : Prop :=
  t.pre.fsmState = .execMission ∧ t.pre.missionAction = .dropLand ∧
    ((controller cfg).post t).fsmState = .land

def DwellLaw (t : Transition Fsm Event) (past : History Fsm Event) : Prop :=
  (LeavesDrop cfg t → Dwelt cfg .drop t past) ∧
    (LeavesDropLand cfg t → Dwelt cfg .dropLand t past)

/-- The phase that the step leaves has stamped `hold_time_`: `DROP` was not entered by the
timeout, and `DROP_LAND` was entered without `have_adjusted` and is left with it. -/
def PhaseStamped (t : Transition Fsm Event) (past : History Fsm Event) : Prop :=
  (LeavesDrop cfg t →
    ∀ u ∈ past.find? (entersPhase cfg .drop), timeoutTick cfg u = false) ∧
  (LeavesDropLand cfg t → t.pre.haveAdjusted = true ∧
    ∀ u ∈ past.find? (entersPhase cfg .dropLand), u.pre.haveAdjusted = false)

end Phases

def isTick (t : Transition Fsm Event) : Bool :=
  match t.input with
  | .tick _ => true
  | _ => false

def ClockForward (t : Transition Fsm Event) (past : History Fsm Event) : Prop :=
  isTick t = true → ∀ u ∈ past, isTick u = true → clock u .holdMark ≤ clock t .holdMark

section Instances

variable (action : MissionAction) (t : Transition Fsm Event) (past : History Fsm Event)

instance : Decidable (Dwelt cfg action t past) :=
  inferInstanceAs (Decidable (∃ u ∈ past.find? _, _))

instance : Decidable (LeavesDrop cfg t) := inferInstanceAs (Decidable (_ ∧ _))

instance : Decidable (LeavesDropLand cfg t) := inferInstanceAs (Decidable (_ ∧ _))

instance : Decidable (DwellLaw cfg t past) := inferInstanceAs (Decidable (_ ∧ _))

instance : Decidable (PhaseStamped cfg t past) := inferInstanceAs (Decidable (_ ∧ _))

instance : Decidable (ClockForward t past) := inferInstanceAs (Decidable (_ → _))

end Instances

theorem Move.leaves_drop (move : Move cfg s e c published requested)
    (action : s.missionAction = .drop) (next : c.missionAction = .put) :
    ∃ inp, e = .tick inp ∧ DropExit cfg inp s := by
  cases move with
  | tick inp move =>
      cases move with
      | dropPut leaving => exact ⟨inp, rfl, leaving⟩
      | missionEntry | landEntry | yoloInit | adjustLand | adjustDrop | adjustTimeout | putSkip
      | putDone => exact MissionAction.noConfusion next
      | _ => exact MissionAction.noConfusion (action.symm.trans next)
  | _ => exact MissionAction.noConfusion (action.symm.trans next)

theorem Move.leaves_drop_land (move : Move cfg s e c published requested)
    (state : s.fsmState = .execMission) (next : c.fsmState = .land) :
    ∃ inp response, e = .tick inp ∧ LandExit cfg inp s response := by
  cases move with
  | tick inp move =>
      cases move with
      | landed response leaving => exact ⟨inp, response, rfl, leaving⟩
      | connect | tookOff | arrive | missionEntry | landEntry | riseDone =>
          exact FsmState.noConfusion next
      | _ => exact FsmState.noConfusion (state.symm.trans next)
  | command => exact FsmState.noConfusion next
  | _ => exact FsmState.noConfusion (state.symm.trans next)

theorem enters_from_adjust {action : MissionAction} {t : Transition Fsm Event}
    (state : ((controller cfg).post t).fsmState = .execMission)
    (next : ((controller cfg).post t).missionAction = action) (leaves : action ≠ .adjust)
    (before : t.pre.missionAction = .adjust) : entersPhase cfg action t = true := by
  apply decide_eq_true
  refine ⟨⟨state, next⟩, fun inside => leaves ?_⟩
  exact inside.2.symm.trans before

theorem find_entered {action : MissionAction} {t : Transition Fsm Event}
    (enters : entersPhase cfg action t = true) (past : History Fsm Event) :
    t ∈ (t :: past).find? (entersPhase cfg action) := by
  rw [List.find?_cons_of_pos enters]
  rfl

theorem find_inside {action : MissionAction} {t u : Transition Fsm Event}
    (state : t.pre.fsmState = .execMission) (inside : t.pre.missionAction = action)
    {past : History Fsm Event} (found : u ∈ past.find? (entersPhase cfg action)) :
    u ∈ (t :: past).find? (entersPhase cfg action) := by
  rw [List.find?_cons_of_neg (by simp [entersPhase, state, inside])]
  exact found

theorem drop_stamped {history : History Fsm Event} {s : Fsm}
    (run : (controller cfg).Run history s) (state : s.fsmState = .execMission)
    (action : s.missionAction = .drop) :
    ∃ u ∈ history.find? (entersPhase cfg .drop),
      timeoutTick cfg u = false → s.holdTime = clock u .holdMark := by
  induction run with
  | start initial =>
      obtain ⟨memory, now, rfl⟩ := initial
      exact FsmState.noConfusion state
  | @step past s e run ih =>
      have entered (before : s.missionAction = .adjust) :
          entersPhase cfg .drop ⟨s, e⟩ = true :=
        enters_from_adjust state action MissionAction.noConfusion before
      have moved : MissionStep cfg s e ((controller cfg).step s e).1.toControl :=
        (post_move cfg s e).mission_step state
      cases moved with
      | keep before same _ stamp =>
          have inside : s.missionAction = .drop := same.symm.trans action
          obtain ⟨u, found, stamped⟩ := ih before inside
          refine ⟨u, find_inside before inside found, ?_⟩
          rw [stamp]
          exact stamped
      | adjustDrop response leaving _ stamp =>
          exact ⟨⟨s, _⟩, find_entered (entered leaving.2.1) past, fun _ => stamp⟩
      | adjustTimeout leaving =>
          refine ⟨⟨s, _⟩, find_entered (entered leaving.2.1) past, fun detected => ?_⟩
          exact absurd leaving (of_decide_eq_false detected)
      | enter _ next | search _ _ next | adjusted _ _ _ _ _ next | landAdjusted _ _ _ _ _ next
      | adjustLand _ _ next | dropPut _ next | putRise _ _ next =>
          exact MissionAction.noConfusion (next.symm.trans action)

theorem enters_drop_land_tick {u : Transition Fsm Event}
    (enters : entersPhase cfg .dropLand u = true) : isTick u = true := by
  obtain ⟨s, e⟩ := u
  obtain ⟨⟨state, action⟩, outside⟩ := of_decide_eq_true enters
  cases (post_move cfg s e).mission_step state with
  | adjustLand | adjusted | landAdjusted | adjustDrop | adjustTimeout | dropPut => rfl
  | keep before same => exact absurd ⟨before, same.symm.trans action⟩ outside
  | enter _ next | search _ _ next | putRise _ _ next =>
      exact MissionAction.noConfusion (next.symm.trans action)

theorem drop_land_stamped {history : History Fsm Event} {s : Fsm}
    (run : (controller cfg).Run history s) (forward : Throughout ClockForward history)
    (state : s.fsmState = .execMission) (action : s.missionAction = .dropLand) :
    ∃ u ∈ history.find? (entersPhase cfg .dropLand), u.pre.haveAdjusted = false →
      s.haveAdjusted = true → clock u .holdMark ≤ s.holdTime := by
  induction run with
  | start initial =>
      obtain ⟨memory, now, rfl⟩ := initial
      exact FsmState.noConfusion state
  | @step past s e run ih =>
      have entered (before : s.missionAction = .adjust) :
          entersPhase cfg .dropLand ⟨s, e⟩ = true :=
        enters_from_adjust state action MissionAction.noConfusion before
      have moved : MissionStep cfg s e ((controller cfg).step s e).1.toControl :=
        (post_move cfg s e).mission_step state
      cases moved with
      | keep before same kept stamp =>
          have inside : s.missionAction = .dropLand := same.symm.trans action
          obtain ⟨u, found, stamped⟩ := ih forward.2 before inside
          refine ⟨u, find_inside before inside found, ?_⟩
          rw [kept, stamp]
          exact stamped
      | landAdjusted response before inside _ _ _ stamp =>
          obtain ⟨u, found, -⟩ := ih forward.2 before inside
          refine ⟨u, find_inside before inside found, fun _ _ => ?_⟩
          rw [stamp]
          exact forward.1 rfl u (List.mem_of_find?_eq_some found)
            (enters_drop_land_tick (List.find?_some found))
      | adjustLand response leaving _ kept =>
          refine ⟨⟨s, _⟩, find_entered (entered leaving.2.1) past, fun unset set => ?_⟩
          rw [kept] at set
          exact Bool.noConfusion (set.symm.trans unset)
      | enter _ next | search _ _ next | adjusted _ _ _ _ _ next | adjustDrop _ _ next
      | adjustTimeout _ next | dropPut _ next | putRise _ _ next =>
          exact MissionAction.noConfusion (next.symm.trans action)

/-- The 5 s before `PUT` and before `LAND` are counted from the entry of the phase wherever
the phase itself has stamped `hold_time_`. -/
theorem dwell_law {history : History Fsm Event} {s : Fsm}
    (run : (controller cfg).Run history s) (forward : Throughout ClockForward history)
    (stamped : Throughout (PhaseStamped cfg) history) : Throughout (DwellLaw cfg) history := by
  have both : Throughout (fun t past => ClockForward t past ∧ PhaseStamped cfg t past) history :=
    (throughout_and history).mpr ⟨forward, stamped⟩
  refine run.throughout_where ?_ both
  intro past s e run before now
  have forward := ((throughout_and past).mp before).1
  constructor
  · intro leaves
    obtain ⟨inp, rfl, leaving⟩ := (post_move cfg s e).leaves_drop leaves.2.1 leaves.2.2
    obtain ⟨u, found, stamp⟩ := drop_stamped run leaving.1 leaving.2.1
    refine ⟨u, found, ?_⟩
    rw [← stamp (now.2.1 leaves u found)]
    exact leaving.2.2.2
  · intro leaves
    obtain ⟨inp, response, rfl, leaving⟩ :=
      (post_move cfg s e).leaves_drop_land leaves.1 leaves.2.2
    obtain ⟨u, found, stamp⟩ := drop_land_stamped run forward leaving.1 leaving.2.1
    obtain ⟨set, unset⟩ := now.2.2 leaves
    refine ⟨u, found, ?_⟩
    calc
      sec 5 ≤ inp.now .holdCheck - s.holdTime := leaving.2.2.2.2.2
      _ ≤ inp.now .holdCheck - clock u .holdMark :=
        sub_le_sub_left (stamp (unset u found) set) _

/-- The landing mission, adjusted in `DROP_LAND` only: the target is far off until then. -/
def lateLanding : List Event :=
  toLanding ++ List.replicate 81 (tickAt (sec 20) (some ⟨3, 200, 200, 100⟩) false) ++
    [tickAt (sec 20) (some ⟨3, 0, 0, 100⟩) false, tickAt (sec 26) (some ⟨3, 0, 0, 100⟩) false]

theorem dwell_law_first :
    let mission := script expTest2 (firstMission (some centred))
    let landing := script routeOnly lateLanding
    (∃ t ∈ mission.1, LeavesDrop expTest2 t) ∧ Throughout (DwellLaw expTest2) mission.1 ∧
      (∃ t ∈ landing.1, LeavesDropLand routeOnly t) ∧
        Throughout (DwellLaw routeOnly) landing.1 :=
  ⟨by decide +kernel, dwell_law (script_run expTest2 _) (by decide +kernel) (by decide +kernel),
    by decide +kernel, dwell_law (script_run routeOnly _) (by decide +kernel) (by decide +kernel)⟩

/-- The mission of the first waypoint without a single detection, low enough to put. -/
def blindDrop : List Event :=
  takeoff ++ [tickAt 0 none false, tickAt (sec 2) none false, tickAt (sec 2) none false] ++
    List.replicate 183 (tickAt (sec 10) none false) ++
    [.odom ⟨0, 0, 0.3⟩, tickAt (sec 10) none false]

/-- `DROP_LAND` after a complete adjustment, and `DROP` after the timeout, are left in the
second in which they were entered. -/
theorem phases_hurry :
    let landing := script routeOnly touchdown
    let mission := script expTest2 blindDrop
    (controller routeOnly).Run landing.1 landing.2 ∧
      ¬Throughout (DwellLaw routeOnly) landing.1 ∧
      (controller expTest2).Run mission.1 mission.2 ∧
      ¬Throughout (DwellLaw expTest2) mission.1 :=
  ⟨script_run _ _, by decide +kernel, script_run _ _, by decide +kernel⟩

end RobocupDrone.Controller
