import RobocupDrone.Controller.Callbacks

/-! What a callback can do to the control members. `step_move` reads the code once; the
invariants are then proved by cases on a move. -/

namespace RobocupDrone.Controller

open Geometry Reactive

/-- The goals that `target_pub_` publishes. -/
def goals (effects : List Effect) : List (Vec3 ℚ) :=
  effects.filterMap fun
    | .targetPub goal => some goal.position
    | _ => none

/-- The `servo_move` requests, each with its outcome. -/
def servoMoves (effects : List Effect) : List (Int × Bool) :=
  effects.filterMap fun
    | .servoMove servoNum succeeded => some (servoNum, succeeded)
    | _ => none

section Guards

variable (cfg : Config) (inp : TickInput) (s : Fsm)

/-- `HOLD` has passed its 2 s gate and reaches a branch that acts on it. -/
structure PastGate : Prop where
  state : s.fsmState = .hold
  ego : s.egoInit = true
  someTarget : 1 ≤ cfg.targetPointNum
  started : s.targetId ≠ 0
  elapsed : sec 2 ≤ inp.now .gate - s.lastPubTime
  branch : s.targetId ≤ 4 ∨ (s.targetId : Int) ≤ cfg.targetPointNum

def MissionWanted : Prop :=
  cfg.doMission = true ∧ cfg.ifDoPut (s.targetId - 1) = true ∧ 1 ≤ s.putServoId

def AdjustDue (offsets : ℚ × ℚ) : Prop :=
  (offsetsBelow 0.2 offsets ∨ s.detectOvertime + 1 > 800) ∧ s.haveAdjusted = false

def LandAdjustDue (offsets : ℚ × ℚ) : Prop :=
  (offsetsBelow 0.2 offsets ∨ s.detectOvertime + 1 > cfg.overtimeThre2 * 100) ∧
    s.haveAdjusted = false

/-- The second test of a detection, the same in `ADJUST` and `DROP_LAND`. -/
def ExitDue (offsets : ℚ × ℚ) : Prop :=
  (offsetsBelow 0.1 offsets ∨ s.detectOvertime + 1 > 80) ∧
    sec 5 ≤ inp.now .holdCheck - s.holdTime

def overtimeAfter : Int := if inp.yolo.isSome then 0 else s.overtimeT + 1

def detectAfter : Int := if inp.yolo.isSome then s.detectOvertime + 1 else s.detectOvertime

/-- The detection part of `ADJUST` ends without a `break`. -/
def AdjustFallsThrough : Prop :=
  ∀ response, inp.yolo = some response →
    ¬AdjustDue s (servoOffsets s.putServoId response) ∧
    ¬ExitDue inp s (servoOffsets s.putServoId response)

/-- `ADJUST` is left by the detection timeout. -/
def TimeoutExit : Prop :=
  s.fsmState = .execMission ∧ s.missionAction = .adjust ∧ AdjustFallsThrough inp s ∧
    overtimeAfter inp s > cfg.overtimeThre1 * 60 ∧ 2 ≤ s.nn

/-- `ADJUST` is left by the detection branch, after `response`. -/
def DetectionExit (response : YoloResponse) : Prop :=
  s.fsmState = .execMission ∧ s.missionAction = .adjust ∧ inp.yolo = some response ∧
    ¬AdjustDue s (servoOffsets s.putServoId response) ∧
    ExitDue inp s (servoOffsets s.putServoId response)

/-- `DROP` is left for `PUT`. -/
def DropExit : Prop :=
  s.fsmState = .execMission ∧ s.missionAction = .drop ∧
    (|s.odomPos.z - cfg.putHeight| < 0.2 ∨ overtimeAfter inp s > cfg.overtimeThre2 * 100) ∧
    sec 5 ≤ inp.now .holdCheck - s.holdTime

/-- `DROP_LAND` is left for `LAND`, after `response`. -/
def LandExit (response : YoloResponse) : Prop :=
  s.fsmState = .execMission ∧ s.missionAction = .dropLand ∧ inp.yolo = some response ∧
    ¬LandAdjustDue cfg s (landOffsets response) ∧ ExitDue inp s (landOffsets response)

instance : Decidable (PastGate cfg inp s) :=
  decidable_of_iff (s.fsmState = .hold ∧ s.egoInit = true ∧ 1 ≤ cfg.targetPointNum ∧
      s.targetId ≠ 0 ∧ sec 2 ≤ inp.now .gate - s.lastPubTime ∧
      (s.targetId ≤ 4 ∨ (s.targetId : Int) ≤ cfg.targetPointNum))
    ⟨fun ⟨state, ego, target, started, elapsed, branch⟩ =>
      ⟨state, ego, target, started, elapsed, branch⟩,
    fun gate => ⟨gate.state, gate.ego, gate.someTarget, gate.started, gate.elapsed, gate.branch⟩⟩

instance : Decidable (MissionWanted cfg s) := inferInstanceAs (Decidable (_ ∧ _))

instance (offsets : ℚ × ℚ) : Decidable (AdjustDue s offsets) :=
  inferInstanceAs (Decidable (_ ∧ _))

instance (offsets : ℚ × ℚ) : Decidable (LandAdjustDue cfg s offsets) :=
  inferInstanceAs (Decidable (_ ∧ _))

instance (offsets : ℚ × ℚ) : Decidable (ExitDue inp s offsets) :=
  inferInstanceAs (Decidable (_ ∧ _))

instance : Decidable (AdjustFallsThrough inp s) :=
  decidable_of_iff (∀ response ∈ inp.yolo,
      ¬AdjustDue s (servoOffsets s.putServoId response) ∧
      ¬ExitDue inp s (servoOffsets s.putServoId response)) Iff.rfl

instance : Decidable (TimeoutExit cfg inp s) := inferInstanceAs (Decidable (_ ∧ _))

instance (response : YoloResponse) : Decidable (DetectionExit inp s response) :=
  inferInstanceAs (Decidable (_ ∧ _))

instance : Decidable (DropExit cfg inp s) := inferInstanceAs (Decidable (_ ∧ _))

instance (response : YoloResponse) : Decidable (LandExit cfg inp s response) :=
  inferInstanceAs (Decidable (_ ∧ _))

end Guards

section Ticks

variable (P : TickInput → Prop) [DecidablePred P]

def Event.tick? : Event → Option TickInput
  | .tick inp => some inp
  | _ => none

theorem Event.tick?_eq_some {e : Event} {inp : TickInput} :
    e.tick? = some inp ↔ e = .tick inp := by
  cases e <;> simp [tick?]

instance decidableExistsTick (e : Event) : Decidable (∃ inp, e = .tick inp ∧ P inp) :=
  decidable_of_iff (∃ inp ∈ e.tick?, P inp) (by simp [Event.tick?_eq_some])

instance decidableForallTick (e : Event) : Decidable (∀ inp, e = .tick inp → P inp) :=
  decidable_of_iff (∀ inp ∈ e.tick?, P inp) (by simp [Event.tick?_eq_some])

end Ticks

theorem past_gate_open_iff {cfg : Config} {inp : TickInput} {s : Fsm} :
    PastGate cfg inp (openTick inp s) ↔ PastGate cfg inp s := by
  constructor
  · intro gate
    exact ⟨gate.state, gate.ego, gate.someTarget, gate.started, gate.elapsed, gate.branch⟩
  · intro gate
    exact ⟨gate.state, gate.ego, gate.someTarget, gate.started, gate.elapsed, gate.branch⟩

/-- The control effect of one tick on the state after its prologue: the control members
afterwards, the goals published and the servo requests made. -/
inductive TickMove (cfg : Config) (inp : TickInput) (s : Fsm) :
    Control → List (Vec3 ℚ) → List (Int × Bool) → Prop
  | stay (parked : s.fsmState = .init ∨ s.fsmState = .takingOff ∨ s.fsmState = .land ∨
      s.fsmState = .across) : TickMove cfg inp s s.toControl [] []
  | connect (state : s.fsmState = .init) (connected : s.px4CurrentState.connected = true)
      (odom : s.haveOdom = true) :
      TickMove cfg inp s { s.toControl with fsmState := .takingOff } [] []
  | tookOff (state : s.fsmState = .takingOff)
      (near : (s.odomPos - takeoffPos).normSq < 0.3 * 0.3) :
      TickMove cfg inp s { s.toControl with fsmState := .hold } [] []
  | follow (state : s.fsmState = .tracking) (away : s.pauseTrack = false) :
      TickMove cfg inp s s.toControl [] []
  | arrive (state : s.fsmState = .tracking) (near : s.pauseTrack = true) :
      TickMove cfg inp s { s.toControl with fsmState := .hold } [] []
  | holdWait (state : s.fsmState = .hold) (closed : ¬PastGate cfg inp s)
      (started : s.egoInit = true → 1 ≤ cfg.targetPointNum → s.targetId ≠ 0) :
      TickMove cfg inp s s.toControl [] []
  | firstGoal (state : s.fsmState = .hold) (ego : s.egoInit = true)
      (some_target : 1 ≤ cfg.targetPointNum) (fresh : s.targetId = 0) :
      TickMove cfg inp s
        { s.toControl with
          curTarget := cfg.targetPoints s.targetId
          lastPubTime := inp.now .pubMark
          targetId := s.targetId + 1 }
        [cfg.targetPoints s.targetId] []
  | nextGoal (gate : PastGate cfg inp s)
      (branch : s.targetId ≤ 4 ∨ (s.targetId : Int) < cfg.targetPointNum)
      (settled : s.targetId ≤ 4 → ¬(MissionWanted cfg s ∧ s.haveJustPut = false)) :
      TickMove cfg inp s
        { s.toControl with
          curTarget := cfg.targetPoints s.targetId
          lastPubTime := inp.now .pubMark
          haveJustPut := false
          targetId := s.targetId + 1 }
        [cfg.targetPoints s.targetId] []
  | missionEntry (gate : PastGate cfg inp s) (branch : s.targetId ≤ 4)
      (wanted : MissionWanted cfg s) (fresh : s.haveJustPut = false) :
      TickMove cfg inp s
        { s.toControl with fsmState := .execMission, missionAction := .yoloInit } [] []
  | landEntry (gate : PastGate cfg inp s) (branch : 4 < s.targetId)
      (last : (s.targetId : Int) = cfg.targetPointNum) :
      TickMove cfg inp s
        { s.toControl with
          doLand := true
          fsmState := .execMission
          missionAction := .yoloInit } [] []
  | yoloInit (state : s.fsmState = .execMission) (action : s.missionAction = .yoloInit) :
      TickMove cfg inp s
        { s.toControl with missionLoopTimer := true, missionAction := .adjust } [] []
  | adjusted (response : YoloResponse) (state : s.fsmState = .execMission)
      (action : s.missionAction = .adjust) (detected : inp.yolo = some response)
      (due : AdjustDue s (servoOffsets s.putServoId response)) :
      TickMove cfg inp s
        { s.toControl with
          overtimeT := 0
          holdTime := inp.now .holdMark
          detectOvertime := 0
          haveAdjusted := true } [] []
  | adjustLand (response : YoloResponse) (leaving : DetectionExit inp s response)
      (landing : s.doLand = true) :
      TickMove cfg inp s
        { s.toControl with
          overtimeT := 0
          detectOvertime := s.detectOvertime + 1
          missionAction := .dropLand } [] []
  | adjustDrop (response : YoloResponse) (leaving : DetectionExit inp s response)
      (dropping : s.doLand = false) :
      TickMove cfg inp s
        { s.toControl with
          overtimeT := 0
          detectOvertime := 0
          missionAction := .drop
          holdTime := inp.now .holdMark } [] []
  | adjustTimeout (leaving : TimeoutExit cfg inp s) :
      TickMove cfg inp s
        { s.toControl with
          overtimeT := 0
          detectOvertime := detectAfter inp s
          missionAction := .drop
          nn := 0 } [] []
  | adjustClimb (state : s.fsmState = .execMission) (action : s.missionAction = .adjust)
      (through : AdjustFallsThrough inp s)
      (late : overtimeAfter inp s > cfg.overtimeThre1 * 60) (low : s.nn < 2) :
      TickMove cfg inp s
        { s.toControl with
          overtimeT := 0
          detectOvertime := detectAfter inp s
          nn := s.nn + 1 } [] []
  | adjustStay (state : s.fsmState = .execMission) (action : s.missionAction = .adjust)
      (through : AdjustFallsThrough inp s)
      (early : overtimeAfter inp s ≤ cfg.overtimeThre1 * 60) :
      TickMove cfg inp s
        { s.toControl with
          overtimeT := overtimeAfter inp s
          detectOvertime := detectAfter inp s } [] []
  | dropStay (state : s.fsmState = .execMission) (action : s.missionAction = .drop)
      (staying : ¬DropExit cfg inp s) :
      TickMove cfg inp s { s.toControl with overtimeT := overtimeAfter inp s } [] []
  | dropPut (leaving : DropExit cfg inp s) :
      TickMove cfg inp s
        { s.toControl with
          overtimeT := overtimeAfter inp s
          missionAction := .put
          holdTime := inp.now .holdMark } [] []
  | riseStay (state : s.fsmState = .execMission) (action : s.missionAction = .rise)
      (low : ¬|s.odomPos.z - cfg.holdHeight| < 0.1) :
      TickMove cfg inp s s.toControl [] []
  | riseDone (state : s.fsmState = .execMission) (action : s.missionAction = .rise)
      (risen : |s.odomPos.z - cfg.holdHeight| < 0.1) :
      TickMove cfg inp s
        { s.toControl with
          missionLoopTimer := false
          haveJustPut := true
          haveAdjusted := false
          fsmState := .hold } [] []
  | putSkip (state : s.fsmState = .execMission) (action : s.missionAction = .put)
      (off : cfg.doPut = false) :
      TickMove cfg inp s { s.toControl with missionAction := .rise } [] []
  | putWait (state : s.fsmState = .execMission) (action : s.missionAction = .put)
      (early : ¬sec 3 ≤ inp.now .holdCheck - s.holdTime) :
      TickMove cfg inp s s.toControl [] []
  | putFailed (state : s.fsmState = .execMission) (action : s.missionAction = .put)
      (late : sec 3 ≤ inp.now .holdCheck - s.holdTime) (failed : inp.servoMove = false) :
      TickMove cfg inp s s.toControl [] [(s.putServoId, false)]
  | putDone (state : s.fsmState = .execMission) (action : s.missionAction = .put)
      (late : sec 3 ≤ inp.now .holdCheck - s.holdTime) (succeeded : inp.servoMove = true) :
      TickMove cfg inp s
        { s.toControl with putServoId := s.putServoId - 1, missionAction := .rise }
        [] [(s.putServoId, true)]
  | landAdjusted (response : YoloResponse) (state : s.fsmState = .execMission)
      (action : s.missionAction = .dropLand) (detected : inp.yolo = some response)
      (due : LandAdjustDue cfg s (landOffsets response)) :
      TickMove cfg inp s
        { s.toControl with
          overtimeT := 0
          holdTime := inp.now .holdMark
          detectOvertime := 0
          haveAdjusted := true } [] []
  | landed (response : YoloResponse) (leaving : LandExit cfg inp s response) :
      TickMove cfg inp s
        { s.toControl with
          overtimeT := 0
          detectOvertime := s.detectOvertime + 1
          fsmState := .land } [] []
  | dropLandStay (state : s.fsmState = .execMission) (action : s.missionAction = .dropLand)
      (staying : ∀ response, inp.yolo = some response →
        ¬LandAdjustDue cfg s (landOffsets response) ∧ ¬ExitDue inp s (landOffsets response)) :
      TickMove cfg inp s
        { s.toControl with
          overtimeT := overtimeAfter inp s
          detectOvertime := detectAfter inp s } [] []

inductive Move (cfg : Config) (s : Fsm) :
    Event → Control → List (Vec3 ℚ) → List (Int × Bool) → Prop
  | odom (position : Vec3 ℚ) : Move cfg s (.odom position) s.toControl [] []
  | px4State (msg : Px4State) : Move cfg s (.px4State msg) s.toControl [] []
  | egoState (data : Bool) :
      Move cfg s (.egoState data) { s.toControl with egoInit := data } [] []
  | command (cmd : PositionCommand) (state : s.fsmState = .hold)
      (away : s.pauseTrack = false) :
      Move cfg s (.posCmd cmd) { s.toControl with fsmState := .tracking } [] []
  | ignored (cmd : PositionCommand) (busy : ¬(s.fsmState = .hold ∧ s.pauseTrack = false)) :
      Move cfg s (.posCmd cmd) s.toControl [] []
  | missionTimer : Move cfg s .missionTimer s.toControl [] []
  | tick (inp : TickInput) {after : Control} {published : List (Vec3 ℚ)}
      {requested : List (Int × Bool)}
      (move : TickMove cfg inp (openTick inp s) after published requested) :
      Move cfg s (.tick inp) after published requested

section Ticks

variable (cfg : Config) (inp : TickInput) (s : Fsm)

/-- The outcome of a tick function makes a tick move from `s`. -/
abbrev Moves (outcome : Fsm × List Effect) : Prop :=
  TickMove cfg inp s outcome.1.toControl (goals outcome.2) (servoMoves outcome.2)

theorem initTick_moves (state : s.fsmState = .init) : Moves cfg inp s (initTick s, []) := by
  unfold initTick
  split_ifs with disconnected odom
  · exact .stay (.inl state)
  · exact .stay (.inl state)
  · exact .connect state (by simpa using disconnected) (by simpa using odom)

theorem requestOffboard_frame (lastRequest : Time) :
    (requestOffboard inp lastRequest s).1.toControl = s.toControl ∧
      (requestOffboard inp lastRequest s).1.odomPos = s.odomPos ∧
      goals (requestOffboard inp lastRequest s).2 = [] ∧
      servoMoves (requestOffboard inp lastRequest s).2 = [] := by
  unfold requestOffboard
  split_ifs <;> exact ⟨rfl, rfl, rfl, rfl⟩

theorem takingOffTick_moves (lastRequest : Time) (state : s.fsmState = .takingOff) :
    Moves cfg inp s (takingOffTick cfg inp lastRequest s) := by
  -- the simulation requests come first and change nothing that matters here
  have requested : ∃ s' requests, (if cfg.useSim then requestOffboard inp lastRequest s
      else (s, [])) = (s', requests) ∧ s'.toControl = s.toControl ∧ s'.odomPos = s.odomPos ∧
      goals requests = [] ∧ servoMoves requests = [] := by
    split_ifs
    · exact ⟨_, _, rfl, requestOffboard_frame inp s lastRequest⟩
    · exact ⟨_, _, rfl, rfl, rfl, rfl, rfl⟩
  obtain ⟨s', requests, same, control, position, noGoal, noServo⟩ := requested
  have published : goals (requests ++ [.px4CtrlPub s'.takingOffPose]) = [] := by
    simpa [goals] using noGoal
  have moved : servoMoves (requests ++ [.px4CtrlPub s'.takingOffPose]) = [] := by
    simpa [servoMoves] using noServo
  simp only [Moves, takingOffTick, same, position]
  split_ifs with near
  · simp only [published, moved, changeFSMState, control]
    exact .tookOff state near
  · simp only [published, moved, control]
    exact .stay (.inr (.inl state))

theorem holdTick_moves (state : s.fsmState = .hold) :
    Moves cfg inp s (holdTick cfg inp s) := by
  unfold holdTick
  split_ifs with ego none fresh mission early wanted across early last early
  · exact .holdWait state (fun gate => by simp [gate.ego] at ego) (by simp [ego])
  · exact .holdWait state (fun gate => by have := gate.someTarget; omega) (by omega)
  · exact .firstGoal state (by simpa using ego) (by omega) fresh
  · exact .holdWait state (fun gate => early.not_ge gate.elapsed) (fun _ _ => fresh)
  · exact .missionEntry ⟨state, by simpa using ego, by omega, fresh, not_lt.mp early, .inl mission⟩
      mission ⟨wanted.1, wanted.2.2.2, wanted.2.2.1⟩ wanted.2.1
  · refine .nextGoal ⟨state, by simpa using ego, by omega, fresh, not_lt.mp early, .inl mission⟩
      (.inl mission) ?_
    rintro - ⟨⟨doMission, ifDoPut, servo⟩, justPut⟩
    exact wanted ⟨doMission, justPut, servo, ifDoPut⟩
  · exact .holdWait state (fun gate => early.not_ge gate.elapsed) (fun _ _ => fresh)
  · exact .nextGoal ⟨state, by simpa using ego, by omega, fresh, not_lt.mp early, .inr across.le⟩
      (.inr across) (fun branch => absurd branch mission)
  · exact .holdWait state (fun gate => early.not_ge gate.elapsed) (fun _ _ => fresh)
  · exact .landEntry ⟨state, by simpa using ego, by omega, fresh, not_lt.mp early, .inr last.le⟩
      (by omega) last
  · exact .holdWait state (fun gate => by have := gate.branch; omega) (fun _ _ => fresh)

theorem adjustTimeout_moves {after : Fsm} (state : s.fsmState = .execMission)
    (action : s.missionAction = .adjust) (through : AdjustFallsThrough inp s)
    (control : after.toControl = { s.toControl with
      overtimeT := overtimeAfter inp s, detectOvertime := detectAfter inp s }) :
    Moves cfg inp s (adjustTimeout cfg after, [.yolo]) := by
  have overtime : after.overtimeT = overtimeAfter inp s := by rw [control]
  have climbs : after.nn = s.nn := by rw [control]
  simp only [Moves, adjustTimeout, overtime, climbs]
  split_ifs with leave climb
  · simp only [changeMissionAction, control]
    exact .adjustTimeout ⟨state, action, through, leave⟩
  · simp only [control]
    exact .adjustClimb state action through climb (by omega)
  · simp only [control]
    exact .adjustStay state action through (by omega)

theorem adjustTick_moves (state : s.fsmState = .execMission)
    (action : s.missionAction = .adjust) :
    Moves cfg inp s (adjustTick cfg inp s, [.yolo]) := by
  unfold adjustTick
  cases detected : inp.yolo with
  | none =>
      apply adjustTimeout_moves cfg inp s state action
      · simp [AdjustFallsThrough, detected]
      · simp [overtimeAfter, detectAfter, detected]
  | some response =>
      dsimp only
      split_ifs with due exit landing
      · exact .adjusted response state action detected due
      · exact .adjustLand response ⟨state, action, detected, due, exit⟩ landing
      · exact .adjustDrop response ⟨state, action, detected, due, exit⟩
          (by simpa [updatepnpPos] using landing)
      · apply adjustTimeout_moves cfg inp s state action
        · intro other same
          cases detected.symm.trans same
          exact ⟨due, exit⟩
        · simp [overtimeAfter, detectAfter, detected, updatepnpPos]

theorem dropDetect_frame :
    (dropDetect cfg inp s).toControl = { s.toControl with overtimeT := overtimeAfter inp s } ∧
      (dropDetect cfg inp s).odomPos = s.odomPos := by
  unfold dropDetect
  cases detected : inp.yolo with
  | none => simp [overtimeAfter, detected]
  | some response => simp [overtimeAfter, detected, updatepnpPos]

theorem dropTick_moves (state : s.fsmState = .execMission)
    (action : s.missionAction = .drop) :
    Moves cfg inp s (dropTick cfg inp s, [.yolo]) := by
  obtain ⟨control, position⟩ := dropDetect_frame cfg inp s
  simp only [Moves, dropTick, setMissionHeight, control, position]
  split_ifs with leave
  · simp only [changeMissionAction]
    exact .dropPut ⟨state, action, leave⟩
  · exact .dropStay state action (fun exit => leave exit.2.2)

theorem riseTick_moves (state : s.fsmState = .execMission)
    (action : s.missionAction = .rise) : Moves cfg inp s (riseTick cfg inp s) := by
  simp only [Moves, riseTick]
  split_ifs with risen
  · exact .riseDone state action risen
  · exact .riseStay state action risen

theorem putTick_moves (state : s.fsmState = .execMission)
    (action : s.missionAction = .put) : Moves cfg inp s (putTick cfg inp s) := by
  simp only [Moves, putTick]
  split_ifs with on late succeeded
  · rw [succeeded]
    exact .putDone state action late succeeded
  · simp only [Bool.not_eq_true] at succeeded
    rw [succeeded]
    exact .putFailed state action late succeeded
  · exact .putWait state action late
  · exact .putSkip state action (by simpa using on)

theorem dropLandTick_moves (state : s.fsmState = .execMission)
    (action : s.missionAction = .dropLand) :
    Moves cfg inp s (dropLandTick cfg inp s, [.yolo]) := by
  have waiting (staying : ∀ response, inp.yolo = some response →
      ¬LandAdjustDue cfg s (landOffsets response) ∧ ¬ExitDue inp s (landOffsets response)) :
      TickMove cfg inp s { s.toControl with
        overtimeT := overtimeAfter inp s, detectOvertime := detectAfter inp s } [] [] :=
    .dropLandStay state action staying
  unfold dropLandTick
  cases detected : inp.yolo with
  | none =>
      simp only [overtimeAfter, detectAfter, detected, Option.isSome_none] at waiting
      exact waiting (by simp)
  | some response =>
      simp only [overtimeAfter, detectAfter, detected, Option.isSome_some, Option.some.injEq,
        forall_eq'] at waiting
      dsimp only
      split_ifs with due centred late
      · exact .landAdjusted response state action detected due
      · exact .landed response ⟨state, action, detected, due, centred, late⟩
      · exact waiting ⟨due, fun exit => late exit.2⟩
      · exact waiting ⟨due, fun exit => centred exit.1⟩

theorem execMissionTick_moves (state : s.fsmState = .execMission) :
    Moves cfg inp s (execMissionTick cfg inp s) := by
  unfold execMissionTick
  split <;> rename_i action
  · exact .yoloInit state action
  · exact adjustTick_moves cfg inp s state action
  · exact dropTick_moves cfg inp s state action
  · exact riseTick_moves cfg inp s state action
  · exact putTick_moves cfg inp s state action
  · exact dropLandTick_moves cfg inp s state action

theorem landTick_moves (lastRequest : Time) (state : s.fsmState = .land) :
    Moves cfg inp s (landTick inp lastRequest s) := by
  unfold landTick
  split_ifs <;> exact .stay (.inr (.inr (.inl state)))

theorem trackingTick_moves (state : s.fsmState = .tracking) :
    Moves cfg inp s (trackingTick cfg inp s) := by
  unfold trackingTick
  split_ifs with near
  · exact .arrive state near
  · exact .follow state (by simpa using near)

theorem fsmStateLoopCallback_moves :
    Moves cfg inp (openTick inp s) (fsmStateLoopCallback cfg inp s) := by
  unfold fsmStateLoopCallback
  dsimp only
  split <;> rename_i state
  · exact initTick_moves cfg inp _ state
  · exact takingOffTick_moves cfg inp _ _ state
  · exact holdTick_moves cfg inp _ state
  · exact execMissionTick_moves cfg inp _ state
  · exact landTick_moves cfg inp _ _ state
  · exact .stay (.inr (.inr (.inr state)))
  · exact trackingTick_moves cfg inp _ state

end Ticks

theorem step_move (cfg : Config) (s : Fsm) (e : Event) :
    Move cfg s e (step cfg s e).1.toControl (goals (step cfg s e).2)
      (servoMoves (step cfg s e).2) := by
  cases e with
  | odom position => exact .odom position
  | px4State msg => exact .px4State msg
  | posCmd cmd =>
      simp only [step, quadmsgCallback]
      split_ifs with free
      · exact .command cmd free.1 free.2
      · exact .ignored cmd free
  | egoState data =>
      have moved : (egoInitCallback data s).toControl = { s.toControl with egoInit := data } := by
        unfold egoInitCallback
        split_ifs with changed
        · rfl
        · rw [not_ne_iff] at changed
          rw [← changed]
      simp only [step, moved]
      exact .egoState data
  | tick inp => exact .tick inp (fsmStateLoopCallback_moves cfg inp s)
  | missionTimer =>
      simp only [step, missionTimerLoopCallback]
      split_ifs <;> exact .missionTimer

theorem Move.of_tick {cfg : Config} {s : Fsm} {inp : TickInput} {after : Control}
    {published : List (Vec3 ℚ)} {requested : List (Int × Bool)}
    (move : Move cfg s (.tick inp) after published requested) :
    TickMove cfg inp (openTick inp s) after published requested := by
  cases move
  assumption

/-- What a move that ends in `EXEC_MISSION` does to the mission. -/
inductive MissionStep (cfg : Config) (s : Fsm) : Event → Control → Prop
  | enter {e : Event} {c : Control} (state : s.fsmState = .hold)
      (next : c.missionAction = .yoloInit) : MissionStep cfg s e c
  | keep {e : Event} {c : Control} (state : s.fsmState = .execMission)
      (same : c.missionAction = s.missionAction) (adjusted : c.haveAdjusted = s.haveAdjusted)
      (stamp : c.holdTime = s.holdTime) : MissionStep cfg s e c
  | search {e : Event} {c : Control} (state : s.fsmState = .execMission)
      (action : s.missionAction = .yoloInit) (next : c.missionAction = .adjust)
      (adjusted : c.haveAdjusted = s.haveAdjusted) : MissionStep cfg s e c
  | adjusted {inp : TickInput} {c : Control} (response : YoloResponse)
      (state : s.fsmState = .execMission) (action : s.missionAction = .adjust)
      (detected : inp.yolo = some response)
      (due : AdjustDue s (servoOffsets s.putServoId response))
      (same : c.missionAction = .adjust) (stamp : c.holdTime = inp.now .holdMark) :
      MissionStep cfg s (.tick inp) c
  | landAdjusted {inp : TickInput} {c : Control} (response : YoloResponse)
      (state : s.fsmState = .execMission) (action : s.missionAction = .dropLand)
      (detected : inp.yolo = some response) (due : LandAdjustDue cfg s (landOffsets response))
      (same : c.missionAction = .dropLand) (stamp : c.holdTime = inp.now .holdMark) :
      MissionStep cfg s (.tick inp) c
  | adjustDrop {inp : TickInput} {c : Control} (response : YoloResponse)
      (leaving : DetectionExit inp s response) (next : c.missionAction = .drop)
      (stamp : c.holdTime = inp.now .holdMark) : MissionStep cfg s (.tick inp) c
  | adjustLand {inp : TickInput} {c : Control} (response : YoloResponse)
      (leaving : DetectionExit inp s response) (next : c.missionAction = .dropLand)
      (adjusted : c.haveAdjusted = s.haveAdjusted) : MissionStep cfg s (.tick inp) c
  | adjustTimeout {inp : TickInput} {c : Control} (leaving : TimeoutExit cfg inp s)
      (next : c.missionAction = .drop) : MissionStep cfg s (.tick inp) c
  | dropPut {inp : TickInput} {c : Control} (leaving : DropExit cfg inp s)
      (next : c.missionAction = .put) : MissionStep cfg s (.tick inp) c
  | putRise {e : Event} {c : Control} (state : s.fsmState = .execMission)
      (action : s.missionAction = .put) (next : c.missionAction = .rise) :
      MissionStep cfg s e c

theorem Move.mission_step {cfg : Config} {s : Fsm} {e : Event} {c : Control}
    {published : List (Vec3 ℚ)} {requested : List (Int × Bool)}
    (move : Move cfg s e c published requested) (state : c.fsmState = .execMission) :
    MissionStep cfg s e c := by
  cases move with
  | tick inp move =>
      cases move with
      | connect | tookOff | arrive | riseDone | landed => exact FsmState.noConfusion state
      | nextGoal gate => exact FsmState.noConfusion (gate.state.symm.trans state)
      | follow elsewhere | holdWait elsewhere | firstGoal elsewhere =>
          exact FsmState.noConfusion (elsewhere.symm.trans state)
      | missionEntry gate | landEntry gate => exact .enter gate.state rfl
      | yoloInit state action => exact .search state action rfl rfl
      | adjusted response state action detected due =>
          exact .adjusted response state action detected due action rfl
      | landAdjusted response state action detected due =>
          exact .landAdjusted response state action detected due action rfl
      | adjustDrop response leaving => exact .adjustDrop response leaving rfl rfl
      | adjustLand response leaving => exact .adjustLand response leaving rfl rfl
      | adjustTimeout leaving => exact .adjustTimeout leaving rfl
      | dropPut leaving => exact .dropPut leaving rfl
      | putSkip state action | putDone state action => exact .putRise state action rfl
      | _ => exact .keep state rfl rfl rfl
  | command => exact FsmState.noConfusion state
  | _ => exact .keep state rfl rfl rfl

theorem Move.action_changes {cfg : Config} {s : Fsm} {e : Event} {c : Control}
    {published : List (Vec3 ℚ)} {requested : List (Int × Bool)}
    (move : Move cfg s e c published requested) (changed : c.missionAction ≠ s.missionAction) :
    ∃ inp, e = .tick inp := by
  cases move with
  | tick inp => exact ⟨inp, rfl⟩
  | _ => exact absurd rfl changed

section Adjust

variable {cfg : Config} {inp : TickInput} {s : Fsm}

theorem DetectionExit.not_timeout {response : YoloResponse}
    (leaving : DetectionExit inp s response) : ¬TimeoutExit cfg inp s := by
  intro timeout
  obtain ⟨-, -, detected, -, due⟩ := leaving
  exact (timeout.2.2.1 response detected).2 due

theorem TickMove.adjust_cases {c : Control} {published : List (Vec3 ℚ)}
    {requested : List (Int × Bool)} (move : TickMove cfg inp s c published requested)
    (state : s.fsmState = .execMission) (action : s.missionAction = .adjust) :
    (∃ response, inp.yolo = some response ∧
        AdjustDue s (servoOffsets s.putServoId response) ∧ c.missionAction = .adjust ∧
        c.holdTime = inp.now .holdMark) ∨
      (∃ response, DetectionExit inp s response ∧
        (c.missionAction = .drop ∨ c.missionAction = .dropLand)) ∨
      (TimeoutExit cfg inp s ∧ c.missionAction = .drop ∧ c.doLand = s.doLand) ∨
      (AdjustFallsThrough inp s ∧ ¬TimeoutExit cfg inp s ∧ c.missionAction = .adjust ∧
        c.haveAdjusted = s.haveAdjusted ∧ c.holdTime = s.holdTime) := by
  cases move with
  | adjusted response _ _ detected due => exact .inl ⟨response, detected, due, action, rfl⟩
  | adjustLand response leaving => exact .inr (.inl ⟨response, leaving, .inr rfl⟩)
  | adjustDrop response leaving => exact .inr (.inl ⟨response, leaving, .inl rfl⟩)
  | adjustTimeout leaving => exact .inr (.inr (.inl ⟨leaving, rfl, rfl⟩))
  | adjustClimb _ _ through _ low =>
      refine .inr (.inr (.inr ⟨through, fun leaving => ?_, action, rfl, rfl⟩))
      exact absurd leaving.2.2.2.2 (not_le.mpr low)
  | adjustStay _ _ through early =>
      refine .inr (.inr (.inr ⟨through, fun leaving => ?_, action, rfl, rfl⟩))
      exact absurd leaving.2.2.2.1 (not_lt.mpr early)
  | stay parked => simp [state] at parked
  | nextGoal gate | missionEntry gate | landEntry gate => simp [gate.state] at state
  | dropPut leaving => simp [leaving.2.1] at action
  | landed _ leaving => simp [leaving.2.1] at action
  | _ => simp_all

theorem TickMove.stays_adjusting {c : Control} {published : List (Vec3 ℚ)}
    {requested : List (Int × Bool)} (move : TickMove cfg inp s c published requested)
    (state : s.fsmState = .execMission) (action : s.missionAction = .adjust)
    (stays : c.missionAction = .adjust) :
    ¬TimeoutExit cfg inp s ∧ ∀ response, ¬DetectionExit inp s response := by
  rcases move.adjust_cases state action with due | detection | timeout | staying
  · obtain ⟨response, detected, due, -, -⟩ := due
    constructor
    · intro leaving
      exact absurd due (leaving.2.2.1 response detected).1
    · intro other leaving
      obtain ⟨-, -, same, undue, -⟩ := leaving
      cases detected.symm.trans same
      exact undue due
  · obtain ⟨response, -, left⟩ := detection
    simp [stays] at left
  · simp [stays] at timeout
  · constructor
    · exact staying.2.1
    · intro response leaving
      exact absurd leaving.2.2.2.2 (staying.1 response leaving.2.2.1).2

end Adjust

end RobocupDrone.Controller
