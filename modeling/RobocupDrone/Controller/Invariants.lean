import RobocupDrone.Controller.Moves

/-! The invariant of the control members, for any order of callbacks. -/

namespace RobocupDrone.Controller

open Geometry Reactive

variable {cfg : Config} {s : Fsm} {e : Event} {inp : TickInput} {c : Control}
  {published : List (Vec3 ℚ)} {requested : List (Int × Bool)}

/-- The landing flag implies the end of the route, and a mission without it belongs to one
of the waypoints 1 to 4 with a payload left. -/
structure Coherent (cfg : Config) (c : Control) : Prop where
  landing : c.doLand = true → 4 < c.targetId ∧ (c.targetId : Int) = cfg.targetPointNum
  dropLand : c.missionAction = .dropLand → c.doLand = true
  landed : c.fsmState = .land → c.missionAction = .dropLand
  mission : c.fsmState = .execMission → c.doLand = false →
    c.targetId ≠ 0 ∧ c.targetId ≤ 4 ∧ c.haveJustPut = false
  payload : c.fsmState = .execMission → c.doLand = false → c.missionAction ≠ .rise →
    1 ≤ c.putServoId
  grounded : c.fsmState = .init ∨ c.fsmState = .takingOff → c.targetId = 0
  fresh : c.targetId = 0 → c.haveJustPut = false
  adjusted : c.haveAdjusted = true → c.missionAction ≠ .yoloInit ∧
    (c.fsmState = .execMission ∨ c.fsmState = .land)

theorem Coherent.init (cfg : Config) (memory : Uninitialized) (now : Time) :
    Coherent cfg (Fsm.init memory now).toControl := by
  constructor <;> simp [Fsm.init]

theorem Coherent.enter {c : Control} (inv : Coherent cfg c) (newState : FsmState)
    (outside : c.fsmState ≠ .execMission ∧ c.fsmState ≠ .land)
    (flying : newState = .hold ∨ newState = .tracking ∨
      (newState = .takingOff ∧ c.fsmState = .init)) :
    Coherent cfg { c with fsmState := newState } := by
  have notAdjusted : c.haveAdjusted = false := by
    rw [← Bool.not_eq_true]
    intro raised
    rcases (inv.adjusted raised).2 with mission | landed
    · exact outside.1 mission
    · exact outside.2 landed
  obtain ⟨landing, dropLand, -, -, -, grounded, fresh, -⟩ := inv
  rcases flying with rfl | rfl | ⟨rfl, ground⟩
  · exact ⟨landing, dropLand, by simp, by simp, by simp, by simp, fresh, by simp [notAdjusted]⟩
  · exact ⟨landing, dropLand, by simp, by simp, by simp, by simp, fresh, by simp [notAdjusted]⟩
  · exact ⟨landing, dropLand, by simp, by simp, by simp, fun _ => grounded (.inl ground), fresh,
      by simp [notAdjusted]⟩

theorem Coherent.act {c : Control} (inv : Coherent cfg c) (state : c.fsmState = .execMission)
    {c' : Control} (same : c'.fsmState = c.fsmState ∧ c'.doLand = c.doLand ∧
      c'.targetId = c.targetId ∧ c'.haveJustPut = c.haveJustPut)
    (action : c'.missionAction ≠ .yoloInit)
    (landing : c'.missionAction = .dropLand → c.doLand = true)
    (payload : c.doLand = false → c'.missionAction ≠ .rise → 1 ≤ c'.putServoId) :
    Coherent cfg c' := by
  obtain ⟨sameState, sameLand, sameTarget, samePut⟩ := same
  constructor
  · simpa [sameLand, sameTarget] using inv.landing
  · simpa [sameLand] using landing
  · simp [sameState, state]
  · simpa [sameState, sameLand, sameTarget, samePut] using inv.mission
  · intro _ flying
    exact payload (sameLand ▸ flying)
  · simp [sameState, state]
  · simpa [sameTarget, samePut] using inv.fresh
  · exact fun _ => ⟨action, .inl (sameState.trans state)⟩

theorem TickMove.coherent
    (move : TickMove cfg inp s c published requested) (inv : Coherent cfg s.toControl) :
    Coherent cfg c := by
  have kept := inv
  obtain ⟨landing, dropLand, landed, mission, payload, grounded, fresh, adjusted⟩ := kept
  cases move with
  | stay | follow | holdWait | riseStay | putWait | putFailed => exact inv
  | connect state => exact inv.enter _ (by simp [state]) (.inr (.inr ⟨rfl, state⟩))
  | tookOff state => exact inv.enter _ (by simp [state]) (.inl rfl)
  | arrive state => exact inv.enter _ (by simp [state]) (.inl rfl)
  | firstGoal state _ _ unpublished =>
      constructor <;> simp_all
  | nextGoal gate branch =>
      have state := gate.state
      have notLanding : s.doLand = false := by
        rw [← Bool.not_eq_true]
        intro flag
        have := landing flag
        omega
      constructor <;> simp_all
  | missionEntry gate branch wanted unput =>
      have state := gate.state
      have started := gate.started
      have left := wanted.2.2
      constructor <;> simp_all
  | landEntry gate branch last =>
      have state := gate.state
      constructor <;> simp_all
  | yoloInit state action =>
      exact inv.act state ⟨rfl, rfl, rfl, rfl⟩ (by simp) (by simp)
        (fun flag _ => payload state flag (by simp [action]))
  | adjusted response state action =>
      exact inv.act state ⟨rfl, rfl, rfl, rfl⟩ (by simp [action]) (by simp [action])
        (payload state)
  | adjustLand response leaving flag =>
      exact inv.act leaving.1 ⟨rfl, rfl, rfl, rfl⟩ (by simp) (fun _ => flag) (by simp [flag])
  | adjustDrop response leaving =>
      exact inv.act leaving.1 ⟨rfl, rfl, rfl, rfl⟩ (by simp) (by simp)
        (fun flag _ => payload leaving.1 flag (by simp [leaving.2.1]))
  | adjustTimeout leaving =>
      exact inv.act leaving.1 ⟨rfl, rfl, rfl, rfl⟩ (by simp) (by simp)
        (fun flag _ => payload leaving.1 flag (by simp [leaving.2.1]))
  | adjustClimb | adjustStay | dropStay | dropLandStay =>
      exact ⟨landing, dropLand, landed, mission, payload, grounded, fresh, adjusted⟩
  | dropPut leaving =>
      exact inv.act leaving.1 ⟨rfl, rfl, rfl, rfl⟩ (by simp) (by simp)
        (fun flag _ => payload leaving.1 flag (by simp [leaving.2.1]))
  | riseDone state action =>
      have published : s.targetId ≠ 0 := by
        cases flag : s.doLand with
        | false => exact (mission state flag).1
        | true => have := landing flag; omega
      constructor <;> simp_all
  | putSkip state action =>
      exact inv.act state ⟨rfl, rfl, rfl, rfl⟩ (by simp) (by simp) (by simp)
  | putDone state action =>
      exact inv.act state ⟨rfl, rfl, rfl, rfl⟩ (by simp) (by simp) (by simp)
  | landAdjusted response state action =>
      exact inv.act state ⟨rfl, rfl, rfl, rfl⟩ (by simp [action])
        (fun _ => dropLand action) (payload state)
  | landed response leaving =>
      have flag := dropLand leaving.2.1
      have action := leaving.2.1
      constructor <;> simp_all

theorem Move.coherent
    (move : Move cfg s e c published requested) (inv : Coherent cfg s.toControl) :
    Coherent cfg c := by
  have kept := inv
  obtain ⟨landing, dropLand, landed, mission, payload, grounded, fresh, adjusted⟩ := kept
  cases move with
  | odom | px4State | ignored | missionTimer => exact inv
  | egoState => exact ⟨landing, dropLand, landed, mission, payload, grounded, fresh, adjusted⟩
  | command cmd state => exact inv.enter _ (by simp [state]) (.inr (.inl rfl))
  | tick inp move =>
      exact move.coherent ⟨landing, dropLand, landed, mission, payload, grounded, fresh, adjusted⟩

theorem run_coherent {history : History Fsm Event} {s : Fsm}
    (run : (controller cfg).Run history s) : Coherent cfg s.toControl := by
  apply run.invariant (I := fun s => Coherent cfg s.toControl)
  · rintro _ ⟨memory, now, rfl⟩
    exact .init cfg memory now
  · intro s e inv
    exact (step_move cfg s e).coherent inv

theorem post_move (cfg : Config) (s : Fsm) (e : Event) :
    Move cfg s e ((controller cfg).post ⟨s, e⟩).toControl
      (goals ((controller cfg).outputs ⟨s, e⟩)) (servoMoves ((controller cfg).outputs ⟨s, e⟩)) :=
  step_move cfg s e

/-- A tick during which the clock reads `time`. -/
def tickAt (time : Time) (yolo : Option YoloResponse) (servoMove : Bool) : Event :=
  .tick ⟨fun _ => time, yolo, servoMove⟩

def launch (targetPointNum : Int) : ParamServer where
  useSim := none
  putHeight := none
  holdHeight := none
  detectHeight := none
  adjustHeight := none
  doMission := none
  doPut := none
  useYaw := none
  pnpLimit := none
  overtimeThre1 := none
  overtimeThre2 := none
  targetPointNum := some targetPointNum
  targetPointsX := fun _ => none
  targetPointsY := fun _ => none
  targetPointsZ := fun _ => none

def expTest2Launch : ParamServer :=
  { launch 5 with
    useSim := some false
    doMission := some true
    doPut := some true
    useYaw := some false
    detectHeight := some 1.4
    putHeight := some 0.3
    pnpLimit := some 0.15
    overtimeThre1 := some 1
    overtimeThre2 := some 1
    targetPointsX := fun i => [1.04, 3.37, 2.04, 2.53, 0.0, 8.3][i]?
    targetPointsY := fun i => [-3.02, -2.53, 0.5, 3.5, 0.0, -2.4][i]?
    targetPointsZ := fun i => [1.0, 1.0, 1.0, 0.5, 0.8, 0.7][i]? }

def zeroConfig : Config where
  useSim := false
  putHeight := 0
  holdHeight := 0
  detectHeight := 0
  adjustHeight := 0
  doMission := false
  doPut := false
  useYaw := false
  pnpLimit := 0
  overtimeThre1 := 0
  overtimeThre2 := 0
  targetPointNum := 0
  targetPoints := fun _ => ⟨0, 0, 0⟩
  ifDoPut := fun _ => false

def zeroMemory : Uninitialized := ⟨false, ⟨0, 0, 0⟩, ⟨0, 0, 0⟩, ⟨0, 0, 0⟩, 0⟩

/-- `exp_test2.launch` with the flags of `config.yaml`. -/
def expTest2 : Config := .load expTest2Launch (some [true, false, true, false]) zeroConfig

/-- The run that handles `events` in order, from zeroed memory at clock reading 0. -/
def script (cfg : Config) (events : List Event) : History Fsm Event × Fsm :=
  (controller cfg).exec [] (Fsm.init zeroMemory 0) events

theorem script_run (cfg : Config) (events : List Event) :
    (controller cfg).Run (script cfg events).1 (script cfg events).2 := by
  have initial : (controller cfg).Run [] (Fsm.init zeroMemory 0) :=
    .start ⟨zeroMemory, 0, rfl⟩
  exact initial.exec events

def takeoff : List Event :=
  [.px4State ⟨true, true, "OFFBOARD"⟩, .odom takeoffPos, tickAt 0 none false,
    tickAt 0 none false, .egoState true]

def centred : YoloResponse := ⟨3, 0, 10, 100⟩

/-- The first goal, then the mission of the first waypoint up to its return to `HOLD`. The
last frame of `DROP` is `lastFrame`. -/
def firstMission (lastFrame : Option YoloResponse) : List Event :=
  takeoff ++ [tickAt 0 none false, tickAt (sec 2) none false, tickAt (sec 2) none false,
    tickAt (sec 2) (some centred) false, tickAt (sec 7) (some centred) false,
    .odom ⟨0, 0, 0.3⟩, tickAt (sec 12) lastFrame false, tickAt (sec 15) none true,
    .odom ⟨0, 0, 1⟩, tickAt (sec 16) none false]

end RobocupDrone.Controller
