import Mathlib.Algebra.Order.Ring.Rat
import RobocupDrone.Controller.Invariants
import RobocupDrone.Planner.UniformBspline

/-! `traj_server.cpp`: the node that turns the newest trajectory into position commands. -/

namespace RobocupDrone.Planner.TrajServer

open Geometry Reactive
open Controller (Time sec)

variable {K : Type} [Field K] [LinearOrder K]

structure Bspline (K : Type) where
  order : Int
  trajId : Int
  startTime : Time
  knots : List K
  posPts : List (Vec3 K)

/-- `quadrotor_msgs::PositionCommand` without the gains, which are never set to anything but
zero. -/
structure PositionCommand (K : Type) where
  stamp : Time
  frameId : String
  trajectoryFlag : Nat
  trajectoryId : Int
  position : Vec3 K
  velocity : Vec3 K
  acceleration : Vec3 K
  yaw : K
  yawDot : K

structure ServerConfig (K : Type) where
  timeForward : K
  atan2 : K → K → K

/-- `traj_[0]`, `traj_[1]` and `traj_[2]` with the globals set along with them. -/
structure Trajectory (K : Type) where
  pos : UniformBspline K
  vel : UniformBspline K
  acc : UniformBspline K
  duration : K
  startTime : Time
  trajId : Int

/-- The globals; `received` is empty until `receive_traj_` is set, and `timeLast` is the static
of `cmdCallback`, unset before its first use. -/
structure Server (K : Type) where
  received : Option (Trajectory K)
  lastYaw : K
  lastYawDot : K
  timeLast : Option Time

structure TimerInput where
  now : Time
  start : Time

inductive Event (K : Type)
  | bspline (msg : Bspline K)
  | cmdTimer (inp : TimerInput)

def toSec (duration : Time) : K := duration / 1000000000

def trajectoryStatusReady : Nat := 1

def bsplineCallback (msg : Bspline K) (s : Server K) : Option (Server K) := do
  let uniform ← UniformBspline.setUniformBspline msg.posPts msg.order 0.1
  let pos := uniform.setKnot msg.knots
  let vel ← pos.getDerivative
  let acc ← vel.getDerivative
  let duration ← pos.getTimeSum
  some { s with received := some ⟨pos, vel, acc, duration, msg.startTime, msg.trajId⟩ }

def pi : K := 3.1415926

/-- The yaw and its rate before the filter; `dt` is `(time_now - time_last).toSec()`. -/
def limitYaw (lastYaw yawTemp dt : K) : K × K :=
  let maxYawChange := pi * dt
  let decreased :=
    if lastYaw - maxYawChange < -pi then lastYaw - maxYawChange + 2 * pi
    else lastYaw - maxYawChange
  let increased :=
    if lastYaw + maxYawChange > pi then lastYaw + maxYawChange - 2 * pi
    else lastYaw + maxYawChange
  let rate := (yawTemp - lastYaw) / dt
  if yawTemp - lastYaw > pi then
    if yawTemp - lastYaw - 2 * pi < -maxYawChange then (decreased, -pi)
    else (yawTemp, if yawTemp - lastYaw > pi then -pi else rate)
  else if yawTemp - lastYaw < -pi then
    if yawTemp - lastYaw + 2 * pi > maxYawChange then (increased, pi)
    else (yawTemp, if yawTemp - lastYaw < -pi then pi else rate)
  else if yawTemp - lastYaw < -maxYawChange then (decreased, -pi)
  else if yawTemp - lastYaw > maxYawChange then (increased, pi)
  else (yawTemp, if yawTemp - lastYaw > pi then -pi
    else if yawTemp - lastYaw < -pi then pi else rate)

/-- The new yaw and rate; the source returns them and stores them in `last_yaw_` and
`last_yaw_dot_`. -/
def calculateYaw (cfg : ServerConfig K) (traj : Trajectory K) (tCur : K) (pos : Vec3 K)
    (timeNow timeLast : Time) (s : Server K) : Option (K × K) := do
  let ahead ← if tCur + cfg.timeForward ≤ traj.duration then
      traj.pos.evaluateDeBoorT (tCur + cfg.timeForward)
    else traj.pos.evaluateDeBoorT traj.duration
  let dir := ahead - pos
  -- `dir.norm() > 0.1`, on squared lengths
  let yawTemp := if dir.normSq > 0.1 * 0.1 then cfg.atan2 dir.y dir.x else s.lastYaw
  let dt := toSec (timeNow - timeLast)
  let limited := limitYaw s.lastYaw yawTemp dt
  let yaw := if |limited.1 - s.lastYaw| ≤ pi * dt then 0.5 * s.lastYaw + 0.5 * limited.1
    else limited.1
  some (yaw, 0.5 * s.lastYawDot + 0.5 * limited.2)

def publish (traj : Trajectory K) (now : Time) (pos vel acc : Vec3 K) (yaw yawDot : K)
    (s : Server K) : Server K × List (PositionCommand K) :=
  ({ s with lastYaw := yaw, timeLast := some now },
    [⟨now, "world", trajectoryStatusReady, traj.trajId % 2 ^ 32, pos, vel, acc, yaw, yawDot⟩])

def elapsed (traj : Trajectory K) (now : Time) : K := toSec (now - traj.startTime)

def cmdCallback (cfg : ServerConfig K) (inp : TimerInput) (s : Server K) :
    Option (Server K × List (PositionCommand K)) :=
  match s.received with
  | none => some (s, [])
  | some traj => do
      let tCur := elapsed traj inp.now
      let timeLast := s.timeLast.getD inp.start
      if tCur < traj.duration ∧ tCur ≥ 0 then
        let pos ← traj.pos.evaluateDeBoorT tCur
        let vel ← traj.vel.evaluateDeBoorT tCur
        let acc ← traj.acc.evaluateDeBoorT tCur
        let yaw ← calculateYaw cfg traj tCur pos inp.now timeLast s
        let _posF ← traj.pos.evaluateDeBoorT (min traj.duration (tCur + 2))
        some (publish traj inp.now pos vel acc yaw.1 yaw.2 { s with lastYawDot := yaw.2 })
      else if tCur ≥ traj.duration then
        let _pos ← traj.pos.evaluateDeBoorT traj.duration
        some ({ s with timeLast := some timeLast }, [])
      -- the start time lies in the future: only a message on the console
      else some (publish traj inp.now 0 0 0 0 0 s)

def step (cfg : ServerConfig K) : Option (Server K) → Event K →
    Option (Server K) × List (PositionCommand K)
  | none, _ => (none, [])
  | some s, .bspline msg => (bsplineCallback msg s, [])
  | some s, .cmdTimer inp =>
      match cmdCallback cfg inp s with
      | some (s, commands) => (some s, commands)
      | none => (none, [])

def trajServer (cfg : ServerConfig K) :
    Machine (Option (Server K)) (Event K) (PositionCommand K) where
  start s := s = some ⟨none, 0, 0, none⟩
  step := step cfg

def OnCurve (traj : Trajectory K) (point : Vec3 K) : Prop :=
  ∃ s, 0 ≤ s ∧ s ≤ traj.duration ∧ traj.pos.evaluateDeBoorT s = some point

def CommandsOnCurve (cfg : ServerConfig K) (t : Transition (Option (Server K)) (Event K)) :
    Prop :=
  ∀ command ∈ (trajServer cfg).outputs t, ∃ s traj,
    t.pre = some s ∧ s.received = some traj ∧ OnCurve traj command.position

def FiresEarly (t : Transition (Option (Server K)) (Event K)) (traj : Trajectory K) : Prop :=
  ∃ s inp, t.pre = some s ∧ s.received = some traj ∧ t.input = .cmdTimer inp ∧
    elapsed traj inp.now < 0 ∧ elapsed traj inp.now < traj.duration

theorem cmdCallback_commands (cfg : ServerConfig K) (inp : TimerInput) {s : Server K}
    {traj : Trajectory K} (received : s.received = some traj)
    {s' : Server K} {commands : List (PositionCommand K)}
    (outcome : cmdCallback cfg inp s = some (s', commands)) :
    (0 ≤ elapsed traj inp.now ∧ elapsed traj inp.now < traj.duration ∧
        ∃ command, commands = [command] ∧
          traj.pos.evaluateDeBoorT (elapsed traj inp.now) = some command.position) ∨
      (traj.duration ≤ elapsed traj inp.now ∧ commands = []) ∨
      (elapsed traj inp.now < 0 ∧ elapsed traj inp.now < traj.duration ∧
        ∃ command, commands = [command] ∧ command.position = 0) := by
  simp only [cmdCallback, received] at outcome
  split_ifs at outcome with running finished
  · simp only [Option.bind_eq_bind, Option.bind_eq_some_iff, Option.some.injEq, publish,
      Prod.mk.injEq] at outcome
    obtain ⟨pos, evaluated, vel, -, acc, -, yaw, -, posF, -, -, published⟩ := outcome
    exact .inl ⟨running.2, running.1, _, published.symm, evaluated⟩
  · simp only [Option.bind_eq_bind, Option.bind_eq_some_iff, Option.some.injEq,
      Prod.mk.injEq] at outcome
    obtain ⟨pos, -, -, silent⟩ := outcome
    exact .inr (.inl ⟨finished, silent.symm⟩)
  · simp only [Option.some.injEq, publish, Prod.mk.injEq] at outcome
    have early := not_le.mp finished
    have future : elapsed traj inp.now < 0 := by
      rw [← not_le]
      exact fun started => running ⟨early, started⟩
    exact .inr (.inr ⟨future, early, _, outcome.2.symm, rfl⟩)

theorem command_source (cfg : ServerConfig K) {t : Transition (Option (Server K)) (Event K)}
    {command : PositionCommand K} (sent : command ∈ (trajServer cfg).outputs t) :
    ∃ s traj, t.pre = some s ∧ s.received = some traj ∧
      (OnCurve traj command.position ∨ FiresEarly t traj ∧ command.position = 0) := by
  obtain ⟨pre, e⟩ := t
  cases pre with
  | none => simp [Machine.outputs, trajServer, step] at sent
  | some s =>
      cases e with
      | bspline msg => simp [Machine.outputs, trajServer, step] at sent
      | cmdTimer inp =>
          cases outcome : cmdCallback cfg inp s with
          | none => simp [Machine.outputs, trajServer, step, outcome] at sent
          | some result =>
              have published : command ∈ result.2 := by
                simpa only [Machine.outputs, trajServer, step, outcome] using sent
              cases received : s.received with
              | none =>
                  rw [cmdCallback, received] at outcome
                  simp [← Option.some.inj outcome] at published
              | some traj =>
                  refine ⟨s, traj, rfl, received, ?_⟩
                  rcases cmdCallback_commands cfg inp received outcome with
                    ⟨started, running, only, commands, evaluated⟩ | ⟨-, silent⟩ |
                    ⟨future, early, only, commands, position⟩
                  · rw [commands, List.mem_singleton] at published
                    rw [published]
                    exact .inl ⟨_, started, running.le, evaluated⟩
                  · simp [silent] at published
                  · rw [commands, List.mem_singleton] at published
                    rw [published]
                    exact .inr ⟨⟨s, inp, rfl, received, rfl, future, early⟩, position⟩

theorem firesEarly_sends_origin (cfg : ServerConfig K)
    {t : Transition (Option (Server K)) (Event K)} {traj : Trajectory K}
    (fires : FiresEarly t traj) :
    ∃ command ∈ (trajServer cfg).outputs t, command.position = 0 := by
  obtain ⟨pre, e⟩ := t
  obtain ⟨s, inp, before, received, timer, future, early⟩ := fires
  cases before
  cases timer
  have running : ¬(elapsed traj inp.now < traj.duration ∧ elapsed traj inp.now ≥ 0) :=
    fun running => absurd running.2 (not_le.mpr future)
  have outcome : cmdCallback cfg inp s = some (publish traj inp.now 0 0 0 0 0 s) := by
    simp only [cmdCallback, received]
    rw [if_neg running, if_neg (not_le.mpr early)]
  have sends : (trajServer cfg).outputs ⟨some s, .cmdTimer inp⟩ =
      (publish traj inp.now 0 0 0 0 0 s).2 := by
    simp only [Machine.outputs, trajServer, step, outcome]
  rw [sends]
  exact ⟨_, List.mem_cons_self, rfl⟩

theorem commandsOnCurve_iff (cfg : ServerConfig K) (t : Transition (Option (Server K)) (Event K)) :
    CommandsOnCurve cfg t ↔ ∀ traj, FiresEarly t traj → OnCurve traj 0 := by
  constructor
  · intro onCurve traj fires
    obtain ⟨command, sent, position⟩ := firesEarly_sends_origin cfg fires
    obtain ⟨s, inp, before, received, -⟩ := fires
    obtain ⟨s', traj', same, received', found⟩ := onCurve command sent
    cases before.symm.trans same
    cases received.symm.trans received'
    rwa [position] at found
  · intro origin command sent
    obtain ⟨s, traj, before, received, found | ⟨fires, position⟩⟩ := command_source cfg sent
    · exact ⟨s, traj, before, received, found⟩
    · refine ⟨s, traj, before, received, ?_⟩
      rw [position]
      exact origin traj fires

/-- The positions of a run are on the trajectories exactly when the timer never fires before a
start time, unless the origin is on the trajectory. -/
theorem commands_on_curve_iff (cfg : ServerConfig K)
    {history : History (Option (Server K)) (Event K)} {s : Option (Server K)}
    (run : (trajServer cfg).Run history s) :
    Throughout (fun t _ => CommandsOnCurve cfg t) history ↔
      Throughout (fun t _ => ∀ traj, FiresEarly t traj → OnCurve traj 0) history := by
  apply Throughout.congr
  apply run.throughout
  intro past s e _
  exact commandsOnCurve_iff cfg ⟨s, e⟩

/-- `traj_server/time_forward` of the launch files; the yaw is left where it is. -/
def lookAhead : ServerConfig ℚ := ⟨1, fun _ _ => 0⟩

def segment (startTime : Time) : Bspline ℚ where
  order := 3
  trajId := 1
  startTime := startTime
  knots := [-0.3, -0.2, -0.1, 0, 0.1, 0.2, 0.3, 0.4, 0.5]
  posPts := [⟨2, 0, 1⟩, ⟨2.5, 0, 1⟩, ⟨3, 0, 1⟩, ⟨3.5, 0, 1⟩, ⟨4, 0, 1⟩]

def serve (events : List (Event ℚ)) :
    History (Option (Server ℚ)) (Event ℚ) × Option (Server ℚ) :=
  (trajServer lookAhead).exec [] (some ⟨none, 0, 0, none⟩) events

theorem serve_run (events : List (Event ℚ)) :
    (trajServer lookAhead).Run (serve events).1 (serve events).2 := by
  have initial : (trajServer lookAhead).Run [] (some ⟨none, 0, 0, none⟩) := .start rfl
  exact initial.exec events

theorem commands_on_curve_segment :
    let run := serve [.bspline (segment (sec 10)), .cmdTimer ⟨sec 10 + 50000000, sec 10⟩]
    Throughout (fun t _ => CommandsOnCurve lookAhead t) run.1 := by
  have started : ∀ traj ∈ (serve [.bspline (segment (sec 10))]).2.bind Server.received,
      ¬elapsed traj (sec 10 + 50000000) < 0 := by
    decide +kernel
  refine (commands_on_curve_iff lookAhead (serve_run _)).mpr ⟨?_, ?_, trivial⟩
  · rintro traj ⟨s, _, before, received, ⟨⟩, early, _⟩
    refine absurd early (started traj ?_)
    rw [show (serve [.bspline (segment (sec 10))]).2 = some s from before]
    exact received
  · rintro _ ⟨_, _, _, _, ⟨⟩, _⟩

/-- A segment that starts two seconds from now sends the vehicle to the origin. -/
theorem early_segment_leaves_curve :
    let before := serve [.bspline (segment (sec 10))]
    let t : Transition (Option (Server ℚ)) (Event ℚ) :=
      ⟨before.2, .cmdTimer ⟨sec 8, sec 8⟩⟩
    (trajServer lookAhead).Run (t :: before.1) ((trajServer lookAhead).post t) ∧
      ((trajServer lookAhead).outputs t).map PositionCommand.position = [0] ∧
      ¬Throughout (fun t _ => CommandsOnCurve lookAhead t) (t :: before.1) := by
  intro before t
  have run := (serve_run [.bspline (segment (sec 10))]).step (.cmdTimer ⟨sec 8, sec 8⟩)
  refine ⟨run, by decide +kernel, fun onCurve => ?_⟩
  have early : (before.2.bind Server.received).any (fun traj =>
      decide (traj.pos.controlPoints = (segment (sec 10)).posPts ∧
        elapsed traj (sec 8) < 0 ∧ elapsed traj (sec 8) < traj.duration)) = true := by
    decide +kernel
  obtain ⟨traj, current, facts⟩ := (Option.any_eq_true _ _).mp early
  obtain ⟨s, server, received⟩ := Option.bind_eq_some_iff.mp current
  obtain ⟨points, future, unfinished⟩ := of_decide_eq_true facts
  have fires : FiresEarly t traj :=
    ⟨s, ⟨sec 8, sec 8⟩, server, received, rfl, future, unfinished⟩
  obtain ⟨instant, -, -, evaluated⟩ := (commandsOnCurve_iff lookAhead t).mp onCurve.1 traj fires
  have level : ∀ c ∈ traj.pos.controlPoints, c.z = 1 := by
    rw [points]
    decide +kernel
  have height := UniformBspline.evaluateDeBoorT_level level evaluated
  simp at height

end RobocupDrone.Planner.TrajServer
