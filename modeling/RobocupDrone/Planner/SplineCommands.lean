import RobocupDrone.Planner.SplineCurve
import RobocupDrone.Planner.TrajServer

/-! The velocities and accelerations that `traj_server` sends are the derivatives of its position
trajectory. -/

namespace RobocupDrone.Planner.TrajServer

open Geometry Reactive UniformBspline
open Controller (Time sec)

/-- A message with a full vector of increasing knots. -/
structure WellKnotted (degree : ℕ) (msg : Bspline ℝ) : Prop where
  order : msg.order = degree
  knots : msg.posPts.length + degree < msg.knots.length
  increasing : msg.knots.Pairwise (· < ·)

def Derived (traj : Trajectory ℝ) : Prop :=
  ∃ q, Regular (q + 2) traj.pos ∧ traj.pos.controlPoints ≠ [] ∧
    traj.vel = traj.pos.derivative (q + 1) ∧ traj.vel.controlPoints ≠ [] ∧
    traj.acc = traj.vel.derivative q ∧ traj.pos.getTimeSum = some traj.duration

theorem bsplineCallback_derived {q : ℕ} {msg : Bspline ℝ} (sound : WellKnotted (q + 2) msg)
    {s after : Server ℝ} (accepted : bsplineCallback msg s = some after) :
    ∃ traj, after.received = some traj ∧ Derived traj := by
  simp only [bsplineCallback, Option.bind_eq_bind, Option.bind_eq_some_iff] at accepted
  rcases accepted with ⟨uniform, made, vel, first, acc, second, duration, time, stored⟩
  have order : msg.order = ((q + 2 : ℕ) : ℤ) := sound.order
  have built := setKnot_setUniformBspline (show 0 ≤ msg.order by omega) msg.posPts 0.1 msg.knots
  rw [made, Option.map_some, Option.some.injEq] at built
  have regular : Regular (q + 2) (uniform.setKnot msg.knots) := by
    rw [built]
    refine ⟨order, ?_, sound.knots, sound.increasing⟩
    dsimp only
    omega
  have nonempty := nonempty_of_getDerivative first
  have velocity := regular.getDerivative_eq nonempty
  rw [first, Option.some.injEq] at velocity
  have slower : Regular (q + 1) vel := velocity ▸ regular.derivative nonempty
  have remaining := nonempty_of_getDerivative second
  have acceleration := slower.getDerivative_eq remaining
  rw [second, Option.some.injEq] at acceleration
  rw [← Option.some.inj stored]
  exact ⟨_, rfl, q, regular, nonempty, velocity, remaining, acceleration, time⟩

theorem cmdCallback_running {cfg : ServerConfig ℝ} {inp : TimerInput} {s after : Server ℝ}
    {traj : Trajectory ℝ} (received : s.received = some traj) (started : 0 ≤ elapsed traj inp.now)
    (running : elapsed traj inp.now < traj.duration) {commands : List (PositionCommand ℝ)}
    (outcome : cmdCallback cfg inp s = some (after, commands)) {command : PositionCommand ℝ}
    (sent : command ∈ commands) :
    traj.vel.evaluateDeBoorT (elapsed traj inp.now) = some command.velocity ∧
      traj.acc.evaluateDeBoorT (elapsed traj inp.now) = some command.acceleration := by
  simp only [cmdCallback, received] at outcome
  rw [if_pos ⟨running, started⟩] at outcome
  simp only [Option.bind_eq_bind, Option.bind_eq_some_iff, Option.some.injEq, publish,
    Prod.mk.injEq] at outcome
  rcases outcome with ⟨pos, _, vel, velocity, acc, acceleration, yaw, _, posF, _, _, published⟩
  rw [← published, List.mem_singleton] at sent
  rw [sent]
  exact ⟨velocity, acceleration⟩

theorem cmdCallback_received {cfg : ServerConfig ℝ} {inp : TimerInput} {s : Server ℝ}
    {result : Server ℝ × List (PositionCommand ℝ)} (outcome : cmdCallback cfg inp s = some result) :
    result.1.received = s.received := by
  rw [cmdCallback] at outcome
  split at outcome
  · rw [← Option.some.inj outcome]
  · dsimp only at outcome
    split_ifs at outcome with running finished
    · simp only [Option.bind_eq_bind, Option.bind_eq_some_iff, Option.some.injEq] at outcome
      rcases outcome with ⟨pos, _, vel, _, acc, _, yaw, _, posF, _, published⟩
      rw [← published]
      rfl
    · simp only [Option.bind_eq_bind, Option.bind_eq_some_iff, Option.some.injEq] at outcome
      rcases outcome with ⟨pos, _, silent⟩
      rw [← silent]
    · rw [← Option.some.inj outcome]
      rfl

def Elapses (traj : Trajectory ℝ) (now : Time) (u : ℝ) : Prop :=
  ∃ start, entry traj.pos.u traj.pos.p = some start ∧ u = elapsed traj now + start

/-- A command sent strictly inside a knot span has the derivative of the position trajectory for its
velocity, and that of the velocity trajectory for its acceleration. -/
def CommandsMove (cfg : ServerConfig ℝ) (t : Transition (Option (Server ℝ)) (Event ℝ)) : Prop :=
  ∀ s traj inp u command, t.pre = some s → s.received = some traj → t.input = .cmdTimer inp →
    Elapses traj inp.now u → traj.pos.InsideSpan u → command ∈ (trajServer cfg).outputs t →
      traj.pos.MovesWith command.velocity u ∧ traj.vel.MovesWith command.acceleration u

theorem entry_derivative {q : ℕ} {b : UniformBspline ℝ} (regular : Regular (q + 1) b)
    (nonempty : b.controlPoints ≠ []) :
    entry (b.derivative q).u (b.derivative q).p = entry b.u b.p := by
  have length := List.length_pos_iff.mpr nonempty
  have knots := regular.knots
  have slower := regular.derivative nonempty
  rw [slower.p, regular.p, entry_natCast, entry_natCast, UniformBspline.derivative,
    List.getElem?_dropLast, List.getElem?_drop, List.length_drop, if_pos (by omega),
    Nat.add_comm 1 q]

theorem Derived.insideSpan {traj : Trajectory ℝ} (derived : Derived traj) {u : ℝ}
    (inside : traj.pos.InsideSpan u) : traj.vel.InsideSpan u := by
  rcases derived with ⟨q, regular, nonempty, velocity, remaining, _⟩
  rcases inside with ⟨k, low, high, first, last, at_low, at_high, after, before⟩
  have length := List.length_pos_iff.mpr nonempty
  have knots := regular.knots
  have slower := regular.derivative nonempty
  have columns : (traj.pos.derivative (q + 1)).controlPoints.length =
      traj.pos.controlPoints.length - 1 := by
    simp [UniformBspline.derivative]
  rw [regular.p] at first last
  rw [regular.m] at last
  have shifted : ∀ i, i + 1 < traj.pos.u.length - 1 →
      (traj.pos.derivative (q + 1)).u[i]? = traj.pos.u[i + 1]? := by
    intro i bound
    rw [UniformBspline.derivative, List.getElem?_dropLast, List.getElem?_drop, List.length_drop,
      if_pos (by omega), Nat.add_comm 1 i]
  rw [velocity]
  refine ⟨k - 1, low, high, ?_, ?_, ?_, ?_, after, before⟩
  · rw [slower.p]
    omega
  · rw [slower.m, slower.p, columns]
    omega
  · rw [shifted _ (by omega), Nat.sub_add_cancel (by omega)]
    exact at_low
  · rw [shifted _ (by omega), Nat.sub_add_cancel (by omega)]
    exact at_high

theorem Derived.running {traj : Trajectory ℝ} (derived : Derived traj) {now : Time} {u : ℝ}
    (time : Elapses traj now u) (inside : traj.pos.InsideSpan u) :
    0 ≤ elapsed traj now ∧ elapsed traj now < traj.duration := by
  rcases derived with ⟨q, regular, _, _, _, _, duration⟩
  rcases time with ⟨start, first, rfl⟩
  rcases regular.exists_of_insideSpan inside with ⟨k, low, high, after, before⟩
  have knots := regular.knots
  rw [regular.entry_first, Option.some.injEq] at first
  have early := regular.knot_le low (by omega)
  have late := regular.knot_le (show k + 1 ≤ traj.pos.controlPoints.length by omega) (by omega)
  rw [first] at early
  have sum : traj.pos.getTimeSum =
      some (traj.pos.u.getD traj.pos.controlPoints.length 0 - start) := by
    have enough : ¬(traj.pos.p > traj.pos.u.length ∨
        traj.pos.m - traj.pos.p > traj.pos.u.length) := by
      rw [regular.m, regular.p]
      omega
    rw [getTimeSum, getTimeSpan, if_neg enough, regular.entry_first, regular.entry_last, first]
    rfl
  rw [sum, Option.some.injEq] at duration
  constructor
  · linarith
  · linarith

theorem Derived.commandsMove {cfg : ServerConfig ℝ} {s : Server ℝ} {e : Event ℝ}
    (derived : ∀ traj, s.received = some traj → Derived traj) :
    CommandsMove cfg ⟨some s, e⟩ := by
  intro s' traj inp u command same received timer time inside sent
  cases same
  cases timer
  have known := derived traj received
  have running := known.running time inside
  have later := known.insideSpan inside
  cases outcome : cmdCallback cfg inp s with
  | none => simp [Machine.outputs, trajServer, step, outcome] at sent
  | some result =>
      have published : command ∈ result.2 := by
        simpa only [Machine.outputs, trajServer, step, outcome] using sent
      have values := cmdCallback_running received running.1 running.2 outcome published
      rcases known with ⟨q, regular, nonempty, velocity, remaining, acceleration, _⟩
      rcases time with ⟨start, first, rfl⟩
      have vel_first : entry traj.vel.u traj.vel.p = some start := by
        rw [velocity, entry_derivative regular nonempty]
        exact first
      have slower : Regular (q + 1) traj.vel := velocity ▸ regular.derivative nonempty
      have acc_first : entry traj.acc.u traj.acc.p = some start := by
        rw [acceleration, entry_derivative slower remaining]
        exact vel_first
      rw [evaluateDeBoorT, vel_first, evaluateDeBoorT, acc_first] at values
      rcases regular.movesWith_derivative inside with ⟨v, evaluated, moves⟩
      rcases slower.movesWith_derivative later with ⟨a, evaluated', moves'⟩
      rw [← velocity] at evaluated
      rw [← acceleration] at evaluated'
      have v_eq := Option.some.inj (evaluated.symm.trans values.1)
      have a_eq := Option.some.inj (evaluated'.symm.trans values.2)
      rw [← v_eq, ← a_eq]
      exact ⟨moves, moves'⟩

def ReceivesWellKnotted (t : Transition (Option (Server ℝ)) (Event ℝ)) : Prop :=
  ∀ msg, t.input = .bspline msg → ∃ q, WellKnotted (q + 2) msg

theorem run_derived {cfg : ServerConfig ℝ} {history : History (Option (Server ℝ)) (Event ℝ)}
    {s : Option (Server ℝ)} (run : (trajServer cfg).Run history s)
    (sound : Throughout (fun t _ => ReceivesWellKnotted t) history) :
    ∀ server traj, s = some server → server.received = some traj → Derived traj := by
  refine run.induct_where (I := fun _ s => ∀ server traj, s = some server →
    server.received = some traj → Derived traj) ?_ ?_ sound
  · intro s initial server traj same received
    rw [initial] at same
    cases same
    contradiction
  · intro past s e _ well_knotted before server traj alive received
    cases s with
    | none => simp [trajServer, step] at alive
    | some s =>
        cases e with
        | bspline msg =>
            rcases well_knotted msg rfl with ⟨q, sound⟩
            rcases bsplineCallback_derived sound alive with ⟨stored, kept, derived⟩
            rw [kept, Option.some.injEq] at received
            rwa [← received]
        | cmdTimer inp =>
            cases outcome : cmdCallback cfg inp s with
            | none => simp [trajServer, step, outcome] at alive
            | some result =>
                have kept := cmdCallback_received outcome
                simp only [trajServer, step, outcome, Option.some.injEq] at alive
                exact before s traj rfl (by rw [← kept, alive, received])

/-- `getDerivative` is the derivative of `evaluateDeBoor` on every span, and so `traj_server` sends
the velocity and the acceleration of its position trajectory. -/
theorem derivative_differentiates (cfg : ServerConfig ℝ) :
    (∀ (q : ℕ) (b : UniformBspline ℝ) (u : ℝ), Regular (q + 1) b → b.InsideSpan u →
        ∃ d velocity, b.getDerivative = some d ∧ d.evaluateDeBoor u = some velocity ∧
          b.MovesWith velocity u) ∧
      ∀ history s, (trajServer cfg).Run history s →
        Throughout (fun t _ => ReceivesWellKnotted t) history →
          Throughout (fun t _ => CommandsMove cfg t) history := by
  constructor
  · intro q b u regular inside
    rcases regular.movesWith_derivative inside with ⟨velocity, evaluated, moves⟩
    refine ⟨b.derivative q, velocity, regular.getDerivative_eq ?_, evaluated, moves⟩
    rcases regular.exists_of_insideSpan inside with ⟨k, _, high, _⟩
    exact List.ne_nil_of_length_pos (by omega)
  · intro history s run sound
    refine run.throughout_where ?_ sound
    intro past s e so_far well_knotted _ server
    have derived := run_derived so_far well_knotted
    cases s with
    | none => simp
    | some s => exact Derived.commandsMove (fun traj => derived s traj rfl) server

def turn : Bspline ℝ where
  order := 3
  trajId := 1
  startTime := sec 10
  knots := [-0.3, -0.2, -0.1, 0, 0.1, 0.4, 0.5, 0.6, 0.7]
  posPts := [⟨2, 0, 1⟩, ⟨2.5, 0, 1⟩, ⟨3, 0, 1⟩, ⟨3, 0.5, 1⟩, ⟨3, 1, 1⟩]

theorem turn_wellKnotted : WellKnotted 3 turn := by
  refine ⟨rfl, by decide, ?_⟩
  norm_num [turn]

def turnSpline : UniformBspline ℝ := ⟨turn.posPts, 3, 4, 8, turn.knots, 0.1⟩

def blindAhead : ServerConfig ℝ := ⟨1, fun _ _ => 0⟩

theorem derivative_differentiates_turn :
    (∃ d velocity, turnSpline.getDerivative = some d ∧ d.evaluateDeBoor 0.3 = some velocity ∧
        turnSpline.MovesWith velocity 0.3) ∧
      Throughout (fun t _ => CommandsMove blindAhead t)
        ((trajServer blindAhead).exec [] (some ⟨none, 0, 0, none⟩)
          [.bspline turn, .cmdTimer ⟨sec 10 + 300000000, sec 10⟩]).1 := by
  constructor
  · refine (derivative_differentiates blindAhead).1 2 turnSpline 0.3 ?_ ?_
    · exact ⟨rfl, rfl, turn_wellKnotted.knots, turn_wellKnotted.increasing⟩
    · refine ⟨4, 0.1, 0.4, by decide, by decide, rfl, rfl, by norm_num, by norm_num⟩
  · have initial : (trajServer blindAhead).Run [] (some ⟨none, 0, 0, none⟩) := .start rfl
    apply (derivative_differentiates blindAhead).2 _ _ (initial.exec _)
    refine ⟨?_, ?_, trivial⟩
    · intro msg other
      cases other
    · intro msg same
      cases same
      exact ⟨1, turn_wellKnotted⟩

end RobocupDrone.Planner.TrajServer
