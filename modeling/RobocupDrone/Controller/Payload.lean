import Mathlib.Data.List.Infix
import Mathlib.Tactic.IntervalCases
import RobocupDrone.Controller.Invariants
import RobocupDrone.Servo.Server

/-! The payloads: which servo is asked to move, and in which order they succeed. -/

namespace RobocupDrone.Controller

open Geometry Reactive

variable {cfg : Config} {s : Fsm} {e : Event} {inp : TickInput} {c : Control}
  {published : List (Vec3 ℚ)} {requested : List (Int × Bool)}

theorem servoMoves_append (first second : List Effect) :
    servoMoves (first ++ second) = servoMoves first ++ servoMoves second := by
  simp [servoMoves]

def released (effects : List Effect) : List Int :=
  (servoMoves effects).filterMap fun request => if request.2 then some request.1 else none

theorem released_append (first second : List Effect) :
    released (first ++ second) = released first ++ released second := by
  simp [released, servoMoves_append]

theorem Move.servo_step (move : Move cfg s e c published requested) :
    (requested = [] ∧ c.putServoId = s.putServoId) ∨
      (s.fsmState = .execMission ∧ s.missionAction = .put ∧
        ((requested = [(s.putServoId, false)] ∧ c.putServoId = s.putServoId) ∨
          (requested = [(s.putServoId, true)] ∧ c.putServoId = s.putServoId - 1))) := by
  cases move with
  | tick inp move =>
      cases move with
      | putFailed state action => exact .inr ⟨state, action, .inl ⟨rfl, rfl⟩⟩
      | putDone state action => exact .inr ⟨state, action, .inr ⟨rfl, rfl⟩⟩
      | _ => exact .inl ⟨rfl, rfl⟩
  | _ => exact .inl ⟨rfl, rfl⟩

section ServoCalls

variable (cfg)

/-- Each servo call of the step that succeeds is one for which `doReq` returned true, on
some device and from some value of its uninitialised counter. -/
def ServedByDoReq (t : Transition Fsm Event) (_past : History Fsm Event) : Prop :=
  ∀ request ∈ servoMoves ((controller cfg).outputs t), request.2 = true →
    ∃ (World : Type) (dev : Servo.Device World) (i : Int) (result : Bool) (w : World),
      (Servo.doReq dev i request.1 result w).1 = true

def RequestInRange (t : Transition Fsm Event) (_past : History Fsm Event) : Prop :=
  ∀ request ∈ servoMoves ((controller cfg).outputs t), t.pre.doLand = false →
    request.1 ∈ [1, 2, 3]

end ServoCalls

def ReleasedFirst (k : Nat) (servos : List Int) (s : Fsm) : Prop :=
  k ≤ 3 ∧ servos = [3, 2, 1].take k ∧ s.putServoId = 3 - k

theorem released_first {history : History Fsm Event} {s : Fsm}
    (run : (controller cfg).Run history s) (served : Throughout (ServedByDoReq cfg) history) :
    ∃ k, ReleasedFirst k (released ((controller cfg).trace history)) s := by
  refine run.induct_where (I := fun history s =>
    ∃ k, ReleasedFirst k (released ((controller cfg).trace history)) s) ?_ ?_ served
  · rintro _ ⟨memory, now, rfl⟩
    exact ⟨0, by decide, rfl, rfl⟩
  · rintro past s e _ servedNow ⟨k, few, order, left⟩
    simp only [Machine.trace, released_append, order]
    rcases (post_move cfg s e).servo_step with ⟨quiet, same⟩ | ⟨-, -, failed | succeeded⟩
    · refine ⟨k, few, ?_, same.trans left⟩
      simp [released, quiet]
    · refine ⟨k, few, ?_, failed.2.trans left⟩
      simp [released, failed.1]
    · -- `doReq` accepts the number, so a payload was left
      have accepted : 1 ≤ s.putServoId := by
        obtain ⟨World, dev, i, result, w, done⟩ :=
          servedNow (s.putServoId, true) (by simp [succeeded.1]) rfl
        exact (Servo.doReq_range done).1
      have room : k < 3 := by omega
      refine ⟨k + 1, room, ?_, ?_⟩
      · rw [released, succeeded.1, left]
        interval_cases k <;> rfl
      · have next : ((controller cfg).step s e).1.putServoId = s.putServoId - 1 := succeeded.2
        rw [next, left]
        omega

theorem request_in_range {past : History Fsm Event} {s : Fsm}
    (run : (controller cfg).Run past s) (served : Throughout (ServedByDoReq cfg) past) (e : Event) :
    RequestInRange cfg ⟨s, e⟩ past := by
  intro request member flying
  obtain ⟨k, -, -, left⟩ := released_first run served
  rcases (post_move cfg s e).servo_step with ⟨quiet, -⟩ | ⟨state, action, asked⟩
  · simp [quiet] at member
  · have put : s.missionAction = .put := action
    have payload : 1 ≤ s.putServoId := (run_coherent run).payload state flying (by simp [put])
    have number : request.1 = s.putServoId := by
      rcases asked with ⟨asked, -⟩ | ⟨asked, -⟩
      · simp only [asked, List.mem_singleton] at member
        rw [member]
      · simp only [asked, List.mem_singleton] at member
        rw [member]
    rw [number]
    simp only [List.mem_cons, List.not_mem_nil, or_false]
    omega

/-- The payloads leave in the order 3, 2, 1, each once, and `put_servo_id_` counts them. -/
theorem payload_in_order {history : History Fsm Event} {s : Fsm}
    (run : (controller cfg).Run history s) (served : Throughout (ServedByDoReq cfg) history) :
    released ((controller cfg).trace history) <+: [3, 2, 1] ∧
      s.putServoId = 3 - (released ((controller cfg).trace history)).length ∧
      0 ≤ s.putServoId ∧ s.putServoId ≤ 3 ∧ Throughout (RequestInRange cfg) history := by
  obtain ⟨k, few, order, left⟩ := released_first run served
  have count : (released ((controller cfg).trace history)).length = k := by
    rw [order, List.length_take]
    exact min_eq_left few
  refine ⟨?_, ?_, by omega, by omega, ?_⟩
  · rw [order]
    exact List.take_prefix k _
  · rw [count, left]
  · exact run.throughout_where (fun _ _ e run before _ => request_in_range run before e) served

/-- The first mission of `exp_test2.launch`, with a server that moves servo 3. -/
theorem payload_in_order_first :
    let run := script expTest2 (firstMission (some centred))
    released ((controller expTest2).trace run.1) = [3] ∧
      released ((controller expTest2).trace run.1) <+: [3, 2, 1] ∧
      run.2.putServoId = 3 - (released ((controller expTest2).trace run.1)).length ∧
      0 ≤ run.2.putServoId ∧ run.2.putServoId ≤ 3 ∧
      Throughout (RequestInRange expTest2) run.1 := by
  have third : Throughout (fun t _ => ∀ request ∈ servoMoves ((controller expTest2).outputs t),
      request.2 = true → request.1 = 3) (script expTest2 (firstMission (some centred))).1 := by
    decide +kernel
  refine ⟨by decide +kernel, payload_in_order (script_run expTest2 _) ?_⟩
  refine third.mono fun t past only request member succeeded => ?_
  rw [only request member succeeded]
  exact ⟨List Servo.GpioOp, Servo.healthy, 99, false, [], by decide⟩

end RobocupDrone.Controller
