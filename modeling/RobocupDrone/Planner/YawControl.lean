import Mathlib.Tactic.NormNum
import RobocupDrone.Library.Arc
import RobocupDrone.Planner.TrajServer

/-! `calculate_yaw` of `traj_server.cpp`, over sequences of calls. -/

namespace RobocupDrone.Planner.TrajServer

open AddCommGroup Circle Reactive
open Geometry
open Controller (Time sec)

variable {K : Type} [Field K] [LinearOrder K]

/-- The arguments of a call, with the trajectory it looks ahead on. -/
structure YawCall (K : Type) where
  traj : Trajectory K
  tCur : K
  pos : Vec3 K
  timeNow : Time
  timeLast : Time

def YawCall.run (cfg : ServerConfig K) (call : YawCall K) (s : Server K) : Option (K × K) :=
  calculateYaw cfg call.traj call.tCur call.pos call.timeNow call.timeLast s

def YawCall.dt (call : YawCall K) : K := toSec (call.timeNow - call.timeLast)

def YawCall.ahead (cfg : ServerConfig K) (call : YawCall K) : Option (Vec3 K) :=
  if call.tCur + cfg.timeForward ≤ call.traj.duration then
    call.traj.pos.evaluateDeBoorT (call.tCur + cfg.timeForward)
  else call.traj.pos.evaluateDeBoorT call.traj.duration

def YawCall.yawTemp (cfg : ServerConfig K) (call : YawCall K) (lastYaw : K) : Option K :=
  (call.ahead cfg).map fun ahead =>
    let dir := ahead - call.pos
    if dir.normSq > 0.1 * 0.1 then cfg.atan2 dir.y dir.x else lastYaw

def lowPass (lastYaw reach yaw : K) : K :=
  if |yaw - lastYaw| ≤ reach then 0.5 * lastYaw + 0.5 * yaw else yaw

def filtered (lastYaw lastYawDot yawTemp dt : K) : K × K :=
  (lowPass lastYaw (pi * dt) (limitYaw lastYaw yawTemp dt).1,
    0.5 * lastYawDot + 0.5 * (limitYaw lastYaw yawTemp dt).2)

theorem YawCall.run_eq (cfg : ServerConfig K) (call : YawCall K) (s : Server K) :
    call.run cfg s = (call.yawTemp cfg s.lastYaw).map fun yawTemp =>
      filtered s.lastYaw s.lastYawDot yawTemp call.dt := by
  simp only [run, calculateYaw, yawTemp, ahead, Option.bind_eq_bind, Option.map_map]
  by_cases within : call.tCur + cfg.timeForward ≤ call.traj.duration
  · rw [if_pos within, if_pos within, Option.map_eq_bind]
    rfl
  · rw [if_neg within, if_neg within, Option.map_eq_bind]
    rfl

theorem yawTemp_inside {cfg : ServerConfig K} (range : ∀ y x, |cfg.atan2 y x| ≤ pi)
    {call : YawCall K} {lastYaw yawTemp : K} (inside : |lastYaw| ≤ pi)
    (aimed : call.yawTemp cfg lastYaw = some yawTemp) : |yawTemp| ≤ pi := by
  obtain ⟨ahead, -, rfl⟩ := Option.map_eq_some_iff.mp aimed
  dsimp only
  split_ifs
  · exact range _ _
  · exact inside

variable [IsStrictOrderedRing K]

theorem pi_pos : (0 : K) < pi := by
  norm_num [pi]

/-- One step back, as `calculate_yaw` wraps it. -/
def stepBack (lastYaw change : K) : K :=
  if lastYaw - change < -pi then lastYaw - change + 2 * pi else lastYaw - change

theorem limitYaw_cases {lastYaw yawTemp dt : K} (inside : |lastYaw| ≤ pi) (aim : |yawTemp| ≤ pi)
    (forward : 0 < dt) :
    (|yawTemp - lastYaw| ≤ pi ∧ |yawTemp - lastYaw| ≤ pi * dt ∧
        limitYaw lastYaw yawTemp dt = (yawTemp, (yawTemp - lastYaw) / dt)) ∨
      (∃ turn rate, pi < |yawTemp - lastYaw| ∧ |turn| ≤ pi ∧ |turn| ≤ pi * dt ∧
        lastYaw + turn ≡ yawTemp [PMOD 2 * pi] ∧ |rate| = pi ∧
          limitYaw lastYaw yawTemp dt = (yawTemp, rate)) ∨
      (∃ turn, |turn| ≤ pi ∧ lastYaw + turn ≡ yawTemp [PMOD 2 * pi] ∧ turn < -(pi * dt) ∧
        limitYaw lastYaw yawTemp dt = (stepBack lastYaw (pi * dt), -pi)) ∨
      ∃ turn, |turn| ≤ pi ∧ lastYaw + turn ≡ yawTemp [PMOD 2 * pi] ∧ pi * dt < turn ∧
        limitYaw lastYaw yawTemp dt = (-stepBack (-lastYaw) (pi * dt), pi) := by
  have positive := pi_pos (K := K)
  have reach : 0 < pi * dt := mul_pos positive forward
  obtain ⟨low, high⟩ := abs_le.mp inside
  obtain ⟨aim_low, aim_high⟩ := abs_le.mp aim
  have mirrored : (if lastYaw + pi * dt > pi then lastYaw + pi * dt - 2 * pi
      else lastYaw + pi * dt) = -stepBack (-lastYaw) (pi * dt) := by
    unfold stepBack
    split_ifs <;> linarith
  have straight : lastYaw + (yawTemp - lastYaw) ≡ yawTemp [PMOD 2 * pi] := by
    rw [add_sub_cancel]
  simp only [limitYaw, mirrored]
  by_cases above : yawTemp - lastYaw > pi
  · have wrapped : lastYaw + (yawTemp - lastYaw - 2 * pi) ≡ yawTemp [PMOD 2 * pi] :=
      modEq_forward (by ring)
    have small : |yawTemp - lastYaw - 2 * pi| ≤ pi := abs_le.mpr ⟨by linarith, by linarith⟩
    rw [if_pos above]
    by_cases limited : yawTemp - lastYaw - 2 * pi < -(pi * dt)
    · rw [if_pos limited]
      exact .inr (.inr (.inl ⟨_, small, wrapped, limited, rfl⟩))
    · rw [if_neg limited, if_pos above]
      refine .inr (.inl ⟨_, -pi, lt_of_lt_of_le above (le_abs_self _), small, ?_, wrapped, ?_, rfl⟩)
      · exact abs_le.mpr ⟨not_lt.mp limited, by linarith⟩
      · rw [abs_neg, abs_of_pos positive]
  rw [if_neg above]
  by_cases below : yawTemp - lastYaw < -pi
  · have wrapped : lastYaw + (yawTemp - lastYaw + 2 * pi) ≡ yawTemp [PMOD 2 * pi] :=
      modEq_backward (by ring)
    have small : |yawTemp - lastYaw + 2 * pi| ≤ pi := abs_le.mpr ⟨by linarith, by linarith⟩
    rw [if_pos below]
    by_cases limited : yawTemp - lastYaw + 2 * pi > pi * dt
    · rw [if_pos limited]
      exact .inr (.inr (.inr ⟨_, small, wrapped, limited, rfl⟩))
    · rw [if_neg limited, if_pos below]
      refine .inr (.inl ⟨_, pi, lt_of_lt_of_le (lt_neg_of_lt_neg below) (neg_le_abs _), small, ?_,
        wrapped, abs_of_pos positive, rfl⟩)
      exact abs_le.mpr ⟨by linarith, not_lt.mp limited⟩
  rw [if_neg below]
  have small : |yawTemp - lastYaw| ≤ pi := abs_le.mpr ⟨not_lt.mp below, not_lt.mp above⟩
  by_cases behind : yawTemp - lastYaw < -(pi * dt)
  · rw [if_pos behind]
    exact .inr (.inr (.inl ⟨_, small, straight, behind, rfl⟩))
  rw [if_neg behind]
  by_cases ahead : yawTemp - lastYaw > pi * dt
  · rw [if_pos ahead]
    exact .inr (.inr (.inr ⟨_, small, straight, ahead, rfl⟩))
  · rw [if_neg ahead, if_neg above, if_neg below]
    exact .inl ⟨small, abs_le.mpr ⟨not_lt.mp behind, not_lt.mp ahead⟩, rfl⟩

theorem lowPass_neg (lastYaw reach yaw : K) :
    lowPass (-lastYaw) reach (-yaw) = -lowPass lastYaw reach yaw := by
  have distance : |-yaw - -lastYaw| = |yaw - lastYaw| := by
    rw [neg_sub_neg, abs_sub_comm]
  unfold lowPass
  rw [distance]
  split_ifs
  · ring
  · rfl

/-- What is true of the yaw after one call, with the change between the last and the new one. -/
structure Turned (lastYaw yawTemp reach yaw : K) : Prop where
  inside : |yaw| ≤ pi
  near : Within pi reach lastYaw yaw
  on_arc : OnShorterArc pi lastYaw yawTemp yaw

theorem lowPass_stepBack {lastYaw reach : K} (inside : |lastYaw| ≤ pi) (positive : 0 < reach)
    (short : reach < pi) :
    |lowPass lastYaw reach (stepBack lastYaw reach)| ≤ pi ∧ ∃ part, -reach ≤ part ∧ part ≤ 0 ∧
      lastYaw + part ≡ lowPass lastYaw reach (stepBack lastYaw reach) [PMOD 2 * pi] := by
  obtain ⟨low, high⟩ := abs_le.mp inside
  unfold stepBack
  split_ifs with beyond
  · -- the wrapped yaw is too far away for the filter
    have far : ¬|lastYaw - reach + 2 * pi - lastYaw| ≤ reach := by
      intro close
      have bound := (abs_le.mp close).2
      linarith
    rw [lowPass, if_neg far]
    exact ⟨abs_le.mpr ⟨by linarith, by linarith⟩, -reach, le_rfl, by linarith,
      modEq_forward (by ring)⟩
  · have close : |lastYaw - reach - lastYaw| ≤ reach := by
      rw [sub_sub_cancel_left, abs_neg, abs_of_pos positive]
    have middle : (0.5 : K) * lastYaw + 0.5 * (lastYaw - reach) = lastYaw - reach / 2 := by
      ring
    rw [lowPass, if_pos close, middle]
    exact ⟨abs_le.mpr ⟨by linarith, by linarith⟩, -(reach / 2), by linarith, by linarith, by
      rw [← sub_eq_add_neg]⟩

theorem turned_stepBack {lastYaw yawTemp reach turn : K} (inside : |lastYaw| ≤ pi)
    (positive : 0 < reach) (small : |turn| ≤ pi) (there : lastYaw + turn ≡ yawTemp [PMOD 2 * pi])
    (limited : turn < -reach) :
    Turned lastYaw yawTemp reach (lowPass lastYaw reach (stepBack lastYaw reach)) := by
  have short : reach < pi := by linarith [(abs_le.mp small).1]
  obtain ⟨range, part, low, high, here⟩ := lowPass_stepBack inside positive short
  refine ⟨range, ⟨part, abs_le.mpr ⟨low, by linarith⟩, here⟩, turn, part, small, ?_, there, here⟩
  exact Set.mem_uIcc.mpr (.inr ⟨by linarith, high⟩)

theorem Turned.neg {lastYaw yawTemp reach yaw : K} (turned : Turned lastYaw yawTemp reach yaw) :
    Turned (-lastYaw) (-yawTemp) reach (-yaw) := by
  obtain ⟨turn, close, here⟩ := turned.near
  refine ⟨by rw [abs_neg]; exact turned.inside, ⟨-turn, by rwa [abs_neg], ?_⟩, turned.on_arc.neg⟩
  rw [← neg_add, neg_modEq_neg]
  exact here

theorem lowPass_middle {lastYaw yaw reach : K} (close : |yaw - lastYaw| ≤ reach) :
    lowPass lastYaw reach yaw = (lastYaw + yaw) / 2 := by
  rw [lowPass, if_pos close]
  ring

theorem turned_middle {lastYaw yawTemp reach : K} (inside : |lastYaw| ≤ pi) (aim : |yawTemp| ≤ pi)
    (straight : |yawTemp - lastYaw| ≤ pi) (close : |yawTemp - lastYaw| ≤ reach) :
    Turned lastYaw yawTemp reach ((lastYaw + yawTemp) / 2) := by
  obtain ⟨low, high⟩ := abs_le.mp inside
  obtain ⟨aim_low, aim_high⟩ := abs_le.mp aim
  have half : |(yawTemp - lastYaw) / 2| ≤ |yawTemp - lastYaw| := by
    rw [abs_div, abs_two]
    exact half_le_self (abs_nonneg _)
  have here : lastYaw + (yawTemp - lastYaw) / 2 ≡ (lastYaw + yawTemp) / 2 [PMOD 2 * pi] := by
    rw [show lastYaw + (yawTemp - lastYaw) / 2 = (lastYaw + yawTemp) / 2 by ring]
  refine ⟨abs_le.mpr ⟨by linarith, by linarith⟩, ⟨_, half.trans close, here⟩,
    yawTemp - lastYaw, _, straight, ?_, by rw [add_sub_cancel], here⟩
  rcases le_total 0 (yawTemp - lastYaw) with up | down
  · exact Set.mem_uIcc.mpr (.inl ⟨by linarith, by linarith⟩)
  · exact Set.mem_uIcc.mpr (.inr ⟨by linarith, by linarith⟩)

/-- One call turns the yaw as it should, unless the desired yaw is more than a half turn away as a
number and still within reach: then the filter takes the middle of the two numbers. -/
theorem turned_iff {lastYaw yawTemp dt : K} (inside : |lastYaw| ≤ pi) (aim : |yawTemp| ≤ pi)
    (forward : 0 < dt) (lastYawDot : K) :
    Turned lastYaw yawTemp (pi * dt) (filtered lastYaw lastYawDot yawTemp dt).1 ↔
      |yawTemp - lastYaw| ≤ pi ∨ pi * dt < |yawTemp - lastYaw| := by
  have reach : 0 < pi * dt := mul_pos pi_pos forward
  rcases limitYaw_cases inside aim forward with ⟨straight, close, limited⟩ |
    ⟨turn, rate, beyond, small, close, there, -, limited⟩ |
    ⟨turn, small, there, back, limited⟩ | ⟨turn, small, there, ahead, limited⟩
  · rw [filtered, limited, lowPass_middle close]
    exact iff_of_true (turned_middle inside aim straight close) (.inl straight)
  · rw [filtered, limited, or_iff_right (not_le.mpr beyond)]
    have width : |yawTemp - lastYaw| ≤ 2 * pi := by
      rw [two_mul]
      exact (abs_sub _ _).trans (add_le_add aim inside)
    by_cases near : |yawTemp - lastYaw| ≤ pi * dt
    · rw [lowPass_middle near]
      exact iff_of_false (fun turned => not_onShorterArc_middle beyond width turned.on_arc)
        (not_lt.mpr near)
    · rw [lowPass, if_neg near]
      refine iff_of_true ⟨aim, ⟨turn, close, there⟩, turn, turn, small, Set.right_mem_uIcc, there,
        there⟩ (not_le.mp near)
  · rw [filtered, limited]
    refine iff_of_true (turned_stepBack inside reach small there back) ?_
    have short : pi * dt < pi := by linarith [(abs_le.mp small).1]
    exact (le_or_gt _ _).imp_right short.trans
  · rw [filtered, limited]
    have mirrored : -lastYaw + -turn ≡ -yawTemp [PMOD 2 * pi] := by
      rw [← neg_add, neg_modEq_neg]
      exact there
    have turned := turned_stepBack (by rwa [abs_neg]) reach (by rwa [abs_neg]) mirrored
      (neg_lt_neg ahead)
    refine iff_of_true ?_ ?_
    · have back := turned.neg
      rwa [neg_neg, neg_neg, ← lowPass_neg, neg_neg] at back
    · have short : pi * dt < pi := by linarith [(abs_le.mp small).2]
      exact (le_or_gt _ _).imp_right short.trans

theorem limitYaw_rate {lastYaw yawTemp dt : K} (inside : |lastYaw| ≤ pi) (aim : |yawTemp| ≤ pi)
    (forward : 0 < dt) : |(limitYaw lastYaw yawTemp dt).2| ≤ pi := by
  rcases limitYaw_cases inside aim forward with ⟨-, close, limited⟩ |
    ⟨-, rate, -, -, -, -, full, limited⟩ | ⟨-, -, -, -, limited⟩ | ⟨-, -, -, -, limited⟩
  · rw [limited, abs_div, abs_of_pos forward, div_le_iff₀ forward]
    exact close
  · rw [limited]
    exact full.le
  · rw [limited, abs_neg, abs_of_pos pi_pos]
  · rw [limited, abs_of_pos pi_pos]

theorem middle_inside {a b : K} (a_inside : |a| ≤ pi) (b_inside : |b| ≤ pi) :
    |(a + b) / 2| ≤ pi := by
  obtain ⟨a_low, a_high⟩ := abs_le.mp a_inside
  obtain ⟨b_low, b_high⟩ := abs_le.mp b_inside
  exact abs_le.mpr ⟨by linarith, by linarith⟩

theorem filtered_inside {lastYaw lastYawDot yawTemp dt : K} (inside : |lastYaw| ≤ pi)
    (slow : |lastYawDot| ≤ pi) (aim : |yawTemp| ≤ pi) (forward : 0 < dt) :
    |(filtered lastYaw lastYawDot yawTemp dt).1| ≤ pi ∧
      |(filtered lastYaw lastYawDot yawTemp dt).2| ≤ pi := by
  constructor
  · by_cases right : |yawTemp - lastYaw| ≤ pi ∨ pi * dt < |yawTemp - lastYaw|
    · exact ((turned_iff inside aim forward lastYawDot).mpr right).inside
    · rw [not_or, not_le, not_lt] at right
      rcases limitYaw_cases inside aim forward with ⟨straight, -⟩ |
        ⟨turn, rate, -, -, -, -, -, limited⟩ | ⟨turn, small, -, back, -⟩ |
        ⟨turn, small, -, ahead, -⟩
      · exact absurd straight (not_le.mpr right.1)
      · rw [filtered, limited, lowPass_middle right.2]
        exact middle_inside inside aim
      · have short : pi * dt < pi := by linarith [(abs_le.mp small).1]
        exact absurd (right.1.trans_le right.2) short.asymm
      · have short : pi * dt < pi := by linarith [(abs_le.mp small).2]
        exact absurd (right.1.trans_le right.2) short.asymm
  · have mean : (filtered lastYaw lastYawDot yawTemp dt).2 =
        (lastYawDot + (limitYaw lastYaw yawTemp dt).2) / 2 := by
      rw [filtered]
      ring
    rw [mean]
    exact middle_inside slow (limitYaw_rate inside aim forward)

/-- The calls of a run, each with the yaw and the rate that the one before stored. `none` is a
program that Eigen has stopped. -/
def yawCalls (cfg : ServerConfig K) : Machine (Option (Server K)) (YawCall K) (K × K) where
  start s := ∃ server, s = some server ∧ |server.lastYaw| ≤ pi ∧ |server.lastYawDot| ≤ pi
  step
    | none, _ => (none, [])
    | some s, call =>
        match call.run cfg s with
        | none => (none, [])
        | some yaw => (some { s with lastYaw := yaw.1, lastYawDot := yaw.2 }, [yaw])

/-- The results of a call are right for the last yaw and the desired one. -/
def CallRight (cfg : ServerConfig K) (t : Transition (Option (Server K)) (YawCall K)) : Prop :=
  ∀ s yawTemp, t.pre = some s → t.input.yawTemp cfg s.lastYaw = some yawTemp →
    ∀ yaw ∈ (yawCalls cfg).outputs t,
      Turned s.lastYaw yawTemp (pi * t.input.dt) yaw.1 ∧ |yaw.2| ≤ pi

/-- The desired yaw is a half turn away at most, as a number, or out of reach. -/
def ClearAim (cfg : ServerConfig K) (t : Transition (Option (Server K)) (YawCall K)) : Prop :=
  ∀ s yawTemp, t.pre = some s → t.input.yawTemp cfg s.lastYaw = some yawTemp →
    |yawTemp - s.lastYaw| ≤ pi ∨ pi * t.input.dt < |yawTemp - s.lastYaw|

def InRange (s : Option (Server K)) : Prop :=
  ∀ server, s = some server → |server.lastYaw| ≤ pi ∧ |server.lastYawDot| ≤ pi

theorem dt_pos {call : YawCall K} (forward : call.timeLast < call.timeNow) : 0 < call.dt := by
  have later : (0 : K) < ((call.timeNow - call.timeLast : ℤ) : K) := by
    exact_mod_cast sub_pos.mpr forward
  exact div_pos later (by norm_num)

section Runs

variable {cfg : ServerConfig K} (range : ∀ y x, |cfg.atan2 y x| ≤ pi)
include range

theorem call_step {s : Server K} {call : YawCall K} (inside : |s.lastYaw| ≤ pi)
    (slow : |s.lastYawDot| ≤ pi) (forward : call.timeLast < call.timeNow) :
    InRange ((yawCalls cfg).step (some s) call).1 ∧
      (CallRight cfg ⟨some s, call⟩ ↔ ClearAim cfg ⟨some s, call⟩) := by
  have run := call.run_eq cfg s
  cases aimed : call.yawTemp cfg s.lastYaw with
  | none =>
      rw [aimed, Option.map_none] at run
      refine ⟨fun server some_server => ?_, iff_of_true ?_ ?_⟩
      · simp [yawCalls, run] at some_server
      · rintro _ yawTemp ⟨⟩ other
        exact absurd (aimed.symm.trans other) (by simp)
      · rintro _ yawTemp ⟨⟩ other
        exact absurd (aimed.symm.trans other) (by simp)
  | some yawTemp =>
      rw [aimed, Option.map_some] at run
      have later : 0 < call.dt := dt_pos forward
      have aim := yawTemp_inside range inside aimed
      have kept := filtered_inside inside slow aim later
      have outputs : (yawCalls cfg).outputs ⟨some s, call⟩ =
          [filtered s.lastYaw s.lastYawDot yawTemp call.dt] := by
        simp [Machine.outputs, yawCalls, run]
      constructor
      · intro server some_server
        simp only [yawCalls, run, Option.some.injEq] at some_server
        rw [← some_server]
        exact kept
      · refine Iff.trans ?_ ((turned_iff inside aim later s.lastYawDot).trans ?_)
        · constructor
          · intro right
            exact (right s yawTemp rfl aimed _ (by rw [outputs]; exact List.mem_singleton_self _)).1
          · rintro turned _ _ ⟨⟩ again yaw made
            rw [outputs, List.mem_singleton] at made
            cases aimed.symm.trans again
            rw [made]
            exact ⟨turned, kept.2⟩
        · constructor
          · rintro clear _ _ ⟨⟩ again
            cases aimed.symm.trans again
            exact clear
          · intro clear
            exact clear s yawTemp rfl aimed

/-- The yaws and rates of a run are right exactly when at each call the desired yaw is a half turn
from the last one at most, as a number, or out of reach. -/
theorem yaw_calls_right_iff {history : History (Option (Server K)) (YawCall K)}
    {s : Option (Server K)} (run : (yawCalls cfg).Run history s)
    (forward : Throughout (fun t _ => t.input.timeLast < t.input.timeNow) history) :
    Throughout (fun t _ => CallRight cfg t) history ↔
      Throughout (fun t _ => ClearAim cfg t) history := by
  have kept : InRange s ∧ Throughout (fun t _ => CallRight cfg t ↔ ClearAim cfg t) history := by
    refine run.induct_where
      (I := fun history s => InRange s ∧
        Throughout (fun t _ => CallRight cfg t ↔ ClearAim cfg t) history)
      (fun s start => ⟨?_, trivial⟩) (fun past s call _ later before => ?_) forward
    · obtain ⟨server, rfl, inside, slow⟩ := start
      rintro _ ⟨⟩
      exact ⟨inside, slow⟩
    · obtain ⟨ranges, same⟩ := before
      cases s with
      | none =>
          refine ⟨fun server some_server => absurd some_server (by simp [yawCalls]),
            iff_of_true ?_ ?_, same⟩
          · rintro _ _ ⟨⟩
          · rintro _ _ ⟨⟩
      | some server =>
          obtain ⟨inside, slow⟩ := ranges server rfl
          obtain ⟨next, right⟩ := call_step range inside slow later
          exact ⟨next, right, same⟩
  exact Throughout.congr kept.2

theorem cmdCallback_inRange {inp : TimerInput} {s after : Server K}
    {commands : List (PositionCommand K)} (ranges : InRange (some s))
    (forward : s.timeLast.getD inp.start < inp.now)
    (outcome : cmdCallback cfg inp s = some (after, commands)) :
    InRange (some after) ∧ ∀ command ∈ commands, |command.yaw| ≤ pi ∧ |command.yawDot| ≤ pi := by
  have zero : |(0 : K)| ≤ pi := by
    rw [abs_zero]
    exact pi_pos.le
  obtain ⟨inside, slow⟩ := ranges s rfl
  cases received : s.received with
  | none =>
      simp only [cmdCallback, received, Option.some.injEq, Prod.mk.injEq] at outcome
      obtain ⟨rfl, rfl⟩ := outcome
      exact ⟨ranges, fun command none_made => absurd none_made List.not_mem_nil⟩
  | some traj =>
      simp only [cmdCallback, received] at outcome
      split_ifs at outcome
      · simp only [Option.bind_eq_bind, Option.bind_eq_some_iff, Option.some.injEq, publish,
          Prod.mk.injEq] at outcome
        obtain ⟨pos, -, vel, -, acc, -, yaw, called, posF, -, rfl, rfl⟩ := outcome
        let call : YawCall K :=
          ⟨traj, elapsed traj inp.now, pos, inp.now, s.timeLast.getD inp.start⟩
        have later : 0 < call.dt := dt_pos forward
        have run := call.run_eq cfg s
        rw [YawCall.run, called] at run
        obtain ⟨yawTemp, aimed, rfl⟩ := Option.map_eq_some_iff.mp run.symm
        have kept := filtered_inside inside slow (yawTemp_inside range inside aimed)
          later
        refine ⟨?_, fun command made => ?_⟩
        · rintro _ ⟨⟩
          exact kept
        · rw [List.mem_singleton.mp made]
          exact kept
      · simp only [Option.bind_eq_bind, Option.bind_eq_some_iff, Option.some.injEq,
          Prod.mk.injEq] at outcome
        obtain ⟨pos, -, rfl, rfl⟩ := outcome
        refine ⟨?_, fun command none_made => absurd none_made List.not_mem_nil⟩
        rintro _ ⟨⟩
        exact ⟨inside, slow⟩
      · simp only [Option.some.injEq, publish, Prod.mk.injEq] at outcome
        obtain ⟨rfl, rfl⟩ := outcome
        refine ⟨?_, fun command made => ?_⟩
        · rintro _ ⟨⟩
          exact ⟨zero, slow⟩
        · rw [List.mem_singleton.mp made]
          exact ⟨zero, zero⟩

end Runs

/-- `atan2` along the axes, with the half turn of the source. -/
def axisAtan2 (y x : ℚ) : ℚ :=
  if y = 0 then if x < 0 then pi else 0 else if 0 < y then pi / 2 else -(pi / 2)

theorem axisAtan2_inside (y x : ℚ) : |axisAtan2 y x| ≤ pi := by
  unfold axisAtan2
  split_ifs <;> norm_num [pi, abs_le]

def alongAxes : ServerConfig ℚ := ⟨1, axisAtan2⟩

theorem alongAxes_inside (y x : ℚ) : |alongAxes.atan2 y x| ≤ pi := axisAtan2_inside y x

def westward : UniformBspline ℚ where
  controlPoints := [⟨4, 0, 1⟩, ⟨3.5, 0, 1⟩, ⟨3, 0, 1⟩, ⟨2.5, 0, 1⟩, ⟨2, 0, 1⟩]
  p := 3
  n := 4
  m := 8
  u := [-0.3, -0.2, -0.1, 0, 0.1, 0.2, 0.3, 0.4, 0.5]
  interval := 0.1

/-- A call at the start of it, with the clock at `timeNow` and `pause` after the call before. -/
def lookWest (pause : Time) : YawCall ℚ where
  traj := ⟨westward, westward, westward, 0.2, sec 10, 1⟩
  tCur := 0
  pos := ⟨3.5, 0, 1⟩
  timeNow := sec 10
  timeLast := sec 10 - pause

def facing (yaw : ℚ) : Server ℚ := ⟨none, yaw, 0, none⟩

theorem lookWest_run {yaw : ℚ} (inside : |yaw| ≤ pi) (pause : Time) :
    (yawCalls alongAxes).Run [⟨some (facing yaw), lookWest pause⟩]
      ((yawCalls alongAxes).step (some (facing yaw)) (lookWest pause)).1 :=
  .step _ (.start ⟨facing yaw, rfl, inside, by norm_num [facing, pi]⟩)

theorem lookWest_aim (pause : Time) (yaw : ℚ) :
    (lookWest pause).yawTemp alongAxes yaw = some pi := by
  have ahead : (lookWest pause).ahead alongAxes = some ⟨2.5, 0, 1⟩ := by
    change (lookWest 0).ahead alongAxes = _
    decide +kernel
  have west : axisAtan2 0 (2.5 - 3.5) = pi := by decide +kernel
  rw [YawCall.yawTemp, ahead, Option.map_some]
  change some (if _ then axisAtan2 (0 - 0) (2.5 - 3.5) else yaw) = _
  have apart : ((⟨2.5, 0, 1⟩ : Vec3 ℚ) - ⟨3.5, 0, 1⟩).normSq > 0.1 * 0.1 := by decide +kernel
  rw [sub_self, west]
  exact congrArg some (if_pos apart)

theorem lookWest_forward (yaw : ℚ) {pause : Time} (positive : 0 < pause) :
    Throughout (fun t _ => t.input.timeLast < t.input.timeNow)
      [(⟨some (facing yaw), lookWest pause⟩ : Transition (Option (Server ℚ)) (YawCall ℚ))] :=
  ⟨sub_lt_self _ positive, trivial⟩

/-- Ten milliseconds after the last call, from the yaw zero. -/
theorem yaw_calls_right_west :
    Throughout (fun t _ => CallRight alongAxes t) [⟨some (facing 0), lookWest 10000000⟩] := by
  have inside : |(0 : ℚ)| ≤ pi := by decide +kernel
  have forward := lookWest_forward 0 (show (0 : Time) < 10000000 by decide)
  refine (yaw_calls_right_iff alongAxes_inside (lookWest_run inside 10000000) forward).mpr
    ⟨fun s yawTemp same aimed => .inl ?_, trivial⟩
  cases same
  rw [lookWest_aim, Option.some.injEq] at aimed
  rw [← aimed]
  exact (congrArg abs (sub_zero _)).trans_le (abs_of_pos pi_pos).le

/-- Two seconds after the last call, the yaw turns from -1 towards the half turn through zero. -/
theorem long_way_after_pause :
    ¬∀ (cfg : ServerConfig ℚ) (history : History (Option (Server ℚ)) (YawCall ℚ))
      (s : Option (Server ℚ)), (∀ y x, |cfg.atan2 y x| ≤ pi) → (yawCalls cfg).Run history s →
        Throughout (fun t _ => t.input.timeLast < t.input.timeNow) history →
          Throughout (fun t _ => CallRight cfg t) history := by
  intro every
  have inside : |(-1 : ℚ)| ≤ pi := by decide +kernel
  have slow : |(0 : ℚ)| ≤ pi := by decide +kernel
  have forward := lookWest_forward (-1) (show 0 < sec 2 by decide)
  have right := every alongAxes _ _ alongAxes_inside (lookWest_run inside (sec 2)) forward
  have clear := (call_step alongAxes_inside (s := facing (-1)) inside slow forward.1).2.mp right.1
  have beyond : ¬|(pi : ℚ) - -1| ≤ pi := by decide +kernel
  have reached : ¬(pi : ℚ) * 2 < |pi - -1| := by decide +kernel
  have two_seconds : (lookWest (sec 2)).dt = 2 := by decide +kernel
  rcases clear (facing (-1)) pi rfl (lookWest_aim (sec 2) (-1)) with near | far
  · exact beyond near
  · rw [two_seconds] at far
    exact reached far

end RobocupDrone.Planner.TrajServer
