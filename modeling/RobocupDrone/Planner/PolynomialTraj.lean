import Mathlib.Topology.Algebra.Group.Basic
import Mathlib.Topology.Instances.Real.Lemmas
import Mathlib.Topology.Order.OrderClosed
import RobocupDrone.Library.Vec3

/-! `polynomial_traj.h`: a trajectory of polynomial segments and its evaluations. `none` stands for
an index out of range, or a vector of negative size. -/

namespace RobocupDrone.Planner

open Geometry Filter Topology

/-- The times of the segments and their coefficients, the highest power first. -/
structure PolynomialTraj (K : Type) where
  times : List K
  cxs : List (List K)
  cys : List (List K)
  czs : List (List K)

namespace PolynomialTraj

section Evaluation

variable {K : Type} [Field K]

section

variable [LinearOrder K] [IsStrictOrderedRing K]

def addSegment (cx cy cz : List K) (t : K) (traj : PolynomialTraj K) : PolynomialTraj K :=
  ⟨traj.times ++ [t], traj.cxs ++ [cx], traj.cys ++ [cy], traj.czs ++ [cz]⟩

/-- The search for the segment: its number, counted from `idx`, and the time in it. -/
def findSegment : List K → K → ℕ → Option (ℕ × K)
  | [], _, _ => none
  | time :: rest, t, idx =>
      if time + 1 / 10000 < t then findSegment rest (t - time) (idx + 1) else some (idx, t)

def axisPosition (c : List K) (order : ℕ) (t : K) : K :=
  ((List.range order).map fun i => t ^ (order - 1 - i) * c.getD i 0).sum

def axisVelocity (c : List K) (order : ℕ) (t : K) : K :=
  ((List.range (order - 1)).map fun i : ℕ =>
    t ^ i * (((i + 1 : ℕ) : K) * c.getD (order - 2 - i) 0)).sum

def axisAcceleration (c : List K) (order : ℕ) (t : K) : K :=
  ((List.range (order - 2)).map fun i : ℕ =>
    t ^ i * ((((i + 2) * (i + 1) : ℕ) : K) * c.getD (order - 3 - i) 0)).sum

/-- An evaluation of segment `idx`, which reads the coefficients of every axis up to the number of
those of `x`, and needs at least `low` of them. -/
def evaluateSegment (axis : List K → ℕ → K → K) (low : ℕ) (traj : PolynomialTraj K) (idx : ℕ)
    (t : K) : Option (Vec3 K) := do
  let cx ← traj.cxs[idx]?
  let cy ← traj.cys[idx]?
  let cz ← traj.czs[idx]?
  let order := cx.length
  if order < low ∨ cy.length < order ∨ cz.length < order then none
  else some ⟨axis cx order t, axis cy order t, axis cz order t⟩

def evaluate (traj : PolynomialTraj K) (t : K) : Option (Vec3 K) := do
  let found ← findSegment traj.times t 0
  traj.evaluateSegment axisPosition 0 found.1 found.2

def evaluateVel (traj : PolynomialTraj K) (t : K) : Option (Vec3 K) := do
  let found ← findSegment traj.times t 0
  traj.evaluateSegment axisVelocity 1 found.1 found.2

def evaluateAcc (traj : PolynomialTraj K) (t : K) : Option (Vec3 K) := do
  let found ← findSegment traj.times t 0
  traj.evaluateSegment axisAcceleration 2 found.1 found.2

/-- The start of segment `k`. -/
def startTime (times : List K) (k : ℕ) : K := (times.take k).sum

theorem findSegment_eq {times : List K} {t : K} {k : ℕ} (inside : k < times.length)
    (passed : ∀ j < k, startTime times (j + 1) + 1 / 10000 < t)
    (reaches : t ≤ startTime times (k + 1) + 1 / 10000) (idx : ℕ) :
    findSegment times t idx = some (idx + k, t - startTime times k) := by
  induction times generalizing t k idx with
  | nil => simp at inside
  | cons time rest ih =>
      have first : ∀ j, startTime (time :: rest) (j + 1) = time + startTime rest j := by
        intro j
        rw [startTime, List.take_succ_cons, List.sum_cons, startTime]
      rw [findSegment]
      cases k with
      | zero =>
          have zero : startTime rest 0 = 0 := by rw [startTime, List.take_zero, List.sum_nil]
          rw [first, zero, add_zero] at reaches
          rw [if_neg (not_lt.mpr reaches), startTime, List.take_zero, List.sum_nil, sub_zero]
          rfl
      | succ k =>
          have zero : startTime rest 0 = 0 := by rw [startTime, List.take_zero, List.sum_nil]
          have head := passed 0 (Nat.succ_pos k)
          rw [first, zero, add_zero] at head
          rw [if_pos head, ih (Nat.lt_of_succ_lt_succ inside) _ _ (idx + 1), first]
          · congr 2
            · omega
            · ring
          · intro j before
            have next := passed (j + 1) (by omega)
            rw [first] at next
            linarith
          · rw [first] at reaches
            linarith

end

theorem startTime_succ {times : List K} {k : ℕ} (inside : k < times.length) :
    startTime times (k + 1) = startTime times k + times.getD k 0 := by
  rw [startTime, startTime, List.sum_take_succ _ _ inside, List.getD_eq_getElem?_getD,
    List.getElem?_eq_getElem inside, Option.getD_some]

variable [LinearOrder K] [IsStrictOrderedRing K]

theorem startTime_le {times : List K} (positive : ∀ time ∈ times, 0 < time) {i j : ℕ}
    (before : i ≤ j) (inside : j ≤ times.length) : startTime times i ≤ startTime times j := by
  induction j, before using Nat.le_induction with
  | base => exact le_rfl
  | succ j _ ih =>
      have earlier := ih (by omega)
      have time := positive _ (List.getElem_mem (show j < times.length by omega))
      rw [startTime_succ (by omega), List.getD_eq_getElem?_getD,
        List.getElem?_eq_getElem (by omega), Option.getD_some]
      linarith

end Evaluation

section Junctions

variable {times : List ℝ} {k : ℕ}

theorem eventually_findSegment (positive : ∀ time ∈ times, 0 < time) (inside : k < times.length)
    (long : 0 < k → 1 / 10000 < times.getD k 0) :
    ∀ᶠ t in 𝓝 (startTime times (k + 1)),
      findSegment times t 0 = some (k, t - startTime times k) := by
  have below : ∀ᶠ t in 𝓝 (startTime times (k + 1)), t < startTime times (k + 1) + 1 / 10000 :=
    eventually_lt_nhds (by norm_num)
  have above : ∀ᶠ t in 𝓝 (startTime times (k + 1)), 0 < k → startTime times k + 1 / 10000 < t := by
    rcases Nat.eq_zero_or_pos k with rfl | later
    · exact .of_forall fun t absurd_later => by omega
    · have apart : startTime times k + 1 / 10000 < startTime times (k + 1) := by
        have length := long later
        rw [startTime_succ inside]
        linarith
      filter_upwards [eventually_gt_nhds apart] with t after _
      exact after
  filter_upwards [below, above] with t before after
  have found := findSegment_eq inside (fun j earlier => ?_) before.le 0
  · rwa [Nat.zero_add] at found
  · have order := startTime_le positive (show j + 1 ≤ k by omega) inside.le
    have passed := after (by omega)
    linarith

theorem findSegment_end (positive : ∀ time ∈ times, 0 < time) (inside : k < times.length)
    (long : 0 < k → 1 / 10000 < times.getD k 0) :
    findSegment times (startTime times (k + 1)) 0 = some (k, times.getD k 0) := by
  rw [(eventually_findSegment positive inside long).self_of_nhds, startTime_succ inside,
    add_sub_cancel_left]

theorem findSegment_zero (positive : ∀ time ∈ times, 0 < time) (some_time : 0 < times.length) :
    findSegment times 0 0 = some (0, 0) := by
  have bound := startTime_le positive (Nat.zero_le 1) some_time
  rw [startTime, List.take_zero, List.sum_nil] at bound
  have found := findSegment_eq some_time (t := 0) (fun j earlier => absurd earlier (by omega))
    (by linarith) 0
  rwa [startTime, List.take_zero, List.sum_nil, sub_zero, Nat.zero_add] at found

/-- The evaluation succeeds around `t` and each of its coordinates is continuous there. -/
def ContinuousEvaluation (evaluation : ℝ → Option (Vec3 ℝ)) (t : ℝ) : Prop :=
  ∃ reading : ℝ → Vec3 ℝ, (∀ᶠ s in 𝓝 t, evaluation s = some (reading s)) ∧
    ∀ j : Axis, ContinuousAt (fun s => (reading s).get j) t

theorem ContinuousEvaluation.eq_of_after {evaluation : ℝ → Option (Vec3 ℝ)} {t bound : ℝ}
    {v : Vec3 ℝ} {after : ℝ → Vec3 ℝ} (continuous : ContinuousEvaluation evaluation t)
    (value : evaluation t = some v) (later : t < bound)
    (reads : ∀ s, t < s → s < bound → evaluation s = some (after s))
    (smooth : ∀ j : Axis, Continuous fun s => (after s).get j) : after t = v := by
  obtain ⟨reading, near, continuous⟩ := continuous
  have here : reading t = v := by
    rw [near.self_of_nhds] at value
    exact Option.some.inj value
  apply Vec3.ext_get
  intro j
  have same : (fun s => (after s).get j) =ᶠ[𝓝[>] t] fun s => (reading s).get j := by
    filter_upwards [Ioo_mem_nhdsGT later, near.filter_mono nhdsWithin_le_nhds]
      with s between read
    rw [reads s between.1 between.2] at read
    rw [Option.some.inj read]
  have limit : Tendsto (fun s => (reading s).get j) (𝓝[>] t) (𝓝 (v.get j)) := by
    rw [← here]
    exact (continuous j).tendsto.mono_left nhdsWithin_le_nhds
  have right := ((smooth j).tendsto t).mono_left (nhdsWithin_le_nhds (s := Set.Ioi t))
  exact tendsto_nhds_unique right (limit.congr' same.symm)

theorem continuousEvaluation_of_segment {evaluation : ℝ → Option (Vec3 ℝ)}
    {segment : ℕ → ℝ → Option (Vec3 ℝ)} {reading : ℝ → Vec3 ℝ}
    (reads : ∀ t, evaluation t =
      (findSegment times t 0).bind fun found => segment found.1 found.2)
    (piece : ∀ t, segment k t = some (reading t))
    (smooth : ∀ j : Axis, Continuous fun t => (reading t).get j)
    (positive : ∀ time ∈ times, 0 < time) (inside : k < times.length)
    (long : 0 < k → 1 / 10000 < times.getD k 0) :
    ContinuousEvaluation evaluation (startTime times (k + 1)) := by
  refine ⟨fun t => reading (t - startTime times k), ?_, fun j => ?_⟩
  · filter_upwards [eventually_findSegment positive inside long] with t found
    rw [reads, found, Option.bind_some, piece]
  · exact ((smooth j).comp (continuous_sub_right (startTime times k))).continuousAt

end Junctions

end PolynomialTraj

end RobocupDrone.Planner
