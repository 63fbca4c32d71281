import Mathlib.Tactic.IntervalCases
import RobocupDrone.Planner.SplineFit
import RobocupDrone.Planner.SplineSpeed

/-! The collision checks after an optimisation: the loops of `rebound_optimize` and
`refine_optimize` over times in the first two thirds of the trajectory. -/

namespace RobocupDrone.Optimizer

open Geometry Planner UniformBspline Filter Topology

section Loops

variable {K : Type} [Field K] [LinearOrder K]

/-- What a check reads: `cps_.points`, `bspline_interval_` and the map. -/
structure SamplingInput (K : Type) where
  points : List (Vec3 K)
  bsplineInterval : K
  resolution : K
  occupied : Vec3 K → Bool

/-- `t_step`. The division by a chord of length zero is infinite, which is the inner `none`. -/
def tStep (sqrt : K → K) (resolution : K) (traj : UniformBspline K) (tm tmp : K) :
    Option (Option K) := do
  let last ← traj.evaluateDeBoorT tmp
  let first ← traj.evaluateDeBoorT tm
  let chord := (last - first).lengthBy sqrt
  some (if chord = 0 then none else some ((tmp - tm) / (chord / resolution)))

/-- The loop over `t < last`: the sampled times, up to the first one in an obstacle, and whether
there is one. -/
def sampleLoop (occupied : Vec3 K → Bool) (traj : UniformBspline K) (step : Option K) (last : K) :
    ℕ → K → Option (List K × Bool)
  | 0, _ => none
  | fuel + 1, t =>
      if t < last then do
        let place ← traj.evaluateDeBoorT t
        if occupied place then some ([t], true)
        else match step with
          -- `t` becomes infinite
          | none => some ([t], false)
          | some length => do
              let later ← sampleLoop occupied traj step last fuel (t + length)
              some (t :: later.1, later.2)
      else some ([], false)

def sampleTrajectory (sqrt : K → K) (inp : SamplingInput K) (fuel : ℕ) :
    Option (List K × Bool) := do
  let traj ← setUniformBspline inp.points 3 inp.bsplineInterval
  match ← traj.getTimeSpan with
  | none => none
  | some (tm, tmp) => do
      let step ← tStep sqrt inp.resolution traj tm tmp
      sampleLoop inp.occupied traj step (tmp * 2 / 3) fuel tm

/-- Phase 2 of the collision check: the sampled times and `flag_occ`, or `none` for `return false`
because of a collision close to the start. -/
def reboundOptimizePhase2 (sqrt : K → K) (inp : SamplingInput K) (fuel : ℕ) :
    Option (List K × Option Bool) :=
  (sampleTrajectory sqrt inp fuel).map fun sampled =>
    match sampled with
    | (times, true) =>
        if times.getLast?.any fun t => decide (t ≤ inp.bsplineInterval) then (times, none)
        else (times, some true)
    | (times, false) => (times, some false)

/-- The sampled times and `flag_safe` after the check. -/
def refineOptimizeCheck (sqrt : K → K) (inp : SamplingInput K) (flagSafe : Bool) (fuel : ℕ) :
    Option (List K × Bool) :=
  (sampleTrajectory sqrt inp fuel).map fun sampled => (sampled.1, flagSafe && !sampled.2)

end Loops

section Times

variable {K : Type} [Field K] [LinearOrder K] {occupied : Vec3 K → Bool}
  {traj : UniformBspline K} {last : K}

theorem sampleLoop_times {length : K} {fuel : ℕ} {t : K} {times : List K} {hit : Bool}
    (sampled : sampleLoop occupied traj (some length) last fuel t = some (times, hit)) :
    ∃ n : ℕ, (times = (List.range n).map fun i : ℕ => t + i * length) ∧
      (∀ i < n, t + (i : K) * length < last) ∧ (hit = false → last ≤ t + n * length) := by
  induction fuel generalizing t times with
  | zero => simp [sampleLoop] at sampled
  | succ fuel ih =>
      rw [sampleLoop] at sampled
      split_ifs at sampled with before
      · simp only [Option.bind_eq_bind, Option.bind_eq_some_iff] at sampled
        rcases sampled with ⟨place, _, sampled⟩
        split_ifs at sampled with blocked
        · simp only [Option.some.injEq, Prod.mk.injEq] at sampled
          rcases sampled with ⟨rfl, rfl⟩
          refine ⟨1, by simp, ?_, by simp⟩
          intro i bound
          rw [Nat.lt_one_iff.mp bound, Nat.cast_zero, zero_mul, add_zero]
          exact before
        · simp only [Option.bind_eq_some_iff, Option.some.injEq, Prod.mk.injEq] at sampled
          rcases sampled with ⟨⟨later, hit'⟩, rest, rfl, rfl⟩
          rcases ih rest with ⟨n, same, inside, reaches⟩
          have shift : ∀ i : ℕ, t + length + (i : K) * length = t + ((i + 1 : ℕ) : K) * length := by
            intro i
            push_cast
            ring
          simp only [shift] at same inside reaches
          refine ⟨n + 1, ?_, ?_, reaches⟩
          · rw [same, List.range_succ_eq_map, List.map_cons, List.map_map, Nat.cast_zero, zero_mul,
              add_zero]
            rfl
          · intro i bound
            cases i with
            | zero => rwa [Nat.cast_zero, zero_mul, add_zero]
            | succ i => exact inside i (by omega)
      · simp only [Option.some.injEq, Prod.mk.injEq] at sampled
        rcases sampled with ⟨rfl, rfl⟩
        refine ⟨0, rfl, ?_, ?_⟩
        · intro i bound
          omega
        · intro _
          rw [Nat.cast_zero, zero_mul, add_zero]
          exact not_lt.mp before

theorem sampleLoop_infinite {fuel : ℕ} {t : K} (before : t < last) {times : List K} {hit : Bool}
    (sampled : sampleLoop occupied traj none last fuel t = some (times, hit)) : times = [t] := by
  cases fuel with
  | zero => simp [sampleLoop] at sampled
  | succ fuel =>
      rw [sampleLoop, if_pos before] at sampled
      simp only [Option.bind_eq_bind, Option.bind_eq_some_iff] at sampled
      rcases sampled with ⟨place, _, sampled⟩
      split_ifs at sampled
      · simp only [Option.some.injEq, Prod.mk.injEq] at sampled
        exact sampled.1.symm
      · simp only [Option.some.injEq, Prod.mk.injEq] at sampled
        exact sampled.1.symm

theorem sampleLoop_free (free : ∀ place, occupied place = false) {step : Option K} {fuel : ℕ}
    {t : K} {times : List K} {hit : Bool}
    (sampled : sampleLoop occupied traj step last fuel t = some (times, hit)) : hit = false := by
  induction fuel generalizing t times with
  | zero => simp [sampleLoop] at sampled
  | succ fuel ih =>
      rw [sampleLoop.eq_def] at sampled
      simp only [free, Option.bind_eq_bind, Bool.false_eq_true, if_false] at sampled
      split_ifs at sampled with before
      · rw [Option.bind_eq_some_iff] at sampled
        rcases sampled with ⟨place, _, sampled⟩
        cases step with
        | none =>
            simp only [Option.some.injEq, Prod.mk.injEq] at sampled
            exact sampled.2.symm
        | some length =>
            simp only [Option.bind_eq_some_iff, Option.some.injEq, Prod.mk.injEq] at sampled
            rcases sampled with ⟨⟨later, hit'⟩, rest, _, rfl⟩
            exact ih rest
      · simp only [Option.some.injEq, Prod.mk.injEq] at sampled
        exact sampled.2.symm

theorem isSome_sampleLoop (occupied : Vec3 K → Bool)
    (total : ∀ t, (traj.evaluateDeBoorT t).isSome) {step : Option K} {fuel : ℕ}
    {t : K} (enough : ∀ length, step = some length → last ≤ t + fuel * length) :
    (sampleLoop occupied traj step last (fuel + 1) t).isSome := by
  induction fuel generalizing t with
  | zero =>
      rw [sampleLoop.eq_def]
      dsimp only
      split_ifs with before
      · rcases Option.isSome_iff_exists.mp (total t) with ⟨place, evaluated⟩
        rw [evaluated, Option.bind_eq_bind, Option.bind_some]
        split_ifs
        · rfl
        · cases step with
          | none => rfl
          | some length =>
              have reached := enough length rfl
              rw [Nat.cast_zero, zero_mul, add_zero] at reached
              exact absurd before (not_lt.mpr reached)
      · rfl
  | succ fuel ih =>
      rw [sampleLoop.eq_def]
      dsimp only
      split_ifs with before
      · rcases Option.isSome_iff_exists.mp (total t) with ⟨place, evaluated⟩
        rw [evaluated, Option.bind_eq_bind, Option.bind_some]
        split_ifs
        · rfl
        · cases step with
          | none => rfl
          | some length =>
              have later : ∀ other, some length = some other →
                  last ≤ t + length + fuel * other := by
                intro other same
                rw [← Option.some.inj same]
                have reached := enough length rfl
                refine reached.trans_eq ?_
                push_cast
                ring
              rcases Option.isSome_iff_exists.mp (ih later) with ⟨result, rest⟩
              dsimp only
              rw [rest]
              rfl
      · rfl

end Times

section Gaps

noncomputable def way (traj : UniformBspline ℝ) (s t : ℝ) : ℝ :=
  ((traj.evaluateDeBoorT t).getD 0 - (traj.evaluateDeBoorT s).getD 0).lengthBy Real.sqrt

/-- Neighbouring samples are at most a voxel apart. When the trajectory is accepted, so is every
point from the last sample in front of it. -/
structure Gapless (traj : UniformBspline ℝ) (resolution tm last : ℝ) (times : List ℝ)
    (accepted : Prop) : Prop where
  consecutive : ∀ (i : ℕ) (s t : ℝ), times[i]? = some s → times[i + 1]? = some t →
    way traj s t ≤ resolution
  covered : accepted → ∀ t, tm ≤ t → t < last →
    ∃ s ∈ times, s ≤ t ∧ (∀ r ∈ times, r ≤ t → r ≤ s) ∧ way traj s t ≤ resolution

/-- On every map, both checks end and leave no gap in the first two thirds. -/
def SamplesGapless (points : List (Vec3 ℝ)) (interval : ℝ) (traj : UniformBspline ℝ)
    (tm tmp : ℝ) : Prop :=
  ∀ (resolution : ℝ) (occupied : Vec3 ℝ → Bool) (flagSafe : Bool), 0 < resolution →
    ∃ fuel,
      (∃ times flagOcc, reboundOptimizePhase2 Real.sqrt ⟨points, interval, resolution, occupied⟩
          fuel = some (times, flagOcc) ∧
        Gapless traj resolution tm (tmp * 2 / 3) times (flagOcc = some false)) ∧
      ∃ times safe, refineOptimizeCheck Real.sqrt ⟨points, interval, resolution, occupied⟩ flagSafe
          fuel = some (times, safe) ∧
        Gapless traj resolution tm (tmp * 2 / 3) times (safe = true)

/-- In the first two thirds the trajectory is nowhere faster than a straight and even flight between
its ends. -/
def SpeedWithinChord (traj : UniformBspline ℝ) (tm tmp : ℝ) : Prop :=
  ∃ d first last, traj.getDerivative = some d ∧ traj.evaluateDeBoorT tm = some first ∧
    traj.evaluateDeBoorT tmp = some last ∧
      ∀ t, tm ≤ t → t < tmp * 2 / 3 → ∃ v, d.evaluateDeBoorT t = some v ∧
        v.lengthBy Real.sqrt * (tmp - tm) ≤ (last - first).lengthBy Real.sqrt

theorem Gapless.mono {traj : UniformBspline ℝ} {resolution tm last : ℝ} {times : List ℝ}
    {accepted other : Prop} (gapless : Gapless traj resolution tm last times accepted)
    (weaker : other → accepted) : Gapless traj resolution tm last times other :=
  ⟨gapless.consecutive, fun holds => gapless.covered (weaker holds)⟩

theorem Gapless.of_even {traj : UniformBspline ℝ} {resolution last speed length : ℝ}
    {times : List ℝ} {accepted : Prop} {n : ℕ} (nonneg : 0 ≤ speed) (ahead : 0 < length)
    (even : speed * length = resolution)
    (slow : ∀ {s t}, 0 ≤ s → s ≤ t → t ≤ last → way traj s t ≤ speed * (t - s))
    (same : times = (List.range n).map fun i : ℕ => i * length)
    (before : ∀ i < n, (i : ℝ) * length < last) (reaches : accepted → last ≤ n * length) :
    Gapless traj resolution 0 last times accepted := by
  have sample : ∀ {i : ℕ} {s : ℝ}, times[i]? = some s → i < n ∧ s = i * length := by
    intro i s present
    have bound := (List.getElem?_eq_some_iff.mp present).1
    rw [same, List.length_map, List.length_range] at bound
    rw [same, List.getElem?_map, List.getElem?_range bound, Option.map_some,
      Option.some.injEq] at present
    exact ⟨bound, present.symm⟩
  constructor
  · intro i s t at_s at_t
    rcases sample at_s with ⟨_, rfl⟩
    rcases sample at_t with ⟨bound, rfl⟩
    have moved := slow (s := i * length) (t := ((i + 1 : ℕ) : ℝ) * length) (by positivity)
      (by push_cast; linarith) (before (i + 1) bound).le
    refine moved.trans_eq ?_
    rw [← even]
    push_cast
    ring
  · intro accepted t low high
    have below := Nat.floor_le (div_nonneg low ahead.le)
    have above := Nat.lt_floor_add_one (t / length)
    rw [le_div_iff₀ ahead] at below
    rw [div_lt_iff₀ ahead] at above
    have bound : ⌊t / length⌋₊ < n := by
      by_contra beyond
      have more : (n : ℝ) ≤ ⌊t / length⌋₊ := by exact_mod_cast not_lt.mp beyond
      have farther := mul_le_mul_of_nonneg_right more ahead.le
      linarith [reaches accepted]
    refine ⟨⌊t / length⌋₊ * length, ?_, below, ?_, ?_⟩
    · rw [same]
      exact List.mem_map.mpr ⟨_, List.mem_range.mpr bound, rfl⟩
    · intro r member passed
      rw [same] at member
      rcases List.mem_map.mp member with ⟨j, _, rfl⟩
      have earlier : j ≤ ⌊t / length⌋₊ := Nat.le_floor ((le_div_iff₀ ahead).mpr passed)
      exact mul_le_mul_of_nonneg_right (by exact_mod_cast earlier) ahead.le
    · refine (slow (by positivity) below high.le).trans ?_
      rw [← even]
      apply mul_le_mul_of_nonneg_left _ nonneg
      linarith

theorem samplesGapless_iff {points : List (Vec3 ℝ)} {interval : ℝ} {traj : UniformBspline ℝ}
    {tm tmp : ℝ} : SamplesGapless points interval traj tm tmp ↔
      ∀ (resolution : ℝ) (occupied : Vec3 ℝ → Bool), 0 < resolution → ∃ fuel times hit,
        sampleTrajectory Real.sqrt ⟨points, interval, resolution, occupied⟩ fuel =
          some (times, hit) ∧ Gapless traj resolution tm (tmp * 2 / 3) times (hit = false) := by
  constructor
  · intro gapless resolution occupied positive
    rcases gapless resolution occupied true positive with
      ⟨fuel, _, times, safe, checked, without_gaps⟩
    rcases Option.map_eq_some_iff.mp checked with ⟨⟨times', hit⟩, sampled, same⟩
    rw [Prod.mk.injEq] at same
    rcases same with ⟨rfl, rfl⟩
    exact ⟨fuel, times', hit, sampled, without_gaps.mono (by simp)⟩
  · intro gapless resolution occupied flagSafe positive
    rcases gapless resolution occupied positive with ⟨fuel, times, hit, sampled, without_gaps⟩
    refine ⟨fuel, ?_, ?_⟩
    · rw [reboundOptimizePhase2, sampled, Option.map_some]
      cases hit with
      | false => exact ⟨times, some false, rfl, without_gaps.mono fun _ => rfl⟩
      | true =>
          dsimp only
          split_ifs
          · exact ⟨times, none, rfl, without_gaps.mono (by simp)⟩
          · exact ⟨times, some true, rfl, without_gaps.mono (by simp)⟩
    · rw [refineOptimizeCheck, sampled, Option.map_some]
      exact ⟨times, _, rfl, without_gaps.mono (by simp)⟩

end Gaps

section Uniform

variable {points : List (Vec3 ℝ)} {ts : ℝ}

theorem evaluateDeBoorT_uniform (ctp : List (Vec3 ℝ)) (degree : ℕ) (ts t : ℝ) :
    (uniform ctp degree ts).evaluateDeBoorT t = (uniform ctp degree ts).evaluateDeBoor t := by
  rw [evaluateDeBoorT, uniform_start, Option.bind_eq_bind, Option.bind_some, add_zero]

theorem way_uniform (s t : ℝ) : way (uniform points 3 ts) s t =
    ((uniform points 3 ts).place t - (uniform points 3 ts).place s).lengthBy Real.sqrt := by
  rw [way, evaluateDeBoorT_uniform, evaluateDeBoorT_uniform, place, place]

theorem getTimeSpan_uniform (points : List (Vec3 ℝ)) (ts : ℝ) :
    (uniform points 3 ts).getTimeSpan = some (some (0, ((points.length : ℝ) - 3) * ts)) := by
  have start := uniform_start points 3 ts
  have last := uniform_knot points 3 ts (show points.length < points.length + 3 + 1 by omega)
  have index : (uniform points 3 ts).m - (uniform points 3 ts).p = (points.length : ℤ) := by
    simp only [uniform]
    omega
  have finish : entry (uniform points 3 ts).u (points.length : ℤ) =
      some (((points.length : ℝ) - 3) * ts) := by
    rw [entry_natCast, getElem?_getD (by rw [uniform_length]; omega) 0, last]
    norm_num
  have small : ¬((uniform points 3 ts).p > (uniform points 3 ts).u.length ∨
      (uniform points 3 ts).m - (uniform points 3 ts).p > (uniform points 3 ts).u.length) := by
    rw [index, uniform_length]
    simp only [uniform]
    omega
  rw [getTimeSpan, if_neg small, start, index, finish]
  rfl

noncomputable def chordSpeed (points : List (Vec3 ℝ)) (ts : ℝ) : ℝ :=
  way (uniform points 3 ts) 0 (((points.length : ℝ) - 3) * ts) / (((points.length : ℝ) - 3) * ts)

noncomputable def stepOf (points : List (Vec3 ℝ)) (ts resolution : ℝ) : Option ℝ :=
  let duration := ((points.length : ℝ) - 3) * ts
  let chord := way (uniform points 3 ts) 0 duration
  if chord = 0 then none else some (duration / (chord / resolution))

theorem sampleTrajectory_uniform (positive : 0 < ts) (enough : 3 < points.length)
    (resolution : ℝ) (occupied : Vec3 ℝ → Bool) (fuel : ℕ) :
    sampleTrajectory Real.sqrt ⟨points, ts, resolution, occupied⟩ fuel =
      sampleLoop occupied (uniform points 3 ts) (stepOf points ts resolution)
        (((points.length : ℝ) - 3) * ts * 2 / 3) fuel 0 := by
  have regular := uniform_regular positive points 3
  have total := fun t => regular.isSome_evaluateDeBoor enough t
  rcases Option.isSome_iff_exists.mp (total 0) with ⟨first, at_first⟩
  rcases Option.isSome_iff_exists.mp (total (((points.length : ℝ) - 3) * ts)) with ⟨last, at_last⟩
  rw [← evaluateDeBoorT_uniform] at at_first at_last
  have built : setUniformBspline points 3 ts = some (uniform points 3 ts) :=
    setUniformBspline_eq points 3 ts
  simp only [sampleTrajectory, built, getTimeSpan_uniform, tStep, stepOf, way, at_first, at_last,
    Option.bind_eq_bind, Option.bind_some, Option.getD_some, sub_zero]

theorem derivative_uniform (positive : 0 < ts) (nonempty : points ≠ []) :
    (uniform points 3 ts).derivative 2 = uniform (speeds ts points) 2 ts := by
  have regular := uniform_regular positive points 3
  have first := regular.getDerivative_eq (q := 2) nonempty
  rw [uniform_getDerivative positive nonempty] at first
  exact (Option.some.inj first).symm

theorem speedWithinChord_uniform (positive : 0 < ts) (enough : 3 < points.length) {tmp : ℝ} :
    SpeedWithinChord (uniform points 3 ts) 0 tmp ↔ ∀ t, 0 ≤ t → t < tmp * 2 / 3 →
      (((uniform points 3 ts).derivative 2).place t).lengthBy Real.sqrt * tmp ≤
        way (uniform points 3 ts) 0 tmp := by
  have regular := uniform_regular positive points 3
  have nonempty : points ≠ [] := List.ne_nil_of_length_pos (by omega)
  have slower := uniform_regular positive (speeds ts points) 2
  have columns : 2 < (uniform (speeds ts points) 2 ts).controlPoints.length := by
    change 2 < (speeds ts points).length
    rw [length_speeds]
    omega
  rw [derivative_uniform positive nonempty]
  constructor
  · rintro ⟨d, first, last, derived, at_first, at_last, slow⟩ t low high
    rw [uniform_getDerivative positive nonempty, Option.some.injEq] at derived
    rcases slow t low high with ⟨v, evaluated, bound⟩
    rw [← derived, evaluateDeBoorT_uniform] at evaluated
    rw [place, evaluated, way, at_first, at_last]
    simpa using bound
  · intro slow
    rcases Option.isSome_iff_exists.mp (regular.isSome_evaluateDeBoor enough 0) with
      ⟨first, at_first⟩
    rcases Option.isSome_iff_exists.mp (regular.isSome_evaluateDeBoor enough tmp) with
      ⟨last, at_last⟩
    rw [← evaluateDeBoorT_uniform] at at_first at_last
    refine ⟨_, first, last, uniform_getDerivative positive nonempty, at_first, at_last, ?_⟩
    intro t low high
    rcases Option.isSome_iff_exists.mp (slower.isSome_evaluateDeBoor columns t) with
      ⟨v, evaluated⟩
    have bound := slow t low high
    rw [place, evaluated, way, at_first, at_last] at bound
    refine ⟨v, by rw [evaluateDeBoorT_uniform, evaluated], ?_⟩
    simpa using bound

theorem way_nonneg (traj : UniformBspline ℝ) (s t : ℝ) : 0 ≤ way traj s t :=
  Vec3.lengthBy_nonneg Vec3.isSqrt_sqrt _

theorem duration_pos (positive : 0 < ts) (enough : 3 < points.length) :
    0 < ((points.length : ℝ) - 3) * ts := by
  have larger : (3 : ℝ) < points.length := by exact_mod_cast enough
  exact mul_pos (sub_pos.mpr larger) positive

theorem chordSpeed_nonneg (positive : 0 < ts) (enough : 3 < points.length) :
    0 ≤ chordSpeed points ts :=
  div_nonneg (way_nonneg _ _ _) (duration_pos positive enough).le

theorem knots_uniform (points : List (Vec3 ℝ)) (ts : ℝ) :
    (uniform points 3 ts).u.getD 3 0 = 0 ∧
      (uniform points 3 ts).u.getD points.length 0 = ((points.length : ℝ) - 3) * ts := by
  rw [uniform_knot points 3 ts (by omega), uniform_knot points 3 ts (by omega)]
  norm_num

theorem stepOf_cases (positive : 0 < ts) (enough : 3 < points.length) {resolution : ℝ}
    (voxel : 0 < resolution) :
    (chordSpeed points ts = 0 ∧ stepOf points ts resolution = none) ∨
      ∃ length, stepOf points ts resolution = some length ∧ 0 < length ∧
        chordSpeed points ts * length = resolution := by
  have duration := duration_pos positive enough
  rw [chordSpeed, stepOf]
  split_ifs with closed
  · left
    rw [closed, zero_div]
    exact ⟨rfl, rfl⟩
  · right
    have chord : 0 < way (uniform points 3 ts) 0 (((points.length : ℝ) - 3) * ts) :=
      lt_of_le_of_ne (way_nonneg _ _ _) (Ne.symm closed)
    refine ⟨_, rfl, div_pos duration (div_pos chord voxel), ?_⟩
    rw [div_mul_div_cancel₀ duration.ne', div_div_cancel₀ chord.ne']

theorem way_le (positive : 0 < ts) (enough : 3 < points.length) {last : ℝ}
    (inside : last ≤ ((points.length : ℝ) - 3) * ts)
    (slow : ∀ t, 0 ≤ t → t < last →
      (((uniform points 3 ts).derivative 2).place t).lengthBy Real.sqrt ≤ chordSpeed points ts)
    {s t : ℝ} (low : 0 ≤ s) (between : s ≤ t) (high : t ≤ last) :
    way (uniform points 3 ts) s t ≤ chordSpeed points ts * (t - s) := by
  have regular : Regular (1 + 2) (uniform points 3 ts) := uniform_regular positive points 3
  rcases knots_uniform points ts with ⟨first, final⟩
  rw [way_uniform]
  exact regular.lengthBy_sub_le enough (inside.trans_eq final.symm)
    (fun r after before => slow r (first ▸ after) before) (first.trans_le low) between high

theorem gapless_of_slow (positive : 0 < ts) (enough : 3 < points.length) {last : ℝ}
    (inside : last ≤ ((points.length : ℝ) - 3) * ts) (starts : 0 < last)
    (slow : ∀ t, 0 ≤ t → t < last →
      (((uniform points 3 ts).derivative 2).place t).lengthBy Real.sqrt ≤ chordSpeed points ts)
    {resolution : ℝ} (voxel : 0 < resolution) {occupied : Vec3 ℝ → Bool} {fuel : ℕ}
    {times : List ℝ} {hit : Bool}
    (sampled : sampleLoop occupied (uniform points 3 ts) (stepOf points ts resolution) last fuel 0 =
      some (times, hit)) :
    Gapless (uniform points 3 ts) resolution 0 last times (hit = false) := by
  rcases stepOf_cases positive enough voxel with ⟨still, infinite⟩ | ⟨length, step, ahead, even⟩
  · rw [infinite] at sampled
    rw [sampleLoop_infinite starts sampled]
    constructor
    · intro i s t _ next
      simp at next
    · intro _ t low high
      have bound := way_le positive enough inside slow le_rfl low high.le
      rw [still, zero_mul] at bound
      refine ⟨0, List.mem_singleton_self 0, low, ?_, bound.trans voxel.le⟩
      intro r member _
      exact (List.mem_singleton.mp member).le
  · rw [step] at sampled
    rcases sampleLoop_times sampled with ⟨n, same, before, reaches⟩
    simp only [zero_add] at same before reaches
    exact .of_even (chordSpeed_nonneg positive enough) ahead even
      (fun low between high => way_le positive enough inside slow low between high) same before
      reaches

theorem tendsto_shrinking (c : ℝ) :
    Tendsto (fun n : ℕ => c * (1 / ((n : ℝ) + 1))) atTop (𝓝 0) := by
  have unit : Tendsto (fun n : ℕ => 1 / ((n : ℝ) + 1)) atTop (𝓝 0) :=
    tendsto_one_div_add_atTop_nhds_zero_nat
  have scaled := unit.const_mul c
  rwa [mul_zero] at scaled

theorem shrinking_pos {c : ℝ} (ahead : 0 < c) (n : ℕ) : 0 < c * (1 / ((n : ℝ) + 1)) :=
  mul_pos ahead Nat.one_div_pos_of_nat

theorem speed_le_of_ways (positive : 0 < ts) (enough : 3 < points.length) {t c : ℝ} (low : 0 ≤ t)
    (high : t < ((points.length : ℝ) - 3) * ts) (ahead : 0 < c)
    (close : ∀ᶠ n : ℕ in atTop, way (uniform points 3 ts) t (t + c * (1 / ((n : ℝ) + 1))) ≤
      chordSpeed points ts * (c * (1 / ((n : ℝ) + 1)))) :
    (((uniform points 3 ts).derivative 2).place t).lengthBy Real.sqrt ≤ chordSpeed points ts := by
  have regular : Regular (1 + 2) (uniform points 3 ts) := uniform_regular positive points 3
  rcases knots_uniform points ts with ⟨first, final⟩
  simp only [way_uniform] at close
  exact regular.lengthBy_velocity_le enough (chordSpeed_nonneg positive enough)
    (first.trans_le low) (high.trans_eq final.symm) (shrinking_pos ahead) (tendsto_shrinking c)
    close

section Fast

variable (gapless : ∀ (resolution : ℝ) (occupied : Vec3 ℝ → Bool), 0 < resolution →
  ∃ fuel times hit,
    sampleTrajectory Real.sqrt ⟨points, ts, resolution, occupied⟩ fuel = some (times, hit) ∧
      Gapless (uniform points 3 ts) resolution 0 (((points.length : ℝ) - 3) * ts * 2 / 3) times
        (hit = false))
include gapless

theorem way_eq_zero_of_gapless (positive : 0 < ts) (enough : 3 < points.length)
    (still : chordSpeed points ts = 0) {t : ℝ} (low : 0 ≤ t)
    (high : t < ((points.length : ℝ) - 3) * ts * 2 / 3) : way (uniform points 3 ts) 0 t = 0 := by
  apply le_antisymm _ (way_nonneg _ _ _)
  refine le_of_forall_pos_le_add fun resolution voxel => ?_
  rcases gapless resolution (fun _ => false) voxel with ⟨fuel, times, hit, sampled, without_gaps⟩
  rw [sampleTrajectory_uniform positive enough] at sampled
  have free := sampleLoop_free (fun _ => rfl) sampled
  rcases stepOf_cases positive enough voxel with ⟨_, infinite⟩ | ⟨length, _, _, even⟩
  · rw [infinite] at sampled
    have alone := sampleLoop_infinite (low.trans_lt high) sampled
    rcases without_gaps.covered free t low high with ⟨s, member, _, _, bound⟩
    rw [alone, List.mem_singleton] at member
    rw [zero_add, ← member]
    exact bound
  · rw [still, zero_mul] at even
    exact absurd even voxel.ne

theorem way_le_of_gapless (positive : 0 < ts) (enough : 3 < points.length)
    (moving : 0 < chordSpeed points ts) {length : ℝ} (ahead : 0 < length) {i : ℕ}
    (inside : ((i + 1 : ℕ) : ℝ) * length < ((points.length : ℝ) - 3) * ts * 2 / 3) :
    way (uniform points 3 ts) (i * length) (((i + 1 : ℕ) : ℝ) * length) ≤
      chordSpeed points ts * length := by
  rcases gapless (chordSpeed points ts * length) (fun _ => false) (mul_pos moving ahead) with
    ⟨fuel, times, hit, sampled, without_gaps⟩
  rw [sampleTrajectory_uniform positive enough] at sampled
  have free := sampleLoop_free (fun _ => rfl) sampled
  rcases stepOf_cases positive enough (mul_pos moving ahead) with
    ⟨still, _⟩ | ⟨step, taken, _, even⟩
  · exact absurd still moving.ne'
  · rw [mul_right_inj' moving.ne'] at even
    rw [even] at taken
    rw [taken] at sampled
    rcases sampleLoop_times sampled with ⟨n, same, _, reaches⟩
    simp only [zero_add] at same reaches
    have sample : ∀ j, j ≤ i + 1 → times[j]? = some ((j : ℝ) * length) := by
      intro j early
      have bound : j < n := by
        by_contra beyond
        have more : (n : ℝ) ≤ ((i + 1 : ℕ) : ℝ) := by exact_mod_cast (not_lt.mp beyond).trans early
        have farther := mul_le_mul_of_nonneg_right more ahead.le
        linarith [reaches free]
      rw [same, List.getElem?_map, List.getElem?_range bound, Option.map_some]
    exact without_gaps.consecutive i _ _ (sample i (Nat.le_succ i)) (sample (i + 1) le_rfl)

theorem slow_of_still (positive : 0 < ts) (enough : 3 < points.length)
    (still : chordSpeed points ts = 0) {t : ℝ} (low : 0 ≤ t)
    (high : t < ((points.length : ℝ) - 3) * ts * 2 / 3) :
    (((uniform points 3 ts).derivative 2).place t).lengthBy Real.sqrt ≤ chordSpeed points ts := by
  have duration := duration_pos positive enough
  apply speed_le_of_ways positive enough low (by linarith) one_pos
  have near := (tendsto_shrinking 1).eventually_lt_const (sub_pos.mpr high)
  filter_upwards [near] with n inside
  have step := shrinking_pos one_pos n
  have here := way_eq_zero_of_gapless gapless positive enough still low high
  have there := way_eq_zero_of_gapless gapless positive enough still
    (low.trans (by linarith)) (show t + 1 * (1 / ((n : ℝ) + 1)) < _ by linarith)
  rw [way_uniform] at here there ⊢
  have same := Vec3.eq_zero_of_lengthBy_eq_zero Vec3.isSqrt_sqrt here
  have same' := Vec3.eq_zero_of_lengthBy_eq_zero Vec3.isSqrt_sqrt there
  rw [sub_eq_zero.mp same, sub_eq_zero.mp same', sub_self, still, zero_mul]
  refine (Vec3.lengthBy_le_iff Vec3.isSqrt_sqrt _ le_rfl).mpr ?_
  change (0 : ℝ) * 0 + 0 * 0 + 0 * 0 ≤ 0 * 0
  norm_num

theorem slow_at_start (positive : 0 < ts) (enough : 3 < points.length)
    (moving : 0 < chordSpeed points ts) (high : 0 < ((points.length : ℝ) - 3) * ts * 2 / 3) :
    (((uniform points 3 ts).derivative 2).place 0).lengthBy Real.sqrt ≤ chordSpeed points ts := by
  apply speed_le_of_ways positive enough le_rfl (duration_pos positive enough) (half_pos high)
  filter_upwards with n
  have step := shrinking_pos (half_pos high) n
  have small : ((0 + 1 : ℕ) : ℝ) * (((points.length : ℝ) - 3) * ts * 2 / 3 / 2 *
      (1 / ((n : ℝ) + 1))) < ((points.length : ℝ) - 3) * ts * 2 / 3 := by
    have unit : 1 / ((n : ℝ) + 1) ≤ 1 :=
      (div_le_one (by positivity)).mpr (le_add_of_nonneg_left n.cast_nonneg)
    rw [zero_add, Nat.cast_one, one_mul]
    exact (mul_le_of_le_one_right (half_pos high).le unit).trans_lt (half_lt_self high)
  have bound := way_le_of_gapless gapless positive enough moving step (i := 0) small
  simpa using bound

theorem slow_later (positive : 0 < ts) (enough : 3 < points.length)
    (moving : 0 < chordSpeed points ts) {t : ℝ} (later : 0 < t)
    (high : t < ((points.length : ℝ) - 3) * ts * 2 / 3) :
    (((uniform points 3 ts).derivative 2).place t).lengthBy Real.sqrt ≤ chordSpeed points ts := by
  have duration := duration_pos positive enough
  apply speed_le_of_ways positive enough later.le (by linarith) later
  have near := (tendsto_shrinking t).eventually_lt_const (sub_pos.mpr high)
  filter_upwards [near] with n inside
  have whole : ((n + 1 : ℕ) : ℝ) * (t * (1 / ((n : ℝ) + 1))) = t := by
    push_cast
    field_simp
  have next : ((n + 1 + 1 : ℕ) : ℝ) * (t * (1 / ((n : ℝ) + 1))) =
      t + t * (1 / ((n : ℝ) + 1)) := by
    rw [Nat.cast_succ (n + 1), add_mul, whole, one_mul]
  have bound := way_le_of_gapless gapless positive enough moving (shrinking_pos later n)
    (i := n + 1) (by rw [next]; linarith)
  rwa [whole, next] at bound

theorem slow_of_gapless (positive : 0 < ts) (enough : 3 < points.length) {t : ℝ} (low : 0 ≤ t)
    (high : t < ((points.length : ℝ) - 3) * ts * 2 / 3) :
    (((uniform points 3 ts).derivative 2).place t).lengthBy Real.sqrt ≤ chordSpeed points ts := by
  rcases (chordSpeed_nonneg positive enough).eq_or_lt with still | moving
  · exact slow_of_still gapless positive enough still.symm low high
  · rcases low.eq_or_lt with rfl | later
    · exact slow_at_start gapless positive enough moving high
    · exact slow_later gapless positive enough moving later high

end Fast

/-- The checks leave no gap exactly when the trajectory is nowhere faster than a straight and even
flight between its ends. -/
theorem samples_gapless_iff {traj : UniformBspline ℝ} {tm tmp : ℝ} (positive : 0 < ts)
    (built : setUniformBspline points 3 ts = some traj)
    (span : traj.getTimeSpan = some (some (tm, tmp))) (lasts : tm < tmp) :
    SamplesGapless points ts traj tm tmp ↔ SpeedWithinChord traj tm tmp := by
  have made : setUniformBspline points 3 ts = some (uniform points 3 ts) :=
    setUniformBspline_eq points 3 ts
  rw [made, Option.some.injEq] at built
  rw [← built, getTimeSpan_uniform, Option.some.injEq, Option.some.injEq, Prod.mk.injEq] at span
  rcases span with ⟨rfl, rfl⟩
  have enough : 3 < points.length := by
    have larger := pos_of_mul_pos_left lasts positive.le
    exact_mod_cast sub_pos.mp larger
  have duration := duration_pos positive enough
  have same : ∀ v : Vec3 ℝ, v.lengthBy Real.sqrt * (((points.length : ℝ) - 3) * ts) ≤
      way (uniform points 3 ts) 0 (((points.length : ℝ) - 3) * ts) ↔
        v.lengthBy Real.sqrt ≤ chordSpeed points ts := fun v => (le_div_iff₀ duration).symm
  rw [← built, samplesGapless_iff, speedWithinChord_uniform positive enough]
  simp only [same]
  constructor
  · exact fun gapless t low high => slow_of_gapless gapless positive enough low high
  · intro slow resolution occupied voxel
    have regular := uniform_regular positive points 3
    have total : ∀ t, ((uniform points 3 ts).evaluateDeBoorT t).isSome := by
      intro t
      rw [evaluateDeBoorT_uniform]
      exact regular.isSome_evaluateDeBoor enough t
    have ends : ∃ fuel : ℕ, ∀ length, stepOf points ts resolution = some length →
        ((points.length : ℝ) - 3) * ts * 2 / 3 ≤ 0 + fuel * length := by
      rcases stepOf_cases positive enough voxel with ⟨_, infinite⟩ | ⟨length, step, ahead, _⟩
      · exact ⟨0, fun length same => by simp [infinite] at same⟩
      · rcases exists_nat_ge (((points.length : ℝ) - 3) * ts * 2 / 3 / length) with ⟨fuel, reaches⟩
        refine ⟨fuel, fun other same => ?_⟩
        rw [step, Option.some.injEq] at same
        rw [← same, zero_add]
        exact (div_le_iff₀ ahead).mp reaches
    rcases ends with ⟨fuel, reaches⟩
    rcases Option.isSome_iff_exists.mp (isSome_sampleLoop occupied total reaches) with
      ⟨⟨times, hit⟩, sampled⟩
    refine ⟨fuel + 1, times, hit, ?_, ?_⟩
    · rw [sampleTrajectory_uniform positive enough, sampled]
    · exact gapless_of_slow positive enough (by linarith) (by linarith) slow voxel sampled

end Uniform

def row (xs : List ℝ) : List (Vec3 ℝ) := xs.map fun x => ⟨x, 0, 1⟩

theorem getD_row {xs : List ℝ} {i : ℕ} (inside : i < xs.length) :
    (row xs).getD i 0 = ⟨xs.getD i 0, 0, 1⟩ := by
  rw [row, List.getD_eq_getElem?_getD, List.getElem?_map, List.getD_eq_getElem?_getD,
    List.getElem?_eq_getElem inside]
  rfl

theorem row_mean (a b c : ℝ) :
    (1 / 6 : ℝ) • ((⟨a, 0, 1⟩ : Vec3 ℝ) + (4 : ℝ) • ⟨b, 0, 1⟩ + ⟨c, 0, 1⟩) =
      ⟨(a + 4 * b + c) / 6, 0, 1⟩ := by
  apply Vec3.ext_get
  intro axis
  simp only [Vec3.get_smul, Vec3.get_add]
  cases axis <;> simp only [Vec3.get] <;> ring

theorem row_start (xs : List ℝ) (enough : 3 < xs.length) :
    (uniform (row xs) 3 1).evaluateDeBoorT 0 =
      some ⟨(xs.getD 0 0 + 4 * xs.getD 1 0 + xs.getD 2 0) / 6, 0, 1⟩ := by
  have columns : (row xs).length = xs.length := List.length_map _
  rw [uniform_at_start one_pos (by omega)]
  refine congrArg some ((DeBoor.cubic_start one_ne_zero _ _).trans ?_)
  rw [getD_row (by omega), getD_row (by omega), getD_row (by omega), row_mean]

theorem row_knot (xs : List ℝ) (i : ℕ) (inside : 3 + i < xs.length) :
    (uniform (row xs) 3 1).evaluateDeBoorT (((i + 1 : ℕ) : ℝ) * 1) =
      some ⟨(xs.getD (i + 1) 0 + 4 * xs.getD (i + 2) 0 + xs.getD (i + 3) 0) / 6, 0, 1⟩ := by
  have columns : (row xs).length = xs.length := List.length_map _
  have last := DeBoor.cubic_end one_ne_zero ((i : ℝ) * 1 - (3 : ℕ) * 1)
    fun j => (row xs).getD (i + j) 0
  rw [uniform_at_knot one_pos (by omega), show ((3 : ℕ) : ℝ) + 1 = 4 by norm_num, last,
    getD_row (by omega), getD_row (by omega), getD_row (by omega), row_mean]

theorem way_of_row {traj : UniformBspline ℝ} {s t x y : ℝ}
    (at_s : traj.evaluateDeBoorT s = some ⟨x, 0, 1⟩)
    (at_t : traj.evaluateDeBoorT t = some ⟨y, 0, 1⟩) : way traj s t = |y - x| := by
  have difference : (⟨y, 0, 1⟩ : Vec3 ℝ) - ⟨x, 0, 1⟩ = Vec3.along .x (y - x) := by
    apply Vec3.ext_get
    intro axis
    rw [Vec3.get_sub, Vec3.get_along]
    cases axis <;> simp [Vec3.get]
  rw [way, at_s, at_t, Option.getD_some, Option.getD_some, difference,
    Vec3.lengthBy_along Vec3.isSqrt_sqrt]

def evenRow : List ℝ := [0, 1, 2, 3, 4, 5, 6, 7]

theorem evenRow_step {j : ℕ} (inside : j < 7) : evenRow.getD (j + 1) 0 - evenRow.getD j 0 = 1 := by
  interval_cases j <;> norm_num [evenRow]

theorem evenRow_speed (t : ℝ) :
    ((uniform (row evenRow) 3 1).derivative 2).place t = ⟨1, 0, 0⟩ := by
  have slower := uniform_regular one_pos (speeds 1 (row evenRow)) 2
  have nonempty : row evenRow ≠ [] := List.ne_nil_of_length_pos (by decide)
  have columns : (speeds 1 (row evenRow)).length = 7 := by
    rw [length_speeds]
    rfl
  rcases slower.exists_span (show 2 < (speeds 1 (row evenRow)).length by omega) t with
    ⟨k, ub, low, high, _, _, evaluated⟩
  change k < (speeds 1 (row evenRow)).length at high
  rw [spanCurve_uniform _ low high, DeBoor.value_of_equal (v := ⟨1, 0, 0⟩)] at evaluated
  · rw [derivative_uniform one_pos nonempty, place, evaluated, Option.getD_some]
  · intro i bound
    have inside : k - 2 + i + 1 < evenRow.length := by
      change k - 2 + i + 1 < 8
      omega
    have unit := evenRow_step (show k - 2 + i < 7 by omega)
    rw [getD_speeds (by rwa [row, List.length_map]), getD_row inside, getD_row (by omega)]
    apply Vec3.ext_get
    intro axis
    rw [Vec3.get_smul, Vec3.get_sub]
    cases axis <;> simp only [Vec3.get, unit] <;> norm_num

/-- An even flight leaves no gap. -/
theorem evenRow_gapless : SamplesGapless (row evenRow) 1 (uniform (row evenRow) 3 1) 0 5 := by
  have span := getTimeSpan_uniform (row evenRow) 1
  have duration : (((row evenRow).length : ℝ) - 3) * 1 = 5 := by
    norm_num [row, evenRow]
  have start : (uniform (row evenRow) 3 1).evaluateDeBoorT 0 = some ⟨1, 0, 1⟩ := by
    rw [row_start _ (by decide)]
    norm_num [evenRow]
  have finish : (uniform (row evenRow) 3 1).evaluateDeBoorT 5 = some ⟨6, 0, 1⟩ := by
    have last := row_knot evenRow 4 (by decide)
    norm_num [evenRow] at last ⊢
    exact last
  rw [duration] at span
  rw [samples_gapless_iff one_pos (setUniformBspline_eq (row evenRow) 3 1) span (by norm_num),
    speedWithinChord_uniform one_pos (by decide)]
  intro t _ _
  have unit : (⟨1, 0, 0⟩ : Vec3 ℝ) = Vec3.along .x 1 := rfl
  rw [evenRow_speed, way_of_row start finish, unit, Vec3.lengthBy_along Vec3.isSqrt_sqrt]
  norm_num

def outAndBack : List ℝ := [0, 0, 0, 3, 3, 3, 0.6, 0.6, 0.6]

/-- The ends are six voxels apart, and the first two samples five. -/
theorem outAndBack_gap : ∃ traj, setUniformBspline (row outAndBack) 3 1 = some traj ∧
    traj.getTimeSpan = some (some (0, 6)) ∧ ¬SamplesGapless (row outAndBack) 1 traj 0 6 := by
  have span := getTimeSpan_uniform (row outAndBack) 1
  have duration : (((row outAndBack).length : ℝ) - 3) * 1 = 6 := by
    norm_num [row, outAndBack]
  rw [duration] at span
  have start : (uniform (row outAndBack) 3 1).evaluateDeBoorT 0 = some ⟨0, 0, 1⟩ := by
    rw [row_start _ (by decide)]
    norm_num [outAndBack]
  have second : (uniform (row outAndBack) 3 1).evaluateDeBoorT 1 = some ⟨1 / 2, 0, 1⟩ := by
    have knot := row_knot outAndBack 0 (by decide)
    norm_num [outAndBack] at knot ⊢
    exact knot
  have finish : (uniform (row outAndBack) 3 1).evaluateDeBoorT 6 = some ⟨3 / 5, 0, 1⟩ := by
    have last := row_knot outAndBack 5 (by decide)
    norm_num [outAndBack] at last ⊢
    exact last
  refine ⟨_, setUniformBspline_eq (row outAndBack) 3 1, span, fun gapless => ?_⟩
  rcases samplesGapless_iff.mp gapless (1 / 10) (fun _ => false) (by norm_num) with
    ⟨fuel, times, hit, sampled, without_gaps⟩
  have step : stepOf (row outAndBack) 1 (1 / 10) = some 1 := by
    rw [stepOf, duration, way_of_row start finish]
    norm_num
  rw [sampleTrajectory_uniform one_pos (by decide), step, duration] at sampled
  rcases sampleLoop_times sampled with ⟨n, same, _, reaches⟩
  have more : 4 ≤ n := by
    have bound := reaches (sampleLoop_free (fun _ => rfl) sampled)
    norm_num at bound
    exact_mod_cast bound
  have sample : ∀ j < n, times[j]? = some (0 + (j : ℝ) * 1) := by
    intro j bound
    rw [same, List.getElem?_map, List.getElem?_range bound, Option.map_some]
  have apart := without_gaps.consecutive 0 0 1 (by simp [sample 0 (by omega)])
    (by simp [sample 1 (by omega)])
  rw [way_of_row start second] at apart
  norm_num at apart

end RobocupDrone.Optimizer
