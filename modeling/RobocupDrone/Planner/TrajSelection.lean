import RobocupDrone.Optimizer.RefineOptimize
import RobocupDrone.Optimizer.TrajVariants

/-! The second step of `reboundReplan`: every distinctive trajectory is optimised, and the cheapest
one that succeeds is taken. -/

namespace RobocupDrone.Planner

open Geometry Optimizer

section Functions

variable {K : Type}

structure Selection (K : Type) where
  ctrlPts : List (Vec3 K)
  minCost : K
  step1Success : Bool
  finalCost : K
  opt : OptimizerState K

variable [Field K] [LinearOrder K] [FloorSemiring K] (set : ReboundSetting K)

def bsplineOptimizeTrajRebound (fuel : ℕ) (finalCost : K) (opt : OptimizerState K)
    (traj : FlaggedPoints K) : Option (Bool × K × OptimizerState K) :=
  (set.reboundOptimize finalCost { opt with cps := traj } fuel).join

def optimizeTraj (fuel : ℕ) (s : Selection K) (traj : FlaggedPoints K) : Option (Selection K) :=
  (bsplineOptimizeTrajRebound set fuel s.finalCost s.opt traj).map fun (success, cost, opt) =>
    if success then
      if cost < s.minCost then ⟨opt.cps.points, cost, true, cost, opt⟩
      else { s with step1Success := true, finalCost := cost, opt }
    else { s with finalCost := cost, opt }

def reboundReplanOptimize (useDistinctiveTrajs : Bool) (dist0 : K) (ctrlPts : List (Vec3 K))
    (finalCost : K) (opt : OptimizerState K) (fuel : ℕ) : Option (Selection K) := do
  let (cps, segments) ←
    initControlPoints set.sqrt set.around set.inp.order (.first dist0 ctrlPts)
  if useDistinctiveTrajs then
    let trajs ← distinctiveTrajs set.sqrt set.around cps segments
    trajs.reverse.foldlM (optimizeTraj set fuel)
      ⟨ctrlPts, 999999, false, finalCost, { opt with cps }⟩
  else
    let (success, cost, opt) ← bsplineOptimizeTrajRebound set fuel finalCost opt cps
    some ⟨opt.cps.points, 999999, success, cost, opt⟩

end Functions

section Choice

variable {K : Type} [Field K] [LinearOrder K] [FloorSemiring K] {set : ReboundSetting K}

inductive Optimised (set : ReboundSetting K) (fuel : ℕ) : K → OptimizerState K →
    List (FlaggedPoints K) → List (Bool × K × OptimizerState K) → Prop
  | nil {finalCost opt} : Optimised set fuel finalCost opt [] []
  | cons {finalCost opt traj success cost after trajs outcomes}
      (ran : bsplineOptimizeTrajRebound set fuel finalCost opt traj = some (success, cost, after))
      (others : Optimised set fuel cost after trajs outcomes) :
      Optimised set fuel finalCost opt (traj :: trajs) ((success, cost, after) :: outcomes)

structure Cheapest (ctrlPts : List (Vec3 K)) (outcomes : List (Bool × K × OptimizerState K))
    (s : Selection K) : Prop where
  flag : s.step1Success = true ↔ ∃ o ∈ outcomes, o.1 = true
  cheapest : ∀ o ∈ outcomes, o.1 = true → s.minCost ≤ o.2.1
  taken : (s.ctrlPts = ctrlPts ∧ s.minCost = 999999) ∨
    ∃ o ∈ outcomes, o.1 = true ∧ o.2.1 = s.minCost ∧ s.minCost < 999999 ∧
      s.ctrlPts = o.2.2.cps.points

theorem optimizeTraj_spec {fuel : ℕ} {s next : Selection K} {traj : FlaggedPoints K}
    {ctrlPts : List (Vec3 K)} {outcomes : List (Bool × K × OptimizerState K)}
    (before : Cheapest ctrlPts outcomes s) (done : optimizeTraj set fuel s traj = some next) :
    ∃ success,
      bsplineOptimizeTrajRebound set fuel s.finalCost s.opt traj =
        some (success, next.finalCost, next.opt) ∧
      Cheapest ctrlPts (outcomes ++ [(success, next.finalCost, next.opt)]) next := by
  unfold optimizeTraj at done
  rw [Option.map_eq_some_iff] at done
  obtain ⟨⟨success, cost, opt⟩, ran, same⟩ := done
  dsimp only at same
  have left : next.finalCost = cost ∧ next.opt = opt := by
    rw [← same]
    split_ifs <;> exact ⟨rfl, rfl⟩
  rw [left.1, left.2]
  refine ⟨success, ran, ?_⟩
  -- of the outcomes before, nothing is forgotten
  have taken_before : (s.ctrlPts = ctrlPts ∧ s.minCost = 999999) ∨
      ∃ o ∈ outcomes ++ [(success, cost, opt)], o.1 = true ∧ o.2.1 = s.minCost ∧
        s.minCost < 999999 ∧ s.ctrlPts = o.2.2.cps.points := by
    rcases before.taken with nothing | ⟨o, member, rest⟩
    · exact .inl nothing
    · exact .inr ⟨o, List.mem_append_left _ member, rest⟩
  have few : s.minCost ≤ 999999 := by
    rcases before.taken with ⟨_, same⟩ | ⟨_, _, _, _, less, _⟩
    · exact same.le
    · exact less.le
  have last : (success, cost, opt) ∈ outcomes ++ [(success, cost, opt)] :=
    List.mem_append_right _ (List.mem_singleton_self _)
  split_ifs at same with succeeded cheaper
  · subst same
    refine ⟨⟨fun _ => ⟨_, last, succeeded⟩, fun _ => rfl⟩, ?_,
      .inr ⟨_, last, succeeded, rfl, cheaper.trans_le few, rfl⟩⟩
    intro o member success'
    rcases List.mem_append.mp member with earlier | here
    · exact cheaper.le.trans (before.cheapest o earlier success')
    · rw [List.mem_singleton.mp here]
  · subst same
    refine ⟨⟨fun _ => ⟨_, last, succeeded⟩, fun _ => rfl⟩, ?_, taken_before⟩
    intro o member success'
    rcases List.mem_append.mp member with earlier | here
    · exact before.cheapest o earlier success'
    · rw [List.mem_singleton.mp here]
      exact not_lt.mp cheaper
  · subst same
    refine ⟨⟨fun flag => ?_, ?_⟩, ?_, taken_before⟩
    · obtain ⟨o, member, success'⟩ := before.flag.mp flag
      exact ⟨o, List.mem_append_left _ member, success'⟩
    · rintro ⟨o, member, success'⟩
      rcases List.mem_append.mp member with earlier | here
      · exact before.flag.mpr ⟨o, earlier, success'⟩
      · rw [List.mem_singleton.mp here] at success'
        exact absurd success' succeeded
    · intro o member success'
      rcases List.mem_append.mp member with earlier | here
      · exact before.cheapest o earlier success'
      · rw [List.mem_singleton.mp here] at success'
        exact absurd success' succeeded

theorem optimizeTrajs_spec {fuel : ℕ} {trajs : List (FlaggedPoints K)} {start s : Selection K}
    (done : trajs.foldlM (optimizeTraj set fuel) start = some s) {ctrlPts : List (Vec3 K)}
    {past : List (Bool × K × OptimizerState K)} (before : Cheapest ctrlPts past start) :
    ∃ outcomes, Optimised set fuel start.finalCost start.opt trajs outcomes ∧
      Cheapest ctrlPts (past ++ outcomes) s := by
  induction trajs generalizing start past with
  | nil =>
      cases done
      exact ⟨[], .nil, by rwa [List.append_nil]⟩
  | cons traj trajs ih =>
      rw [List.foldlM_cons, Option.bind_eq_bind, Option.bind_eq_some_iff] at done
      obtain ⟨next, stepped, rest⟩ := done
      obtain ⟨success, ran, after⟩ := optimizeTraj_spec before stepped
      obtain ⟨outcomes, others, cheapest⟩ := ih rest after
      rw [List.append_assoc, List.singleton_append] at cheapest
      exact ⟨_, .cons ran others, cheapest⟩

theorem optimised_from {fuel : ℕ} {finalCost : K} {opt : OptimizerState K}
    {trajs : List (FlaggedPoints K)} {outcomes : List (Bool × K × OptimizerState K)}
    (optimised : Optimised set fuel finalCost opt trajs outcomes)
    {o : Bool × K × OptimizerState K} (member : o ∈ outcomes) :
    ∃ traj ∈ trajs, ∃ cost before,
      bsplineOptimizeTrajRebound set fuel cost before traj = some o := by
  induction optimised with
  | nil => cases member
  | @cons finalCost opt traj _ _ _ _ _ ran _ ih =>
      rcases List.mem_cons.mp member with rfl | member
      · exact ⟨traj, List.mem_cons_self, finalCost, opt, ran⟩
      · obtain ⟨other, among, there⟩ := ih member
        exact ⟨other, List.mem_cons_of_mem traj among, there⟩

end Choice

section Taken

variable {K : Type} [Field K] [LinearOrder K] [IsStrictOrderedRing K] [FloorSemiring K]
  {set : ReboundSetting K}

/-- What the second step leaves in `ctrl_pts`: a trajectory that starts as the first control points
do. It comes from a run that succeeded, the cheapest one, or is that of the first control points. -/
structure Taken (set : ReboundSetting K) (ctrlPts : List (Vec3 K))
    (outcomes : List (Bool × K × OptimizerState K)) (s : Selection K) : Prop where
  start : stateAt set.inp.bsplineInterval s.ctrlPts 0 =
    stateAt set.inp.bsplineInterval ctrlPts 0
  choice : Cheapest ctrlPts outcomes s
  succeeded : ∀ o ∈ outcomes, o.1 = true → ∃ before, Succeeded set before o.2.1 o.2.2

/-- The distinctive trajectories of the first control points are all optimised, in the reverse
order. The one taken is the cheapest of those that succeed, unless none costs less than the
bound. -/
theorem reboundReplanOptimize_taken (root : Vec3.IsRoundedSqrt set.sqrt) (sound : set.Sound)
    (positive : 0 < set.inp.bsplineInterval) (cubic : 3 ≤ set.inp.order) {dist0 : K}
    {ctrlPts : List (Vec3 K)} (fits : 2 * set.inp.order ≤ ctrlPts.length) {finalCost : K}
    {opt : OptimizerState K} {fuel : ℕ} {s : Selection K}
    (done : reboundReplanOptimize set true dist0 ctrlPts finalCost opt fuel = some s) :
    ∃ cps segments trajs outcomes,
      initControlPoints set.sqrt set.around set.inp.order (.first dist0 ctrlPts) =
        some (cps, segments) ∧
      distinctiveTrajs set.sqrt set.around cps segments = some trajs ∧
      Variants set.sqrt set.around cps segments trajs ∧
      Optimised set fuel finalCost { opt with cps } trajs.reverse outcomes ∧
      Taken set ctrlPts outcomes s := by
  unfold reboundReplanOptimize at done
  obtain ⟨cps, segments, init, extends_to, kept, apart, covered⟩ := initControlPoints_spec set.sqrt
    sound.resolution (show 0 < set.inp.order by omega) fits
    (FlaggedPoints.consistent_first dist0 ctrlPts)
  obtain ⟨trajs, made, variants⟩ := distinctiveTrajs_variants set.sqrt set.around apart
    fun segment member => (covered segment member).2
  rw [init, Option.bind_eq_bind, Option.bind_some] at done
  dsimp only at done
  rw [if_pos rfl, made, Option.bind_eq_bind, Option.bind_some] at done
  have untried : Cheapest ctrlPts [] ⟨ctrlPts, 999999, false, finalCost, { opt with cps }⟩ :=
    ⟨by simp, by simp, .inl ⟨rfl, rfl⟩⟩
  obtain ⟨outcomes, optimised, cheapest⟩ := optimizeTrajs_spec done untried
  refine ⟨cps, segments, trajs, outcomes, init, made, variants, optimised, ?_⟩
  -- every outcome is that of a run on control points like the first ones
  have each : ∀ o ∈ outcomes, stateAt set.inp.bsplineInterval o.2.2.cps.points 0 =
      stateAt set.inp.bsplineInterval ctrlPts 0 ∧
        (o.1 = true → ∃ before, Succeeded set before o.2.1 o.2.2) := by
    intro o member
    obtain ⟨traj, among, finalCost, opt, ran⟩ := optimised_from optimised member
    obtain ⟨points, _, consistent⟩ := variants.mem kept traj (List.mem_reverse.mp among)
    rw [extends_to.points] at points
    have ample : Ample set traj := ⟨consistent, fits.trans_eq (congrArg List.length points).symm⟩
    rw [bsplineOptimizeTrajRebound, Option.join_eq_some_iff] at ran
    refine ⟨?_, ?_⟩
    · rw [moved_start positive cubic ample (reboundOptimize_moved sound ample ran).1, points]
      rfl
    · obtain ⟨success, cost, after⟩ := o
      rintro rfl
      exact ⟨_, reboundOptimize_succeeded root sound ample ran⟩
  refine ⟨?_, cheapest, fun o member => (each o member).2⟩
  rcases cheapest.taken with ⟨same, _⟩ | ⟨o, member, _, _, _, same⟩
  · rw [same]
  · rw [same]
    exact (each o member).1

end Taken

/-- Both ways around the wall are optimised, and the one along the path is the cheaper. -/
theorem reboundReplanOptimize_taken_narrowWall : ∃ s,
    reboundReplanOptimize narrowWall true 0.5 straightStart.cps.points 0 straightStart 1 = some s ∧
      s.step1Success = true ∧ 0.5 < (col s.ctrlPts 5).y ∧ ∃ cps segments trajs outcomes,
      initControlPoints squareRoot narrowWall.around 3 (.first 0.5 straightStart.cps.points) =
        some (cps, segments) ∧
      distinctiveTrajs squareRoot narrowWall.around cps segments = some trajs ∧
      Variants squareRoot narrowWall.around cps segments trajs ∧
      Optimised narrowWall 1 0 { straightStart with cps } trajs.reverse outcomes ∧
      Taken narrowWall straightStart.cps.points outcomes s := by
  have run : (reboundReplanOptimize narrowWall true 0.5 straightStart.cps.points 0 straightStart
      1).map (fun s => (s.step1Success, decide (0.5 < (col s.ctrlPts 5).y))) =
        some (true, true) := by
    decide +kernel
  obtain ⟨s, done, found⟩ := Option.map_eq_some_iff.mp run
  obtain ⟨success, side⟩ := Prod.mk.inj found
  exact ⟨s, done, success, of_decide_eq_true side, reboundReplanOptimize_taken
    isRoundedSqrt_squareRoot narrowWall_sound (show (0 : ℚ) < 0.4 by norm_num) le_rfl
    straightStart_ample.2 done⟩

end RobocupDrone.Planner
