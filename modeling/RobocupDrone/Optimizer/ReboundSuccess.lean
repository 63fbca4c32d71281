import RobocupDrone.Optimizer.ExactGradients
import RobocupDrone.Optimizer.ReboundOptimize

/-! What `rebound_optimize` leaves when it returns true. -/

namespace RobocupDrone.Optimizer

open Geometry Planner UniformBspline

section Success

variable {K : Type} {set : ReboundSetting K} [Field K] [LinearOrder K]

theorem success_of_body {cfg : ReboundConfig K} {i : Iteration K} {s next : ReboundState K}
    {flags : ReboundFlags} (body : reboundBody cfg i s = some (next, flags))
    (success : flags.success = true) : Solved i.result ∧
      ¬SwarmTooClose cfg.swarmClearance i.minEllipDist ∧ i.hit = none ∧ next = s := by
  unfold reboundBody at body
  split_ifs at body with solved close canceled
  · cases body
    cases success
  · split at body
    · rename_i free
      cases body
      exact ⟨solved, close, free, rfl⟩
    · split_ifs at body
      cases body
      cases success
  · cases body
    cases success
  · cases body
    cases success

theorem sampleLoop_places {occupied : Vec3 K → Bool} {traj : UniformBspline K} {step : Option K}
    {last : K} {fuel : ℕ} {t : K} {times : List K} {hit : Bool}
    (sampled : sampleLoop occupied traj step last fuel t = some (times, hit)) :
    (hit = true → ∃ t ∈ times, ∃ place,
      traj.evaluateDeBoorT t = some place ∧ occupied place = true) ∧
    (hit = false → ∀ t ∈ times, ∃ place,
      traj.evaluateDeBoorT t = some place ∧ occupied place = false) := by
  induction fuel generalizing t times with
  | zero => cases sampled
  | succ fuel ih =>
      rw [sampleLoop.eq_def] at sampled
      dsimp only at sampled
      split_ifs at sampled with before
      · rw [Option.bind_eq_bind, Option.bind_eq_some_iff] at sampled
        obtain ⟨place, evaluated, sampled⟩ := sampled
        split_ifs at sampled with blocked
        · cases sampled
          exact ⟨fun _ => ⟨t, List.mem_singleton_self t, place, evaluated, blocked⟩,
            fun free => Bool.noConfusion free⟩
        · rw [Bool.not_eq_true] at blocked
          have here : ∀ s ∈ [t], ∃ place, traj.evaluateDeBoorT s = some place ∧
              occupied place = false := by
            intro s member
            rw [List.mem_singleton.mp member]
            exact ⟨place, evaluated, blocked⟩
          cases step with
          | none =>
              cases sampled
              exact ⟨fun found => Bool.noConfusion found, fun _ => here⟩
          | some length =>
              dsimp only at sampled
              rw [Option.bind_eq_bind, Option.bind_eq_some_iff] at sampled
              obtain ⟨⟨later, found⟩, rest, same⟩ := sampled
              cases same
              obtain ⟨collides, free⟩ := ih rest
              constructor
              · intro hits
                obtain ⟨s, member, rest⟩ := collides hits
                exact ⟨s, List.mem_cons_of_mem t member, rest⟩
              · intro passes s member
                rcases List.mem_cons.mp member with first | member
                · exact here s (List.mem_singleton.mpr first)
                · exact free passes s member
      · cases sampled
        exact ⟨fun found => Bool.noConfusion found,
          fun _ s member => absurd member List.not_mem_nil⟩

def Sampled (set : ReboundSetting K) (points : List (Vec3 K)) (hit : Bool) : Prop :=
  ∃ traj times, setUniformBspline points 3 set.inp.bsplineInterval = some traj ∧
    sampleTrajectory set.sqrt ⟨points, set.inp.bsplineInterval, set.around.resolution,
      set.around.occupied⟩ set.fuel = some (times, hit) ∧
    (hit = true → ∃ t ∈ times, ∃ place,
      traj.evaluateDeBoorT t = some place ∧ set.around.occupied place = true) ∧
    (hit = false → ∀ t ∈ times, ∃ place,
      traj.evaluateDeBoorT t = some place ∧ set.around.occupied place = false)

theorem sampled_of_check {points : List (Vec3 K)} {times : List K} {hit : Bool}
    (sampled : sampleTrajectory set.sqrt ⟨points, set.inp.bsplineInterval, set.around.resolution,
      set.around.occupied⟩ set.fuel = some (times, hit)) : Sampled set points hit := by
  have opened := sampled
  simp only [sampleTrajectory, Option.bind_eq_bind, Option.bind_eq_some_iff] at opened
  obtain ⟨traj, built, span, _, opened⟩ := opened
  split at opened
  · cases opened
  · rw [Option.bind_eq_some_iff] at opened
    obtain ⟨step, _, looped⟩ := opened
    exact ⟨traj, times, built, sampled, sampleLoop_places looped⟩

theorem sampled_of_hit {result : LbfgsResult} {opt : OptimizerState K}
    (solved : Solved result) (apart : ¬SwarmTooClose set.inp.swarmClearance opt.minEllipDist)
    (checked : reboundHit set result opt = some none) : Sampled set opt.cps.points false := by
  rw [reboundHit, if_pos ⟨solved, apart⟩, Option.map_eq_some_iff] at checked
  obtain ⟨⟨times, hit⟩, sampled, last⟩ := checked
  have places := sampled_of_check sampled
  cases hit with
  | false => exact places
  | true =>
      obtain ⟨_, others, _, again, collides, _⟩ := places
      rw [sampled, Option.some.injEq, Prod.mk.injEq] at again
      obtain ⟨t, member, _⟩ := collides rfl
      rw [← again.1] at member
      rw [if_pos rfl, List.getLast?_eq_none_iff] at last
      exact absurd last (List.ne_nil_of_mem member)

theorem accepted_solverParam [IsStrictOrderedRing K] [FloorSemiring K]
    {n : ℕ} (nonempty : n ≠ 0) {σ : Type} (cd : Callbacks K σ n)
    (unbounded : cd.procStepbound = none) {gEpsilon : K} (nonneg : 0 ≤ gEpsilon) :
    Accepted cd (solverParam gEpsilon) where
  checked := by
    simp only [checkParam, solverParam, defaultParam, if_neg nonempty, not_lt.mpr nonneg]
    norm_num
  minStep := by
    simp only [solverParam, defaultParam]
    norm_num
  bounds := by simp [unbounded]

variable [FloorSemiring K]

theorem evaluated_some {n : ℕ} {inst : Option (OptimizerState K)} {y : Fin n → K}
    {value : K × (Fin n → K)} {opt : OptimizerState K}
    (evaluated : (reboundCallbacks set n).procEvaluate inst y = (value, some opt)) :
    ∃ before, inst = some before ∧ costFunctionRebound set before y = some (value, opt) := by
  unfold reboundCallbacks at evaluated
  dsimp only at evaluated
  cases inst with
  | none => cases evaluated
  | some before =>
      rw [Option.bind_some] at evaluated
      cases outcome : costFunctionRebound set before y with
      | none =>
          rw [outcome] at evaluated
          cases evaluated
      | some result =>
          rw [outcome, Prod.mk.injEq, Option.some.injEq] at evaluated
          refine ⟨before, rfl, ?_⟩
          rw [← evaluated.1, ← evaluated.2]
          exact outcome

/-- What a call leaves whose result is checked: the value of the last evaluation, which is that of
the control points that are left, and is no more than that of those it began with. -/
structure SolvedCall (set : ReboundSetting K) (start : OptimizerState K) (cost : K)
    (after : OptimizerState K) : Prop where
  last : ∃ before g, costFunctionRebound set before (solverVariables set.inp.order
    (3 * (after.cps.points.length - set.inp.order)) after.cps.points) = some ((cost, g), after)
  first : ∃ value g next, costFunctionRebound set start (solverVariables set.inp.order
    (3 * (start.cps.points.length - set.inp.order)) start.cps.points) =
      some ((value, g), next) ∧ cost ≤ value

variable [IsStrictOrderedRing K]

theorem reboundCall_solved (root : Vec3.IsRoundedSqrt set.sqrt) (sound : set.Sound)
    {l : ReboundLoop K} (ample : Ample set l.opt.cps) {result : LbfgsResult} {finalCost : K}
    {opt : OptimizerState K} (called : reboundCall set l = some (result, finalCost, opt))
    (solved : Solved result) : SolvedCall set l.prepared finalCost opt := by
  have length := (reboundCall_moves sound ample called).1.length
  set n := 3 * (l.opt.cps.points.length - set.inp.order) with variables_n
  have nonempty : n ≠ 0 := by
    have order := sound.order
    have enough := ample.2
    omega
  have accepted := accepted_solverParam nonempty (reboundCallbacks set n) rfl
    (show (0 : K) ≤ 0.01 by norm_num)
  unfold reboundCall at called
  dsimp only at called
  rw [← variables_n] at called
  split at called
  · rename_i code refused
    exfalso
    unfold lbfgsOptimize at refused
    rw [accepted.checked] at refused
    dsimp only at refused
    split_ifs at refused
  · cases called
  · rename_i r ended
    rw [Option.map_eq_some_iff] at called
    obtain ⟨s, left, same⟩ := called
    rw [Prod.mk.injEq, Prod.mk.injEq] at same
    obtain ⟨rfl, rfl, rfl⟩ := same
    obtain ⟨y, g, ⟨inst, _, last⟩, chosen⟩ := (lbfgsOptimize_end root accepted ended).last
    obtain ⟨-, lower, -⟩ := chosen solved
    have undefined_stays : ∀ (inst : Option (OptimizerState K)) (x : Fin n → K), inst = none →
        ((reboundCallbacks set n).procEvaluate inst x).2 = none := by
      rintro _ x rfl
      rfl
    rw [left] at last
    obtain ⟨before, -, evaluated⟩ := evaluated_some last
    obtain ⟨points, room⟩ := costFunctionRebound_points evaluated
    constructor
    · rw [length, ← variables_n, points, solverVariables_writeData room]
      exact ⟨before, g, evaluated⟩
    · cases outcome : costFunctionRebound set l.prepared
          (solverVariables set.inp.order n l.opt.cps.points) with
      | none =>
          have lost := lbfgsOptimize_keeps undefined_stays
            (by rw [reboundCallbacks]; dsimp only; rw [Option.bind_some, outcome]) ended
          rw [left] at lost
          cases lost
      | some first =>
          obtain ⟨⟨value, gradient⟩, next⟩ := first
          refine ⟨value, gradient, next, outcome, ?_⟩
          rw [reboundCallbacks] at lower
          dsimp only at lower
          rwa [Option.bind_some, outcome] at lower

/-- What `rebound_optimize` leaves of the members `opt` when it returns true. -/
structure Succeeded (set : ReboundSetting K) (opt : OptimizerState K) (cost : K)
    (after : OptimizerState K) : Prop where
  apart : ¬SwarmTooClose set.inp.swarmClearance after.minEllipDist
  free : Sampled set after.cps.points false
  solved : ∃ l : ReboundLoop K, opt.cps.Moved set.inp.order l.opt.cps ∧
    SolvedCall set l.prepared cost after

theorem reboundOptimize_succeeded (root : Vec3.IsRoundedSqrt set.sqrt) (sound : set.Sound)
    {opt : OptimizerState K} (ample : Ample set opt.cps) {finalCost : K} {fuel : ℕ} {cost : K}
    {after : OptimizerState K}
    (ended : set.reboundOptimize finalCost opt fuel = some (some (true, cost, after))) :
    Succeeded set opt cost after := by
  refine Loop.run_induct
    (I := fun l : ReboundLoop K => opt.cps.Moved set.inp.order l.opt.cps ∧ Ample set l.opt.cps)
    (P := fun o : Option (Bool × K × OptimizerState K) =>
      ∀ r ∈ o, r.1 = true → Succeeded set opt r.2.1 r.2.2) ?_ ?_ ⟨.refl _ _, ample⟩ ended _ rfl rfl
  · rintro l _ next ⟨moved, enough⟩ went_on
    exact loop_moved sound moved enough went_on
  · rintro l _ o ⟨moved, enough⟩ finished r member success
    have shape := reboundRound_end set l
    rw [finished] at shape
    cases shape with
    | undefined => cases member
    | collides called _ _ =>
        cases member
        cases success
    | ends called checked body initialised _ =>
        cases member
        obtain ⟨solved, apart, nothing, same⟩ := success_of_body body success
        dsimp only at solved apart nothing
        subst nothing
        subst same
        rw [decide_eq_false (not_not.mpr rfl), restarted, if_neg Bool.false_ne_true,
          Option.some.injEq] at initialised
        subst initialised
        exact ⟨apart, sampled_of_hit solved apart checked,
          l, moved, reboundCall_solved root sound enough called solved⟩

end Success

section NarrowWall

def narrowWall : ReboundSetting ℚ where
  sqrt := squareRoot
  inp :=
    { order := 3
      swarmClearance := 0.5
      bsplineInterval := 0.4
      droneId := 0
      tNow := 0
      swarmTrajs := []
      lambda1 := 0.01
      lambda2 := 0.5
      newLambda2 := 0
      lambda3 := 0.1
      lambda4 := 1
      maxVel := 2
      maxAcc := 6
      localTargetPt := ⟨4, 0, 1⟩
      refPts := [] }
  around :=
    { occupied := fun p => decide (1.5 ≤ p.x ∧ p.x ≤ 1.9 ∧ |p.y| ≤ 0.3)
      resolution := 0.2
      findPath := fun a b => some [a, ⟨(a.x + b.x) / 2, 0.6, 1⟩, b]
      unspecified := zeros }
  now := fun _ => 0
  fuel := 100

def straightStart : OptimizerState ℚ where
  cps := .first 0.5 ((List.range 12).map fun i => ⟨0.4 * i, 0, 1⟩)
  newLambda2 := 0
  iterNum := 0
  minEllipDist := initMinEllipDist
  forceStopType := .dontStop
  readings := 0

theorem narrowWall_sound : narrowWall.Sound := by
  constructor
  · norm_num [narrowWall]
  · norm_num [narrowWall]

theorem straightStart_ample : Ample narrowWall straightStart.cps :=
  ⟨FlaggedPoints.consistent_first _ _, (by decide : 2 * 3 ≤ 12)⟩

/-- The solver leaves the straight line as it is, which collides; with the bounds of the restart it
goes around the wall. -/
theorem narrowWall_succeeds : ∃ cost after,
    narrowWall.reboundOptimize 0 straightStart 2 = some (some (true, cost, after)) ∧
      after.cps.bounds.map List.length = [0, 0, 0, 0, 1, 1, 1, 0, 0, 0, 0, 0] := by
  have run : (narrowWall.reboundOptimize 0 straightStart 2).map (Option.map fun r =>
      (r.1, r.2.2.cps.bounds.map List.length)) =
        some (some (true, [0, 0, 0, 0, 1, 1, 1, 0, 0, 0, 0, 0])) := by
    decide +kernel
  obtain ⟨result, ended, found⟩ := Option.map_eq_some_iff.mp run
  obtain ⟨⟨success, cost, after⟩, rfl, same⟩ := Option.map_eq_some_iff.mp found
  obtain ⟨rfl, bounds⟩ := Prod.mk.inj same
  exact ⟨cost, after, ended, bounds⟩

end NarrowWall

section Refines

variable {K : Type} [Field K] [LinearOrder K] [FloorSemiring K] {set : ReboundSetting K}

/-- Iteration `i` from outside is what the call of the solver leaves in a round from `l`, with its
collision test. -/
structure Shows (set : ReboundSetting K) (l : ReboundLoop K) (i : Iteration K) : Prop where
  of_call : ∃ finalCost opt, reboundCall set l = some (i.result, finalCost, opt) ∧
    i.minEllipDist = opt.minEllipDist ∧ i.forceStopType = opt.forceStopType ∧
      reboundHit set i.result opt = some i.hit

/-- The variables of the loop in front of iteration `k` of a run, and of the last one if there are
fewer. -/
def ReboundSetting.loopAt (set : ReboundSetting K) (finalCost : K) (opt : OptimizerState K)
    (k : ℕ) : ReboundLoop K :=
  (Loop.rounds (fun l (_ : Unit) => reboundRound set l) (fun _ => ())
    ⟨⟨0, 0, set.inp.lambda2⟩, finalCost, opt⟩ k).1

theorem reboundOptimize_refines {opt : OptimizerState K} {finalCost : K} {fuel : ℕ}
    {success : Bool} {cost : K} {after : OptimizerState K}
    (ended : set.reboundOptimize finalCost opt fuel = some (some (success, cost, after))) :
    ∃ iterations : ℕ → Iteration K,
      (∀ k, Shows set (set.loopAt finalCost opt k) (iterations k)) ∧
        Optimizer.reboundOptimize set.config set.inp.lambda2 iterations fuel = some success := by
  have round : ∀ (l : ReboundLoop K) (_ : Unit) next, reboundRound set l = .inl next →
      ∃ i, Shows set l i ∧ reboundIteration set.config l.counters i = .inl next.counters := by
    intro l _ next went_on
    have shape := reboundRound_end set l
    rw [went_on] at shape
    cases shape with
    | @goes_on result finalCost opt hit _ _ _ called checked body _ again =>
        refine ⟨⟨result, opt.minEllipDist, opt.forceStopType, hit⟩,
          ⟨finalCost, opt, called, rfl, rfl, checked⟩, ?_⟩
        rw [reboundIteration, body]
        exact if_pos again
  have ends : ∀ (l : ReboundLoop K) (_ : Unit) (o : Option (Bool × K × OptimizerState K)),
      reboundRound set l = .inr o → o.isSome = true →
        ∃ i b, Shows set l i ∧ reboundIteration set.config l.counters i = .inr b ∧
          ∀ r ∈ o, r.1 = b := by
    intro l _ o finished proper
    have shape := reboundRound_end set l
    rw [finished] at shape
    cases shape with
    | undefined => cases proper
    | @collides result finalCost opt hit called checked body =>
        refine ⟨⟨result, opt.minEllipDist, opt.forceStopType, hit⟩, false,
          ⟨finalCost, opt, called, rfl, rfl, checked⟩, ?_, ?_⟩
        · rw [reboundIteration, body]
        · intro r member
          cases member
          rfl
    | @ends result finalCost opt hit _ flags _ called checked body _ stops =>
        refine ⟨⟨result, opt.minEllipDist, opt.forceStopType, hit⟩, flags.success,
          ⟨finalCost, opt, called, rfl, rfl, checked⟩, ?_, ?_⟩
        · rw [reboundIteration, body]
          exact if_neg stops
        · intro r member
          cases member
          rfl
  obtain ⟨iterations, b, shown, ran, related⟩ :=
    Loop.run_simulates (S := fun l (_ : Unit) i => Shows set l i) round ends ended rfl
  have same : success = b := related _ rfl
  rw [same]
  exact ⟨iterations, shown, ran⟩

theorem reboundOptimize_refines_narrowWall : ∃ iterations : ℕ → Iteration ℚ,
    (∀ k, Shows narrowWall (narrowWall.loopAt 0 straightStart k) (iterations k)) ∧
      Optimizer.reboundOptimize narrowWall.config 0.5 iterations 2 = some true := by
  obtain ⟨cost, after, ended, _⟩ := narrowWall_succeeds
  exact reboundOptimize_refines ended

end Refines

end RobocupDrone.Optimizer
