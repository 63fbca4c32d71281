import RobocupDrone.Optimizer.CollisionSampling
import RobocupDrone.Optimizer.InitControlPoints
import RobocupDrone.Optimizer.LbfgsRuns

/-! `rebound_optimize` and `refine_optimize` with the solver, the costs and the collision checks
inside. -/

namespace RobocupDrone.Optimizer

open Geometry Planner

section Functions

variable {K : Type}

/-- What the optimisation does not change; the members of `inp` that do change are ignored. `now`
are the readings of the clock, `fuel` bounds the samples of a collision check. -/
structure ReboundSetting (K : Type) where
  sqrt : K → K
  inp : OptimizerInput K
  around : Surroundings K
  now : ℕ → K
  fuel : ℕ

structure OptimizerState (K : Type) where
  cps : FlaggedPoints K
  newLambda2 : K
  iterNum : ℕ
  minEllipDist : K
  forceStopType : ForceStop
  readings : ℕ

structure ReboundLoop (K : Type) where
  counters : ReboundState K
  finalCost : K
  opt : OptimizerState K

variable [Field K] [LinearOrder K] [FloorSemiring K] (set : ReboundSetting K)

/-- The collision check inside of `calcDistanceCostRebound`, with `force_stop_type_`. -/
def reboundCheck (iterNum : ℕ) (smoothnessCost : K) (cps : FlaggedPoints K) :
    Option (FlaggedPoints K × ForceStop) :=
  if iterNum > 3 ∧
      smoothnessCost / (((cps.points.length : ℤ) - 2 * set.inp.order : ℤ) : K) < 0.1 then
    checkCollisionAndRebound set.sqrt set.around set.inp.order cps
  else some (cps, .dontStop)

def costFunctionRebound {n : ℕ} (s : OptimizerState K) (x : Fin n → K) :
    Option ((K × (Fin n → K)) × OptimizerState K) := do
  let q := writeData s.cps.points (3 * set.inp.order) x
  let (checked, stop) ← reboundCheck set s.iterNum (calcSmoothnessCost q true 0).cost
    { s.cps with points := q }
  let (left, minEllipDist) ← combineCostRebound set.sqrt (fun _ => checked.toControlPoints)
    { set.inp with newLambda2 := s.newLambda2, tNow := set.now s.readings } s.iterNum
    s.minEllipDist s.cps.toControlPoints x
  some ((left.fCombine, left.grad),
    { s with
      cps := { toControlPoints := left.cps, flagTemp := checked.flagTemp }
      iterNum := s.iterNum + 1
      minEllipDist
      forceStopType := stop
      readings := s.readings + 1 })

/-- The callbacks; there is no state any more after an evaluation out of range. -/
def reboundCallbacks (n : ℕ) : Callbacks K (Option (OptimizerState K)) n where
  procEvaluate s x :=
    match s.bind fun s => costFunctionRebound set s x with
    | none => ((0, 0), none)
    | some (value, next) => (value, some next)
  procStepbound := none
  procProgress := some fun s _ => s.any fun s => decide (s.forceStopType ≠ .dontStop)

def solverParam (gEpsilon : K) : LbfgsParameter K :=
  { defaultParam with memSize := 16, maxIterations := 200, gEpsilon }

/-- `memcpy(q, points.data() + 3 * start, n * sizeof(q[0]))`, the variables of the solver. -/
def solverVariables (start n : ℕ) (points : List (Vec3 K)) : Fin n → K :=
  fun k => dataEntry (col points) (3 * start + k)

/-- A call of the solver, with the members that are set in front of it. -/
def ReboundLoop.prepared (l : ReboundLoop K) : OptimizerState K :=
  { l.opt with
    newLambda2 := l.counters.newLambda2, iterNum := 0, minEllipDist := initMinEllipDist }

/-- The result, `final_cost`, and what the callbacks leave. -/
def reboundCall (l : ReboundLoop K) : Option (LbfgsResult × K × OptimizerState K) :=
  let n := 3 * (l.opt.cps.points.length - set.inp.order)
  match lbfgsOptimize set.sqrt (reboundCallbacks set n) (solverParam 0.01)
      (solverVariables set.inp.order n l.opt.cps.points) (some l.prepared) 200 with
  -- nothing was evaluated
  | .error result => some (result, l.finalCost, l.prepared)
  | .ok none => none
  | .ok (some r) => r.inst.map fun opt => (r.ret, r.fx, opt)

/-- Phase 2 of the collision check, where it is reached: the first sample in an obstacle. -/
def reboundHit (result : LbfgsResult) (opt : OptimizerState K) : Option (Option K) :=
  if Solved result ∧ ¬SwarmTooClose set.inp.swarmClearance opt.minEllipDist then
    (sampleTrajectory set.sqrt ⟨opt.cps.points, set.inp.bsplineInterval, set.around.resolution,
      set.around.occupied⟩ set.fuel).map fun sampled =>
        if sampled.2 then sampled.1.getLast? else none
  else some none

def restarted (restarts : Bool) (cps : FlaggedPoints K) : Option (FlaggedPoints K) :=
  if restarts then
    (initControlPoints set.sqrt set.around set.inp.order cps).map Prod.fst
  else some cps

def ReboundSetting.config : ReboundConfig K := ⟨set.inp.bsplineInterval, set.inp.swarmClearance⟩

/-- An iteration of the loop: it goes on, or ends with the returned flag, `final_cost` and the
members, or reads out of range. -/
def reboundRound (l : ReboundLoop K) : ReboundLoop K ⊕ Option (Bool × K × OptimizerState K) :=
  match reboundCall set l with
  | none => .inr none
  | some (result, finalCost, opt) =>
      match reboundHit set result opt with
      | none => .inr none
      | some hit =>
          let i : Iteration K := ⟨result, opt.minEllipDist, opt.forceStopType, hit⟩
          match reboundBody set.config i l.counters with
          | none => .inr (some (false, finalCost, opt))
          | some (next, flags) =>
              match restarted set (decide (next.restartNums ≠ l.counters.restartNums)) opt.cps with
              | none => .inr none
              | some cps =>
                  let opt := { opt with cps }
                  if GoesOn set.config i next flags then .inl ⟨next, finalCost, opt⟩
                  else .inr (some (flags.success, finalCost, opt))

def ReboundSetting.reboundOptimize (finalCost : K) (opt : OptimizerState K) (fuel : ℕ) :
    Option (Option (Bool × K × OptimizerState K)) :=
  Loop.run (fun l (_ : Unit) => reboundRound set l) fuel (fun _ => ())
    ⟨⟨0, 0, set.inp.lambda2⟩, finalCost, opt⟩

end Functions

section Moved

variable {K : Type} [Field K] {order : ℕ} {before after : FlaggedPoints K}

structure FlaggedPoints.Moved (order : ℕ) (before after : FlaggedPoints K) : Prop where
  clearance : after.clearance = before.clearance
  length : after.points.length = before.points.length
  fixed : ∀ j < order, col after.points j = col before.points j
  grows : Grows before.bounds after.bounds

theorem FlaggedPoints.Moved.refl (order : ℕ) (cps : FlaggedPoints K) : cps.Moved order cps :=
  ⟨rfl, rfl, fun _ _ => rfl, Grows.refl _⟩

theorem FlaggedPoints.Moved.trans {last : FlaggedPoints K} (first : before.Moved order after)
    (second : after.Moved order last) : before.Moved order last :=
  ⟨second.clearance.trans first.clearance, second.length.trans first.length,
    fun j low => (second.fixed j low).trans (first.fixed j low), first.grows.trans second.grows⟩

theorem FlaggedPoints.Extends.moved (extends_to : before.Extends after) :
    before.Moved order after :=
  ⟨extends_to.clearance, by rw [extends_to.points], fun j _ => by rw [extends_to.points],
    extends_to.grows⟩

theorem length_writeData {n : ℕ} (points : List (Vec3 K)) (start : ℕ) (x : Fin n → K) :
    (writeData points start x).length = points.length := by
  rw [writeData, List.length_map, List.length_range]

theorem col_writeData {n : ℕ} {points : List (Vec3 K)} {start : ℕ} (x : Fin n → K) {j : ℕ}
    (outside : 3 * j + 2 < start ∨ start + n ≤ 3 * j) :
    col (writeData points start x) j = col points j := by
  by_cases inside : j < points.length
  · rw [col, writeData, List.getD_eq_getElem _ _ (by simpa using inside), List.getElem_map,
      List.getElem_range]
    apply Vec3.ext_get
    intro axis
    have small : axisIndex axis ≤ 2 := by cases axis <;> decide
    rw [Vec3.get_ofAxes, dif_neg (by omega)]
  · rw [col, col, List.getD_eq_default _ _ (by rw [length_writeData]; omega),
      List.getD_eq_default _ _ (not_lt.mp inside)]

theorem moved_write {n : ℕ} (cps : FlaggedPoints K) (x : Fin n → K) :
    cps.Moved order { cps with points := writeData cps.points (3 * order) x } :=
  ⟨rfl, length_writeData _ _ _, fun _ low => col_writeData x (.inl (by omega)), Grows.refl _⟩

end Moved

section Evaluations

variable {K : Type} {set : ReboundSetting K} [Field K]

theorem solverVariables_writeData {start n : ℕ} {points : List (Vec3 K)}
    (room : 3 * start + n ≤ 3 * points.length) (x : Fin n → K) :
    solverVariables start n (writeData points (3 * start) x) = x := by
  funext k
  obtain ⟨k, bound⟩ := k
  have inside : (3 * start + k) / 3 < points.length := by omega
  have row : axisIndex (axisOf ((3 * start + k) % 3)) = (3 * start + k) % 3 := by
    have cases_row :
        (3 * start + k) % 3 = 0 ∨ (3 * start + k) % 3 = 1 ∨ (3 * start + k) % 3 = 2 := by
      omega
    rcases cases_row with named | named | named <;> rw [named] <;> rfl
  have place : 3 * ((3 * start + k) / 3) + axisIndex (axisOf ((3 * start + k) % 3)) =
      3 * start + k := by
    rw [row]
    omega
  simp only [solverVariables, dataEntry]
  rw [col, writeData, List.getD_eq_getElem _ _ (by simpa using inside), List.getElem_map,
    List.getElem_range, Vec3.get_ofAxes, dif_pos (by omega)]
  congr 1
  exact Fin.ext (by dsimp only; omega)

section

variable [LinearOrder K] [IsStrictOrderedRing K] [FloorSemiring K]

/-- A map with voxels, and an order for which the check does not leave the control points. -/
structure ReboundSetting.Sound (set : ReboundSetting K) : Prop where
  resolution : 0 < set.around.resolution
  order : 2 ≤ set.inp.order

def Ample (set : ReboundSetting K) (cps : FlaggedPoints K) : Prop :=
  cps.Consistent ∧ 2 * set.inp.order ≤ cps.points.length

theorem reboundCheck_spec (sound : set.Sound) {cps : FlaggedPoints K} (ample : Ample set cps)
    (iterNum : ℕ) (smoothnessCost : K) :
    ∃ after stop, reboundCheck set iterNum smoothnessCost cps = some (after, stop) ∧
      cps.Extends after ∧ after.Consistent := by
  unfold reboundCheck
  split_ifs
  · exact checkCollisionAndRebound_spec set.sqrt sound.resolution sound.order ample.2 ample.1
  · exact ⟨cps, .dontStop, rfl, .refl cps, ample.1⟩

end

theorem reboundCheck_points [LinearOrder K] [FloorSemiring K]
    {iterNum : ℕ} {smoothnessCost : K} {cps after : FlaggedPoints K} {stop : ForceStop}
    (checked : reboundCheck set iterNum smoothnessCost cps = some (after, stop)) :
    after.points = cps.points := by
  unfold reboundCheck at checked
  split_ifs at checked
  · unfold checkCollisionAndRebound at checked
    split_ifs at checked
    split at checked
    · cases checked
      rfl
    · cases checked
      rfl
    · rw [Option.map_eq_some_iff] at checked
      obtain ⟨r, _, same⟩ := checked
      rw [Prod.mk.injEq] at same
      rw [← same.1]
      rfl
  · cases checked
    rfl

variable [LinearOrder K]

theorem combineCostRebound_cps {n : ℕ} {sqrt : K → K} {check : ControlPoints K → ControlPoints K}
    {inp : OptimizerInput K} {iterNum : ℕ} {minEllipDist after : K} {cps : ControlPoints K}
    {x : Fin n → K} {left : Combined K n}
    (combined : combineCostRebound sqrt check inp iterNum minEllipDist cps x =
      some (left, after)) :
    left.cps = reboundStep check inp.order iterNum
      (calcSmoothnessCost (writeData cps.points (3 * inp.order) x) true 0).cost
      { cps with points := writeData cps.points (3 * inp.order) x } := by
  unfold combineCostRebound at combined
  split_ifs at combined
  simp only [Option.bind_eq_bind, Option.bind_eq_some_iff, Option.some.injEq, Prod.mk.injEq]
    at combined
  obtain ⟨swarm, _, terminal, _, same, _⟩ := combined
  rw [← same]
  rfl

theorem combineCostRebound_room {n : ℕ} {sqrt : K → K} {check : ControlPoints K → ControlPoints K}
    {inp : OptimizerInput K} {iterNum : ℕ} {minEllipDist : K} {cps : ControlPoints K}
    {x : Fin n → K} {r : Combined K n × K}
    (combined : combineCostRebound sqrt check inp iterNum minEllipDist cps x = some r) :
    3 * inp.order + n ≤ 3 * cps.points.length := by
  unfold combineCostRebound at combined
  split_ifs at combined with short
  exact not_lt.mp short

variable [FloorSemiring K]

theorem costFunctionRebound_points {n : ℕ} {s next : OptimizerState K} {x : Fin n → K}
    {value : K × (Fin n → K)} (evaluated : costFunctionRebound set s x = some (value, next)) :
    next.cps.points = writeData s.cps.points (3 * set.inp.order) x ∧
      3 * set.inp.order + n ≤ 3 * s.cps.points.length := by
  unfold costFunctionRebound at evaluated
  simp only [Option.bind_eq_bind, Option.bind_eq_some_iff] at evaluated
  obtain ⟨⟨checked, stop⟩, check, ⟨left, minEllipDist⟩, combined, same⟩ := evaluated
  rw [Option.some.injEq, Prod.mk.injEq] at same
  have room := combineCostRebound_room combined
  refine ⟨?_, room⟩
  rw [← same.2]
  dsimp only
  rw [combineCostRebound_cps combined]
  unfold reboundStep
  split_ifs
  · exact reboundCheck_points check
  · rfl

variable [IsStrictOrderedRing K]

theorem costFunctionRebound_moves (sound : set.Sound) {n : ℕ} {s next : OptimizerState K}
    (ample : Ample set s.cps) {x : Fin n → K} {value : K × (Fin n → K)}
    (evaluated : costFunctionRebound set s x = some (value, next)) :
    next.cps.points = writeData s.cps.points (3 * set.inp.order) x ∧
      s.cps.Moved set.inp.order next.cps ∧ Ample set next.cps ∧ next.newLambda2 = s.newLambda2 := by
  set q := writeData s.cps.points (3 * set.inp.order) x with columns
  have written : Ample set { s.cps with points := q } :=
    ⟨⟨ample.1.lengths.trans (length_writeData _ _ _).symm, ample.1.marked⟩,
      ample.2.trans_eq (length_writeData _ _ _).symm⟩
  obtain ⟨checked, stop, check, extends_to, consistent⟩ := reboundCheck_spec sound written s.iterNum
    (calcSmoothnessCost q true 0).cost
  simp only [costFunctionRebound, ← columns, check, Option.bind_eq_bind, Option.bind_some,
    Option.bind_eq_some_iff] at evaluated
  obtain ⟨⟨left, minEllipDist⟩, combined, same⟩ := evaluated
  have left_cps : left.cps = checked.toControlPoints := by
    rw [combineCostRebound_cps combined]
    unfold reboundStep
    unfold reboundCheck at check
    split_ifs with due
    · rfl
    · rw [if_neg due] at check
      cases check
      rfl
  have next_cps : next.cps = checked := by
    dsimp only at same
    rw [Option.some.injEq, Prod.mk.injEq] at same
    rw [← same.2]
    dsimp only
    rw [left_cps]
  have next_lambda : next.newLambda2 = s.newLambda2 := by
    dsimp only at same
    rw [Option.some.injEq, Prod.mk.injEq] at same
    rw [← same.2]
  rw [next_cps]
  refine ⟨extends_to.points, (moved_write s.cps x).trans extends_to.moved, ⟨consistent, ?_⟩,
    next_lambda⟩
  rw [extends_to.points]
  exact written.2

end Evaluations

section Calls

variable {K : Type} {set : ReboundSetting K} [Field K] [LinearOrder K] [FloorSemiring K]

def CallKeeps (set : ReboundSetting K) (first : OptimizerState K) :
    Option (OptimizerState K) → Prop
  | none => True
  | some s => first.cps.Moved set.inp.order s.cps ∧ Ample set s.cps ∧
      s.newLambda2 = first.newLambda2

/-- The rounds of the loop: what the call leaves decides what the round does. -/
inductive RoundEnd (set : ReboundSetting K) (l : ReboundLoop K) :
    ReboundLoop K ⊕ Option (Bool × K × OptimizerState K) → Prop
  | undefined : RoundEnd set l (.inr none)
  | collides {result : LbfgsResult} {finalCost : K} {opt : OptimizerState K} {hit : Option K}
      (called : reboundCall set l = some (result, finalCost, opt))
      (checked : reboundHit set result opt = some hit)
      (body : reboundBody set.config ⟨result, opt.minEllipDist, opt.forceStopType, hit⟩
        l.counters = none) : RoundEnd set l (.inr (some (false, finalCost, opt)))
  | ends {result : LbfgsResult} {finalCost : K} {opt : OptimizerState K} {hit : Option K}
      {next : ReboundState K} {flags : ReboundFlags} {cps : FlaggedPoints K}
      (called : reboundCall set l = some (result, finalCost, opt))
      (checked : reboundHit set result opt = some hit)
      (body : reboundBody set.config ⟨result, opt.minEllipDist, opt.forceStopType, hit⟩
        l.counters = some (next, flags))
      (initialised : restarted set (decide (next.restartNums ≠ l.counters.restartNums)) opt.cps =
        some cps)
      (stops : ¬GoesOn set.config ⟨result, opt.minEllipDist, opt.forceStopType, hit⟩ next flags) :
      RoundEnd set l (.inr (some (flags.success, finalCost, { opt with cps })))
  | goes_on {result : LbfgsResult} {finalCost : K} {opt : OptimizerState K} {hit : Option K}
      {next : ReboundState K} {flags : ReboundFlags} {cps : FlaggedPoints K}
      (called : reboundCall set l = some (result, finalCost, opt))
      (checked : reboundHit set result opt = some hit)
      (body : reboundBody set.config ⟨result, opt.minEllipDist, opt.forceStopType, hit⟩
        l.counters = some (next, flags))
      (initialised : restarted set (decide (next.restartNums ≠ l.counters.restartNums)) opt.cps =
        some cps)
      (again : GoesOn set.config ⟨result, opt.minEllipDist, opt.forceStopType, hit⟩ next flags) :
      RoundEnd set l (.inl ⟨next, finalCost, { opt with cps }⟩)

theorem reboundRound_end (set : ReboundSetting K) (l : ReboundLoop K) :
    RoundEnd set l (reboundRound set l) := by
  unfold reboundRound
  split
  · exact .undefined
  · rename_i result finalCost opt called
    split
    · exact .undefined
    · rename_i hit checked
      dsimp only
      split
      · rename_i body
        exact .collides called checked body
      · rename_i next flags body
        split
        · exact .undefined
        · rename_i cps initialised
          split_ifs with again
          · exact .goes_on called checked body initialised again
          · exact .ends called checked body initialised again

variable [IsStrictOrderedRing K]

theorem callKeeps_evaluate (sound : set.Sound) {first : OptimizerState K} {n : ℕ}
    (inst : Option (OptimizerState K)) (x : Fin n → K) (kept : CallKeeps set first inst) :
    CallKeeps set first ((reboundCallbacks set n).procEvaluate inst x).2 := by
  cases inst with
  | none => trivial
  | some s =>
      obtain ⟨moved, ample, same⟩ := kept
      unfold reboundCallbacks
      dsimp only
      rw [Option.bind_some]
      cases evaluated : costFunctionRebound set s x with
      | none => trivial
      | some result =>
          obtain ⟨_, moved', ample', same'⟩ := costFunctionRebound_moves sound ample evaluated
          exact ⟨moved.trans moved', ample', same'.trans same⟩

theorem reboundCall_moves (sound : set.Sound) {l : ReboundLoop K} (ample : Ample set l.opt.cps)
    {result : LbfgsResult} {finalCost : K} {opt : OptimizerState K}
    (called : reboundCall set l = some (result, finalCost, opt)) :
    l.opt.cps.Moved set.inp.order opt.cps ∧ Ample set opt.cps := by
  have start : CallKeeps set l.prepared (some l.prepared) := ⟨.refl _ _, ample, rfl⟩
  unfold reboundCall at called
  dsimp only at called
  split at called
  · cases called
    exact ⟨.refl _ _, ample⟩
  · cases called
  · rename_i r ended
    have kept := lbfgsOptimize_keeps (callKeeps_evaluate sound)
      (callKeeps_evaluate sound _ _ start) ended
    rw [Option.map_eq_some_iff] at called
    obtain ⟨s, left, same⟩ := called
    rw [Prod.mk.injEq, Prod.mk.injEq] at same
    rw [left] at kept
    rw [← same.2.2]
    exact ⟨kept.1, kept.2.1⟩

theorem restarted_moves (sound : set.Sound) {restarts : Bool} {cps after : FlaggedPoints K}
    (ample : Ample set cps) (initialised : restarted set restarts cps = some after) :
    cps.Moved set.inp.order after ∧ Ample set after := by
  unfold restarted at initialised
  split_ifs at initialised
  · obtain ⟨left, segments, init, extends_to, consistent, -⟩ := initControlPoints_spec
      set.sqrt sound.resolution (Nat.zero_lt_two.trans_le sound.order) ample.2 ample.1
    rw [init, Option.map_some, Option.some.injEq] at initialised
    subst initialised
    refine ⟨extends_to.moved, consistent, ?_⟩
    rw [extends_to.points]
    exact ample.2
  · cases initialised
    exact ⟨.refl _ _, ample⟩

theorem loop_moved (sound : set.Sound) {cps : FlaggedPoints K} {l next : ReboundLoop K}
    (moved : cps.Moved set.inp.order l.opt.cps) (ample : Ample set l.opt.cps)
    (went_on : reboundRound set l = .inl next) :
    cps.Moved set.inp.order next.opt.cps ∧ Ample set next.opt.cps := by
  have shape := reboundRound_end set l
  rw [went_on] at shape
  cases shape with
  | goes_on called _ _ initialised _ =>
      obtain ⟨call, left⟩ := reboundCall_moves sound ample called
      obtain ⟨restart, last⟩ := restarted_moves sound left initialised
      exact ⟨(moved.trans call).trans restart, last⟩

theorem reboundOptimize_moved (sound : set.Sound) {opt : OptimizerState K}
    (ample : Ample set opt.cps) {finalCost : K} {fuel : ℕ} {success : Bool} {cost : K}
    {after : OptimizerState K}
    (ended : set.reboundOptimize finalCost opt fuel = some (some (success, cost, after))) :
    opt.cps.Moved set.inp.order after.cps ∧ Ample set after.cps := by
  refine Loop.run_induct
    (I := fun l : ReboundLoop K => opt.cps.Moved set.inp.order l.opt.cps ∧ Ample set l.opt.cps)
    (P := fun o : Option (Bool × K × OptimizerState K) =>
      ∀ r ∈ o, opt.cps.Moved set.inp.order r.2.2.cps ∧ Ample set r.2.2.cps) ?_ ?_
    ⟨.refl _ _, ample⟩ ended _ rfl
  · rintro l _ next ⟨moved, ample⟩ went_on
    exact loop_moved sound moved ample went_on
  · rintro l _ _ ⟨moved, ample⟩ finished r rfl
    have shape := reboundRound_end set l
    rw [finished] at shape
    cases shape with
    | collides called _ _ =>
        obtain ⟨call, left⟩ := reboundCall_moves sound ample called
        exact ⟨moved.trans call, left⟩
    | ends called _ _ initialised _ =>
        obtain ⟨call, left⟩ := reboundCall_moves sound ample called
        obtain ⟨restart, last⟩ := restarted_moves sound left initialised
        exact ⟨(moved.trans call).trans restart, last⟩

end Calls

end RobocupDrone.Optimizer
