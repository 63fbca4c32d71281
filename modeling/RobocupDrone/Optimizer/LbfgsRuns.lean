import Mathlib.Tactic.NormNum.RealSqrt
import RobocupDrone.Optimizer.LbfgsMemory

/-! The runs of the solver: every direction is one of descent, and no accepted point costs more
than the one before it. -/

namespace RobocupDrone.Optimizer

open Geometry QuasiNewton

variable {K σ : Type} {n : ℕ} [Field K] [LinearOrder K]
variable {sqrt : K → K} {cd : Callbacks K σ n} {param : LbfgsParameter K} {x : Fin n → K} {inst : σ}

section Statements

variable (sqrt : K → K) (cd : Callbacks K σ n) (param : LbfgsParameter K) (x : Fin n → K)
  (inst : σ)

/-- The states in front of an iteration, with the pairs of the iterations so far, the newest
first. -/
inductive Reached : List (Pair (Fin n → K)) → LbfgsState K σ n → Prop
  | start {fx : K} {g : Fin n → K} {next : σ}
      (evaluated : cd.procEvaluate inst x = ((fx, g), next)) (rest : ¬Converged sqrt param x g) :
      Reached [] (initialState sqrt x fx g next)
  | step {pairs : List (Pair (Fin n → K))} {s next : LbfgsState K σ n} (reached : Reached pairs s)
      (goes_on : lbfgsIteration sqrt cd param s = .inl next) :
      Reached (⟨vecdiff next.x s.x, vecdiff next.g s.g⟩ :: pairs) next

/-- Arguments that the solver accepts, with steps that stay away from zero. -/
structure Accepted : Prop where
  checked : checkParam n param = none
  minStep : 0 < param.minStep
  bounds : ∀ bound ∈ cd.procStepbound, ∀ inst xp d, 0 < bound inst xp d

def scaling : List (Pair (Fin n → K)) → K
  | [] => 1
  | p :: _ => vecdot p.y p.s / vecdot p.y p.y

noncomputable def quasiNewton (m : ℕ) (pairs : List (Pair (Fin n → K))) (g : Fin n → K) :
    Fin n → K :=
  -inverseHessian dotForm (scaling pairs) (pairs.take m) g

end Statements

structure Checked (n : ℕ) (param : LbfgsParameter K) : Prop where
  memSize : 0 < param.memSize
  gEpsilon : 0 ≤ param.gEpsilon
  fDecCoeff : 0 ≤ param.fDecCoeff
  sCurvCoeff : param.sCurvCoeff < 1
  maxStep : param.minStep ≤ param.maxStep
  maxLinesearch : 0 < param.maxLinesearch

theorem check_eq_none_iff {fails : Prop} [Decidable fails] {code : LbfgsResult}
    {rest : Option LbfgsResult} :
    (if fails then some code else rest) = none ↔ ¬fails ∧ rest = none := by
  by_cases fails <;> simp [*]

theorem checked_of_none (accepted : checkParam n param = none) : Checked n param := by
  simp only [checkParam, check_eq_none_iff] at accepted
  obtain ⟨_, mem, eps, _, _, _, most, dec, curv, _, trials, _⟩ := accepted
  rw [not_or, not_le, not_le] at curv
  exact ⟨not_le.mp mem, not_lt.mp eps, not_lt.mp dec, curv.2, not_lt.mp most, not_le.mp trials⟩

theorem run_reached {fuel : ℕ} {pairs : List (Pair (Fin n → K))} {s : LbfgsState K σ n}
    (reached : Reached sqrt cd param x inst pairs s) {o : Option (LbfgsEnd K σ n)}
    (ended : Loop.run (fun s (_ : Unit) => lbfgsIteration sqrt cd param s) fuel (fun _ => ()) s =
      some o) :
    ∃ pairs s, Reached sqrt cd param x inst pairs s ∧ lbfgsIteration sqrt cd param s = .inr o := by
  refine Loop.run_induct (I := fun s => ∃ pairs, Reached sqrt cd param x inst pairs s)
    (P := fun o => ∃ pairs s, Reached sqrt cd param x inst pairs s ∧
      lbfgsIteration sqrt cd param s = .inr o) ?_ ?_ ⟨pairs, reached⟩ ended
  · rintro s _ next ⟨pairs, before⟩ goes_on
    exact ⟨_, .step before goes_on⟩
  · rintro s _ result ⟨pairs, before⟩ finished
    exact ⟨pairs, s, before, finished⟩

theorem lbfgsIteration_goes_on {s next : LbfgsState K σ n}
    (goes_on : lbfgsIteration sqrt cd param s = .inl next) :
    next.k = s.k + 1 ∧ ¬(param.maxIterations ≠ 0 ∧ param.maxIterations < s.k + 1) ∧
      ∃ e : SearchEnd K σ n, next.inst = e.inst ∧
        lineSearchMorethuente sqrt cd param s.x s.fx s.g s.d (startStep cd param s).1
          param.minStep (startStep cd param s).2 s.inst param.maxLinesearch.toNat = some e := by
  unfold lbfgsIteration at goes_on
  dsimp only at goes_on
  split at goes_on
  · cases goes_on
  · rename_i e searched
    split at goes_on
    · cases goes_on
    · split_ifs at goes_on with converged stalled late
      cases goes_on
      exact ⟨rfl, late, e, rfl, searched⟩

theorem lbfgsIteration_ends {s : LbfgsState K σ n} {r : LbfgsEnd K σ n}
    (ended : lbfgsIteration sqrt cd param s = .inr (some r)) :
    ∃ e : SearchEnd K σ n, r.inst = e.inst ∧
      lineSearchMorethuente sqrt cd param s.x s.fx s.g s.d (startStep cd param s).1
        param.minStep (startStep cd param s).2 s.inst param.maxLinesearch.toNat = some e := by
  unfold lbfgsIteration at ended
  dsimp only at ended
  split at ended
  · cases ended
  · rename_i e searched
    refine ⟨e, ?_, searched⟩
    split at ended
    · cases ended
      rfl
    · split_ifs at ended <;> cases ended <;> rfl

/-- What holds of the callbacks' state after the first evaluation, and is kept by the others, holds
in the end. -/
theorem lbfgsOptimize_keeps {P : σ → Prop}
    (keeps : ∀ inst x, P inst → P (cd.procEvaluate inst x).2)
    (start : P (cd.procEvaluate inst x).2) {fuel : ℕ}
    {r : LbfgsEnd K σ n} (ended : lbfgsOptimize sqrt cd param x inst fuel = .ok (some r)) :
    P r.inst := by
  unfold lbfgsOptimize at ended
  split at ended
  · cases ended
  · dsimp only at ended
    split_ifs at ended with converged
    · cases ended
      exact start
    · rw [Except.ok.injEq, Option.join_eq_some_iff] at ended
      refine Loop.run_induct (I := fun s : LbfgsState K σ n => P s.inst)
        (P := fun o : Option (LbfgsEnd K σ n) => ∀ r ∈ o, P r.inst) ?_ ?_ start ended r rfl
      · intro s _ next kept goes_on
        obtain ⟨-, -, e, same, searched⟩ := lbfgsIteration_goes_on goes_on
        rw [same]
        exact lineSearch_keeps keeps kept searched
      · rintro s _ _ kept finished r rfl
        obtain ⟨e, same, searched⟩ := lbfgsIteration_ends finished
        rw [same]
        exact lineSearch_keeps keeps kept searched

theorem Reached.few (limited : 0 < param.maxIterations) {pairs : List (Pair (Fin n → K))}
    {s : LbfgsState K σ n} (reached : Reached sqrt cd param x inst pairs s) :
    s.k = pairs.length + 1 ∧ (s.k : ℤ) ≤ param.maxIterations := by
  induction reached with
  | start _ _ =>
      refine ⟨rfl, ?_⟩
      show ((1 : ℕ) : ℤ) ≤ param.maxIterations
      omega
  | step _ goes_on ih =>
      obtain ⟨one_more, room, -⟩ := lbfgsIteration_goes_on goes_on
      rw [List.length_cons]
      omega

theorem Reached.evaluations (enough : 0 < param.maxLinesearch) {counted : σ → ℕ}
    (counts : ∀ inst x, counted (cd.procEvaluate inst x).2 = counted inst + 1)
    {pairs : List (Pair (Fin n → K))} {s : LbfgsState K σ n}
    (reached : Reached sqrt cd param x inst pairs s) :
    (counted s.inst : ℤ) ≤ counted inst + 1 + pairs.length * param.maxLinesearch := by
  induction reached with
  | @start fx g next evaluated _ =>
      have once := counts inst x
      rw [evaluated] at once
      show (counted next : ℤ) ≤ _
      rw [once, List.length_nil]
      push_cast
      omega
  | step _ goes_on ih =>
      obtain ⟨-, -, e, same, searched⟩ := lbfgsIteration_goes_on goes_on
      have more := lineSearch_evaluations counts enough searched
      rw [same, List.length_cons]
      push_cast
      linarith

theorem gradient_ne_zero (root : Vec3.IsRoundedSqrt sqrt) (checked : Checked n param)
    {g : Fin n → K} (rest : ¬Converged sqrt param x g) : g ≠ 0 := by
  rintro rfl
  apply rest
  have length : vec2norm sqrt (0 : Fin n → K) = 0 := by
    have square : vecdot (0 : Fin n → K) 0 = 0 := by simp [vecdot]
    rw [vec2norm, square, root.zero]
  rw [Converged, length, zero_div]
  exact checked.gEpsilon

def searchOf (cd : Callbacks K σ n) (param : LbfgsParameter K) (s : LbfgsState K σ n) :
    SearchInput K σ n :=
  ⟨cd, param, s.x, s.d, s.fx, vecdot s.g s.d, param.minStep, (startStep cd param s).2⟩

theorem lbfgsOptimize_evaluations (accepted : Accepted cd param) (limited : 0 < param.maxIterations)
    {counted : σ → ℕ} (counts : ∀ inst x, counted (cd.procEvaluate inst x).2 = counted inst + 1)
    {fuel : ℕ} {r : LbfgsEnd K σ n}
    (ended : lbfgsOptimize sqrt cd param x inst fuel = .ok (some r)) :
    (counted r.inst : ℤ) ≤ counted inst + 1 + param.maxIterations * param.maxLinesearch := by
  have checked := checked_of_none accepted.checked
  unfold lbfgsOptimize at ended
  rw [accepted.checked] at ended
  dsimp only at ended
  split_ifs at ended with converged
  · cases ended
    have rest : 0 ≤ param.maxIterations * param.maxLinesearch :=
      mul_nonneg limited.le checked.maxLinesearch.le
    dsimp only
    rw [counts]
    push_cast
    omega
  · rw [Except.ok.injEq, Option.join_eq_some_iff] at ended
    obtain ⟨pairs, s, reached, finished⟩ := run_reached (.start rfl converged) ended
    obtain ⟨numbered, few⟩ := reached.few limited
    have before := reached.evaluations checked.maxLinesearch counts
    obtain ⟨e, same, searched⟩ := lbfgsIteration_ends finished
    have more := lineSearch_evaluations counts checked.maxLinesearch searched
    have iterations : ((pairs.length : ℤ) + 1) * param.maxLinesearch ≤
        param.maxIterations * param.maxLinesearch :=
      mul_le_mul_of_nonneg_right (by omega) checked.maxLinesearch.le
    rw [same]
    linarith

variable [IsStrictOrderedRing K]

theorem startStep_pos (accepted : Accepted cd param) {s : LbfgsState K σ n}
    (step_pos : 0 < s.step) : 0 < (startStep cd param s).1 ∧ 0 < (startStep cd param s).2 := by
  have most : 0 < param.maxStep :=
    accepted.minStep.trans_le (checked_of_none accepted.checked).maxStep
  unfold startStep
  cases given : cd.procStepbound with
  | none => exact ⟨step_pos, most⟩
  | some bound =>
      have upper : 0 < if bound s.inst s.x s.d < param.maxStep then bound s.inst s.x s.d
          else param.maxStep := by
        split_ifs
        · exact accepted.bounds bound given s.inst s.x s.d
        · exact most
      refine ⟨?_, upper⟩
      dsimp only
      by_cases beyond : (if bound s.inst s.x s.d < param.maxStep then bound s.inst s.x s.d
          else param.maxStep) ≤ s.step
      · rw [if_pos beyond]
        exact half_pos upper
      · rw [if_neg beyond]
        exact step_pos

/-- The step of a search is positive and its direction one of descent. -/
structure Ready (cd : Callbacks K σ n) (inst : σ) (s : LbfgsState K σ n) : Prop where
  last : Last cd inst s.x s.fx s.g s.inst
  step_pos : 0 < s.step
  descends : vecdot s.g s.d < 0

variable (sqrt) in
/-- The line search of an iteration ends; an error ends the solver at the point before the search,
and else the tests decide. -/
theorem lbfgsIteration_cases (accepted : Accepted cd param) {s : LbfgsState K σ n}
    (ready : Ready cd inst s) :
    (∃ (e : SearchEnd K σ n) (code : LbfgsResult), Last cd inst e.x e.f e.g e.inst ∧
      Evaluated cd s.inst e.inst ∧ ¬Solved code ∧
        lbfgsIteration sqrt cd param s = .inr (some ⟨code, s.x, e.f, e.inst⟩)) ∨
    (∃ e : SearchEnd K σ n, Last cd inst e.x e.f e.g e.inst ∧ (searchOf cd param s).Found e ∧
      ((∃ ret : LbfgsResult, Solved ret ∧
          lbfgsIteration sqrt cd param s = .inr (some ⟨ret, e.x, e.f, e.inst⟩)) ∨
        (¬Converged sqrt param e.x e.g ∧
          ¬(param.maxIterations ≠ 0 ∧ param.maxIterations < s.k + 1) ∧
          lbfgsIteration sqrt cd param s = .inl (nextState param s e)))) := by
  have checked := checked_of_none accepted.checked
  have positive := startStep_pos accepted ready.step_pos
  obtain ⟨e, searched, ends⟩ : ∃ e, lineSearchMorethuente sqrt cd param s.x s.fx s.g s.d
      (startStep cd param s).1 param.minStep (startStep cd param s).2 s.inst
      param.maxLinesearch.toNat = some e ∧ (searchOf cd param s).Ends inst e :=
    lineSearch_ends checked.maxLinesearch positive.1 ready.descends.le ready.last
      ⟨accepted.minStep, positive.2⟩
  have later : Evaluated cd s.inst e.inst :=
    lineSearch_keeps (fun _ x so_far => so_far.tail ⟨x, rfl⟩) .refl searched
  cases outcome : e.ls with
  | error code =>
      refine .inl ⟨e, code, ends.last, later, ends.failed code outcome, ?_⟩
      unfold lbfgsIteration
      dsimp only
      rw [searched]
      dsimp only
      rw [outcome]
  | ok count =>
      have whole : lbfgsIteration sqrt cd param s =
          if Converged sqrt param e.x e.g then .inr (some ⟨.convergence, e.x, e.f, e.inst⟩)
          else if Stalled param s e.f then .inr (some ⟨.stop, e.x, e.f, e.inst⟩)
          else if param.maxIterations ≠ 0 ∧ param.maxIterations < s.k + 1 then
            .inr (some ⟨.maximumIteration, e.x, e.f, e.inst⟩)
          else .inl (nextState param s e) := by
        unfold lbfgsIteration
        dsimp only
        rw [searched]
        dsimp only
        rw [outcome]
      refine .inr ⟨e, ends.last, ends.found count outcome, ?_⟩
      split_ifs at whole with converged stalled late
      · exact .inl ⟨.convergence, by decide, whole⟩
      · exact .inl ⟨.stop, by decide, whole⟩
      · exact .inl ⟨.maximumIteration, by decide, whole⟩
      · exact .inr ⟨converged, late, whole⟩

theorem SearchInput.Found.curved {s : LbfgsState K σ n} {e : SearchEnd K σ n}
    (checked : Checked n param) (descends : vecdot s.g s.d < 0)
    (found : (searchOf cd param s).Found e) :
    0 < vecdot (vecdiff e.g s.g) (vecdiff e.x s.x) := by
  have place : e.x = vecadd s.x s.d e.stp := found.place
  have curvature : |vecdot e.g s.d| ≤ param.sCurvCoeff * -vecdot s.g s.d := found.curvature
  have least := neg_le_of_abs_le curvature
  have flatter : 0 < (1 - param.sCurvCoeff) * -vecdot s.g s.d :=
    mul_pos (sub_pos.mpr checked.sCurvCoeff) (neg_pos.mpr descends)
  rw [place, vecdiff_vecadd, vecdot_scaled, vecdot_vecdiff]
  exact mul_pos found.forward (by linarith)

/-- What holds of a state in front of an iteration. -/
structure Invariant (cd : Callbacks K σ n) (param : LbfgsParameter K) (inst : σ)
    (pairs : List (Pair (Fin n → K))) (s : LbfgsState K σ n) : Prop where
  ready : Ready cd inst s
  curved : ∀ p ∈ pairs, 0 < vecdot p.y p.s
  direction : s.d = quasiNewton param.memSize.toNat pairs s.g
  counted : s.k = pairs.length + 1
  slot : s.last < param.memSize.toNat
  memory : stored param.memSize.toNat s.lm (min param.memSize.toNat pairs.length) s.last =
    pairs.take param.memSize.toNat
  weighed : Weighed param.memSize.toNat s.lm (min param.memSize.toNat pairs.length) s.last

theorem scaling_pos {pairs : List (Pair (Fin n → K))}
    (curved : ∀ p ∈ pairs, 0 < vecdot p.y p.s) : 0 < scaling pairs := by
  cases pairs with
  | nil => exact zero_lt_one
  | cons p older =>
      have curve := curved p List.mem_cons_self
      refine div_pos curve (vecdot_self_pos ?_)
      intro still
      rw [still] at curve
      simp [vecdot] at curve

theorem quasiNewton_descends {m : ℕ} {pairs : List (Pair (Fin n → K))}
    (curved : ∀ p ∈ pairs, 0 < vecdot p.y p.s) {g : Fin n → K} (nonzero : g ≠ 0) :
    vecdot g (quasiNewton m pairs g) < 0 := by
  have positive : 0 < dotForm g (inverseHessian dotForm (scaling pairs) (pairs.take m) g) :=
    inverseHessian_pos vecdot_comm (fun v => vecdot_self_pos) (scaling_pos curved)
      (fun p member => curved p (List.mem_of_mem_take member)) nonzero
  have negated : vecdot g (quasiNewton m pairs g) =
      -vecdot g (inverseHessian dotForm (scaling pairs) (pairs.take m) g) :=
    vecdot_vecncpy g _
  rw [negated]
  exact neg_lt_zero.mpr positive

theorem invariant_initial (root : Vec3.IsRoundedSqrt sqrt) (accepted : Accepted cd param)
    {fx : K} {g : Fin n → K} {next : σ} (evaluated : cd.procEvaluate inst x = ((fx, g), next))
    (rest : ¬Converged sqrt param x g) :
    Invariant cd param inst [] (initialState sqrt x fx g next) := by
  have checked := checked_of_none accepted.checked
  have nonzero := gradient_ne_zero root checked rest
  have steepest : vecncpy g = quasiNewton param.memSize.toNat [] g := by
    rw [quasiNewton, scaling, List.take_nil, inverseHessian, one_smul]
    rfl
  have length_pos : 0 < vec2norm sqrt (vecncpy g) := by
    have square : vecdot (vecncpy g) (vecncpy g) = vecdot g g := by
      rw [vecdot_vecncpy, vecdot_comm, vecdot_vecncpy, neg_neg]
    rw [vec2norm, square]
    exact root.pos (vecdot_self_pos nonzero)
  have slot : 0 < param.memSize.toNat := by
    have size := checked.memSize
    omega
  refine ⟨⟨⟨inst, .refl, evaluated⟩, one_div_pos.mpr length_pos, ?_⟩, ?_, steepest, rfl, slot,
    ?_, ?_⟩
  · show vecdot g (vecncpy g) < 0
    rw [steepest]
    exact quasiNewton_descends (fun _ member => absurd member List.not_mem_nil) nonzero
  · exact fun _ member => absurd member List.not_mem_nil
  · rw [List.length_nil, Nat.min_zero, List.take_nil]
    rfl
  · intro i short
    rw [List.length_nil, Nat.min_zero] at short
    exact absurd short (Nat.not_lt_zero i)

theorem Invariant.next (root : Vec3.IsRoundedSqrt sqrt) (accepted : Accepted cd param)
    {pairs : List (Pair (Fin n → K))} {s : LbfgsState K σ n}
    (invariant : Invariant cd param inst pairs s)
    {e : SearchEnd K σ n} (last : Last cd inst e.x e.f e.g e.inst)
    (found : (searchOf cd param s).Found e) (rest : ¬Converged sqrt param e.x e.g) :
    Invariant cd param inst (⟨vecdiff e.x s.x, vecdiff e.g s.g⟩ :: pairs)
      (nextState param s e) := by
  have checked := checked_of_none accepted.checked
  set m := param.memSize.toNat with size
  set p : Pair (Fin n → K) := ⟨vecdiff e.x s.x, vecdiff e.g s.g⟩ with newest
  set written := Function.update s.lm s.last
    { s.lm s.last with s := p.s, y := p.y, ys := vecdot p.y p.s } with memory
  have bounds : (if m ≤ s.k then m else s.k) = min m (pairs.length + 1) := by
    rw [invariant.counted]
    split_ifs <;> omega
  have slot : forth m s.last < m := forth_lt invariant.slot
  have pairs_in : stored m written (min m (pairs.length + 1)) (forth m s.last) =
      (p :: pairs).take m := stored_write invariant.slot invariant.memory _
  have weights : Weighed m written (min m (pairs.length + 1)) (forth m s.last) :=
    weighed_write invariant.slot invariant.weighed rfl
  have curved : ∀ q ∈ p :: pairs, 0 < vecdot q.y q.s := by
    intro q member
    rcases List.mem_cons.mp member with rfl | older
    · exact found.curved checked invariant.ready.descends
    · exact invariant.curved q older
  obtain ⟨product, same⟩ := nextDirection_eq slot (min_le_left m (pairs.length + 1)) weights
    (vecdot p.y p.s / vecdot p.y p.y) e.g
  have direction : (nextState param s e).d = quasiNewton m (p :: pairs) e.g := by
    rw [quasiNewton, scaling, ← pairs_in, ← product, ← bounds]
    rfl
  have kept : SamePairs (nextState param s e).lm written := by
    rw [← bounds] at same
    exact same
  refine ⟨⟨last, zero_lt_one, ?_⟩, curved, direction, ?_, slot, ?_, ?_⟩
  · rw [direction]
    exact quasiNewton_descends curved (gradient_ne_zero root checked rest)
  · show s.k + 1 = (p :: pairs).length + 1
    rw [invariant.counted, List.length_cons]
  · exact (kept.stored _ _).trans pairs_in
  · exact kept.weighed weights

theorem Reached.invariant (root : Vec3.IsRoundedSqrt sqrt) (accepted : Accepted cd param)
    {pairs : List (Pair (Fin n → K))} {s : LbfgsState K σ n}
    (reached : Reached sqrt cd param x inst pairs s) : Invariant cd param inst pairs s := by
  induction reached with
  | start evaluated rest => exact invariant_initial root accepted evaluated rest
  | step _ goes_on ih =>
      rcases lbfgsIteration_cases sqrt accepted ih.ready with
        ⟨_, _, _, _, _, ended⟩ | ⟨e, last, found, ⟨_, _, ended⟩ | ⟨rest, _, ended⟩⟩
      · rw [ended] at goes_on
        cases goes_on
      · rw [ended] at goes_on
        cases goes_on
      · rw [ended, Sum.inl.injEq] at goes_on
        subst goes_on
        exact ih.next root accepted last found rest

section Parabola

def parabola : Callbacks ℝ ℕ 1 where
  procEvaluate count x := ((x 0 * x 0, fun _ => 2 * x 0), count + 1)
  procStepbound := none
  procProgress := none

/-- The parameters of `rebound_optimize`. -/
noncomputable def reboundParam : LbfgsParameter ℝ :=
  { defaultParam with memSize := 16, maxIterations := 200, gEpsilon := 0.01 }

theorem accepted_parabola : Accepted parabola reboundParam where
  checked := by norm_num [checkParam, reboundParam, defaultParam]
  minStep := by norm_num [reboundParam, defaultParam]
  bounds := by simp [parabola]

noncomputable def parabolaSearch : SearchInput ℝ ℕ 1 :=
  ⟨parabola, reboundParam, fun _ => 4, fun _ => -8, 16, -64, 1e-20, 1e20⟩

noncomputable def parabolaStart : SearchState ℝ ℕ 1 :=
  ⟨0, false, true, none, ⟨0, 16, -64⟩, ⟨0, 16, -64⟩, 1e20 - 1e-20, 2 * (1e20 - 1e-20), 1 / 8,
    fun _ => 4, 16, fun _ => 8, 1⟩

theorem parabola_round : searchRound Real.sqrt parabolaSearch parabolaStart =
    .inr ⟨.ok 1, 1 / 8, fun _ => 3, 9, fun _ => 6, 2⟩ := by
  have tried : trialStep parabolaSearch parabolaStart = 1 / 8 := by
    norm_num [trialStep, clippedStep, parabolaSearch, parabolaStart]
  have place : vecadd parabolaSearch.xp parabolaSearch.s (1 / 8) = fun _ => 3 := by
    funext i
    norm_num [vecadd, parabolaSearch]
  have evaluated : parabolaSearch.cd.procEvaluate parabolaStart.inst (fun _ => 3) =
      ((9, fun _ => 6), 2) := by
    norm_num [parabolaSearch, parabolaStart, parabola]
  have slope : vecdot (fun _ : Fin 1 => (6 : ℝ)) parabolaSearch.s = -48 := by
    norm_num [vecdot, parabolaSearch]
  have verdict : searchVerdict parabolaSearch parabolaStart (1 / 8) 9 (-48) = some (.ok 1) := by
    norm_num [searchVerdict, SearchInput.ftest1, SearchInput.dgtest, parabolaSearch, parabolaStart,
      reboundParam, defaultParam]
  unfold searchRound
  rw [if_neg (by simp [SearchState.Canceled, parabola, parabolaSearch])]
  simp only [tried, place, evaluated, slope, verdict]

theorem parabola_search :
    lineSearchMorethuente Real.sqrt parabola reboundParam (fun _ => 4) 16 (fun _ => 8)
      (fun _ => -8) (1 / 8) 1e-20 1e20 1 40 =
        some ⟨.ok 1, 1 / 8, fun _ => 3, 9, fun _ => 6, 2⟩ := by
  have slope : vecdot (fun _ : Fin 1 => (8 : ℝ)) (fun _ => -8) = -64 := by norm_num [vecdot]
  unfold lineSearchMorethuente
  rw [slope]
  dsimp only
  rw [if_neg (by norm_num), if_neg (by norm_num)]
  change Loop.run (fun w (_ : Unit) => searchRound Real.sqrt parabolaSearch w) (39 + 1)
    (fun _ => ()) parabolaStart = _
  rw [Loop.run, parabola_round]

theorem parabola_goes_on : lbfgsIteration Real.sqrt parabola reboundParam
      (initialState Real.sqrt (fun _ => 4) 16 (fun _ => 8) 1) =
    .inl (nextState reboundParam (initialState Real.sqrt (fun _ => 4) 16 (fun _ => 8) 1)
      ⟨.ok 1, 1 / 8, fun _ => 3, 9, fun _ => 6, 2⟩) := by
  set s : LbfgsState ℝ ℕ 1 := initialState Real.sqrt (fun _ => 4) 16 (fun _ => 8) 1 with first
  have length : Real.sqrt 64 = 8 := by norm_num
  have step : startStep parabola reboundParam s = (1 / 8, 1e20) := by
    have unit : s.step = 1 / 8 := by
      norm_num [first, initialState, vec2norminv, vec2norm, vecdot, vecncpy, length]
    rw [startStep, unit]
    rfl
  have rest : ¬Converged Real.sqrt reboundParam (fun _ : Fin 1 => (3 : ℝ)) (fun _ => 6) := by
    norm_num [Converged, vec2norm, vecdot, reboundParam, defaultParam]
  have moving : ¬Stalled reboundParam s 9 := by
    norm_num [Stalled, reboundParam, defaultParam]
  have searched : lineSearchMorethuente Real.sqrt parabola reboundParam s.x s.fx s.g s.d (1 / 8)
      reboundParam.minStep 1e20 s.inst reboundParam.maxLinesearch.toNat =
      some ⟨.ok 1, 1 / 8, fun _ => 3, 9, fun _ => 6, 2⟩ := parabola_search
  unfold lbfgsIteration
  rw [step]
  dsimp only
  rw [searched]
  dsimp only
  rw [if_neg rest, if_neg moving, if_neg (by norm_num [reboundParam, defaultParam, first,
    initialState])]

theorem parabola_reached :
    Reached Real.sqrt parabola reboundParam (fun _ => 4) 0
      [⟨vecdiff (fun _ => 3) (fun _ => 4), vecdiff (fun _ => 6) (fun _ => 8)⟩]
      (nextState reboundParam (initialState Real.sqrt (fun _ => 4) 16 (fun _ => 8) 1)
        ⟨.ok 1, 1 / 8, fun _ => 3, 9, fun _ => 6, 2⟩) := by
  refine .step (s := initialState Real.sqrt (fun _ => 4) 16 (fun _ => 8) 1) (.start ?_ ?_)
    parabola_goes_on
  · norm_num [parabola]
  · norm_num [Converged, vec2norm, vecdot, reboundParam, defaultParam]

end Parabola

/-- In front of every iteration the direction is that of the last pairs, a product with a symmetric
positive definite matrix that agrees with the newest of them. -/
theorem Reached.descent_direction (root : Vec3.IsRoundedSqrt sqrt) (accepted : Accepted cd param)
    {pairs : List (Pair (Fin n → K))} {s : LbfgsState K σ n}
    (reached : Reached sqrt cd param x inst pairs s) :
    let H := inverseHessian dotForm (scaling pairs) (pairs.take param.memSize.toNat)
    s.d = -H s.g ∧ (∀ u v, vecdot u (H v) = vecdot v (H u)) ∧ (∀ v ≠ 0, 0 < vecdot v (H v)) ∧
      (∀ p ∈ pairs.head?, H p.y = p.s) ∧ vecdot s.g s.d < 0 := by
  have invariant := reached.invariant root accepted
  refine ⟨invariant.direction, ?_, ?_, ?_, invariant.ready.descends⟩
  · exact inverseHessian_symmetric (B := (dotForm : LinearMap.BilinForm K (Fin n → K))) vecdot_comm
      _ _
  · intro v nonzero
    exact inverseHessian_pos (B := dotForm) vecdot_comm (fun v => vecdot_self_pos)
      (scaling_pos invariant.curved)
      (fun p member => invariant.curved p (List.mem_of_mem_take member)) nonzero
  · intro p newest
    obtain ⟨older, rfl⟩ : ∃ older, pairs = p :: older := List.head?_eq_some_iff.mp newest
    obtain ⟨rest, room⟩ : ∃ rest, param.memSize.toNat = rest + 1 :=
      ⟨param.memSize.toNat - 1, by have := invariant.slot; omega⟩
    rw [room, List.take_succ_cons]
    exact inverseHessian_secant _ (invariant.curved p List.mem_cons_self).ne' vecdot_comm _

theorem Reached.descent_direction_parabola :
    vecdot (nextState reboundParam (initialState Real.sqrt (fun _ => 4) 16 (fun _ => 8) 1)
        ⟨.ok 1, 1 / 8, fun _ => 3, 9, fun _ => 6, 2⟩ : LbfgsState ℝ ℕ 1).g
      (nextState reboundParam (initialState Real.sqrt (fun _ => 4) 16 (fun _ => 8) 1)
        ⟨.ok 1, 1 / 8, fun _ => 3, 9, fun _ => 6, 2⟩ : LbfgsState ℝ ℕ 1).d < 0 :=
  (Reached.descent_direction Vec3.isSqrt_sqrt.rounded accepted_parabola parabola_reached).2.2.2.2

theorem SearchInput.Found.lowers {s : LbfgsState K σ n} {e : SearchEnd K σ n}
    (checked : Checked n param) (descends : vecdot s.g s.d < 0)
    (found : (searchOf cd param s).Found e) :
    e.f ≤ s.fx ∧ (0 < param.fDecCoeff → e.f < s.fx) := by
  have decrease : e.f ≤ s.fx + e.stp * (param.fDecCoeff * vecdot s.g s.d) := found.decrease
  constructor
  · have change : e.stp * (param.fDecCoeff * vecdot s.g s.d) ≤ 0 :=
      mul_nonpos_of_nonneg_of_nonpos found.forward.le
        (mul_nonpos_of_nonneg_of_nonpos checked.fDecCoeff descends.le)
    linarith
  · intro positive
    have change : e.stp * (param.fDecCoeff * vecdot s.g s.d) < 0 :=
      mul_neg_of_pos_of_neg found.forward (mul_neg_of_pos_of_neg positive descends)
    linarith

def Improved (cd : Callbacks K σ n) (param : LbfgsParameter K) (x : Fin n → K) (inst : σ)
    (y : Fin n → K) (f : K) : Prop :=
  f ≤ (cd.procEvaluate inst x).1.1 ∧
    (y = x ∨ (0 < param.fDecCoeff → f < (cd.procEvaluate inst x).1.1))

theorem Reached.improved (root : Vec3.IsRoundedSqrt sqrt) (accepted : Accepted cd param)
    {pairs : List (Pair (Fin n → K))} {s : LbfgsState K σ n}
    (reached : Reached sqrt cd param x inst pairs s) : Improved cd param x inst s.x s.fx := by
  induction reached with
  | start evaluated rest =>
      refine ⟨?_, .inl rfl⟩
      rw [evaluated]
      exact le_rfl
  | step before goes_on ih =>
      have invariant := before.invariant root accepted
      rcases lbfgsIteration_cases sqrt accepted invariant.ready with
        ⟨_, _, _, _, _, ended⟩ | ⟨e, _, found, ⟨_, _, ended⟩ | ⟨_, _, ended⟩⟩
      · rw [ended] at goes_on
        cases goes_on
      · rw [ended] at goes_on
        cases goes_on
      · rw [ended, Sum.inl.injEq] at goes_on
        subst goes_on
        obtain ⟨lower, strictly⟩ :=
          found.lowers (checked_of_none accepted.checked) invariant.ready.descends
        exact ⟨lower.trans ih.1, .inr fun positive => (strictly positive).trans_le ih.1⟩

theorem lbfgsOptimize_returns (root : Vec3.IsRoundedSqrt sqrt) (accepted : Accepted cd param)
    (limited : 0 < param.maxIterations) (x : Fin n → K) (inst : σ) :
    ∃ r, lbfgsOptimize sqrt cd param x inst param.maxIterations.toNat = .ok (some r) := by
  unfold lbfgsOptimize
  rw [accepted.checked]
  dsimp only
  by_cases converged : Converged sqrt param x (cd.procEvaluate inst x).1.2
  · rw [if_pos converged]
    exact ⟨_, rfl⟩
  · -- every iteration that goes on raises `k`, and none goes on beyond the greatest number
    have within : Loop.EndsWithin (fun s (_ : Unit) => lbfgsIteration sqrt cd param s) Set.univ
        (initialState sqrt x (cd.procEvaluate inst x).1.1 (cd.procEvaluate inst x).1.2
          (cd.procEvaluate inst x).2) param.maxIterations.toNat := by
      apply Loop.endsWithin_of_measure fun s => param.maxIterations.toNat - s.k
      · intro s _ next _ goes_on
        obtain ⟨one_more, room, -⟩ := lbfgsIteration_goes_on goes_on
        omega
      · show param.maxIterations.toNat - 1 < param.maxIterations.toNat
        omega
    obtain ⟨o, ended⟩ := Option.isSome_iff_exists.mp (within (fun _ => ()) fun _ => trivial)
    have start : Reached sqrt cd param x inst [] (initialState sqrt x
        (cd.procEvaluate inst x).1.1 (cd.procEvaluate inst x).1.2 (cd.procEvaluate inst x).2) :=
      .start rfl converged
    obtain ⟨pairs, s, reached, finished⟩ := run_reached start ended
    rw [if_neg converged, ended, Option.join_some]
    rcases lbfgsIteration_cases sqrt accepted
        (reached.invariant root accepted).ready with
      ⟨_, _, _, _, _, gave⟩ | ⟨_, _, _, ⟨_, _, gave⟩ | ⟨_, _, gave⟩⟩
    · rw [gave] at finished
      cases finished
      exact ⟨_, rfl⟩
    · rw [gave] at finished
      cases finished
      exact ⟨_, rfl⟩
    · rw [gave] at finished
      cases finished

/-- What the solver leaves: the point was evaluated, and the value is that of the last
evaluation. -/
structure Improves (cd : Callbacks K σ n) (param : LbfgsParameter K) (x : Fin n → K) (inst : σ)
    (r : LbfgsEnd K σ n) : Prop where
  improved : ∃ f g after, Last cd inst r.x f g after ∧ Evaluated cd after r.inst ∧
    Improved cd param x inst r.x f
  last : ∃ y g, Last cd inst y r.fx g r.inst ∧
    (Solved r.ret → y = r.x ∧ Improved cd param x inst r.x r.fx)

theorem lbfgsOptimize_end (root : Vec3.IsRoundedSqrt sqrt) (accepted : Accepted cd param)
    {fuel : ℕ} {r : LbfgsEnd K σ n}
    (ended : lbfgsOptimize sqrt cd param x inst fuel = .ok (some r)) :
    Improves cd param x inst r := by
  unfold lbfgsOptimize at ended
  rw [accepted.checked] at ended
  dsimp only at ended
  split_ifs at ended with converged
  · cases ended
    have once : Last cd inst x (cd.procEvaluate inst x).1.1 (cd.procEvaluate inst x).1.2
        (cd.procEvaluate inst x).2 := ⟨inst, .refl, rfl⟩
    exact ⟨⟨_, _, _, once, .refl, le_rfl, .inl rfl⟩, x, _, once, fun _ => ⟨rfl, le_rfl, .inl rfl⟩⟩
  · rw [Except.ok.injEq, Option.join_eq_some_iff] at ended
    obtain ⟨pairs, s, reached, finished⟩ := run_reached (.start rfl converged) ended
    have invariant := reached.invariant root accepted
    have before := reached.improved root accepted
    rcases lbfgsIteration_cases sqrt accepted invariant.ready with
      ⟨e, code, last, later, failed, gave⟩ | ⟨e, last, found, ⟨ret, _, gave⟩ | ⟨_, _, gave⟩⟩
    · rw [gave] at finished
      cases finished
      exact ⟨⟨s.fx, s.g, s.inst, invariant.ready.last, later, before⟩, e.x, e.g, last,
        fun solved => absurd solved failed⟩
    · rw [gave] at finished
      cases finished
      obtain ⟨lower, strictly⟩ :=
        found.lowers (checked_of_none accepted.checked) invariant.ready.descends
      have better : Improved cd param x inst e.x e.f :=
        ⟨lower.trans before.1, .inr fun positive => (strictly positive).trans_le before.1⟩
      exact ⟨⟨e.f, e.g, e.inst, last, .refl, better⟩, e.x, e.g, last, fun _ => ⟨rfl, better⟩⟩
    · rw [gave] at finished
      cases finished

/-- The point that the solver leaves was evaluated in the run, at a value no more than the first
one. The value it leaves is that of its last evaluation, and of the point unless the search
failed. -/
theorem lbfgsOptimize_improves (root : Vec3.IsRoundedSqrt sqrt) (accepted : Accepted cd param)
    {fuel : ℕ} {r : LbfgsEnd K σ n}
    (ended : lbfgsOptimize sqrt cd param x inst fuel = .ok (some r)) :
    (∃ f g after, Last cd inst r.x f g after ∧ Evaluated cd after r.inst ∧
        Improved cd param x inst r.x f) ∧
      ∃ y g, Last cd inst y r.fx g r.inst ∧
        (Solved r.ret → y = r.x ∧ Improved cd param x inst r.x r.fx) := by
  have ending := lbfgsOptimize_end root accepted ended
  exact ⟨ending.improved, ending.last⟩

theorem lbfgsOptimize_improves_parabola :
    ∃ r : LbfgsEnd ℝ ℕ 1, lbfgsOptimize Real.sqrt parabola reboundParam (fun _ => 4) 0 200 =
      .ok (some r) ∧ ∃ f g after, Last parabola 0 r.x f g after ∧ Evaluated parabola after r.inst ∧
        Improved parabola reboundParam (fun _ => 4) 0 r.x f := by
  obtain ⟨r, ended⟩ := lbfgsOptimize_returns Vec3.isSqrt_sqrt.rounded accepted_parabola (by decide)
    (fun _ => 4) 0
  exact ⟨r, ended, (lbfgsOptimize_improves Vec3.isSqrt_sqrt.rounded accepted_parabola ended).1⟩

/-- The solver ends within its iterations, after a bounded number of evaluations. -/
theorem lbfgsOptimize_ends (root : Vec3.IsRoundedSqrt sqrt) (accepted : Accepted cd param)
    (limited : 0 < param.maxIterations) (x : Fin n → K) (inst : σ) :
    ∃ r, lbfgsOptimize sqrt cd param x inst param.maxIterations.toNat = .ok (some r) ∧
      ∀ counted : σ → ℕ, (∀ inst x, counted (cd.procEvaluate inst x).2 = counted inst + 1) →
        (counted r.inst : ℤ) ≤
          counted inst + 1 + param.maxIterations * param.maxLinesearch := by
  obtain ⟨r, ended⟩ := lbfgsOptimize_returns root accepted limited x inst
  exact ⟨r, ended, fun counted counts => lbfgsOptimize_evaluations accepted limited counts ended⟩

theorem lbfgsOptimize_ends_parabola :
    ∃ r : LbfgsEnd ℝ ℕ 1, lbfgsOptimize Real.sqrt parabola reboundParam (fun _ => 4) 0 200 =
      .ok (some r) ∧ r.inst ≤ 8001 := by
  obtain ⟨r, ended, evaluations⟩ := lbfgsOptimize_ends Vec3.isSqrt_sqrt.rounded accepted_parabola
    (by decide) (fun _ => 4) 0
  have most : (r.inst : ℤ) ≤ (0 : ℕ) + 1 + 200 * 40 := evaluations id fun _ _ => rfl
  exact ⟨r, ended, by omega⟩

end RobocupDrone.Optimizer
