import Mathlib.Logic.Relation
import RobocupDrone.Optimizer.Lbfgs

/-! What a line search returns: a step with a sufficient decrease and a small derivative, or an
error, after a bounded number of evaluations. -/

namespace RobocupDrone.Optimizer

section Vectors

variable {K : Type} [Field K] {n : ℕ} (x y z : Fin n → K) (c : K)

theorem vecdot_comm : vecdot x y = vecdot y x :=
  Finset.sum_congr rfl fun i _ => mul_comm (x i) (y i)

theorem vecdot_vecncpy : vecdot x (vecncpy y) = -vecdot x y := by
  simp only [vecdot, vecncpy, mul_neg, Finset.sum_neg_distrib]

theorem vecdot_vecdiff : vecdot (vecdiff x y) z = vecdot x z - vecdot y z := by
  simp only [vecdot, vecdiff, sub_mul, Finset.sum_sub_distrib]

theorem vecdiff_vecadd : vecdiff (vecadd y x c) y = fun i => c * x i :=
  funext fun i => add_sub_cancel_left (y i) (c * x i)

theorem vecdot_scaled : vecdot z (fun i => c * x i) = c * vecdot z x := by
  simp only [vecdot, Finset.mul_sum]
  exact Finset.sum_congr rfl fun i _ => mul_left_comm (z i) c (x i)

theorem vecdot_self_pos [LinearOrder K] [IsStrictOrderedRing K] {x : Fin n → K} (nonzero : x ≠ 0) :
    0 < vecdot x x := by
  obtain ⟨i, entry⟩ := Function.ne_iff.mp nonzero
  exact Finset.sum_pos' (fun j _ => mul_self_nonneg (x j))
    ⟨i, Finset.mem_univ i, mul_self_pos.mpr entry⟩

end Vectors

variable {K σ : Type} {n : ℕ}

section Evaluations

def Evaluated (cd : Callbacks K σ n) : σ → σ → Prop :=
  Relation.ReflTransGen fun before after => ∃ x, (cd.procEvaluate before x).2 = after

/-- The last of the evaluations from a state on was at this point, with this outcome. -/
def Last (cd : Callbacks K σ n) (first : σ) (x : Fin n → K) (f : K) (g : Fin n → K)
    (inst : σ) : Prop :=
  ∃ before, Evaluated cd first before ∧ cd.procEvaluate before x = ((f, g), inst)

theorem Last.evaluated {cd : Callbacks K σ n} {first inst : σ} {x : Fin n → K} {f : K}
    {g : Fin n → K} (last : Last cd first x f g inst) : Evaluated cd first inst := by
  obtain ⟨before, so_far, outcome⟩ := last
  exact so_far.tail ⟨x, congrArg Prod.snd outcome⟩

end Evaluations

variable [Field K] [LinearOrder K]

section Round

variable {sqrt : K → K} {inp : SearchInput K σ n} {w : SearchState K σ n} {first : σ}

/-- The bounds of the step leave room for a step forward. -/
structure SearchInput.Forward (inp : SearchInput K σ n) : Prop where
  stpmin_pos : 0 < inp.stpmin
  stpmax_pos : 0 < inp.stpmax

/-- What a successful line search has found: the two conditions at a positive step. -/
structure SearchInput.Found (inp : SearchInput K σ n) (e : SearchEnd K σ n) : Prop where
  forward : 0 < e.stp
  place : e.x = vecadd inp.xp inp.s e.stp
  decrease : e.f ≤ inp.finit + e.stp * (inp.param.fDecCoeff * inp.dginit)
  curvature : |vecdot e.g inp.s| ≤ inp.param.sCurvCoeff * -inp.dginit

structure SearchInput.Ends (inp : SearchInput K σ n) (first : σ) (e : SearchEnd K σ n) : Prop where
  last : Last inp.cd first e.x e.f e.g e.inst
  found : ∀ count, e.ls = .ok count → inp.Found e
  counted : ∀ count, e.ls = .ok count → (count : ℤ) ≤ inp.param.maxLinesearch
  failed : ∀ code, e.ls = .error code → ¬Solved code

theorem SearchState.outside_best (bracketed : w.brackt = true) : w.Outside w.best.step := by
  simp only [SearchState.Outside, SearchState.stmin, SearchState.stmax, bracketed, if_true]
  rcases le_total w.best.step w.other.step with order | order
  · exact .inl (le_min le_rfl order)
  · exact .inr (max_le le_rfl order)

theorem clippedStep_pos (forward : inp.Forward) : 0 < clippedStep inp w := by
  have raised : 0 < if w.stp < inp.stpmin then inp.stpmin else w.stp := by
    split_ifs with low
    · exact forward.stpmin_pos
    · exact forward.stpmin_pos.trans_le (not_lt.mp low)
  unfold clippedStep
  dsimp only
  by_cases high : inp.stpmax < if w.stp < inp.stpmin then inp.stpmin else w.stp
  · rw [if_pos high]
    exact forward.stpmax_pos
  · rw [if_neg high]
    exact raised

theorem trialStep_pos (forward : inp.Forward) {f dg : K} {count : ℕ}
    (accepted : searchVerdict inp w (trialStep inp w) f dg = some (.ok count)) :
    0 < trialStep inp w := by
  unfold trialStep at accepted ⊢
  dsimp only at accepted ⊢
  split_ifs at accepted ⊢ with unusual
  -- the best step is tried only where the tests reject it
  · have rejected : w.brackt = true ∧ (w.Outside w.best.step ∨ w.uinfo ≠ none) :=
      ⟨unusual.1, .inl (SearchState.outside_best unusual.1)⟩
    rw [searchVerdict, if_pos rejected] at accepted
    cases accepted
  · exact clippedStep_pos forward

theorem searchVerdict_ok {stp f dg : K} {count : ℕ}
    (accepted : searchVerdict inp w stp f dg = some (.ok count)) :
    (f ≤ inp.ftest1 stp ∧ |dg| ≤ inp.param.sCurvCoeff * -inp.dginit) ∧
      count = w.count + 1 ∧ (count : ℤ) < inp.param.maxLinesearch := by
  unfold searchVerdict at accepted
  dsimp only at accepted
  split_ifs at accepted with rounded greatest least narrow full found <;> cases accepted
  exact ⟨found, rfl, not_le.mp full⟩

theorem searchVerdict_error {stp f dg : K} {code : LbfgsResult}
    (ended : searchVerdict inp w stp f dg = some (.error code)) : ¬Solved code := by
  unfold searchVerdict at ended
  dsimp only at ended
  split_ifs at ended <;> cases ended <;> decide

theorem searchVerdict_goes_on {stp f dg : K} (goes_on : searchVerdict inp w stp f dg = none) :
    ((w.count + 1 : ℕ) : ℤ) < inp.param.maxLinesearch := by
  unfold searchVerdict at goes_on
  dsimp only at goes_on
  split_ifs at goes_on with rounded greatest least narrow full found
  exact not_le.mp full

theorem searchRound_ends (forward : inp.Forward) (last : Last inp.cd first w.x w.f w.g w.inst)
    {e : SearchEnd K σ n} (ended : searchRound sqrt inp w = .inr e) : inp.Ends first e := by
  unfold searchRound at ended
  dsimp only at ended
  split_ifs at ended
  · cases ended
    refine ⟨last, ?_, ?_, ?_⟩
    · intro count ok
      cases ok
    · intro count ok
      cases ok
    · intro code failed
      cases failed
      decide
  · split at ended
    · rename_i ls verdict
      cases ended
      refine ⟨⟨w.inst, last.evaluated, rfl⟩, ?_, ?_, ?_⟩
      · rintro count rfl
        obtain ⟨⟨decrease, curvature⟩, -⟩ := searchVerdict_ok verdict
        exact ⟨trialStep_pos forward verdict, rfl, decrease, curvature⟩
      · rintro count rfl
        exact (searchVerdict_ok verdict).2.2.le
      · rintro code rfl
        exact searchVerdict_error verdict
    · cases ended

theorem searchRound_goes_on {next : SearchState K σ n}
    (goes_on : searchRound sqrt inp w = .inl next) :
    ∃ x, inp.cd.procEvaluate w.inst x = ((next.f, next.g), next.inst) ∧ x = next.x := by
  unfold searchRound at goes_on
  dsimp only at goes_on
  split_ifs at goes_on
  split at goes_on
  · cases goes_on
  · cases goes_on
    exact ⟨_, rfl, rfl⟩

theorem searchRound_count {next : SearchState K σ n}
    (goes_on : searchRound sqrt inp w = .inl next) :
    next.count = w.count + 1 ∧ (next.count : ℤ) < inp.param.maxLinesearch := by
  unfold searchRound at goes_on
  dsimp only at goes_on
  split_ifs at goes_on
  split at goes_on
  · cases goes_on
  · rename_i verdict
    cases goes_on
    exact ⟨rfl, searchVerdict_goes_on verdict⟩

end Round

section Search

variable {sqrt : K → K} {cd : Callbacks K σ n} {param : LbfgsParameter K} {x : Fin n → K} {f : K}
  {g s : Fin n → K} {stp stpmin stpmax : K} {first inst : σ}

/-- A search in a direction of descent ends within `max_linesearch` rounds, and without an error
it has found a step. -/
theorem lineSearch_ends (enough : 0 < param.maxLinesearch) (step_pos : 0 < stp)
    (descends : vecdot g s ≤ 0) (last : Last cd first x f g inst)
    (forward : SearchInput.Forward
      (⟨cd, param, x, s, f, vecdot g s, stpmin, stpmax⟩ : SearchInput K σ n)) :
    ∃ e, lineSearchMorethuente sqrt cd param x f g s stp stpmin stpmax inst
        param.maxLinesearch.toNat = some e ∧
      SearchInput.Ends ⟨cd, param, x, s, f, vecdot g s, stpmin, stpmax⟩ first e := by
  set inp : SearchInput K σ n := ⟨cd, param, x, s, f, vecdot g s, stpmin, stpmax⟩ with setup
  have within : Loop.EndsWithin (fun w (_ : Unit) => searchRound sqrt inp w) Set.univ
      ⟨0, false, true, none, ⟨0, f, vecdot g s⟩, ⟨0, f, vecdot g s⟩, stpmax - stpmin,
        2 * (stpmax - stpmin), stp, x, f, g, inst⟩ param.maxLinesearch.toNat := by
    apply Loop.endsWithin_of_measure fun w => param.maxLinesearch.toNat - 1 - w.count
    · intro w _ next _ goes_on
      obtain ⟨counted, few⟩ := searchRound_count goes_on
      have limit : (next.count : ℤ) < param.maxLinesearch := few
      omega
    · dsimp only
      omega
  obtain ⟨e, ended⟩ := Option.isSome_iff_exists.mp (within (fun _ => ()) fun _ => trivial)
  refine ⟨e, ?_, ?_⟩
  · unfold lineSearchMorethuente
    dsimp only
    rw [if_neg (not_le.mpr step_pos), if_neg (not_lt.mpr descends)]
    exact ended
  · refine Loop.run_induct (I := fun w => Last inp.cd first w.x w.f w.g w.inst) ?_ ?_ last ended
    · intro w _ next last goes_on
      obtain ⟨_, outcome, rfl⟩ := searchRound_goes_on goes_on
      exact ⟨w.inst, last.evaluated, outcome⟩
    · intro w _ result evaluated finished
      exact searchRound_ends forward evaluated finished

theorem lineSearch_keeps {P : σ → Prop} (keeps : ∀ inst x, P inst → P (cd.procEvaluate inst x).2)
    {fuel : ℕ} {e : SearchEnd K σ n} (start : P inst)
    (ended : lineSearchMorethuente sqrt cd param x f g s stp stpmin stpmax inst fuel = some e) :
    P e.inst := by
  unfold lineSearchMorethuente at ended
  dsimp only at ended
  split_ifs at ended
  · cases ended
    exact start
  · cases ended
    exact start
  · refine Loop.run_induct (I := fun w : SearchState K σ n => P w.inst)
      (P := fun r : SearchEnd K σ n => P r.inst) ?_ ?_ start ended
    · intro w _ next kept goes_on
      obtain ⟨x, outcome, -⟩ := searchRound_goes_on goes_on
      have after := keeps w.inst x kept
      rwa [outcome] at after
    · intro w _ result kept finished
      unfold searchRound at finished
      dsimp only at finished
      split_ifs at finished
      · cases finished
        exact kept
      · split at finished
        · cases finished
          exact keeps _ _ kept
        · cases finished

theorem lineSearch_evaluations {counted : σ → ℕ}
    (counts : ∀ inst x, counted (cd.procEvaluate inst x).2 = counted inst + 1)
    (enough : 0 < param.maxLinesearch) {fuel : ℕ} {e : SearchEnd K σ n}
    (ended : lineSearchMorethuente sqrt cd param x f g s stp stpmin stpmax inst fuel = some e) :
    (counted e.inst : ℤ) ≤ counted inst + param.maxLinesearch := by
  unfold lineSearchMorethuente at ended
  dsimp only at ended
  split_ifs at ended
  · cases ended
    dsimp only
    omega
  · cases ended
    dsimp only
    omega
  · refine Loop.run_induct
      (I := fun w : SearchState K σ n => counted w.inst = counted inst + w.count ∧
        (w.count : ℤ) < param.maxLinesearch)
      (P := fun r : SearchEnd K σ n =>
        (counted r.inst : ℤ) ≤ counted inst + param.maxLinesearch) ?_ ?_ ⟨rfl, enough⟩ ended
    · rintro w _ next ⟨so_far, -⟩ goes_on
      obtain ⟨x, outcome, -⟩ := searchRound_goes_on goes_on
      obtain ⟨one_more, few⟩ := searchRound_count goes_on
      have evaluated := counts w.inst x
      rw [outcome] at evaluated
      refine ⟨?_, few⟩
      rw [evaluated, so_far, one_more]
      rfl
    · rintro w _ result ⟨so_far, few⟩ finished
      unfold searchRound at finished
      dsimp only at finished
      split_ifs at finished
      · cases finished
        dsimp only
        omega
      · split at finished
        · cases finished
          dsimp only
          rw [counts, so_far]
          push_cast
          omega
        · cases finished

end Search

end RobocupDrone.Optimizer
