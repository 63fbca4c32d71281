import Mathlib.Algebra.Order.Field.Basic
import Mathlib.Tactic.NormNum
import RobocupDrone.Library.Loop

/-! The loop of `rebound_optimize`. What the solver, the cost callbacks and the collision sampling
leave behind in an iteration is an input. -/

namespace RobocupDrone.Optimizer

variable {K : Type} [Field K] [LinearOrder K]

inductive LbfgsResult
  | convergence
  | stop
  | alreadyMinimized
  | unknownError
  | logicError
  | canceled
  | invalidN
  | invalidMemsize
  | invalidGepsilon
  | invalidTestperiod
  | invalidDelta
  | invalidMinstep
  | invalidMaxstep
  | invalidFdeccoeff
  | invalidScurvcoeff
  | invalidXtol
  | invalidMaxlinesearch
  | outOfInterval
  | incorrectTminmax
  | roundingError
  | minimumStep
  | maximumStep
  | maximumLinesearch
  | maximumIteration
  | widthTooSmall
  | invalidParameters
  | increaseGradient
  deriving DecidableEq, Repr

inductive ForceStop
  | dontStop
  | stopForRebound
  | stopForError
  deriving DecidableEq, Repr

def initMinEllipDist : K := 123456789.0123456789

def maxResartNumsSet : ℕ := 3

/-- The members that the loop reads. -/
structure ReboundConfig (K : Type) where
  bsplineInterval : K
  swarmClearance : K

/-- One iteration from outside: the code of the solver, what the last cost evaluations left in
`min_ellip_dist_` and `force_stop_type_`, and the time of the first occupied sample. -/
structure Iteration (K : Type) where
  result : LbfgsResult
  minEllipDist : K
  forceStopType : ForceStop
  hit : Option K

/-- The variables that outlive an iteration. -/
structure ReboundState (K : Type) where
  restartNums : ℕ
  reboundTimes : ℕ
  newLambda2 : K

structure ReboundFlags where
  forceReturn : Bool
  occ : Bool
  success : Bool

def SwarmTooClose (swarmClearance minEllipDist : K) : Prop :=
  minEllipDist ≠ initMinEllipDist ∧ minEllipDist > swarmClearance

instance (swarmClearance minEllipDist : K) :
    Decidable (SwarmTooClose swarmClearance minEllipDist) :=
  inferInstanceAs (Decidable (_ ∧ _))

def Solved (result : LbfgsResult) : Prop :=
  result = .convergence ∨ result = .maximumIteration ∨ result = .alreadyMinimized ∨ result = .stop

instance (result : LbfgsResult) : Decidable (Solved result) :=
  inferInstanceAs (Decidable (_ ∨ _ ∨ _ ∨ _))

def ReboundState.restart (s : ReboundState K) : ReboundState K :=
  { s with restartNums := s.restartNums + 1, newLambda2 := s.newLambda2 * 2 }

/-- An iteration up to the loop condition; `none` is the return from inside. -/
def reboundBody (cfg : ReboundConfig K) (i : Iteration K) (s : ReboundState K) :
    Option (ReboundState K × ReboundFlags) :=
  if Solved i.result then
    if SwarmTooClose cfg.swarmClearance i.minEllipDist then some (s.restart, ⟨false, false, false⟩)
    else match i.hit with
      | none => some (s, ⟨false, false, true⟩)
      | some t =>
          -- the first three control points are in obstacles
          if t ≤ cfg.bsplineInterval then none
          else some (s.restart, ⟨false, true, false⟩)
  else if i.result = .canceled then
    some ({ s with reboundTimes := s.reboundTimes + 1 }, ⟨true, false, false⟩)
  else some (s, ⟨false, false, false⟩)

def GoesOn (cfg : ReboundConfig K) (i : Iteration K) (s : ReboundState K) (flags : ReboundFlags) :
    Prop :=
  ((flags.occ = true ∨ SwarmTooClose cfg.swarmClearance i.minEllipDist) ∧
      s.restartNums < maxResartNumsSet) ∨
    (flags.forceReturn = true ∧ i.forceStopType = .stopForRebound ∧ s.reboundTimes ≤ 20)

instance (cfg : ReboundConfig K) (i : Iteration K) (s : ReboundState K) (flags : ReboundFlags) :
    Decidable (GoesOn cfg i s flags) :=
  inferInstanceAs (Decidable (_ ∨ _))

def reboundIteration (cfg : ReboundConfig K) (s : ReboundState K) (i : Iteration K) :
    ReboundState K ⊕ Bool :=
  match reboundBody cfg i s with
  | none => .inr false
  | some (next, flags) => if GoesOn cfg i next flags then .inl next else .inr flags.success

def reboundOptimize (cfg : ReboundConfig K) (lambda2 : K) (iterations : ℕ → Iteration K)
    (fuel : ℕ) : Option Bool :=
  Loop.run (reboundIteration cfg) fuel iterations ⟨0, 0, lambda2⟩

/-- A solver call that neither solved nor left the swarm far enough away: no counter of the loop
condition counts it. -/
def Uncounted (cfg : ReboundConfig K) (i : Iteration K) : Prop :=
  ¬Solved i.result ∧ SwarmTooClose cfg.swarmClearance i.minEllipDist

instance (cfg : ReboundConfig K) (i : Iteration K) : Decidable (Uncounted cfg i) :=
  inferInstanceAs (Decidable (_ ∧ _))

def remaining (s : ReboundState K) : ℕ := (2 - s.restartNums) + (20 - s.reboundTimes)

theorem remaining_falls {cfg : ReboundConfig K} {s next : ReboundState K} {i : Iteration K}
    (counted : ¬Uncounted cfg i) (goes_on : reboundIteration cfg s i = .inl next) :
    remaining next < remaining s := by
  rw [reboundIteration] at goes_on
  cases outcome : reboundBody cfg i s with
  | none => simp [outcome] at goes_on
  | some left =>
      obtain ⟨after, flags⟩ := left
      simp only [outcome] at goes_on
      split_ifs at goes_on with again
      rw [Sum.inl.injEq] at goes_on
      subst goes_on
      unfold reboundBody at outcome
      by_cases solved : Solved i.result
      · rw [if_pos solved] at outcome
        -- only a restart goes on
        have restarted : after = s.restart ∧ flags.forceReturn = false := by
          split_ifs at outcome with close
          · cases outcome
            exact ⟨rfl, rfl⟩
          · cases found : i.hit with
            | none =>
                simp only [found, Option.some.injEq, Prod.mk.injEq] at outcome
                rw [← outcome.1, ← outcome.2] at again
                simp [GoesOn, close] at again
            | some t =>
                simp only [found] at outcome
                split_ifs at outcome
                cases outcome
                exact ⟨rfl, rfl⟩
        rw [restarted.1] at again ⊢
        simp only [GoesOn, restarted.2, Bool.false_eq_true, false_and, or_false] at again
        have bound := again.2
        simp only [ReboundState.restart, maxResartNumsSet] at bound
        simp only [remaining, ReboundState.restart]
        omega
      · rw [if_neg solved] at outcome
        have apart : ¬SwarmTooClose cfg.swarmClearance i.minEllipDist := fun close =>
          counted ⟨solved, close⟩
        split_ifs at outcome with canceled
        · cases outcome
          simp only [GoesOn, apart, Bool.false_eq_true, or_self, false_and, true_and,
            false_or] at again
          simp only [remaining]
          omega
        · cases outcome
          simp [GoesOn, apart] at again

theorem uncounted_goes_on {cfg : ReboundConfig K} {s : ReboundState K} {i : Iteration K}
    (uncounted : Uncounted cfg i) (left : s.restartNums < maxResartNumsSet) :
    ∃ next, reboundIteration cfg s i = .inl next ∧ next.restartNums < maxResartNumsSet := by
  have goes_on : ∀ (next : ReboundState K) flags, reboundBody cfg i s = some (next, flags) →
      next.restartNums < maxResartNumsSet → reboundIteration cfg s i = .inl next := by
    intro next flags body few
    rw [reboundIteration, body]
    exact if_pos (.inl ⟨.inr uncounted.2, few⟩)
  by_cases canceled : i.result = .canceled
  · refine ⟨{ s with reboundTimes := s.reboundTimes + 1 }, goes_on _ ⟨true, false, false⟩ ?_ left,
      left⟩
    rw [reboundBody, if_neg uncounted.1, if_pos canceled]
  · refine ⟨s, goes_on _ ⟨false, false, false⟩ ?_ left, left⟩
    rw [reboundBody, if_neg uncounted.1, if_neg canceled]

/-- For every set of things that can happen in an iteration, the loop is bounded exactly when no
solver call that is cancelled or fails can leave the swarm too close; then 23 iterations are
enough. -/
theorem reboundOptimize_bounded_iff (cfg : ReboundConfig K) (lambda2 : K)
    (possible : Set (Iteration K)) :
    ((∃ bound, ∀ iterations : ℕ → Iteration K, (∀ n, iterations n ∈ possible) →
        (reboundOptimize cfg lambda2 iterations bound).isSome) ↔
      ∀ i ∈ possible, ¬Uncounted cfg i) ∧
      ∀ iterations : ℕ → Iteration K, (∀ n, ¬Uncounted cfg (iterations n)) →
        (reboundOptimize cfg lambda2 iterations 23).isSome := by
  have within : ∀ (set : Set (Iteration K)), (∀ i ∈ set, ¬Uncounted cfg i) →
      Loop.EndsWithin (reboundIteration cfg) set ⟨0, 0, lambda2⟩ 23 := fun set counted =>
    Loop.endsWithin_of_measure remaining
      (fun _ i _ member goes_on => remaining_falls (counted i member) goes_on)
      (Nat.lt_succ_self 22)
  refine ⟨⟨?_, fun counted => ⟨23, within possible counted⟩⟩, ?_⟩
  · rintro ⟨bound, ends⟩ i member uncounted
    exact Loop.not_endsWithin_of_trap (I := fun s : ReboundState K =>
      s.restartNums < maxResartNumsSet) member (fun s => uncounted_goes_on uncounted)
        (show 0 < maxResartNumsSet by decide) bound ends
  · intro iterations counted
    exact within { i | ¬Uncounted cfg i } (fun _ counted => counted) iterations counted

def colliding : Iteration ℚ := ⟨.convergence, initMinEllipDist, .dontStop, some 1⟩

theorem colliding_reboundOptimize :
    (reboundOptimize ⟨0.4, 0.5⟩ 0.5 (fun _ => colliding) 23).isSome :=
  (reboundOptimize_bounded_iff ⟨0.4, 0.5⟩ 0.5 {colliding}).2 (fun _ => colliding)
    fun _ => by decide +kernel

def failing : Iteration ℚ := ⟨.roundingError, 0.7, .dontStop, none⟩

theorem failing_reboundOptimize : ¬∃ bound, ∀ iterations : ℕ → Iteration ℚ,
    (reboundOptimize ⟨0.4, 0.5⟩ 0.5 iterations bound).isSome := by
  rintro ⟨bound, ends⟩
  have uncounted : Uncounted ⟨0.4, 0.5⟩ failing := by decide +kernel
  have within : Loop.EndsWithin (reboundIteration ⟨0.4, 0.5⟩) {failing} ⟨0, 0, 0.5⟩ bound :=
    fun iterations _ => ends iterations
  exact Loop.not_endsWithin_of_trap (I := fun s : ReboundState ℚ =>
    s.restartNums < maxResartNumsSet) (Set.mem_singleton failing)
      (fun s => uncounted_goes_on uncounted) (show 0 < maxResartNumsSet by decide) bound within

end RobocupDrone.Optimizer
