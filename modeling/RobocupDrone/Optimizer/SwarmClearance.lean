import Mathlib.Data.List.Zip
import Mathlib.Order.Bounds.Basic
import RobocupDrone.Optimizer.CostTerms
import RobocupDrone.Optimizer.ReboundLoop

/-! `min_ellip_dist_` is the least error over all control points and drones that `calcSwarmCost`
considers, and the test of `rebound_optimize` reads it as a distance. -/

namespace RobocupDrone.Optimizer

open Geometry Planner Loop

variable {K : Type} [Field K] [LinearOrder K]

theorem truncate_le {x : ℚ} {c : ℕ} (bound : x ≤ c) : truncate x ≤ c := by
  rw [truncate]
  split_ifs with nonneg
  · exact_mod_cast (Int.floor_le x).trans bound
  · have small : ⌈x⌉ ≤ 0 := Int.ceil_le.mpr (by exact_mod_cast (not_le.mp nonneg).le)
    omega

theorem swarmEndIdx_le (order cols : ℕ) : swarmEndIdx order cols ≤ cols := by
  apply truncate_le
  have first : (0 : ℚ) ≤ order := Nat.cast_nonneg order
  have second : (0 : ℚ) ≤ cols := Nat.cast_nonneg cols
  push_cast
  linarith

def CheckedDistance (sqrt : K → K) (inp : SwarmInput K) (q : List (Vec3 K)) (d : K) : Prop :=
  ∃ (i : ℕ) (drone : OneTrajDataOfSwarm K) (id : ℕ) (prid : Vec3 K), inp.order ≤ i ∧
    (i : ℤ) < swarmEndIdx inp.order q.length ∧ inp.swarmTrajs[id]? = some drone ∧
      Considered inp i id drone ∧ swarmPrid inp i drone = some prid ∧
        d = ellipDist sqrt (col q i - prid)

/-- The errors that the inner loop meets at control point `i`. -/
def ErrorAt (sqrt : K → K) (inp : SwarmInput K) (q : List (Vec3 K)) (i : ℕ)
    (indexed : OneTrajDataOfSwarm K × ℕ) : Set K :=
  { e | Considered inp i indexed.2 indexed.1 ∧ ∃ prid, swarmPrid inp i indexed.1 = some prid ∧
    e = inp.swarmClearance * 2 - ellipDist sqrt (col q i - prid) }

theorem swarmStep_isLeast {sqrt : K → K} {inp : SwarmInput K} {q : List (Vec3 K)} {i : ℕ}
    {s next : SwarmAccumulator K} {indexed : OneTrajDataOfSwarm K × ℕ} {S : Set K}
    (least : IsLeast S s.minEllipDist) (stepped : swarmStep sqrt inp q i s indexed = some next) :
    IsLeast (S ∪ ErrorAt sqrt inp q i indexed) next.minEllipDist := by
  rw [swarmStep] at stepped
  split_ifs at stepped with considered
  · rw [Option.bind_eq_bind, Option.bind_eq_some_iff] at stepped
    rcases stepped with ⟨prid, predicted, updated⟩
    have errors : ErrorAt sqrt inp q i indexed =
        {inp.swarmClearance * 2 - ellipDist sqrt (col q i - prid)} := by
      ext e
      constructor
      · rintro ⟨_, other, same, rfl⟩
        rw [predicted, Option.some.injEq] at same
        rw [same]
        rfl
      · rintro rfl
        exact ⟨considered, prid, predicted, rfl⟩
    have smaller : next.minEllipDist =
        min (inp.swarmClearance * 2 - ellipDist sqrt (col q i - prid)) s.minEllipDist := by
      rw [← Option.some.inj updated, ellipStep]
      dsimp only
      split_ifs with less
      · exact (min_eq_left less.le).symm
      · exact (min_eq_right (not_lt.mp less)).symm
    rw [errors, Set.union_singleton, smaller]
    exact least.insert _
  · have errors : ErrorAt sqrt inp q i indexed = ∅ := by
      ext e
      simp [ErrorAt, considered]
    rw [errors, Set.union_empty, ← Option.some.inj stepped]
    exact least

theorem calcSwarmCost_isLeast {sqrt : K → K} {inp : SwarmInput K} {q : List (Vec3 K)}
    {gradient : ℕ → Vec3 K} {start : K} {after : SwarmAccumulator K}
    (evaluated : calcSwarmCost sqrt inp q gradient start = some after) :
    IsLeast ({start} ∪ { e | ∃ d, CheckedDistance sqrt inp q d ∧ e = inp.swarmClearance * 2 - d })
      after.minEllipDist := by
  have outer := foldlM_induct (I := fun past s => IsLeast ({start} ∪ { e | ∃ i ∈ past,
      ∃ indexed ∈ inp.swarmTrajs.zipIdx, e ∈ ErrorAt sqrt inp q i indexed })
        (SwarmAccumulator.minEllipDist s)) evaluated (by simp) (by
    intro past i s next _ least ended
    have inner := foldlM_induct (I := fun past' s => IsLeast (({start} ∪ { e | ∃ i ∈ past,
        ∃ indexed ∈ inp.swarmTrajs.zipIdx, e ∈ ErrorAt sqrt inp q i indexed }) ∪
          { e | ∃ indexed ∈ past', e ∈ ErrorAt sqrt inp q i indexed })
            (SwarmAccumulator.minEllipDist s)) ended (by simpa using least) (by
      intro past' indexed s next _ least stepped
      have longer := swarmStep_isLeast least stepped
      rw [Set.union_assoc] at longer
      convert longer using 2
      ext e
      simp [or_and_right, exists_or])
    rw [Set.union_assoc] at inner
    convert inner using 2
    ext e
    simp [or_and_right, exists_or])
  convert outer using 2
  ext e
  constructor
  · rintro ⟨d, ⟨i, drone, id, prid, low, high, present, considered, predicted, rfl⟩, rfl⟩
    refine ⟨i, ?_, (drone, id), List.mem_zipIdx_iff_getElem?.mpr present, considered, prid,
      predicted, rfl⟩
    rw [List.mem_range'_1]
    omega
  · rintro ⟨i, member, ⟨drone, id⟩, present, considered, prid, predicted, rfl⟩
    rw [List.mem_range'_1] at member
    exact ⟨_, ⟨i, drone, id, prid, member.1, by omega, List.mem_zipIdx_iff_getElem?.mp present,
      considered, predicted, rfl⟩, rfl⟩

section Ordered

variable [IsStrictOrderedRing K]

theorem swarmTooClose_iff {sqrt : K → K} {inp : SwarmInput K} {q : List (Vec3 K)}
    {gradient : ℕ → Vec3 K} {after : SwarmAccumulator K}
    (evaluated : calcSwarmCost sqrt inp q gradient initMinEllipDist = some after) :
    SwarmTooClose inp.swarmClearance after.minEllipDist ↔
      (∃ d, CheckedDistance sqrt inp q d ∧ inp.swarmClearance * 2 - d < initMinEllipDist) ∧
        ∀ d, CheckedDistance sqrt inp q d → d < inp.swarmClearance := by
  have least := calcSwarmCost_isLeast evaluated
  have below : ∀ d, CheckedDistance sqrt inp q d →
      after.minEllipDist ≤ inp.swarmClearance * 2 - d := fun d checked =>
    least.2 (.inr ⟨d, checked, rfl⟩)
  constructor
  · rintro ⟨changed, above⟩
    constructor
    · rcases least.1 with same | ⟨d, checked, same⟩
      · exact absurd same changed
      · refine ⟨d, checked, ?_⟩
        rw [← same]
        exact lt_of_le_of_ne (least.2 (.inl rfl)) changed
    · intro d checked
      have error := below d checked
      linarith
  · rintro ⟨⟨d, checked, changed⟩, close⟩
    have less := (below d checked).trans_lt changed
    refine ⟨less.ne, ?_⟩
    rcases least.1 with same | ⟨d', checked', same⟩
    · exact absurd same less.ne
    · have near := close d' checked'
      rw [same]
      linarith

/-- A drone that is too close is noticed exactly when all checked distances are too small. -/
theorem swarm_check_complete_iff {sqrt : K → K} {inp : SwarmInput K} {q : List (Vec3 K)}
    {gradient : ℕ → Vec3 K} {after : SwarmAccumulator K}
    (evaluated : calcSwarmCost sqrt inp q gradient initMinEllipDist = some after) :
    (SwarmTooClose inp.swarmClearance after.minEllipDist ↔
        ∃ d, CheckedDistance sqrt inp q d ∧ d < inp.swarmClearance) ↔
      (∀ d, CheckedDistance sqrt inp q d → inp.swarmClearance ≤ d) ∨
        ((∀ d, CheckedDistance sqrt inp q d → d < inp.swarmClearance) ∧
          ∃ d, CheckedDistance sqrt inp q d ∧ inp.swarmClearance * 2 - d < initMinEllipDist) := by
  rw [swarmTooClose_iff evaluated]
  constructor
  · intro complete
    by_cases near : ∃ d, CheckedDistance sqrt inp q d ∧ d < inp.swarmClearance
    · exact .inr (complete.mpr near).symm
    · left
      intro d checked
      by_contra less
      exact near ⟨d, checked, not_le.mp less⟩
  · rintro (far | ⟨close, changed⟩)
    · constructor
      · rintro ⟨⟨d, checked, _⟩, close⟩
        exact ⟨d, checked, close d checked⟩
      · rintro ⟨d, checked, less⟩
        exact absurd (far d checked) (not_le.mpr less)
    · constructor
      · rintro ⟨⟨d, checked, _⟩, _⟩
        exact ⟨d, checked, close d checked⟩
      · exact fun _ => ⟨changed, close⟩

end Ordered

def hovering (droneId : ℤ) (place : Vec3 ℚ) : OneTrajDataOfSwarm ℚ :=
  ⟨droneId, 0, 10, ⟨[place, place, place, place], 3, 3, 7, [-3, -2, -1, 0, 1, 2, 3, 4], 1⟩⟩

def hoverPoints : List (Vec3 ℚ) := List.replicate 8 ⟨0, 0, 1⟩

/-- The only other drone is at the control points. -/
def onlyNear : SwarmInput ℚ := ⟨3, 0.5, 1, 2, 0, [hovering 0 ⟨0, 0, 1⟩]⟩

theorem onlyNear_distance {d : ℚ} (checked : CheckedDistance squareRoot onlyNear hoverPoints d) :
    d = 0 := by
  rcases checked with ⟨i, drone, id, prid, low, high, present, _, predicted, rfl⟩
  have last : (i : ℤ) < 4 := high.trans_eq (by decide +kernel)
  obtain ⟨rfl, rfl⟩ : id = 0 ∧ drone = hovering 0 ⟨0, 0, 1⟩ := by
    cases id with
    | zero => exact ⟨rfl, (Option.some.inj present).symm⟩
    | succ id => cases present
  obtain rfl : i = 3 := by
    have first : 3 ≤ i := low
    omega
  have hovers : swarmPrid onlyNear 3 (hovering 0 ⟨0, 0, 1⟩) = some ⟨0, 0, 1⟩ := by
    decide +kernel
  rw [hovers, Option.some.injEq] at predicted
  rw [← predicted]
  decide +kernel

theorem swarm_check_onlyNear : ∃ after,
    calcSwarmCost squareRoot onlyNear hoverPoints 0 initMinEllipDist = some after ∧
      (SwarmTooClose onlyNear.swarmClearance after.minEllipDist ↔
        ∃ d, CheckedDistance squareRoot onlyNear hoverPoints d ∧
          d < onlyNear.swarmClearance) := by
  have returns : (calcSwarmCost squareRoot onlyNear hoverPoints 0 initMinEllipDist).isSome := by
    decide +kernel
  rcases Option.isSome_iff_exists.mp returns with ⟨after, evaluated⟩
  refine ⟨after, evaluated, (swarm_check_complete_iff evaluated).mpr (.inr ⟨?_, 0, ?_, ?_⟩)⟩
  · intro d checked
    rw [onlyNear_distance checked]
    decide +kernel
  · exact ⟨3, hovering 0 ⟨0, 0, 1⟩, 0, ⟨0, 0, 1⟩, by decide, by decide +kernel, rfl,
      by decide +kernel, by decide +kernel, by decide +kernel⟩
  · decide +kernel

def nearAndFar : SwarmInput ℚ :=
  ⟨3, 0.5, 1, 2, 0, [hovering 0 ⟨0, 0, 1⟩, hovering 1 ⟨1, 0, 1⟩]⟩

theorem nearAndFar_evaluated : ∃ after,
    calcSwarmCost squareRoot nearAndFar hoverPoints 0 initMinEllipDist = some after ∧
      after.minEllipDist = 0 := by
  have computed : (calcSwarmCost squareRoot nearAndFar hoverPoints 0 initMinEllipDist).map
      (SwarmAccumulator.minEllipDist ·) = some 0 := by decide +kernel
  exact Option.map_eq_some_iff.mp computed

/-- The drone at the control point goes unnoticed. -/
theorem nearAndFar_unnoticed : ∃ after,
    calcSwarmCost squareRoot nearAndFar hoverPoints 0 initMinEllipDist = some after ∧
      ¬(SwarmTooClose nearAndFar.swarmClearance after.minEllipDist ↔
        ∃ d, CheckedDistance squareRoot nearAndFar hoverPoints d ∧
          d < nearAndFar.swarmClearance) := by
  rcases nearAndFar_evaluated with ⟨after, evaluated, least⟩
  refine ⟨after, evaluated, ?_⟩
  rw [least]
  intro complete
  have quiet : ¬SwarmTooClose nearAndFar.swarmClearance 0 := by decide +kernel
  apply quiet
  apply complete.mpr
  have checked : CheckedDistance squareRoot nearAndFar hoverPoints 0 :=
    ⟨3, hovering 0 ⟨0, 0, 1⟩, 0, ⟨0, 0, 1⟩, by decide, by decide +kernel, rfl, by decide +kernel,
      by decide +kernel, by decide +kernel⟩
  exact ⟨0, checked, by decide +kernel⟩

end RobocupDrone.Optimizer
