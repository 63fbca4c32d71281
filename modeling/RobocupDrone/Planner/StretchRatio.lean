import Mathlib.Analysis.SpecialFunctions.Sqrt
import Mathlib.Tactic.IntervalCases
import RobocupDrone.Planner.Feasibility

/-! The `ratio` of `checkFeasibility` against the stretch that the violations require. -/

namespace RobocupDrone.Planner.UniformBspline

open Geometry

variable {K : Type} {limit : K} {points : List (Vec3 K)} [LinearOrder K]
variable {b : UniformBspline K} {vels accs : List (Vec3 K)}

theorem scan_max_le_iff (a b c d x : K) :
    max (max (max a b) c) d ≤ x ↔ a ≤ x ∧ b ≤ x ∧ c ≤ x ∧ d ≤ x := by
  rw [max_le_iff, max_le_iff, max_le_iff, and_assoc, and_assoc]

variable [Field K]

def overshoot (limit : K) (points : List (Vec3 K)) : Set K :=
  {c | ∃ v ∈ points, Exceeds limit v ∧ ∃ axis : Axis, |v.get axis| = c}

def Violated (limit : K) (points : List (Vec3 K)) : Prop := ∃ v ∈ points, Exceeds limit v

theorem scanLimit_round (largest bound : K) (v : Vec3 K) :
    max (max (max largest |v.x|) |v.y|) |v.z| ≤ bound ↔
      largest ≤ bound ∧ ∀ axis, |v.get axis| ≤ bound := by
  rw [scan_max_le_iff]
  refine and_congr Iff.rfl ⟨?_, fun each => ⟨each .x, each .y, each .z⟩⟩
  rintro ⟨x, y, z⟩ axis
  cases axis with
  | x => exact x
  | y => exact y
  | z => exact z

theorem scanLimit_eq (limit : K) (points : List (Vec3 K)) :
    scanLimit limit points = points.foldl (fun scan v =>
      if Exceeds limit v then (false, max (max (max scan.2 |v.x|) |v.y|) |v.z|) else scan)
      (true, -1) := rfl

theorem scanLimit_snd_le_iff (bound : K) :
    (scanLimit limit points).2 ≤ bound ↔ -1 ≤ bound ∧ ∀ c ∈ overshoot limit points, c ≤ bound := by
  have loop : ∀ (points : List (Vec3 K)) (start : Bool × K),
      (points.foldl (fun scan v =>
        if Exceeds limit v then (false, max (max (max scan.2 |v.x|) |v.y|) |v.z|)
        else scan) start).2 ≤ bound ↔
          start.2 ≤ bound ∧ ∀ v ∈ points, Exceeds limit v → ∀ axis, |v.get axis| ≤ bound := by
    intro points
    induction points with
    | nil => simp
    | cons head rest ih =>
        intro start
        rw [List.foldl_cons, ih, List.forall_mem_cons]
        by_cases exceeding : Exceeds limit head
        · simp only [exceeding, if_true, scanLimit_round, true_implies, and_assoc]
        · simp only [exceeding, if_false, false_implies, true_and]
  rw [scanLimit_eq, loop]
  refine and_congr Iff.rfl ⟨?_, ?_⟩
  · rintro each c ⟨v, member, exceeding, axis, rfl⟩
    exact each v member exceeding axis
  · intro each v member exceeding axis
    exact each _ ⟨v, member, exceeding, axis, rfl⟩

theorem finite_overshoot (limit : K) (points : List (Vec3 K)) :
    (overshoot limit points).Finite := by
  apply (List.finite_toSet (points.flatMap fun v => [|v.x|, |v.y|, |v.z|])).subset
  rintro c ⟨v, member, _, axis, rfl⟩
  refine List.mem_flatMap.mpr ⟨v, member, ?_⟩
  cases axis <;> simp [Vec3.get]

theorem nonempty_overshoot (violated : Violated limit points) :
    (overshoot limit points).Nonempty := by
  rcases violated with ⟨v, member, exceeding⟩
  exact ⟨_, v, member, exceeding, .x, rfl⟩

theorem overshoot_eq_empty (kept : ¬Violated limit points) : overshoot limit points = ∅ := by
  apply Set.eq_empty_of_forall_notMem
  rintro c ⟨v, member, exceeding, _⟩
  exact kept ⟨v, member, exceeding⟩

theorem scanLimit_start (kept : ¬Violated limit points) : (scanLimit limit points).2 = -1 := by
  have all : ∀ c ∈ overshoot limit points, c ≤ -1 := by
    rw [overshoot_eq_empty kept]
    exact fun c absent => absurd absent (Set.notMem_empty c)
  exact le_antisymm ((scanLimit_snd_le_iff _).mpr ⟨le_rfl, all⟩)
    ((scanLimit_snd_le_iff _).mp le_rfl).1

theorem checkFeasibility_eq (sqrt : K → K) (limits : PhysicalLimits K)
    (velocities : (List.range (b.controlPoints.length - 1)).mapM b.checkedVel = some vels)
    (accelerations : (List.range (b.controlPoints.length - 2)).mapM b.checkedAcc = some accs) :
    checkFeasibility sqrt limits b =
      some
        ((scanLimit (enlargedVelLim limits) vels).1 && (scanLimit (enlargedAccLim limits) accs).1,
        max ((scanLimit (enlargedVelLim limits) vels).2 / limits.limitVel)
          (sqrt (|(scanLimit (enlargedAccLim limits) accs).2| / limits.limitAcc))) := by
  simp only [checkFeasibility, velocities, accelerations, Option.bind_eq_bind, Option.bind_some]

variable [IsStrictOrderedRing K]

theorem scanLimit_isGreatest (violated : Violated limit points) :
    IsGreatest (overshoot limit points) (scanLimit limit points).2 := by
  have finite := finite_overshoot limit points
  rcases Set.exists_max_image _ id finite (nonempty_overshoot violated) with ⟨top, member, above⟩
  have nonneg : -1 ≤ top := by
    rcases member with ⟨v, _, _, axis, rfl⟩
    exact (neg_nonpos.mpr zero_le_one).trans (abs_nonneg _)
  have least : (scanLimit limit points).2 ≤ top := (scanLimit_snd_le_iff top).mpr ⟨nonneg, above⟩
  have bound : ∀ c ∈ overshoot limit points, c ≤ (scanLimit limit points).2 :=
    ((scanLimit_snd_le_iff _).mp le_rfl).2
  rw [le_antisymm least (bound top member)]
  exact ⟨member, above⟩

/-- `ratio` is the stretch that the points over the limits require: of the velocities, of the
accelerations, or the larger one. -/
structure StretchRequired (sqrt : K → K) (limits : PhysicalLimits K) (vels accs : List (Vec3 K))
    (ratio : K) : Prop where
  velocities : Violated (enlargedVelLim limits) vels → ¬Violated (enlargedAccLim limits) accs →
    ∀ v, IsGreatest (overshoot (enlargedVelLim limits) vels) v → ratio = v / limits.limitVel
  accelerations : ¬Violated (enlargedVelLim limits) vels → Violated (enlargedAccLim limits) accs →
    ∀ a, IsGreatest (overshoot (enlargedAccLim limits) accs) a →
      ratio = sqrt (a / limits.limitAcc)
  both : Violated (enlargedVelLim limits) vels → Violated (enlargedAccLim limits) accs →
    ∀ v a, IsGreatest (overshoot (enlargedVelLim limits) vels) v →
      IsGreatest (overshoot (enlargedAccLim limits) accs) a →
        ratio = max (v / limits.limitVel) (sqrt (a / limits.limitAcc))

/-- What is left of the start of a running maximum is below the stretch that is required. -/
structure StartBelow (sqrt : K → K) (limits : PhysicalLimits K) (vels accs : List (Vec3 K)) :
    Prop where
  velocities : Violated (enlargedVelLim limits) vels → ¬Violated (enlargedAccLim limits) accs →
    ∃ v, IsGreatest (overshoot (enlargedVelLim limits) vels) v ∧
      sqrt (1 / limits.limitAcc) ≤ v / limits.limitVel
  accelerations : ¬Violated (enlargedVelLim limits) vels → Violated (enlargedAccLim limits) accs →
    ∃ a, IsGreatest (overshoot (enlargedAccLim limits) accs) a ∧
      -1 / limits.limitVel ≤ sqrt (a / limits.limitAcc)

theorem stretchRequired_iff (sqrt : K → K) (limits : PhysicalLimits K) (vels accs : List (Vec3 K)) :
    StretchRequired sqrt limits vels accs
        (max ((scanLimit (enlargedVelLim limits) vels).2 / limits.limitVel)
          (sqrt (|(scanLimit (enlargedAccLim limits) accs).2| / limits.limitAcc))) ↔
      StartBelow sqrt limits vels accs := by
  have positive : ∀ {limit : K} {points : List (Vec3 K)}, Violated limit points →
      |(scanLimit limit points).2| = (scanLimit limit points).2 := by
    intro limit points violated
    rcases (scanLimit_isGreatest violated).1 with ⟨v, _, _, axis, same⟩
    rw [← same, abs_abs]
  have unit : |(-1 : K)| = 1 := by rw [abs_neg, abs_one]
  constructor
  · intro required
    constructor
    · intro fast gentle
      have same := required.velocities fast gentle _ (scanLimit_isGreatest fast)
      rw [scanLimit_start gentle, unit] at same
      exact ⟨_, scanLimit_isGreatest fast, max_eq_left_iff.mp same⟩
    · intro slow hard
      have same := required.accelerations slow hard _ (scanLimit_isGreatest hard)
      rw [scanLimit_start slow, positive hard] at same
      exact ⟨_, scanLimit_isGreatest hard, max_eq_right_iff.mp same⟩
  · intro below
    constructor
    · intro fast gentle v largest
      rcases below.velocities fast gentle with ⟨v', largest', bound⟩
      rw [scanLimit_start gentle, unit, (scanLimit_isGreatest fast).unique largest,
        max_eq_left (largest'.unique largest ▸ bound)]
    · intro slow hard a largest
      rcases below.accelerations slow hard with ⟨a', largest', bound⟩
      rw [scanLimit_start slow, positive hard, (scanLimit_isGreatest hard).unique largest,
        max_eq_right (largest'.unique largest ▸ bound)]
    · intro fast hard v a largest largest'
      rw [positive hard, (scanLimit_isGreatest fast).unique largest,
        (scanLimit_isGreatest hard).unique largest']

/-- The ratio is the required stretch exactly when no start of a running maximum is above it. -/
theorem checkFeasibility_ratio_iff (sqrt : K → K) (limits : PhysicalLimits K)
    (velocities : (List.range (b.controlPoints.length - 1)).mapM b.checkedVel = some vels)
    (accelerations : (List.range (b.controlPoints.length - 2)).mapM b.checkedAcc = some accs) :
    (∃ fea ratio, checkFeasibility sqrt limits b = some (fea, ratio) ∧
        StretchRequired sqrt limits vels accs ratio) ↔
      StartBelow sqrt limits vels accs := by
  rw [checkFeasibility_eq sqrt limits velocities accelerations, ← stretchRequired_iff]
  constructor
  · rintro ⟨fea, ratio, same, required⟩
    rw [Option.some.injEq, Prod.mk.injEq] at same
    rw [same.2]
    exact required
  · exact fun required => ⟨_, _, rfl, required⟩

theorem startBelow_iff {sqrt : K → K} (exact : Vec3.IsSqrt sqrt) {limits : PhysicalLimits K}
    (positive : 0 < limits.limitVel) (positive' : 0 < limits.limitAcc) :
    StartBelow sqrt limits vels accs ↔
      (Violated (enlargedVelLim limits) vels → ¬Violated (enlargedAccLim limits) accs →
        ∃ v, IsGreatest (overshoot (enlargedVelLim limits) vels) v ∧
          sqrt (1 / limits.limitAcc) ≤ v / limits.limitVel) := by
  refine ⟨fun below => below.velocities, fun fast => ⟨fast, fun _ hard => ?_⟩⟩
  have largest := scanLimit_isGreatest hard
  have nonneg : 0 ≤ (scanLimit (enlargedAccLim limits) accs).2 := by
    rcases largest.1 with ⟨v, _, _, axis, same⟩
    exact same ▸ abs_nonneg _
  refine ⟨_, largest, ?_⟩
  exact (div_nonpos_of_nonpos_of_nonneg (neg_nonpos.mpr zero_le_one) positive.le).trans
    (exact.nonneg (div_nonneg nonneg positive'.le))

section Steady

noncomputable def steadyRow : UniformBspline ℝ :=
  ⟨[⟨0, 0, 1⟩, ⟨3 / 5, 0, 1⟩, ⟨6 / 5, 0, 1⟩, ⟨9 / 5, 0, 1⟩, ⟨12 / 5, 0, 1⟩], 3, 4, 8,
    [-3, -2, -1, 0, 1, 2, 3, 4, 5], 1⟩

theorem steadyRow_vels :
    (List.range (steadyRow.controlPoints.length - 1)).mapM steadyRow.checkedVel =
      some (List.replicate 4 ⟨3 / 5, 0, 0⟩) := by
  refine (mapM_eq_map (g := fun _ => ⟨3 / 5, 0, 0⟩) fun i member => ?_).trans rfl
  have bound : i < 4 := List.mem_range.mp member
  interval_cases i
  all_goals
    refine congrArg some (Vec3.ext_get fun axis => ?_)
    rw [Vec3.get_div, Vec3.get_smul, Vec3.get_sub]
    cases axis
    all_goals norm_num [Vec3.get, steadyRow]

theorem steadyRow_accs :
    (List.range (steadyRow.controlPoints.length - 2)).mapM steadyRow.checkedAcc =
      some (List.replicate 3 ⟨0, 0, 0⟩) := by
  refine (mapM_eq_map (g := fun _ => ⟨0, 0, 0⟩) fun i member => ?_).trans rfl
  have bound : i < 3 := List.mem_range.mp member
  interval_cases i
  all_goals
    refine congrArg some (Vec3.ext_get fun axis => ?_)
    rw [Vec3.get_div, Vec3.get_smul, Vec3.get_sub, Vec3.get_div, Vec3.get_div, Vec3.get_sub,
      Vec3.get_sub]
    cases axis
    all_goals norm_num [Vec3.get, steadyRow]

theorem steadyRow_fast {limits : PhysicalLimits ℝ} (half : limits.limitVel = 1 / 2)
    (tolerance : limits.feasibilityTolerance = 1 / 20) (positive : 0 < limits.limitAcc) :
    IsGreatest (overshoot (enlargedVelLim limits) (List.replicate 4 ⟨3 / 5, 0, 0⟩)) (3 / 5) ∧
      ¬Violated (enlargedAccLim limits) (List.replicate 3 ⟨0, 0, 0⟩) := by
  have exceeding : Exceeds (enlargedVelLim limits) ⟨3 / 5, 0, 0⟩ := by
    left
    rw [enlargedVelLim, half, tolerance, abs_of_nonneg (by norm_num)]
    norm_num
  have first : |(⟨3 / 5, 0, 0⟩ : Vec3 ℝ).get .x| = 3 / 5 :=
    abs_of_nonneg (show (0 : ℝ) ≤ 3 / 5 by norm_num)
  refine ⟨⟨⟨_, List.mem_replicate.mpr ⟨by norm_num, rfl⟩, exceeding, .x, first⟩, ?_⟩, ?_⟩
  · rintro c ⟨v, member, _, axis, rfl⟩
    rw [List.eq_of_mem_replicate member]
    cases axis
    all_goals norm_num [Vec3.get, abs_of_nonneg]
  · rintro ⟨v, member, exceeding⟩
    rw [List.eq_of_mem_replicate member] at exceeding
    have lower : 0 < enlargedAccLim limits := by
      rw [enlargedAccLim, tolerance]
      positivity
    rcases exceeding with exceeding | exceeding | exceeding
    all_goals
      rw [abs_zero] at exceeding
      exact absurd exceeding (not_lt.mpr lower.le)

theorem steadyRow_ratio :
    ∃ fea ratio, checkFeasibility Real.sqrt (setPhysicalLimits (1 / 2) 1 (1 / 20)) steadyRow =
        some (fea, ratio) ∧
      StretchRequired Real.sqrt (setPhysicalLimits (1 / 2) 1 (1 / 20))
        (List.replicate 4 ⟨3 / 5, 0, 0⟩) (List.replicate 3 ⟨0, 0, 0⟩) ratio := by
  have fast := @steadyRow_fast (setPhysicalLimits (1 / 2) 1 (1 / 20)) rfl rfl one_pos
  refine (checkFeasibility_ratio_iff _ _ steadyRow_vels steadyRow_accs).mpr
    ((startBelow_iff Vec3.isSqrt_sqrt (one_half_pos) one_pos).mpr fun _ _ => ⟨_, fast.1, ?_⟩)
  norm_num [setPhysicalLimits]

/-- The limits of a flight experiment: the ratio is the root of ten thirds, not six fifths. -/
theorem steadyRow_overstretched :
    ¬∃ fea ratio, checkFeasibility Real.sqrt (setPhysicalLimits (1 / 2) (3 / 10) (1 / 20))
        steadyRow = some (fea, ratio) ∧
      StretchRequired Real.sqrt (setPhysicalLimits (1 / 2) (3 / 10) (1 / 20))
        (List.replicate 4 ⟨3 / 5, 0, 0⟩) (List.replicate 3 ⟨0, 0, 0⟩) ratio := by
  have fast := @steadyRow_fast (setPhysicalLimits (1 / 2) (3 / 10) (1 / 20)) rfl rfl
    (by norm_num [setPhysicalLimits])
  rcases fast with ⟨largest, gentle⟩
  rcases largest.1 with ⟨v, member, exceeding, _⟩
  rw [checkFeasibility_eq _ _ steadyRow_vels steadyRow_accs]
  rintro ⟨fea, ratio, same, required⟩
  rw [Option.some.injEq, Prod.mk.injEq] at same
  rw [← same.2, stretchRequired_iff] at required
  rcases required.velocities ⟨v, member, exceeding⟩ gentle with ⟨top, largest', bound⟩
  rw [largest'.unique largest, Real.sqrt_le_left (by norm_num [setPhysicalLimits])] at bound
  norm_num [setPhysicalLimits] at bound

end Steady

end RobocupDrone.Planner.UniformBspline
