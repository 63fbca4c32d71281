import RobocupDrone.Planner.SplineCurve

/-! `checkFeasibility`: limits of the control points of the derivatives, and of the derivatives. -/

namespace RobocupDrone.Planner.UniformBspline

open Geometry DeBoor

variable {K : Type} [Field K]

section

variable [LinearOrder K]

structure PhysicalLimits (K : Type) where
  limitVel : K
  limitAcc : K
  limitRatio : K
  feasibilityTolerance : K

def setPhysicalLimits (vel acc tolerance : K) : PhysicalLimits K := ⟨vel, acc, 1.1, tolerance⟩

def enlargedVelLim (limits : PhysicalLimits K) : K :=
  limits.limitVel * (1 + limits.feasibilityTolerance) + 0.0001

def enlargedAccLim (limits : PhysicalLimits K) : K :=
  limits.limitAcc * (1 + limits.feasibilityTolerance) + 0.0001

/-- `vel` in round `i` of the first loop. -/
def checkedVel (b : UniformBspline K) (i : ℕ) : Option (Vec3 K) := do
  let next ← entry b.controlPoints (i + 1)
  let current ← entry b.controlPoints i
  let high ← entry b.u (i + b.p + 1)
  let low ← entry b.u (i + 1)
  some ((b.p : K) • (next - current) / (high - low))

/-- `acc` in round `i` of the second loop. -/
def checkedAcc (b : UniformBspline K) (i : ℕ) : Option (Vec3 K) := do
  let last ← entry b.controlPoints (i + 2)
  let next ← entry b.controlPoints (i + 1)
  let current ← entry b.controlPoints i
  let lastHigh ← entry b.u (i + b.p + 2)
  let lastLow ← entry b.u (i + 2)
  let high ← entry b.u (i + b.p + 1)
  let low ← entry b.u (i + 1)
  some (((b.p * (b.p - 1) : ℤ) : K) •
    ((last - next) / (lastHigh - lastLow) - (next - current) / (high - low)) / (high - lastLow))

def Exceeds (limit : K) (v : Vec3 K) : Prop := |v.x| > limit ∨ |v.y| > limit ∨ |v.z| > limit

instance (limit : K) (v : Vec3 K) : Decidable (Exceeds limit v) :=
  inferInstanceAs (Decidable (_ ∨ _ ∨ _))

/-- `fea`, and `max_vel` or `max_acc`, after the points of a loop. -/
def scanLimit (limit : K) (points : List (Vec3 K)) : Bool × K :=
  points.foldl (fun (fea, largest) v =>
    if Exceeds limit v then (false, max (max (max largest |v.x|) |v.y|) |v.z|)
    else (fea, largest)) (true, -1)

/-- The returned flag and `ratio`. -/
def checkFeasibility (sqrt : K → K) (limits : PhysicalLimits K) (b : UniformBspline K) :
    Option (Bool × K) := do
  let vels ← (List.range (b.controlPoints.length - 1)).mapM b.checkedVel
  let (feaVel, maxVel) := scanLimit (enlargedVelLim limits) vels
  let accs ← (List.range (b.controlPoints.length - 2)).mapM b.checkedAcc
  let (feaAcc, maxAcc) := scanLimit (enlargedAccLim limits) accs
  some (feaVel && feaAcc, max (maxVel / limits.limitVel) (sqrt (|maxAcc| / limits.limitAcc)))

theorem exceeds_iff {limit : K} {v : Vec3 K} : ¬Exceeds limit v ↔ ∀ axis, |v.get axis| ≤ limit := by
  constructor
  · intro within axis
    simp only [Exceeds, gt_iff_lt, not_or, not_lt] at within
    cases axis with
    | x => exact within.1
    | y => exact within.2.1
    | z => exact within.2.2
  · rintro within (exceeding | exceeding | exceeding)
    · exact absurd (within .x) (not_le.mpr exceeding)
    · exact absurd (within .y) (not_le.mpr exceeding)
    · exact absurd (within .z) (not_le.mpr exceeding)

theorem scanLimit_fst (limit : K) (points : List (Vec3 K)) :
    (scanLimit limit points).1 = true ↔ ∀ v ∈ points, ¬Exceeds limit v := by
  have loop : ∀ (points : List (Vec3 K)) (start : Bool × K),
      (points.foldl (fun (fea, largest) v =>
        if Exceeds limit v then (false, max (max (max largest |v.x|) |v.y|) |v.z|)
        else (fea, largest)) start).1 = true ↔
          start.1 = true ∧ ∀ v ∈ points, ¬Exceeds limit v := by
    intro points
    induction points with
    | nil => simp
    | cons head rest ih =>
        intro start
        rw [List.foldl_cons, ih]
        by_cases exceeding : Exceeds limit head
        · simp [exceeding]
        · simp [exceeding]
  rw [scanLimit, loop]
  simp

end

section Curves

variable {q : ℕ} {b : UniformBspline K}

theorem columns_derivative (b : UniformBspline K) (q : ℕ) :
    (b.derivative q).controlPoints =
      (List.range (b.controlPoints.length - 1)).map (b.velocityPoint q) := rfl

variable [LinearOrder K]

theorem Regular.enough_of_evaluated {degree : ℕ} (regular : Regular degree b) {u : K} {v : Vec3 K}
    (evaluated : b.evaluateDeBoor u = some v) : degree < b.controlPoints.length := by
  simp only [evaluateDeBoor, regular.entry_first, regular.entry_last, Option.bind_eq_bind,
    Option.bind_some, Option.bind_eq_some_iff, regular.toNat_p] at evaluated
  rcases evaluated with ⟨k, span, value⟩
  split_ifs at value with outside
  have above := knotSpan_bounds _ _ _ span
  omega

theorem Regular.checkedVel_eq (regular : Regular (q + 1) b) {i : ℕ}
    (inside : i + 1 < b.controlPoints.length) : b.checkedVel i = some (b.velocityPoint q i) := by
  have derived := regular.derivativePoint_eq inside
  simp only [derivativePoint, Option.bind_eq_bind, Option.bind_eq_some_iff] at derived
  rcases derived with ⟨current, at_i, next, at_next, high, at_high, low, at_low, same⟩
  simp only [checkedVel, at_i, at_next, at_high, at_low, Option.bind_eq_bind, Option.bind_some]
  rw [← same]
  congr 1
  apply Vec3.ext_get
  intro axis
  simp only [Vec3.get_div, Vec3.get_smul]
  ring

theorem Regular.checkedAcc_eq (regular : Regular (q + 2) b) {i : ℕ}
    (inside : i + 2 < b.controlPoints.length) :
    b.checkedAcc i = some ((b.derivative (q + 1)).velocityPoint q i) := by
  have knots := regular.knots
  have degree : b.p = (q : ℤ) + 2 := by rw [regular.p, Nat.cast_add, Nat.cast_two]
  have knot : ∀ j : ℕ, j < b.u.length → entry b.u (j : ℤ) = some (b.u.getD j 0) := by
    intro j bound
    rw [entry_natCast]
    exact getElem?_getD bound 0
  have point : ∀ j : ℕ, j < b.controlPoints.length →
      entry b.controlPoints (j : ℤ) = some (b.controlPoints.getD j 0) := by
    intro j bound
    rw [entry_natCast]
    exact getElem?_getD bound 0
  have columns : ∀ j, j + 1 < b.controlPoints.length →
      (b.derivative (q + 1)).controlPoints.getD j 0 = b.velocityPoint (q + 1) j := by
    intro j bound
    rw [UniformBspline.derivative, List.getD_eq_getElem?_getD, List.getElem?_map,
      List.getElem?_range (by omega)]
    rfl
  have shifted : ∀ j, j + 1 < b.u.length - 1 →
      (b.derivative (q + 1)).u.getD j 0 = b.u.getD (j + 1) 0 := by
    intro j bound
    rw [UniformBspline.derivative, List.getD_eq_getElem?_getD, List.getElem?_dropLast,
      List.getD_eq_getElem?_getD, List.getElem?_drop, List.length_drop, if_pos (by omega),
      Nat.add_comm 1 j]
  rw [checkedAcc, degree, show (i : ℤ) + 2 = ((i + 2 : ℕ) : ℤ) by omega,
    show (i : ℤ) + 1 = ((i + 1 : ℕ) : ℤ) by omega,
    show (i : ℤ) + (q + 2) + 2 = ((i + q + 4 : ℕ) : ℤ) by omega,
    show (i : ℤ) + (q + 2) + 1 = ((i + q + 3 : ℕ) : ℤ) by omega]
  simp only [point _ inside, point (i + 1) (by omega), point i (by omega),
    knot (i + q + 4) (by omega), knot (i + q + 3) (by omega), knot (i + 2) (by omega),
    knot (i + 1) (by omega), Option.bind_eq_bind, Option.bind_some]
  rw [velocityPoint, columns (i + 1) (by omega), columns i (by omega), shifted _ (by omega),
    shifted _ (by omega), velocityPoint, velocityPoint]
  congr 1
  apply Vec3.ext_get
  intro axis
  simp only [Vec3.get_div, Vec3.get_smul, Vec3.get_sub]
  push_cast
  rw [show i + 1 + (q + 1) + 2 = i + q + 4 by omega, show i + (q + 1) + 2 = i + q + 3 by omega,
    show i + q + 2 + 1 = i + q + 3 by omega]
  ring

theorem Regular.feasible_points (regular : Regular (q + 2) b) {sqrt : K → K}
    {limits : PhysicalLimits K} {ratio : K}
    (feasible : checkFeasibility sqrt limits b = some (true, ratio)) :
    (∀ c ∈ (b.derivative (q + 1)).controlPoints, ∀ axis,
        |c.get axis| ≤ enlargedVelLim limits) ∧
      ∀ c ∈ ((b.derivative (q + 1)).derivative q).controlPoints, ∀ axis,
        |c.get axis| ≤ enlargedAccLim limits := by
  have vels : (List.range (b.controlPoints.length - 1)).mapM b.checkedVel =
      some (b.derivative (q + 1)).controlPoints := by
    apply mapM_eq_map
    intro i member
    rw [List.mem_range] at member
    exact regular.checkedVel_eq (by omega)
  have accs : (List.range (b.controlPoints.length - 2)).mapM b.checkedAcc =
      some ((b.derivative (q + 1)).derivative q).controlPoints := by
    rw [columns_derivative, columns_derivative, List.length_map, List.length_range, Nat.sub_sub]
    apply mapM_eq_map
    intro i member
    rw [List.mem_range] at member
    exact regular.checkedAcc_eq (by omega)
  simp only [checkFeasibility, vels, accs, Option.bind_eq_bind, Option.bind_some,
    Option.some.injEq, Prod.mk.injEq, Bool.and_eq_true] at feasible
  rcases feasible with ⟨⟨velocity, acceleration⟩, _⟩
  exact ⟨fun c member => exceeds_iff.mp ((scanLimit_fst _ _).mp velocity c member),
    fun c member => exceeds_iff.mp ((scanLimit_fst _ _).mp acceleration c member)⟩

def BoundedBy (limit : K) (derivative : Option (UniformBspline K)) : Prop :=
  ∀ d u v, derivative = some d → d.evaluateDeBoor u = some v → ∀ axis, |v.get axis| ≤ limit

def DerivativesEvaluate (b : UniformBspline K) : Prop :=
  ∀ u, ∃ d v dd a, b.getDerivative = some d ∧ d.evaluateDeBoor u = some v ∧
    d.getDerivative = some dd ∧ dd.evaluateDeBoor u = some a

theorem Regular.derivativesEvaluate (regular : Regular (q + 2) b)
    (enough : q + 2 < b.controlPoints.length) : DerivativesEvaluate b := by
  have nonempty : b.controlPoints ≠ [] := List.ne_nil_of_length_pos (by omega)
  have first := regular.derivative nonempty
  have columns : (b.derivative (q + 1)).controlPoints.length = b.controlPoints.length - 1 := by
    rw [columns_derivative, List.length_map, List.length_range]
  have remaining : (b.derivative (q + 1)).controlPoints ≠ [] :=
    List.ne_nil_of_length_pos (by omega)
  have second := first.derivative remaining
  have last : ((b.derivative (q + 1)).derivative q).controlPoints.length =
      b.controlPoints.length - 2 := by
    rw [columns_derivative, List.length_map, List.length_range, columns, Nat.sub_sub]
  intro u
  rcases first.exists_span (by omega) u with ⟨k, ub, _, _, _, _, velocity⟩
  rcases second.exists_span (by omega) u with ⟨k', ub', _, _, _, _, acceleration⟩
  exact ⟨_, _, _, _, regular.getDerivative_eq nonempty, velocity,
    first.getDerivative_eq remaining, acceleration⟩

variable [IsStrictOrderedRing K]

theorem Regular.abs_evaluate_le {degree : ℕ} (regular : Regular degree b) {limit : K}
    (within : ∀ c ∈ b.controlPoints, ∀ axis, |c.get axis| ≤ limit) {u : K} {v : Vec3 K}
    (evaluated : b.evaluateDeBoor u = some v) (axis : Axis) : |v.get axis| ≤ limit := by
  have enough := regular.enough_of_evaluated evaluated
  rcases regular.exists_span enough u with ⟨k, ub, low, high, after, before, on_span⟩
  have same := Option.some.inj (evaluated.symm.trans on_span)
  have convex : Convex K (Set.Icc (-limit) limit) := convex_Icc _ _
  have first : b.spanKnots k degree = b.u.getD k 0 := by
    rw [spanKnots, regular.toNat_p, Nat.sub_add_cancel low]
  have second : b.spanKnots k (degree + 1) = b.u.getD (k + 1) 0 := by
    rw [spanKnots, regular.toNat_p, ← Nat.add_assoc, Nat.sub_add_cancel low]
  have sorted : ∀ i j, i ≤ j → j ≤ 2 * degree → b.spanKnots k i ≤ b.spanKnots k j := by
    intro i j before bound
    rcases before.eq_or_lt with rfl | earlier
    · exact le_rfl
    · exact (regular.spanKnots_lt low high earlier bound).le
  have points : ∀ i ≤ degree, (b.spanPoints k i).get axis ∈ Set.Icc (-limit) limit := by
    intro i bound
    have inside : k - degree + i < b.controlPoints.length := by omega
    rw [spanPoints, regular.toNat_p, List.getD_eq_getElem _ _ inside]
    exact abs_le.mp (within _ (List.getElem_mem inside) axis)
  have member := net_mem convex sorted (first ▸ after) (second ▸ before) points
    (show 0 + degree ≤ degree by omega)
  rw [same, get_spanCurve, regular.toNat_p]
  exact abs_le.mpr member

/-- Checking the control points bounds the whole curves. -/
theorem feasible_curve_bounded (sqrt : K → K) (limits : PhysicalLimits K)
    (regular : Regular (q + 2) b) {ratio : K}
    (feasible : checkFeasibility sqrt limits b = some (true, ratio)) :
    BoundedBy (enlargedVelLim limits) b.getDerivative ∧
      BoundedBy (enlargedAccLim limits) (b.getDerivative.bind getDerivative) ∧
      (q + 2 < b.controlPoints.length → DerivativesEvaluate b) := by
  have points := regular.feasible_points feasible
  refine ⟨?_, ?_, regular.derivativesEvaluate⟩
  · intro d u v derived evaluated
    have nonempty := nonempty_of_getDerivative derived
    rw [regular.getDerivative_eq nonempty, Option.some.injEq] at derived
    rw [← derived] at evaluated
    exact (regular.derivative nonempty).abs_evaluate_le points.1 evaluated
  · intro dd u a derived evaluated
    rcases Option.bind_eq_some_iff.mp derived with ⟨d, first, second⟩
    have nonempty := nonempty_of_getDerivative first
    rw [regular.getDerivative_eq nonempty, Option.some.injEq] at first
    have remaining := nonempty_of_getDerivative second
    have slower : Regular (q + 1) d := first ▸ regular.derivative nonempty
    rw [slower.getDerivative_eq remaining, Option.some.injEq, ← first] at second
    rw [← second] at evaluated
    exact ((first ▸ slower : Regular (q + 1) (b.derivative (q + 1))).derivative
      (first ▸ remaining)).abs_evaluate_le points.2 evaluated

end Curves

def slowTurn : UniformBspline ℚ :=
  ⟨[⟨0, 0, 1⟩, ⟨1, 0, 1⟩, ⟨2, 0, 1⟩, ⟨2, 1, 1⟩, ⟨2, 2, 1⟩], 3, 4, 8,
    [-3, -2, -1, 0, 1, 2, 3, 4, 5], 1⟩

theorem slowTurn_regular : Regular 3 slowTurn := ⟨rfl, rfl, by decide, by decide +kernel⟩

theorem slowTurn_curve_bounded :
    BoundedBy (enlargedVelLim (setPhysicalLimits 2 4 (1 / 20))) slowTurn.getDerivative ∧
      BoundedBy (enlargedAccLim (setPhysicalLimits 2 4 (1 / 20)))
        (slowTurn.getDerivative.bind getDerivative) ∧
      (3 < slowTurn.controlPoints.length → DerivativesEvaluate slowTurn) := by
  have feasible : checkFeasibility squareRoot (setPhysicalLimits 2 4 (1 / 20)) slowTurn =
      some (true, 1 / 2) := by
    decide +kernel
  exact feasible_curve_bounded squareRoot (setPhysicalLimits 2 4 (1 / 20)) slowTurn_regular feasible

end RobocupDrone.Planner.UniformBspline
