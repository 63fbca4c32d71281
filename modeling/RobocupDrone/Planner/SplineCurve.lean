import Mathlib.Data.List.GetD
import RobocupDrone.Library.DeBoor
import RobocupDrone.Planner.UniformBspline

/-! Splines with increasing knots as curves: every evaluation is de Boor's triangle of one span, and
`getDerivative` is the derivative. -/

namespace RobocupDrone.Planner.UniformBspline

open Geometry DeBoor

variable {K : Type}

theorem getElem?_getD {α : Type} {v : List α} {i : ℕ} (inside : i < v.length) (other : α) :
    v[i]? = some (v.getD i other) := by
  rw [List.getD_eq_getElem _ _ inside]
  exact List.getElem?_eq_getElem inside

section FullKnots

variable {degree : ℕ} {b : UniformBspline K} (p : b.p = degree)
  (m : b.m = b.controlPoints.length + degree) (knots : b.controlPoints.length + degree < b.u.length)
variable [Field K]

include p knots
theorem entry_first_of_knots : entry b.u b.p = some (b.u.getD degree 0) := by
  rw [p, entry_natCast]
  exact getElem?_getD (by omega) 0

include m
theorem entry_last_of_knots :
    entry b.u (b.m - b.p) = some (b.u.getD b.controlPoints.length 0) := by
  have index : b.m - b.p = (b.controlPoints.length : ℤ) := by
    rw [m, p]
    omega
  rw [index, entry_natCast]
  exact getElem?_getD (by omega) 0

theorem getTimeSum_of_knots :
    b.getTimeSum = some (b.u.getD b.controlPoints.length 0 - b.u.getD degree 0) := by
  have inside : ¬(b.p > b.u.length ∨ b.m - b.p > b.u.length) := by
    rw [m, p]
    omega
  rw [getTimeSum, getTimeSpan, if_neg inside, entry_first_of_knots p knots,
    entry_last_of_knots p m knots]
  rfl

variable [LinearOrder K]

theorem evaluateDeBoorT_of_knots (enough : degree < b.controlPoints.length) (t : K) :
    (b.evaluateDeBoorT t).isSome := by
  obtain ⟨k, found, inside⟩ := spanAt_inside p m enough (by omega) t
  rw [evaluateDeBoorT_isSome_iff]
  refine ⟨k, found, inside, fun _ => ?_⟩
  rw [p, Int.toNat_natCast]
  omega

end FullKnots

section

variable [Field K]

/-- The knots around span `k`, from the one that belongs to its first control point. -/
def spanKnots (b : UniformBspline K) (k i : ℕ) : K := b.u.getD (k - b.p.toNat + i) 0

/-- The control points of span `k`. -/
def spanPoints (b : UniformBspline K) (k i : ℕ) : Vec3 K :=
  b.controlPoints.getD (k - b.p.toNat + i) 0

/-- The curve of span `k`. -/
def spanCurve (b : UniformBspline K) (k : ℕ) (ub : K) : Vec3 K :=
  value (b.spanKnots k) ub b.p.toNat (b.spanPoints k)

theorem deBoor_eq_net (knot : ℕ → K) (ub : K) {k p : ℕ} (start : p ≤ k) (d : ℕ → Vec3 K) {r j : ℕ}
    (inside : j + r ≤ p) :
    deBoor knot ub k p d r (j + r) = net (fun i => knot (k - p + i)) ub p d r j := by
  induction r generalizing j with
  | zero => rfl
  | succ r ih =>
      have lower := ih (j := j) (by omega)
      have upper := ih (j := j + 1) (by omega)
      have weight : (ub - knot (j + (r + 1) + k - p)) /
          (knot (j + (r + 1) + 1 + k - (r + 1)) - knot (j + (r + 1) + k - p)) =
            ratio (fun i => knot (k - p + i)) ub p r j := by
        rw [ratio, show j + (r + 1) + k - p = k - p + (j + r + 1) by omega,
          show j + (r + 1) + 1 + k - (r + 1) = k - p + (j + p + 1) by omega]
      rw [deBoor, deBoorRound, if_pos (by omega), net_succ]
      dsimp only
      rw [weight, show j + (r + 1) - 1 = j + r by omega, show j + (r + 1) = j + 1 + r by omega,
        lower, upper]

theorem get_spanCurve (b : UniformBspline K) (k : ℕ) (ub : K) (axis : Axis) :
    (b.spanCurve k ub).get axis =
      value (b.spanKnots k) ub b.p.toNat fun i => (b.spanPoints k i).get axis :=
  map_net (Vec3.coordinate (α := K) axis) _ _ _ _ _ _

end

section

variable [LinearOrder K]

/-- Splines as the constructor and `setKnot` make them, with a full vector of increasing knots. -/
structure Regular (degree : ℕ) (b : UniformBspline K) : Prop where
  p : b.p = degree
  m : b.m = b.controlPoints.length + degree
  knots : b.controlPoints.length + degree < b.u.length
  increasing : b.u.Pairwise (· < ·)

namespace Regular

variable {degree : ℕ} {b : UniformBspline K}

theorem toNat_p (regular : Regular degree b) : b.p.toNat = degree := by
  rw [regular.p, Int.toNat_natCast]

variable [Field K]

theorem knot_lt (regular : Regular degree b) {i j : ℕ} (before : i < j) (inside : j < b.u.length) :
    b.u.getD i 0 < b.u.getD j 0 := by
  rw [List.getD_eq_getElem _ _ inside, List.getD_eq_getElem _ _ (before.trans inside)]
  exact List.pairwise_iff_getElem.mp regular.increasing i j _ inside before

theorem knot_le (regular : Regular degree b) {i j : ℕ} (before : i ≤ j) (inside : j < b.u.length) :
    b.u.getD i 0 ≤ b.u.getD j 0 := by
  rcases before.eq_or_lt with rfl | earlier
  · exact le_rfl
  · exact (regular.knot_lt earlier inside).le

theorem entry_first (regular : Regular degree b) : entry b.u b.p = some (b.u.getD degree 0) :=
  entry_first_of_knots regular.p regular.knots

theorem entry_last (regular : Regular degree b) :
    entry b.u (b.m - b.p) = some (b.u.getD b.controlPoints.length 0) :=
  entry_last_of_knots regular.p regular.m regular.knots

theorem getTimeSum_eq (regular : Regular degree b) :
    b.getTimeSum = some (b.u.getD b.controlPoints.length 0 - b.u.getD degree 0) :=
  getTimeSum_of_knots regular.p regular.m regular.knots

end Regular

theorem knotSpan_eq {ub next : K} {knots : List K} {i : ℕ} (present : knots[i]? = some next)
    (reaches : ub ≤ next) (before : ∀ j < i, ∀ knot, knots[j]? = some knot → knot < ub) (low : ℕ) :
    knotSpan ub low knots = some (low + i) := by
  induction knots generalizing low i with
  | nil => simp at present
  | cons head rest ih =>
      rw [knotSpan]
      cases i with
      | zero =>
          rw [List.getElem?_cons_zero, Option.some.injEq] at present
          rw [if_pos (present ▸ reaches), Nat.add_zero]
      | succ i =>
          rw [List.getElem?_cons_succ] at present
          have passed : head < ub := before 0 (Nat.succ_pos i) head List.getElem?_cons_zero
          rw [if_neg (not_le.mpr passed), ih present _ (low + 1)]
          · congr 1
            omega
          · intro j earlier knot found
            apply before (j + 1) (by omega) knot
            rwa [List.getElem?_cons_succ]

section Spans

variable {degree : ℕ} {b : UniformBspline K} [Field K]

theorem Regular.evaluateDeBoor_eq (regular : Regular degree b) {u ub : K} {k : ℕ} (low : degree ≤ k)
    (high : k < b.controlPoints.length)
    (clamped : min (max (b.u.getD degree 0) u) (b.u.getD b.controlPoints.length 0) = ub)
    (after : k = degree ∨ b.u.getD k 0 < ub) (reaches : ub ≤ b.u.getD (k + 1) 0) :
    b.evaluateDeBoor u = some (b.spanCurve k ub) := by
  have inside := regular.knots
  have found : knotSpan ub degree (b.u.drop (degree + 1)) = some k := by
    have present : (b.u.drop (degree + 1))[k - degree]? = some (b.u.getD (k + 1) 0) := by
      rw [List.getElem?_drop, show degree + 1 + (k - degree) = k + 1 by omega]
      exact getElem?_getD (by omega) 0
    have search := knotSpan_eq present reaches (by
      intro j earlier knot at_j
      rw [List.getElem?_drop] at at_j
      have value : knot = b.u.getD (degree + 1 + j) 0 := by
        rw [List.getD_eq_getElem?_getD, at_j]
        rfl
      rw [value]
      rcases after with first | passed
      · omega
      · exact (regular.knot_le (by omega) (by omega)).trans_lt passed) degree
    rw [search]
    congr 1
    omega
  rw [evaluateDeBoor, regular.entry_first, regular.entry_last]
  simp only [Option.bind_eq_bind, Option.bind_some, regular.toNat_p]
  rw [clamped, found, Option.bind_some, if_neg (by omega)]
  have last := deBoor_eq_net (fun i => b.u.getD i 0) ub low
    (fun i => b.controlPoints.getD (k - degree + i) 0) (r := degree) (j := 0) (by omega)
  rw [Nat.zero_add] at last
  have knots : b.spanKnots k = fun i => b.u.getD (k - degree + i) 0 := by
    funext i
    rw [spanKnots, regular.toNat_p]
  have points : b.spanPoints k = fun i => b.controlPoints.getD (k - degree + i) 0 := by
    funext i
    rw [spanPoints, regular.toNat_p]
  rw [last, spanCurve, knots, points, regular.toNat_p]
  rfl

theorem Regular.exists_span (regular : Regular degree b) (enough : degree < b.controlPoints.length)
    (u : K) : ∃ k ub, degree ≤ k ∧ k < b.controlPoints.length ∧ b.u.getD k 0 ≤ ub ∧
      ub ≤ b.u.getD (k + 1) 0 ∧ b.evaluateDeBoor u = some (b.spanCurve k ub) := by
  have inside := regular.knots
  let ub := min (max (b.u.getD degree 0) u) (b.u.getD b.controlPoints.length 0)
  have lower : b.u.getD degree 0 ≤ ub :=
    le_min (le_max_left _ _) (regular.knot_le enough.le (by omega))
  -- the first knot from `degree + 1` on that reaches `ub`
  have reached : ∃ k, degree ≤ k ∧ ub ≤ b.u.getD (k + 1) 0 := by
    refine ⟨b.controlPoints.length - 1, by omega, ?_⟩
    rw [Nat.sub_add_cancel (by omega)]
    exact min_le_right _ _
  have found := Nat.find_spec reached
  have first := fun j => Nat.find_min (H := reached) (m := j)
  have bound : Nat.find reached ≤ b.controlPoints.length - 1 := by
    apply Nat.find_min' reached
    refine ⟨by omega, ?_⟩
    rw [Nat.sub_add_cancel (by omega)]
    exact min_le_right _ _
  have after : Nat.find reached = degree ∨ b.u.getD (Nat.find reached) 0 < ub := by
    rcases found.1.eq_or_lt with same | later
    · exact .inl same.symm
    · right
      have before := first (Nat.find reached - 1) (by omega)
      rw [not_and, not_le, Nat.sub_add_cancel (by omega)] at before
      exact before (by omega)
  refine ⟨Nat.find reached, ub, found.1, by omega, ?_, found.2, ?_⟩
  · rcases after with same | later
    · rw [same]
      exact lower
    · exact later.le
  · exact regular.evaluateDeBoor_eq found.1 (by omega) rfl after found.2

theorem Regular.evaluateDeBoor_between (regular : Regular degree b) {u : K} {k : ℕ}
    (low : degree ≤ k) (high : k < b.controlPoints.length) (after : b.u.getD k 0 < u)
    (before : u < b.u.getD (k + 1) 0) : b.evaluateDeBoor u = some (b.spanCurve k u) := by
  have inside := regular.knots
  apply regular.evaluateDeBoor_eq low high _ (.inr after) before.le
  rw [max_eq_right ((regular.knot_le low (by omega)).trans after.le),
    min_eq_left (before.le.trans (regular.knot_le (by omega) (by omega)))]

theorem Regular.spanKnots_lt (regular : Regular degree b) {k i j : ℕ} (low : degree ≤ k)
    (high : k < b.controlPoints.length) (before : i < j) (bound : j ≤ 2 * degree) :
    b.spanKnots k i < b.spanKnots k j := by
  have inside := regular.knots
  rw [spanKnots, spanKnots, regular.toNat_p]
  exact regular.knot_lt (by omega) (by omega)

end Spans

end

section Derivative

variable {q : ℕ} {b : UniformBspline K}

theorem mapM_eq_map {α β : Type} {f : α → Option β} {g : α → β} {l : List α}
    (total : ∀ a ∈ l, f a = some (g a)) : l.mapM f = some (l.map g) := by
  induction l with
  | nil => rfl
  | cons head rest ih =>
      rw [List.mapM_cons, total head List.mem_cons_self,
        ih fun a member => total a (List.mem_cons_of_mem head member)]
      rfl

section

variable [Field K]

theorem nonempty_of_getDerivative {d : UniformBspline K} (derived : b.getDerivative = some d) :
    b.controlPoints ≠ [] := by
  intro none_left
  rw [getDerivative, getDerivativeControlPoints, none_left] at derived
  contradiction

/-- Column `i` of the control points of the derivative, with its reads inside. -/
def velocityPoint (b : UniformBspline K) (q i : ℕ) : Vec3 K :=
  ((((q : ℤ) + 1 : ℤ) : K) / (b.u.getD (i + q + 2) 0 - b.u.getD (i + 1) 0)) •
    (b.controlPoints.getD (i + 1) 0 - b.controlPoints.getD i 0)

end

section

variable [Field K] [LinearOrder K]

theorem Regular.derivativePoint_eq (regular : Regular (q + 1) b) {i : ℕ}
    (inside : i + 1 < b.controlPoints.length) :
    b.derivativePoint i = some (b.velocityPoint q i) := by
  have knots := regular.knots
  have degree : b.p = ((q : ℤ) + 1) := by rw [regular.p, Nat.cast_succ]
  have high : entry b.u (i + b.p + 1) = some (b.u.getD (i + q + 2) 0) := by
    rw [degree, show (i : ℤ) + (q + 1) + 1 = ((i + q + 2 : ℕ) : ℤ) by omega, entry_natCast]
    exact getElem?_getD (by omega) 0
  have low : entry b.u ((i : ℤ) + 1) = some (b.u.getD (i + 1) 0) := by
    rw [← Nat.cast_succ, entry_natCast]
    exact getElem?_getD (by omega) 0
  have next : entry b.controlPoints ((i : ℤ) + 1) = some (b.controlPoints.getD (i + 1) 0) := by
    rw [← Nat.cast_succ, entry_natCast]
    exact getElem?_getD inside 0
  have current : entry b.controlPoints (i : ℤ) = some (b.controlPoints.getD i 0) := by
    rw [entry_natCast]
    exact getElem?_getD (by omega) 0
  simp only [derivativePoint, current, next, high, low, Option.bind_eq_bind, Option.bind_some]
  rw [velocityPoint, degree]

/-- The spline that `getDerivative` returns. -/
def derivative (b : UniformBspline K) (q : ℕ) : UniformBspline K :=
  let ctp := (List.range (b.controlPoints.length - 1)).map (b.velocityPoint q)
  ⟨ctp, q, ctp.length - 1, ctp.length - 1 + q + 1, (b.u.drop 1).dropLast, b.interval⟩

theorem Regular.getDerivativeControlPoints_eq (regular : Regular (q + 1) b)
    (nonempty : b.controlPoints ≠ []) : b.getDerivativeControlPoints =
      some ((List.range (b.controlPoints.length - 1)).map (b.velocityPoint q)) := by
  have length := List.length_pos_iff.mpr nonempty
  rw [getDerivativeControlPoints, if_neg (by omega)]
  apply mapM_eq_map
  intro i member
  rw [List.mem_range] at member
  exact regular.derivativePoint_eq (by omega)

theorem Regular.getDerivative_eq (regular : Regular (q + 1) b) (nonempty : b.controlPoints ≠ []) :
    b.getDerivative = some (b.derivative q) := by
  have knots := regular.knots
  have length := List.length_pos_iff.mpr nonempty
  have columns := regular.getDerivativeControlPoints_eq nonempty
  have built := setKnot_setUniformBspline (show (0 : ℤ) ≤ q by omega)
    ((List.range (b.controlPoints.length - 1)).map (b.velocityPoint q)) b.interval
    ((b.u.drop 1).dropLast)
  rcases Option.map_eq_some_iff.mp built with ⟨uniform, made, same⟩
  have degree : b.p - 1 = (q : ℤ) := by
    rw [regular.p]
    omega
  simp only [getDerivative, columns, degree, made, Option.bind_eq_bind, Option.bind_some]
  rw [if_neg (by omega), same]
  rfl

theorem Regular.derivative (regular : Regular (q + 1) b) (nonempty : b.controlPoints ≠ []) :
    Regular q (b.derivative q) := by
  have knots := regular.knots
  have length := List.length_pos_iff.mpr nonempty
  refine ⟨rfl, ?_, ?_, ?_⟩
  · simp only [UniformBspline.derivative]
    omega
  · simp only [UniformBspline.derivative, List.length_map, List.length_range, List.length_dropLast,
      List.length_drop]
    omega
  · exact (regular.increasing.sublist (List.drop_sublist 1 _)).sublist (List.dropLast_sublist _)

theorem Regular.spanCurve_derivative (regular : Regular (q + 1) b) {k : ℕ} (low : q + 1 ≤ k)
    (high : k < b.controlPoints.length) (ub : K) :
    (b.derivative q).spanCurve (k - 1) ub = value (shift (b.spanKnots k)) ub q fun j =>
      ((q : K) + 1) • slopes (b.spanKnots k) (q + 1) (b.spanPoints k) j := by
  have knots := regular.knots
  have degree : (b.derivative q).p.toNat = q := Int.toNat_natCast q
  rw [spanCurve, value, value, degree]
  apply net_congr ub le_rfl
  · intro i _ bound
    rw [spanKnots, shift, spanKnots, degree, regular.toNat_p]
    have index : k - 1 - q + i = k - (q + 1) + i := by omega
    rw [index, UniformBspline.derivative, List.getD_eq_getElem?_getD, List.getElem?_dropLast,
      List.getD_eq_getElem?_getD, List.getElem?_drop, List.length_drop, if_pos (by omega)]
    congr 2
    omega
  · intro i _ bound
    have index : k - 1 - q + i = k - (q + 1) + i := by omega
    have present : (b.derivative q).controlPoints[k - (q + 1) + i]? =
        some (b.velocityPoint q (k - (q + 1) + i)) := by
      rw [UniformBspline.derivative, List.getElem?_map, List.getElem?_range (by omega)]
      rfl
    rw [spanPoints, degree, index, List.getD_eq_getElem?_getD, present, Option.getD_some,
      velocityPoint, slopes, smul_smul, div_eq_mul_inv]
    simp only [spanKnots, spanPoints, regular.toNat_p]
    congr 2
    · push_cast
      rfl
    · congr 3
      omega

end

variable [Field K]

@[simp] theorem length_derivative (b : UniformBspline K) (q : ℕ) :
    (b.derivative q).controlPoints.length = b.controlPoints.length - 1 := by
  simp [UniformBspline.derivative]

theorem knot_derivative (b : UniformBspline K) (q : ℕ) {i : ℕ} (inside : i + 2 < b.u.length) :
    (b.derivative q).u.getD i 0 = b.u.getD (i + 1) 0 := by
  rw [UniformBspline.derivative, List.getD_eq_getElem?_getD, List.getElem?_dropLast,
    List.getD_eq_getElem?_getD, List.getElem?_drop, List.length_drop, if_pos (by omega),
    Nat.add_comm 1 i]

end Derivative

section Reals

variable {q : ℕ} {b : UniformBspline ℝ} {u : ℝ}

/-- `u` lies strictly between two neighbouring knots of `[u_p, u_{m-p}]`. -/
def InsideSpan (b : UniformBspline ℝ) (u : ℝ) : Prop :=
  ∃ (k : ℕ) (low high : ℝ), b.p ≤ k ∧ (k : ℤ) < b.m - b.p ∧ b.u[k]? = some low ∧
    b.u[k + 1]? = some high ∧ low < u ∧ u < high

/-- Every evaluation ends, and at `u` it moves with the velocity. -/
structure MovesWith (b : UniformBspline ℝ) (velocity : Vec3 ℝ) (u : ℝ) : Prop where
  total : ∀ s, (b.evaluateDeBoor s).isSome
  derivative : ∀ axis,
    HasDerivAt (fun s => ((b.evaluateDeBoor s).getD 0).get axis) (velocity.get axis) u

theorem Regular.exists_of_insideSpan {degree : ℕ} (regular : Regular degree b)
    (inside : b.InsideSpan u) :
    ∃ k, degree ≤ k ∧ k < b.controlPoints.length ∧ b.u.getD k 0 < u ∧ u < b.u.getD (k + 1) 0 := by
  rcases inside with ⟨k, low, high, first, last, at_low, at_high, after, before⟩
  rw [regular.p] at first last
  rw [regular.m] at last
  refine ⟨k, by omega, by omega, ?_, ?_⟩
  · rwa [List.getD_eq_getElem?_getD, at_low]
  · rwa [List.getD_eq_getElem?_getD, at_high]

theorem Regular.isSome_evaluateDeBoor {degree : ℕ} (regular : Regular degree b)
    (enough : degree < b.controlPoints.length) (s : ℝ) : (b.evaluateDeBoor s).isSome := by
  rcases regular.exists_span enough s with ⟨k, ub, _, _, _, _, evaluated⟩
  rw [evaluated]
  rfl

theorem Regular.hasDerivAt_spanCurve (regular : Regular (q + 1) b) {k : ℕ} (low : q + 1 ≤ k)
    (high : k < b.controlPoints.length) (u : ℝ) (axis : Axis) :
    HasDerivAt (fun s => (b.spanCurve k s).get axis)
      (((b.derivative q).spanCurve (k - 1) u).get axis) u := by
  have distinct : Distinct (b.spanKnots k) (q + 1) := fun i j _ earlier bound =>
    (regular.spanKnots_lt low high earlier bound).ne
  have coordinate := hasDerivAt_value distinct u fun i => (b.spanPoints k i).get axis
  have velocity : ((b.derivative q).spanCurve (k - 1) u).get axis =
      value (shift (b.spanKnots k)) u q fun j => ((q : ℝ) + 1) •
        slopes (b.spanKnots k) (q + 1) (fun i => (b.spanPoints k i).get axis) j := by
    rw [regular.spanCurve_derivative low high]
    refine (map_net (Vec3.coordinate (α := ℝ) axis) _ _ _ _ _ _).trans ?_
    simp only [map_smul, slopes, map_sub]
    rfl
  simp only [get_spanCurve b, regular.toNat_p]
  rw [velocity]
  exact coordinate

theorem Regular.movesWith_derivative (regular : Regular (q + 1) b) (inside : b.InsideSpan u) :
    ∃ velocity, (b.derivative q).evaluateDeBoor u = some velocity ∧ b.MovesWith velocity u := by
  rcases regular.exists_of_insideSpan inside with ⟨k, low, high, after, before⟩
  have nonempty : b.controlPoints ≠ [] := List.ne_nil_of_length_pos (by omega)
  have knots := regular.knots
  have columns := length_derivative b q
  refine ⟨(b.derivative q).spanCurve (k - 1) u, ?_, ?_, ?_⟩
  · apply (regular.derivative nonempty).evaluateDeBoor_between (by omega) (by omega)
    · rw [knot_derivative b q (by omega), Nat.sub_add_cancel (by omega)]
      exact after
    · rw [knot_derivative b q (by omega), Nat.sub_add_cancel (by omega)]
      exact before
  · exact regular.isSome_evaluateDeBoor (by omega)
  · intro axis
    have coordinate := regular.hasDerivAt_spanCurve low high u axis
    apply coordinate.congr_of_eventuallyEq
    -- the span does not change close to `u`
    filter_upwards [Ioo_mem_nhds after before] with s between
    rw [regular.evaluateDeBoor_between low high between.1 between.2, Option.getD_some]

end Reals

end RobocupDrone.Planner.UniformBspline
