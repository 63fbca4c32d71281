import Mathlib.Analysis.Calculus.Deriv.MeanValue
import RobocupDrone.Planner.SplineCurve

/-! How far a spline moves: its speed bounds the distance between two of its points, and is bounded
by the distances between points close together. -/

namespace RobocupDrone.Planner.UniformBspline

open Geometry DeBoor Filter Topology

section Spans

variable {K : Type} [Field K] [LinearOrder K] {q : ℕ} {b : UniformBspline K}

def place (b : UniformBspline K) (t : K) : Vec3 K := (b.evaluateDeBoor t).getD 0

theorem Regular.spanCurve_join (regular : Regular (q + 1) b) {k : ℕ} (low : q + 1 ≤ k)
    (high : k + 1 < b.controlPoints.length) :
    b.spanCurve (k + 1) (b.u.getD (k + 1) 0) = b.spanCurve k (b.u.getD (k + 1) 0) := by
  have inside := regular.knots
  have later : ∀ i, b.spanKnots (k + 1) i = shift (b.spanKnots k) i := by
    intro i
    rw [shift, spanKnots, spanKnots, regular.toNat_p]
    congr 1
    omega
  have points : ∀ i, b.spanPoints (k + 1) i = b.spanPoints k (i + 1) := by
    intro i
    rw [spanPoints, spanPoints, regular.toNat_p]
    congr 1
    omega
  have knot : b.spanKnots k (q + 2) = b.u.getD (k + 1) 0 := by
    rw [spanKnots, regular.toNat_p]
    congr 1
    omega
  have apart : b.spanKnots k (q + 1) ≠ b.spanKnots k (q + 2) :=
    (regular.spanKnots_lt low (by omega) (by omega) (by omega)).ne
  have meet := value_join apart (b.spanPoints k)
  rw [knot] at meet
  rw [spanCurve, spanCurve, regular.toNat_p, ← meet]
  congr 1
  · funext i
    exact later i
  · funext i
    exact points i

theorem Regular.evaluateDeBoor_on (regular : Regular (q + 1) b) {u : K} {k : ℕ} (low : q + 1 ≤ k)
    (high : k < b.controlPoints.length) (after : b.u.getD k 0 ≤ u)
    (before : u ≤ b.u.getD (k + 1) 0) : b.evaluateDeBoor u = some (b.spanCurve k u) := by
  have inside := regular.knots
  have clamped : min (max (b.u.getD (q + 1) 0) u) (b.u.getD b.controlPoints.length 0) = u := by
    have first := regular.knot_le low (by omega)
    have last := regular.knot_le (show k + 1 ≤ b.controlPoints.length by omega) (by omega)
    rw [max_eq_right (first.trans after)]
    exact min_eq_left (before.trans last)
  rcases after.eq_or_lt with rfl | later
  · rcases low.eq_or_lt with rfl | more
    · exact regular.evaluateDeBoor_eq le_rfl high clamped (.inl rfl) before
    · -- the search ends in the span before the knot
      obtain ⟨k, rfl⟩ : ∃ previous, k = previous + 1 := ⟨k - 1, by omega⟩
      rw [regular.spanCurve_join (by omega) high]
      exact regular.evaluateDeBoor_eq (by omega) (by omega) clamped
        (.inr (regular.knot_lt (Nat.lt_succ_self k) (by omega))) le_rfl
  · exact regular.evaluateDeBoor_eq low high clamped (.inr later) before

end Spans

section Reals

variable {q : ℕ} {b : UniformBspline ℝ}

theorem sub_le_of_spans {knot : ℕ → ℝ} {f : ℝ → ℝ} {C last : ℝ} {m n : ℕ} (order : m ≤ n)
    (sorted : ∀ k, m ≤ k → k < n → knot k ≤ knot (k + 1))
    (spans : ∀ k, m ≤ k → k < n → ∀ s t, knot k ≤ s → s ≤ t → t ≤ knot (k + 1) → t ≤ last →
      f t - f s ≤ C * (t - s)) {s t : ℝ} (low : knot m ≤ s) (between : s ≤ t)
    (high : t ≤ knot n) (bound : t ≤ last) : f t - f s ≤ C * (t - s) := by
  induction n, order using Nat.le_induction generalizing s t with
  | base =>
      have same : s = t := le_antisymm between (high.trans low)
      rw [same, sub_self, sub_self, mul_zero]
  | succ n order ih =>
      have earlier : ∀ {s t}, knot m ≤ s → s ≤ t → t ≤ knot n → t ≤ last →
          f t - f s ≤ C * (t - s) := fun low between high bound =>
        ih (fun k first before => sorted k first (by omega))
          (fun k first before => spans k first (by omega)) low between high bound
      rcases le_total t (knot n) with inside | beyond
      · exact earlier low between inside bound
      · rcases le_total (knot n) s with after | before
        · exact spans n order (Nat.lt_succ_self n) s t after between high bound
        · have first := earlier low before le_rfl (beyond.trans bound)
          have second := spans n order (Nat.lt_succ_self n) (knot n) t le_rfl beyond high bound
          linarith

theorem Regular.velocity_on (regular : Regular (q + 2) b) {t : ℝ} {k : ℕ} (low : q + 2 ≤ k)
    (high : k < b.controlPoints.length) (after : b.u.getD k 0 ≤ t)
    (before : t ≤ b.u.getD (k + 1) 0) :
    (b.derivative (q + 1)).place t = (b.derivative (q + 1)).spanCurve (k - 1) t := by
  have knots := regular.knots
  have derived := regular.derivative (List.ne_nil_of_length_pos (by omega))
  have columns := length_derivative b (q + 1)
  have evaluated := derived.evaluateDeBoor_on (k := k - 1) (u := t) (by omega) (by omega)
    (by rwa [knot_derivative b _ (by omega), Nat.sub_add_cancel (by omega)])
    (by rwa [knot_derivative b _ (by omega), Nat.sub_add_cancel (by omega)])
  rw [place, evaluated, Option.getD_some]

theorem Regular.place_on (regular : Regular (q + 2) b) {t : ℝ} {k : ℕ} (low : q + 2 ≤ k)
    (high : k < b.controlPoints.length) (after : b.u.getD k 0 ≤ t)
    (before : t ≤ b.u.getD (k + 1) 0) : b.place t = b.spanCurve k t := by
  rw [place, regular.evaluateDeBoor_on low high after before, Option.getD_some]

theorem Regular.hasDerivAt_dot (regular : Regular (q + 2) b) {k : ℕ} (low : q + 2 ≤ k)
    (high : k < b.controlPoints.length) (t : ℝ) (w : Vec3 ℝ) :
    HasDerivAt (fun s => (b.spanCurve k s).dot w)
      (((b.derivative (q + 1)).spanCurve (k - 1) t).dot w) t := by
  have on_x := regular.hasDerivAt_spanCurve low high t .x
  have on_y := regular.hasDerivAt_spanCurve low high t .y
  have on_z := regular.hasDerivAt_spanCurve low high t .z
  exact ((on_x.mul_const w.x).add (on_y.mul_const w.y)).add (on_z.mul_const w.z)

theorem Regular.dot_sub_le (regular : Regular (q + 2) b) {C last : ℝ}
    (slow : ∀ r, b.u.getD (q + 2) 0 ≤ r → r < last →
      ((b.derivative (q + 1)).place r).lengthBy Real.sqrt ≤ C) (w : Vec3 ℝ) {k : ℕ}
    (first : q + 2 ≤ k) (before : k < b.controlPoints.length) {s t : ℝ} (low : b.u.getD k 0 ≤ s)
    (between : s ≤ t) (high : t ≤ b.u.getD (k + 1) 0) (bound : t ≤ last) :
    (b.place t).dot w - (b.place s).dot w ≤ C * w.lengthBy Real.sqrt * (t - s) := by
  have knots := regular.knots
  rw [regular.place_on first before (low.trans between) high,
    regular.place_on first before low (between.trans high)]
  have moves := fun r => regular.hasDerivAt_dot first before r w
  refine Convex.image_sub_le_mul_sub_of_deriv_le (convex_Icc s t)
    (fun r _ => (moves r).continuousAt.continuousWithinAt)
    (fun r _ => (moves r).differentiableAt.differentiableWithinAt) ?_ s
    (Set.left_mem_Icc.mpr between) t (Set.right_mem_Icc.mpr between) between
  intro r inside
  rw [interior_Icc] at inside
  have start := regular.knot_le first (by omega)
  have speed := slow r (by linarith [inside.1]) (by linarith [inside.2])
  rw [regular.velocity_on first before (by linarith [inside.1]) (by linarith [inside.2])] at speed
  rw [(moves r).deriv]
  exact (Vec3.dot_le_lengthBy_mul Vec3.isSqrt_sqrt _ w).trans
    (mul_le_mul_of_nonneg_right speed (Vec3.lengthBy_nonneg Vec3.isSqrt_sqrt w))

theorem Regular.lengthBy_sub_le (regular : Regular (q + 2) b)
    (enough : q + 2 < b.controlPoints.length) {C last : ℝ}
    (last_inside : last ≤ b.u.getD b.controlPoints.length 0)
    (slow : ∀ r, b.u.getD (q + 2) 0 ≤ r → r < last →
      ((b.derivative (q + 1)).place r).lengthBy Real.sqrt ≤ C) {s t : ℝ}
    (low : b.u.getD (q + 2) 0 ≤ s) (between : s ≤ t) (high : t ≤ last) :
    (b.place t - b.place s).lengthBy Real.sqrt ≤ C * (t - s) := by
  have knots := regular.knots
  let w := b.place t - b.place s
  have way := sub_le_of_spans (f := fun r => (b.place r).dot w) (C := C * w.lengthBy Real.sqrt)
    enough.le (fun k _ before => regular.knot_le (Nat.le_succ k) (by omega))
    (fun k first before s t low between high bound =>
      regular.dot_sub_le slow w first before low between high bound)
    low between (high.trans last_inside) high
  rw [← Vec3.sub_dot] at way
  have square : w.lengthBy Real.sqrt * w.lengthBy Real.sqrt ≤
      C * (t - s) * w.lengthBy Real.sqrt := by
    rw [Vec3.lengthBy_mul_self Vec3.isSqrt_sqrt]
    exact way.trans_eq (mul_right_comm _ _ _)
  rcases (Vec3.lengthBy_nonneg Vec3.isSqrt_sqrt w).eq_or_lt with still | moved
  · rw [← still]
    rcases between.eq_or_lt with rfl | later
    · rw [sub_self, mul_zero]
    · have speed := slow s low (later.trans_le high)
      have bound := (Vec3.lengthBy_nonneg Vec3.isSqrt_sqrt _).trans speed
      exact mul_nonneg bound (sub_nonneg.mpr between)
  · exact le_of_mul_le_mul_right square moved

theorem exists_span_of_mem (knot : ℕ → ℝ) {m n : ℕ} (order : m ≤ n) {t : ℝ} (low : knot m ≤ t)
    (high : t < knot n) : ∃ k, m ≤ k ∧ k < n ∧ knot k ≤ t ∧ t < knot (k + 1) := by
  induction n, order using Nat.le_induction with
  | base => exact absurd high (not_lt.mpr low)
  | succ n order ih =>
      rcases lt_or_ge t (knot n) with before | after
      · rcases ih before with ⟨k, first, last, around⟩
        exact ⟨k, first, by omega, around⟩
      · exact ⟨n, order, Nat.lt_succ_self n, after, high⟩

/-- Ways that are no longer than `C` for each unit of time, towards arbitrarily close times, bound
the speed. -/
theorem Regular.lengthBy_velocity_le (regular : Regular (q + 2) b)
    (enough : q + 2 < b.controlPoints.length) {C t : ℝ} (nonneg : 0 ≤ C)
    (low : b.u.getD (q + 2) 0 ≤ t) (high : t < b.u.getD b.controlPoints.length 0) {h : ℕ → ℝ}
    (positive : ∀ n, 0 < h n) (vanishes : Tendsto h atTop (𝓝 0))
    (close : ∀ᶠ n in atTop, (b.place (t + h n) - b.place t).lengthBy Real.sqrt ≤ C * h n) :
    ((b.derivative (q + 1)).place t).lengthBy Real.sqrt ≤ C := by
  rcases exists_span_of_mem (fun i => b.u.getD i 0) enough.le low high with
    ⟨k, first, last, after, before⟩
  have slopes : ∀ axis, Tendsto
      (fun n => (h n)⁻¹ * ((b.spanCurve k (t + h n)).get axis - (b.spanCurve k t).get axis)) atTop
      (𝓝 (((b.derivative (q + 1)).spanCurve (k - 1) t).get axis)) := fun axis =>
    (regular.hasDerivAt_spanCurve first last t axis).tendsto_slope_zero.comp
      (tendsto_nhdsWithin_iff.mpr ⟨vanishes, .of_forall fun n => (positive n).ne'⟩)
  have squares := (((slopes .x).mul (slopes .x)).add ((slopes .y).mul (slopes .y))).add
    ((slopes .z).mul (slopes .z))
  rw [regular.velocity_on first last after before.le,
    Vec3.lengthBy_le_iff Vec3.isSqrt_sqrt _ nonneg]
  refine le_of_tendsto squares ?_
  have near : ∀ᶠ n in atTop, h n < b.u.getD (k + 1) 0 - t :=
    vanishes.eventually_lt_const (sub_pos.mpr before)
  filter_upwards [close, near] with n way inside
  have step := positive n
  rw [regular.place_on first last after before.le,
    regular.place_on first last (by linarith) (by linarith),
    Vec3.lengthBy_le_iff Vec3.isSqrt_sqrt _ (mul_nonneg nonneg step.le)] at way
  have scaled : (h n)⁻¹ * (h n)⁻¹ * (b.spanCurve k (t + h n) - b.spanCurve k t).normSq ≤
      C * C := by
    rw [← mul_inv, inv_mul_le_iff₀ (mul_pos step step)]
    linarith
  have split : ∀ v w : Vec3 ℝ, (v - w).normSq = (v.get .x - w.get .x) * (v.get .x - w.get .x) +
      (v.get .y - w.get .y) * (v.get .y - w.get .y) +
        (v.get .z - w.get .z) * (v.get .z - w.get .z) := fun _ _ => rfl
  rw [split] at scaled
  refine le_trans (le_of_eq ?_) scaled
  ring

end Reals

end RobocupDrone.Planner.UniformBspline
