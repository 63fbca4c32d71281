import Mathlib.Algebra.Order.Field.Basic
import Mathlib.Tactic.Ring
import RobocupDrone.Library.Vec3

/-! `uniform_bspline.cpp` over an ordered field. `none` stands for an index out of range or a
matrix of negative size, on which Eigen stops the program; a division by zero gives zero. -/

namespace RobocupDrone.Planner

open Geometry

variable {K : Type}

section

variable [Field K]

/-- `UniformBspline`: degree `p`, `n + 1` control points and the knots `u`, of which an
evaluation uses those up to `m = n + p + 1`. -/
structure UniformBspline (K : Type) where
  controlPoints : List (Vec3 K)
  p : Int
  n : Int
  m : Int
  u : List K
  interval : K

def entry {α : Type} (v : List α) (i : Int) : Option α :=
  if 0 ≤ i then v[i.toNat]? else none

/-- The first `count` knots of the uniform spline. -/
def uniformKnots (p : Int) (interval : K) : Nat → Option (List K)
  | 0 => some []
  | i + 1 => do
      let u ← uniformKnots p interval i
      if (i : Int) ≤ p then some (u ++ [(-p + i : Int) * interval])
      else
        let previous ← entry u (i - 1)
        some (u ++ [previous + interval])

end

namespace UniformBspline

section

variable [Field K]

def setUniformBspline (points : List (Vec3 K)) (order : Int) (interval : K) :
    Option (UniformBspline K) := do
  let n : Int := points.length - 1
  let m := n + order + 1
  if m + 1 < 0 then none
  else
    let u ← uniformKnots order interval (m + 1).toNat
    some ⟨points, order, n, m, u, interval⟩

def setKnot (knot : List K) (b : UniformBspline K) : UniformBspline K := { b with u := knot }

theorem entry_natCast {α : Type} (v : List α) (i : Nat) : entry v i = v[i]? := by
  simp [entry]

theorem uniformKnots_length {p : Int} (nonneg : 0 ≤ p) (interval : K) (count : Nat) :
    ∃ u, uniformKnots p interval count = some u ∧ u.length = count := by
  induction count with
  | zero => exact ⟨[], rfl, rfl⟩
  | succ i ih =>
      rcases ih with ⟨u, made, length⟩
      simp only [uniformKnots, made, Option.bind_eq_bind, Option.bind_some]
      split_ifs with early
      · exact ⟨_, rfl, by simp [length]⟩
      · have previous : entry u ((i : Int) - 1) = some u[i - 1] := by
          have index : (i : Int) - 1 = ((i - 1 : Nat) : Int) := by omega
          rw [index, entry_natCast]
          exact List.getElem?_eq_getElem (by omega)
        rw [previous]
        exact ⟨_, rfl, by simp [length]⟩

theorem setKnot_setUniformBspline {order : Int} (nonneg : 0 ≤ order) (points : List (Vec3 K))
    (interval : K) (knot : List K) :
    (setUniformBspline points order interval).map (setKnot knot) =
      some ⟨points, order, points.length - 1, points.length - 1 + order + 1, knot, interval⟩ := by
  rcases uniformKnots_length nonneg interval
    ((points.length : Int) - 1 + order + 1 + 1).toNat with ⟨u, made, _⟩
  have size : ¬((points.length : Int) - 1 + order + 1 + 1 < 0) := by omega
  simp [setUniformBspline, size, made, setKnot]

theorem uniformKnots_minus_one (interval : K) (i : Nat) :
    uniformKnots (-1) interval (i + 1) = none := by
  induction i with
  | zero => simp [uniformKnots, entry]
  | succ i ih =>
      rw [uniformKnots, ih]
      rfl

theorem setUniformBspline_minus_one {points : List (Vec3 K)} (nonempty : 0 < points.length)
    (interval : K) : setUniformBspline points (-1) interval = none := by
  have size : ¬((points.length : Int) - 1 + -1 + 1 + 1 < 0) := by omega
  have count : ((points.length : Int) - 1 + -1 + 1 + 1).toNat = points.length - 1 + 1 := by omega
  simp only [setUniformBspline, size, if_false, count, uniformKnots_minus_one, Option.bind_eq_bind,
    Option.bind_none]

end

@[simp] theorem setKnot_u (knot : List K) (b : UniformBspline K) : (setKnot knot b).u = knot := rfl

@[simp] theorem setKnot_controlPoints (knot : List K) (b : UniformBspline K) :
    (setKnot knot b).controlPoints = b.controlPoints := rfl

section

variable [Field K] [LinearOrder K]

def getTimeSpan (b : UniformBspline K) : Option (Option (K × K)) :=
  if b.p > b.u.length ∨ b.m - b.p > b.u.length then some none
  else do
    let um ← entry b.u b.p
    let ump ← entry b.u (b.m - b.p)
    some (some (um, ump))

def getTimeSum (b : UniformBspline K) : Option K := do
  match ← b.getTimeSpan with
  | some (tm, tmp) => some (tmp - tm)
  | none => some (-1)

/-- The loop that looks for the span of `ub`, over the knots after `u(k)`. -/
def knotSpan (ub : K) : Nat → List K → Option Nat
  | _, [] => none
  | k, next :: rest => if next ≥ ub then some k else knotSpan ub (k + 1) rest

/-- One round of de Boor's algorithm on the points `d[0..p]`; `knot` reads the knots. -/
def deBoorRound (knot : Nat → K) (ub : K) (k p r : Nat) (d : Nat → Vec3 K) : Nat → Vec3 K :=
  fun i =>
    if r ≤ i then
      let alpha := (ub - knot (i + k - p)) / (knot (i + 1 + k - r) - knot (i + k - p))
      (1 - alpha) • d (i - 1) + alpha • d i
    else d i

/-- The points after the rounds `1` to `r`. -/
def deBoor (knot : Nat → K) (ub : K) (k p : Nat) (d : Nat → Vec3 K) : Nat → Nat → Vec3 K
  | 0 => d
  | r + 1 => deBoorRound knot ub k p (r + 1) (deBoor knot ub k p d r)

/-- The rounds read the knots up to `u[k + p]` and the control points up to `k`. -/
def evaluateDeBoor (b : UniformBspline K) (u : K) : Option (Vec3 K) := do
  let low ← entry b.u b.p
  let high ← entry b.u (b.m - b.p)
  let ub := min (max low u) high
  let p := b.p.toNat
  let k ← knotSpan ub p (b.u.drop (p + 1))
  if b.controlPoints.length ≤ k ∨ (0 < p ∧ b.u.length ≤ k + p) then none
  else
    let d := fun i => b.controlPoints.getD (k - p + i) 0
    some (deBoor (fun i => b.u.getD i 0) ub k p d p p)

def evaluateDeBoorT (b : UniformBspline K) (t : K) : Option (Vec3 K) := do
  let start ← entry b.u b.p
  b.evaluateDeBoor (t + start)

/-- Column `i` of the control points of the derivative. -/
def derivativePoint (b : UniformBspline K) (i : Nat) : Option (Vec3 K) := do
  let current ← entry b.controlPoints i
  let next ← entry b.controlPoints (i + 1)
  let high ← entry b.u (i + b.p + 1)
  let low ← entry b.u (i + 1)
  some (((b.p : K) / (high - low)) • (next - current))

def getDerivativeControlPoints (b : UniformBspline K) : Option (List (Vec3 K)) :=
  if b.controlPoints.length = 0 then none
  else (List.range (b.controlPoints.length - 1)).mapM b.derivativePoint

def getDerivative (b : UniformBspline K) : Option (UniformBspline K) := do
  let ctp ← b.getDerivativeControlPoints
  let derivative ← setUniformBspline ctp (b.p - 1) b.interval
  if b.u.length < 2 then none
  else some (derivative.setKnot (b.u.drop 1).dropLast)

/-- The span that an evaluation at `t` finds. -/
def spanAt (b : UniformBspline K) (t : K) : Option Nat := do
  let low ← entry b.u b.p
  let high ← entry b.u (b.m - b.p)
  knotSpan (min (max low (t + low)) high) b.p.toNat (b.u.drop (b.p.toNat + 1))

theorem evaluateDeBoorT_isSome_iff (b : UniformBspline K) (t : K) :
    (b.evaluateDeBoorT t).isSome ↔ ∃ k, b.spanAt t = some k ∧ k < b.controlPoints.length ∧
      (0 < b.p.toNat → k + b.p.toNat < b.u.length) := by
  unfold evaluateDeBoorT evaluateDeBoor spanAt
  cases low : entry b.u b.p with
  | none => simp
  | some start =>
      cases high : entry b.u (b.m - b.p) with
      | none => simp
      | some stop =>
          simp only [Option.bind_eq_bind, Option.bind_some]
          cases knotSpan (min (max start (t + start)) stop) b.p.toNat
              (b.u.drop (b.p.toNat + 1)) with
          | none => simp
          | some k =>
              simp only [Option.bind_some, Option.some.injEq, exists_eq_left']
              split_ifs with outside
              · simp only [Option.isSome_none, Bool.false_eq_true, false_iff]
                omega
              · simp only [Option.isSome_some, true_iff]
                omega

end

section

variable [Field K]

theorem deBoorRound_level (knot : Nat → K) (ub : K) (k p r : Nat) {d : Nat → Vec3 K} {height : K}
    (level : ∀ i ≤ p, (d i).z = height) :
    ∀ i ≤ p, (deBoorRound knot ub k p r d i).z = height := by
  intro i inside
  unfold deBoorRound
  split_ifs
  · simp only [Vec3.add_z, Vec3.smul_z, level i inside, level (i - 1) (by omega)]
    ring
  · exact level i inside

theorem deBoor_level (knot : Nat → K) (ub : K) (k p r : Nat) {d : Nat → Vec3 K} {height : K}
    (level : ∀ i ≤ p, (d i).z = height) : ∀ i ≤ p, (deBoor knot ub k p d r i).z = height := by
  induction r with
  | zero => exact level
  | succ r ih => exact deBoorRound_level knot ub k p (r + 1) ih

end

variable [LinearOrder K]

theorem knotSpan_bounds (ub : K) (knots : List K) (low : Nat) {k : Nat}
    (found : knotSpan ub low knots = some k) : low ≤ k := by
  induction knots generalizing low with
  | nil => simp [knotSpan] at found
  | cons next rest ih =>
      rw [knotSpan] at found
      split_ifs at found
      · simp only [Option.some.injEq] at found
        omega
      · have later := ih (low + 1) found
        omega

theorem knotSpan_reaches {ub next : K} {knots : List K} {index : Nat}
    (present : knots[index]? = some next) (reaches : ub ≤ next) (low : Nat) :
    ∃ k, knotSpan ub low knots = some k ∧ k ≤ low + index := by
  induction knots generalizing low index with
  | nil => simp at present
  | cons head rest ih =>
      rw [knotSpan]
      split_ifs with reached
      · exact ⟨low, rfl, by omega⟩
      · cases index with
        | zero =>
            rw [List.getElem?_cons_zero, Option.some.injEq] at present
            exact absurd (present ▸ reaches) reached
        | succ index =>
            rw [List.getElem?_cons_succ] at present
            rcases ih present (low + 1) with ⟨k, found, bound⟩
            exact ⟨k, found, by omega⟩

variable [Field K]

theorem evaluateDeBoorT_level {b : UniformBspline K} {height t : K} {point : Vec3 K}
    (level : ∀ c ∈ b.controlPoints, c.z = height)
    (evaluated : b.evaluateDeBoorT t = some point) : point.z = height := by
  simp only [evaluateDeBoorT, evaluateDeBoor, Option.bind_eq_bind, Option.bind_eq_some_iff]
    at evaluated
  obtain ⟨start, -, low, -, high, -, k, span, value⟩ := evaluated
  split_ifs at value with outside
  have inside : k < b.controlPoints.length := by omega
  have above := knotSpan_bounds _ _ _ span
  rw [← Option.some.inj value]
  apply deBoor_level _ _ _ _ _ _ _ le_rfl
  intro i bound
  have member : k - b.p.toNat + i < b.controlPoints.length := by omega
  simp only [List.getD, List.getElem?_eq_getElem member, Option.getD_some]
  exact level _ (List.getElem_mem member)

theorem spanAt_inside {b : UniformBspline K} {degree : Nat} (isDegree : b.p = degree)
    (last : b.m = b.controlPoints.length + degree) (enough : degree < b.controlPoints.length)
    (knots : b.controlPoints.length < b.u.length) (t : K) :
    ∃ k, b.spanAt t = some k ∧ k < b.controlPoints.length := by
  have first : b.u[degree]? = some b.u[degree] := List.getElem?_eq_getElem (by omega)
  have final : b.u[b.controlPoints.length]? = some b.u[b.controlPoints.length] :=
    List.getElem?_eq_getElem knots
  have index : b.m - b.p = (b.controlPoints.length : Int) := by omega
  have present : (b.u.drop (degree + 1))[b.controlPoints.length - (degree + 1)]? =
      some b.u[b.controlPoints.length] := by
    rw [List.getElem?_drop, ← final]
    congr 1
    omega
  rcases knotSpan_reaches present
    (min_le_right (max b.u[degree] (t + b.u[degree])) _) degree with ⟨k, found, bound⟩
  refine ⟨k, ?_, by omega⟩
  unfold spanAt
  rw [index, isDegree, entry_natCast, entry_natCast, first, final]
  exact found

end UniformBspline

end RobocupDrone.Planner
