import Mathlib.Data.List.GetD
import RobocupDrone.Optimizer.Gradients

/-! `combineCostRebound` and `combineCostRefine`: the weighted sums that the solver minimises, over
the entries of the control points that it may move. -/

namespace RobocupDrone.Optimizer

open Geometry Planner Gradient

section Costs

variable {K : Type} [Field K] [LinearOrder K]

structure ControlPoints (K : Type) where
  clearance : K
  points : List (Vec3 K)
  bounds : List (List (Bound K))

/-- The members that the combined costs read. -/
structure OptimizerInput (K : Type) extends SwarmInput K where
  lambda1 : K
  lambda2 : K
  newLambda2 : K
  lambda3 : K
  lambda4 : K
  maxVel : K
  maxAcc : K
  localTargetPt : Vec3 K
  refPts : List (Vec3 K)

def reboundStep (check : ControlPoints K → ControlPoints K) (order iterNum : ℕ)
    (smoothnessCost : K) (cps : ControlPoints K) : ControlPoints K :=
  if iterNum > 3 ∧ smoothnessCost / (((cps.points.length : ℤ) - 2 * order : ℤ) : K) < 0.1 then
    check cps
  else cps

def calcDistanceCostRebound (check : ControlPoints K → ControlPoints K) (order iterNum : ℕ)
    (smoothnessCost : K) (cps : ControlPoints K) (gradient : ℕ → Vec3 K) :
    ControlPoints K × Accumulator K :=
  let checked := reboundStep check order iterNum smoothnessCost cps
  (checked, distanceCost checked.clearance order checked.bounds checked.points gradient)

def axisIndex : Axis → ℕ
  | .x => 0
  | .y => 1
  | .z => 2

def axisOf : ℕ → Axis
  | 0 => .x
  | 1 => .y
  | _ => .z

/-- `data()[f]` of a matrix with the columns `g`. -/
def dataEntry (g : ℕ → Vec3 K) (f : ℕ) : K := (g (f / 3)).get (axisOf (f % 3))

def writeData {n : ℕ} (points : List (Vec3 K)) (start : ℕ) (x : Fin n → K) : List (Vec3 K) :=
  (List.range points.length).map fun j => Vec3.ofAxes fun axis =>
    if inside : start ≤ 3 * j + axisIndex axis ∧ 3 * j + axisIndex axis < start + n then
      x ⟨3 * j + axisIndex axis - start, by omega⟩
    else (col points j).get axis

/-- What a combined cost leaves behind. -/
structure Combined (K : Type) (n : ℕ) where
  cps : ControlPoints K
  fCombine : K
  grad : Fin n → K

/-- The second component is `min_ellip_dist_`. -/
def combineCostRebound {n : ℕ} (sqrt : K → K) (check : ControlPoints K → ControlPoints K)
    (inp : OptimizerInput K) (iterNum : ℕ) (minEllipDist : K) (cps : ControlPoints K)
    (x : Fin n → K) : Option (Combined K n × K) :=
  if 3 * cps.points.length < 3 * inp.order + n then none
  else do
    let q := writeData cps.points (3 * inp.order) x
    let smoothness := calcSmoothnessCost q true 0
    let (checked, distance) := calcDistanceCostRebound check inp.order iterNum smoothness.cost
      { cps with points := q } 0
    let feasibility := calcFeasibilityCost inp.maxVel inp.maxAcc inp.bsplineInterval q 0
    let swarm ← calcSwarmCost sqrt inp.toSwarmInput q 0 minEllipDist
    let terminal ← calcTerminalCost inp.localTargetPt q 0
    let fCombine := inp.lambda1 * smoothness.cost + inp.newLambda2 * distance.cost +
      inp.lambda3 * feasibility.cost + inp.newLambda2 * swarm.cost + inp.lambda2 * terminal.cost
    let grad3D := inp.lambda1 • smoothness.gradient + inp.newLambda2 • distance.gradient +
      inp.lambda3 • feasibility.gradient + inp.newLambda2 • swarm.gradient +
        inp.lambda2 • terminal.gradient
    some (⟨checked, fCombine, fun k => dataEntry grad3D (3 * inp.order + k)⟩, swarm.minEllipDist)

def combineCostRefine {n : ℕ} (sqrt : K → K) (inp : OptimizerInput K) (cps : ControlPoints K)
    (x : Fin n → K) : Option (Combined K n) :=
  if 3 * cps.points.length < 3 * inp.order + n then none
  else do
    let q := writeData cps.points (3 * inp.order) x
    let smoothness := calcSmoothnessCost q true 0
    let fitness ← calcFitnessCost sqrt inp.order inp.refPts q 0
    let feasibility := calcFeasibilityCost inp.maxVel inp.maxAcc inp.bsplineInterval q 0
    let fCombine := inp.lambda1 * smoothness.cost + inp.lambda4 * fitness.cost +
      inp.lambda3 * feasibility.cost
    let grad3D := inp.lambda1 • smoothness.gradient + inp.lambda4 • fitness.gradient +
      inp.lambda3 • feasibility.gradient
    some ⟨{ cps with points := q }, fCombine, fun k => dataEntry grad3D (3 * inp.order + k)⟩

end Costs

section Partials

def setEntry {K : Type} [Field K] (q : List (Vec3 K)) (j : ℕ) (axis : Axis) (c : K) :
    List (Vec3 K) :=
  q.set j (Vec3.ofAxes fun other => if other = axis then c else (q.getD j 0).get other)

/-- The columns of `g` are the partial derivatives of the cost at `q`. -/
def Partials (cost : List (Vec3 ℝ) → ℝ) (q : List (Vec3 ℝ)) (g : ℕ → Vec3 ℝ) : Prop :=
  ∀ j < q.length, ∀ axis,
    HasDerivAt (fun c => cost (setEntry q j axis c)) ((g j).get axis) ((col q j).get axis)

def returnedCost (result : Option (Accumulator ℝ)) : ℝ := (result.map Accumulator.cost).getD 0

variable {q : List (Vec3 ℝ)} {j : ℕ}

theorem setEntry_self (inside : j < q.length) (axis : Axis) :
    setEntry q j axis ((col q j).get axis) = q := by
  have same : (Vec3.ofAxes fun other => if other = axis then (col q j).get axis
      else (q.getD j 0).get other) = q[j] := by
    apply Vec3.ext_get
    intro other
    rw [Vec3.get_ofAxes, col, List.getD_eq_getElem _ _ inside]
    split_ifs with here
    · rw [here]
    · rfl
  rw [setEntry, same, List.set_getElem_self]

def entryMoves (j : ℕ) (axis : Axis) (k : ℕ) (other : Axis) : ℝ →L[ℝ] ℝ :=
  if k = j ∧ other = axis then ContinuousLinearMap.id ℝ ℝ else 0

theorem setEntry_moves (inside : j < q.length) (axis : Axis) :
    PointsMove (setEntry q j axis) q.length (entryMoves j axis) ((col q j).get axis) := by
  refine ⟨fun c => by simp [setEntry], ?_⟩
  intro k bound other
  by_cases here : k = j ∧ other = axis
  · obtain ⟨rfl, rfl⟩ := here
    have entry : ∀ c, (col (setEntry q k other c) k).get other = c := by
      intro c
      rw [col, setEntry, List.getD_eq_getElem _ _ (by rwa [List.length_set]),
        List.getElem_set_self, Vec3.get_ofAxes, if_pos rfl]
    simp only [entry, entryMoves, and_self, if_true]
    exact hasFDerivAt_id _
  · have entry : ∀ c, (col (setEntry q j axis c) k).get other = (col q k).get other := by
      intro c
      rw [col, setEntry, List.getD_eq_getElem _ _ (by rwa [List.length_set]), List.getElem_set,
        col, List.getD_eq_getElem _ _ bound]
      split_ifs with same
      · subst same
        rw [Vec3.get_ofAxes, if_neg fun different => here ⟨rfl, different⟩,
          List.getD_eq_getElem _ _ bound]
      · rfl
    simp only [entry, entryMoves, if_neg here]
    exact hasFDerivAt_const _ _

theorem pairedColumns_entryMoves {n : ℕ} (inside : j < n) (axis : Axis) (g : ℕ → Vec3 ℝ) :
    pairedColumns n g (entryMoves j axis) 1 = (g j).get axis := by
  have single : pairedColumns n g (entryMoves j axis) =
      (g j).get axis • ContinuousLinearMap.id ℝ ℝ := by
    rw [pairedColumns, Finset.sum_eq_single j]
    · cases axis <;> simp [paired, entryMoves]
    · intro k _ other
      simp [paired, entryMoves, other]
    · intro outside
      exact absurd (Finset.mem_range.mpr inside) outside
  rw [single]
  simp

theorem Tracks.hasDerivAt_entry {axis : Axis} {start : ℕ → Vec3 ℝ} {S : ℝ → Accumulator ℝ}
    (inside : j < q.length)
    (tracks : Tracks q.length (entryMoves j axis) ((col q j).get axis) start S) :
    HasDerivAt (fun c => (S c).cost) (((S ((col q j).get axis)).gradient j - start j).get axis)
      ((col q j).get axis) := by
  have derivative := HasFDerivAt.hasDerivAt tracks
  rwa [pairedColumns_entryMoves inside axis] at derivative

end Partials

section Data

variable {n : ℕ}

def dataMoves (start n j : ℕ) (axis : Axis) : (Fin n → ℝ) →L[ℝ] ℝ :=
  if inside : start ≤ 3 * j + axisIndex axis ∧ 3 * j + axisIndex axis < start + n then
    ContinuousLinearMap.proj ⟨3 * j + axisIndex axis - start, by omega⟩
  else 0

theorem writeData_moves (points : List (Vec3 ℝ)) (start : ℕ) (x : Fin n → ℝ) :
    PointsMove (writeData points start) points.length (dataMoves start n) x := by
  refine ⟨fun y => by simp [writeData], ?_⟩
  intro j bound axis
  have entry : ∀ y : Fin n → ℝ, (col (writeData points start y) j).get axis =
      if inside : start ≤ 3 * j + axisIndex axis ∧ 3 * j + axisIndex axis < start + n then
        y ⟨3 * j + axisIndex axis - start, by omega⟩
      else (col points j).get axis := by
    intro y
    rw [col, writeData, List.getD_eq_getElem _ _ (by simpa using bound), List.getElem_map,
      List.getElem_range, Vec3.get_ofAxes]
  simp only [entry, dataMoves]
  split_ifs with inside
  · exact hasFDerivAt_apply _ x
  · exact hasFDerivAt_const _ x

def dataTerm (g : ℕ → Vec3 ℝ) (start n f : ℕ) : (Fin n → ℝ) →L[ℝ] ℝ :=
  if inside : start ≤ f ∧ f < start + n then
    alongEntry (dataEntry g f) ⟨f - start, by omega⟩
  else 0

theorem paired_dataMoves (g : ℕ → Vec3 ℝ) (start n j : ℕ) :
    paired (g j) (dataMoves start n j) =
      dataTerm g start n (3 * j) + dataTerm g start n (3 * j + 1) +
        dataTerm g start n (3 * j + 2) := by
  have term : ∀ axis, (g j).get axis • dataMoves start n j axis =
      dataTerm g start n (3 * j + axisIndex axis) := by
    intro axis
    have small : axisIndex axis < 3 := by cases axis <;> decide
    have named : axisOf (axisIndex axis) = axis := by cases axis <;> rfl
    have column : (3 * j + axisIndex axis) / 3 = j := by omega
    have row : (3 * j + axisIndex axis) % 3 = axisIndex axis := by omega
    simp only [dataMoves, dataTerm, dataEntry, column, row, named]
    split_ifs
    · rfl
    · rw [smul_zero]
  rw [paired, term, term, term]
  rfl

theorem sum_columns {M : Type*} [AddCommMonoid M] (h : ℕ → M) (m : ℕ) :
    ∑ j ∈ Finset.range m, (h (3 * j) + h (3 * j + 1) + h (3 * j + 2)) =
      ∑ f ∈ Finset.range (3 * m), h f := by
  induction m with
  | zero => rfl
  | succ m ih =>
      rw [Finset.sum_range_succ, ih, Nat.mul_succ, Finset.sum_range_succ, Finset.sum_range_succ,
        Finset.sum_range_succ]
      abel

theorem pairedColumns_dataMoves {start m : ℕ} (fits : start + n ≤ 3 * m) (g : ℕ → Vec3 ℝ) :
    pairedColumns m g (dataMoves start n) = ofEntries fun k => dataEntry g (start + k) := by
  have window : Finset.Ico start (start + n) ⊆ Finset.range (3 * m) := by
    intro f member
    rw [Finset.mem_Ico] at member
    exact Finset.mem_range.mpr (by omega)
  have outside : ∀ f ∈ Finset.range (3 * m), f ∉ Finset.Ico start (start + n) →
      dataTerm g start n f = 0 := by
    intro f _ apart
    rw [Finset.mem_Ico] at apart
    rw [dataTerm, dif_neg apart]
  simp only [pairedColumns, paired_dataMoves]
  rw [sum_columns, ← Finset.sum_subset window outside, Finset.sum_Ico_eq_sum_range,
    Nat.add_sub_cancel_left, ← Fin.sum_univ_eq_sum_range (fun k => dataTerm g start n (start + k))]
  refine Finset.sum_congr rfl ?_
  intro k _
  rw [dataTerm, dif_pos (by omega)]
  congr 2
  exact Nat.add_sub_cancel_left start k

end Data

end RobocupDrone.Optimizer
