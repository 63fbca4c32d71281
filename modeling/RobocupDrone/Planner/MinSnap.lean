import Mathlib.Data.Matrix.Mul
import Mathlib.LinearAlgebra.Matrix.NonsingularInverse
import Mathlib.Tactic.LinearCombination
import RobocupDrone.Planner.PolynomialTraj

/-! `PolynomialTraj::minSnapTraj`, over an exact field. -/

namespace RobocupDrone.Planner.PolynomialTraj

open Geometry

variable {K : Type} [Field K]

abbrev Inverse (K : Type) := ∀ {n : ℕ}, Matrix (Fin n) (Fin n) K → Matrix (Fin n) (Fin n) K

/-- Entry `i` of `Dx`, `Dy` or `Dz`, for `m` segments. -/
def endPointDerivative (pos : ℕ → K) (startVel endVel startAcc endAcc : K) (m i : ℕ) : K :=
  let k := i / 6
  match i % 6 with
  | 0 => pos k
  | 1 => pos (k + 1)
  | 2 => if k = 0 then startVel else 0
  | 3 => if k = 0 then 0 else if k = m - 1 then endVel else 0
  | 4 => if k = 0 then startAcc else 0
  | _ => if k = 0 then 0 else if k = m - 1 then endAcc else 0

/-- `Ab`: the even rows are the derivatives at the start of a segment, the odd ones those at its
end. -/
def segmentRow (time : K) (row j : ℕ) : K :=
  let i := row / 2
  if row % 2 = 0 then if j = i then (i.factorial : K) else 0
  else if i ≤ j then ((j.factorial / (j - i).factorial : ℕ) : K) * time ^ (j - i) else 0

def mappingMatrix (time : List K) : Matrix (Fin (6 * time.length)) (Fin (6 * time.length)) K :=
  fun i j =>
    if (i : ℕ) / 6 = j / 6 then segmentRow (time.getD (i / 6) 0) (i % 6) (j % 6) else 0

def selectionEntries (m : ℕ) : List (ℕ × ℕ) :=
  [(0, 0), (2, 1), (4, 2), (1, 3), (3, 2 * m + 4), (5, 2 * m + 5)] ++
    [(6 * (m - 1) + 0, 2 * m + 0), (6 * (m - 1) + 1, 2 * m + 1), (6 * (m - 1) + 2, 4 * m + 0),
      (6 * (m - 1) + 3, 2 * m + 2), (6 * (m - 1) + 4, 4 * m + 1),
      (6 * (m - 1) + 5, 2 * m + 3)] ++
    (List.range' 2 (m - 2)).flatMap fun j =>
      [(6 * (j - 1) + 0, 2 + 2 * (j - 1) + 0), (6 * (j - 1) + 1, 2 + 2 * (j - 1) + 1),
        (6 * (j - 1) + 2, 2 * m + 4 + 2 * (j - 2) + 0),
        (6 * (j - 1) + 3, 2 * m + 4 + 2 * (j - 1) + 0),
        (6 * (j - 1) + 4, 2 * m + 4 + 2 * (j - 2) + 1),
        (6 * (j - 1) + 5, 2 * m + 4 + 2 * (j - 1) + 1)]

def selectionMatrix (m : ℕ) : Matrix (Fin (6 * m)) (Fin (2 * m + 4 + (2 * m - 2))) K :=
  fun i j => if ((i : ℕ), (j : ℕ)) ∈ selectionEntries m then 1 else 0

def snapMatrix (time : List K) : Matrix (Fin (6 * time.length)) (Fin (6 * time.length)) K :=
  fun row column =>
    let i := (row : ℕ) % 6
    let j := (column : ℕ) % 6
    if (row : ℕ) / 6 = column / 6 ∧ 3 ≤ i ∧ 3 ≤ j then
      ((i * (i - 1) * (i - 2) * j * (j - 1) * (j - 2) / (i + j - 5) : ℕ) : K) *
        time.getD (row / 6) 0 ^ (i + j - 5)
    else 0

/-- `Px`, `Py` or `Pz`, from `Dx`, `Dy` or `Dz`. -/
def solveAxis (inverse : Inverse K) (time : List K) (d : Fin (6 * time.length) → K) :
    Fin (6 * time.length) → K :=
  let m := time.length
  let fixed : Fin (2 * m + 4) → Fin (2 * m + 4 + (2 * m - 2)) := Fin.castAdd (2 * m - 2)
  let free : Fin (2 * m - 2) → Fin (2 * m + 4 + (2 * m - 2)) := Fin.natAdd (2 * m + 4)
  let a := mappingMatrix time
  let ct : Matrix (Fin (6 * m)) (Fin (2 * m + 4 + (2 * m - 2))) K := selectionMatrix m
  let c := ct.transpose
  let d1 := c.mulVec d
  let r := c * inverse a.transpose * snapMatrix time * inverse a * ct
  let rfp := r.submatrix fixed free
  let rpp := r.submatrix free free
  let df := fun i => d1 (fixed i)
  let dp := (-(inverse rpp * rfp.transpose)).mulVec df
  (inverse a * ct).mulVec (Fin.append df dp)

/-- The coefficients of segment `i`, the highest power first. -/
def segmentCoefficients {n : ℕ} (p : Fin n → K) (i : ℕ) : List K :=
  ((List.range 6).map fun j => if inside : 6 * i + j < n then p ⟨6 * i + j, inside⟩ else 0).reverse

/-- `none` also for less than two segments, for which `Ct` is too small. -/
def minSnapTraj (inverse : Inverse K) (pos : List (Vec3 K))
    (startVel endVel startAcc endAcc : Vec3 K) (time : List K) : Option (PolynomialTraj K) :=
  if time.length < 2 ∨ pos.length < time.length + 1 then none
  else
    let solution := fun axis : Axis => solveAxis inverse time fun i =>
      endPointDerivative (fun k => (pos.getD k 0).get axis) (startVel.get axis) (endVel.get axis)
        (startAcc.get axis) (endAcc.get axis) time.length i
    some ((List.range time.length).foldl (fun traj i =>
      traj.addSegment (segmentCoefficients (solution .x) i) (segmentCoefficients (solution .y) i)
        (segmentCoefficients (solution .z) i) (time.getD i 0)) ⟨[], [], [], []⟩)

/-- The column of `Ct` for row `s` of segment `k`. -/
def column (m k s : ℕ) : ℕ :=
  match s with
  | 0 => if k = 0 then 0 else 2 + 2 * k
  | 1 => 3 + 2 * k
  | 2 => if k = 0 then 1 else 2 * m + 4 + 2 * (k - 1)
  | 3 => if k + 1 = m then 2 * m + 2 else 2 * m + 4 + 2 * k
  | 4 => if k = 0 then 2 else 2 * m + 4 + 2 * (k - 1) + 1
  | _ => if k + 1 = m then 2 * m + 3 else 2 * m + 4 + 2 * k + 1

theorem row_cases {s : ℕ} (row : s < 6) : s = 0 ∨ s = 1 ∨ s = 2 ∨ s = 3 ∨ s = 4 ∨ s = 5 := by
  omega

theorem mem_block {k s j a c0 c1 c2 c3 c4 c5 : ℕ} (row : s < 6) :
    (6 * k + s, j) ∈ [(6 * a + 0, c0), (6 * a + 1, c1), (6 * a + 2, c2), (6 * a + 3, c3),
      (6 * a + 4, c4), (6 * a + 5, c5)] ↔ k = a ∧ j = [c0, c1, c2, c3, c4, c5].getD s 0 := by
  have rows : ∀ r < 6, (6 * k + s = 6 * a + r ↔ k = a ∧ s = r) := by omega
  simp (disch := omega) only [List.mem_cons, Prod.mk.injEq, List.not_mem_nil, or_false, rows]
  obtain rfl | rfl | rfl | rfl | rfl | rfl := row_cases row
  all_goals simp

theorem mem_firstBlock {k s j c0 c1 c2 c3 c4 c5 : ℕ} (row : s < 6) :
    (6 * k + s, j) ∈ [(0, c0), (2, c2), (4, c4), (1, c1), (3, c3), (5, c5)] ↔
      k = 0 ∧ j = [c0, c1, c2, c3, c4, c5].getD s 0 := by
  have rows : ∀ r < 6, (6 * k + s = r ↔ k = 0 ∧ s = r) := by omega
  simp (disch := omega) only [List.mem_cons, Prod.mk.injEq, List.not_mem_nil, or_false, rows]
  obtain rfl | rfl | rfl | rfl | rfl | rfl := row_cases row
  all_goals simp

theorem column_first {m s : ℕ} (enough : 2 ≤ m) (row : s < 6) :
    column m 0 s = [0, 3, 1, 2 * m + 4, 2, 2 * m + 5].getD s 0 := by
  have more : 1 ≠ m := by omega
  obtain rfl | rfl | rfl | rfl | rfl | rfl := row_cases row
  all_goals simp [column, more]

theorem column_last {m s : ℕ} (enough : 2 ≤ m) (row : s < 6) :
    column m (m - 1) s =
      [2 * m + 0, 2 * m + 1, 4 * m + 0, 2 * m + 2, 4 * m + 1, 2 * m + 3].getD s 0 := by
  have later : m - 1 ≠ 0 := by omega
  have last : m - 1 + 1 = m := by omega
  obtain rfl | rfl | rfl | rfl | rfl | rfl := row_cases row
  all_goals
    simp only [column, later, last, if_true, if_false, List.getD_cons_zero, List.getD_cons_succ]
    try omega

theorem column_inner {m j s : ℕ} (bounds : 2 ≤ j ∧ j < 2 + (m - 2)) (row : s < 6) :
    column m (j - 1) s =
      [2 + 2 * (j - 1) + 0, 2 + 2 * (j - 1) + 1, 2 * m + 4 + 2 * (j - 2) + 0,
        2 * m + 4 + 2 * (j - 1) + 0, 2 * m + 4 + 2 * (j - 2) + 1,
        2 * m + 4 + 2 * (j - 1) + 1].getD s 0 := by
  have later : j - 1 ≠ 0 := by omega
  have before : j - 1 + 1 ≠ m := by omega
  obtain rfl | rfl | rfl | rfl | rfl | rfl := row_cases row
  all_goals
    simp only [column, later, before, if_false, List.getD_cons_zero, List.getD_cons_succ]
    try omega

theorem mem_selectionEntries {m k s j : ℕ} (enough : 2 ≤ m) (segment : k < m) (row : s < 6) :
    (6 * k + s, j) ∈ selectionEntries m ↔ j = column m k s := by
  simp only [selectionEntries, List.mem_append, mem_firstBlock row, mem_block row,
    List.mem_flatMap, List.mem_range'_1]
  constructor
  · rintro ((⟨rfl, rfl⟩ | ⟨rfl, rfl⟩) | ⟨a, bounds, rfl, rfl⟩)
    · exact (column_first enough row).symm
    · exact (column_last enough row).symm
    · exact (column_inner bounds row).symm
  · rintro rfl
    rcases Nat.eq_zero_or_pos k with rfl | later
    · exact Or.inl (Or.inl ⟨rfl, column_first enough row⟩)
    · rcases Nat.eq_or_lt_of_le (Nat.le_sub_one_of_lt segment) with rfl | before
      · exact Or.inl (Or.inr ⟨rfl, column_last enough row⟩)
      · have bounds : 2 ≤ k + 1 ∧ k + 1 < 2 + (m - 2) := by omega
        exact Or.inr ⟨k + 1, bounds, rfl, column_inner bounds row⟩

theorem column_lt {m k s : ℕ} (enough : 2 ≤ m) (segment : k < m) :
    column m k s < 2 * m + 4 + (2 * m - 2) := by
  unfold column
  split
  all_goals
    try split_ifs
    all_goals omega

def Fixed (m k s : ℕ) : Prop :=
  s = 0 ∨ s = 1 ∨ (k = 0 ∧ (s = 2 ∨ s = 4)) ∨ (k + 1 = m ∧ (s = 3 ∨ s = 5))

theorem column_lt_of_fixed {m k s : ℕ} (enough : 2 ≤ m) (segment : k < m) (fixed : Fixed m k s) :
    column m k s < 2 * m + 4 := by
  rcases fixed with rfl | rfl | ⟨rfl, rfl | rfl⟩ | ⟨finish, rfl | rfl⟩
  all_goals
    simp only [column]
    try split_ifs
    all_goals omega

theorem column_injective {m k s k' s' : ℕ} (segment : k < m) (segment' : k' < m) (row' : s' < 6)
    (fixed : Fixed m k s) (same : column m k' s' = column m k s) : k' = k ∧ s' = s := by
  obtain rfl | rfl | rfl | rfl | rfl | rfl := row_cases row'
  all_goals
    rcases fixed with rfl | rfl | ⟨rfl, rfl | rfl⟩ | ⟨finish, rfl | rfl⟩
    all_goals
      simp only [column] at same
      try split_ifs at same
      all_goals omega

end RobocupDrone.Planner.PolynomialTraj
