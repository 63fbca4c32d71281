import Mathlib.Algebra.Order.Monoid.Unbundled.MinMax
import Mathlib.Tactic.Linarith
import Mathlib.Tactic.LinearCombination
import RobocupDrone.Library.Potential
import RobocupDrone.Library.Vec3

/-! The diagonal distance on the integer lattice, for steps along one, two or three axes. -/

namespace Geometry

namespace Lattice

variable {v w : Vec3 ℤ}

def largest (v : Vec3 ℤ) : ℕ := max v.x.natAbs (max v.y.natAbs v.z.natAbs)

def largestTwo (v : Vec3 ℤ) : ℕ :=
  max (v.x.natAbs + v.y.natAbs) (max (v.x.natAbs + v.z.natAbs) (v.y.natAbs + v.z.natAbs))

def allThree (v : Vec3 ℤ) : ℕ := v.x.natAbs + v.y.natAbs + v.z.natAbs

theorem largest_le_iff {n : ℕ} : largest v ≤ n ↔
    v.x.natAbs ≤ n ∧ v.y.natAbs ≤ n ∧ v.z.natAbs ≤ n := by
  rw [largest, max_le_iff, max_le_iff]

theorem largest_eq_zero_iff : largest v = 0 ↔ v = 0 := by
  rw [← Nat.le_zero, largest_le_iff]
  constructor
  · rintro ⟨on_x, on_y, on_z⟩
    apply Vec3.ext_get
    intro axis
    cases axis
    · exact Int.natAbs_eq_zero.mp (Nat.le_zero.mp on_x)
    · exact Int.natAbs_eq_zero.mp (Nat.le_zero.mp on_y)
    · exact Int.natAbs_eq_zero.mp (Nat.le_zero.mp on_z)
  · rintro rfl
    exact ⟨le_rfl, le_rfl, le_rfl⟩

theorem largestTwo_le_iff {n : ℕ} : largestTwo v ≤ n ↔ v.x.natAbs + v.y.natAbs ≤ n ∧
    v.x.natAbs + v.z.natAbs ≤ n ∧ v.y.natAbs + v.z.natAbs ≤ n := by
  rw [largestTwo, max_le_iff, max_le_iff]

theorem largest_le (v : Vec3 ℤ) : largest v ≤ largestTwo v ∧ largest v ≤ allThree v := by
  obtain ⟨on_xy, on_xz, on_yz⟩ := largestTwo_le_iff.mp (le_refl (largestTwo v))
  unfold allThree
  rw [largest_le_iff, largest_le_iff]
  omega

section Triangle

variable (v w)

theorem largest_add_le : largest (v + w) ≤ largest v + largest w := by
  obtain ⟨v_x, v_y, v_z⟩ := largest_le_iff.mp (le_refl (largest v))
  obtain ⟨w_x, w_y, w_z⟩ := largest_le_iff.mp (le_refl (largest w))
  exact largest_le_iff.mpr ⟨(Int.natAbs_add_le _ _).trans (Nat.add_le_add v_x w_x),
    (Int.natAbs_add_le _ _).trans (Nat.add_le_add v_y w_y),
    (Int.natAbs_add_le _ _).trans (Nat.add_le_add v_z w_z)⟩

theorem largestTwo_add_le : largestTwo (v + w) ≤ largestTwo v + largestTwo w := by
  obtain ⟨v_xy, v_xz, v_yz⟩ := largestTwo_le_iff.mp (le_refl (largestTwo v))
  obtain ⟨w_xy, w_xz, w_yz⟩ := largestTwo_le_iff.mp (le_refl (largestTwo w))
  have on_x : (v + w).x.natAbs ≤ v.x.natAbs + w.x.natAbs := Int.natAbs_add_le _ _
  have on_y : (v + w).y.natAbs ≤ v.y.natAbs + w.y.natAbs := Int.natAbs_add_le _ _
  have on_z : (v + w).z.natAbs ≤ v.z.natAbs + w.z.natAbs := Int.natAbs_add_le _ _
  refine largestTwo_le_iff.mpr ⟨?_, ?_, ?_⟩
  all_goals linarith

theorem allThree_add_le : allThree (v + w) ≤ allThree v + allThree w := by
  have on_x : (v + w).x.natAbs ≤ v.x.natAbs + w.x.natAbs := Int.natAbs_add_le _ _
  have on_y : (v + w).y.natAbs ≤ v.y.natAbs + w.y.natAbs := Int.natAbs_add_le _ _
  have on_z : (v + w).z.natAbs ≤ v.z.natAbs + w.z.natAbs := Int.natAbs_add_le _ _
  unfold allThree
  linarith

end Triangle

theorem norms_neg (v : Vec3 ℤ) :
    largest (-v) = largest v ∧ largestTwo (-v) = largestTwo v ∧ allThree (-v) = allThree v := by
  have axes : (-v).x.natAbs = v.x.natAbs ∧ (-v).y.natAbs = v.y.natAbs ∧
      (-v).z.natAbs = v.z.natAbs :=
    ⟨Int.natAbs_neg _, Int.natAbs_neg _, Int.natAbs_neg _⟩
  simp only [largest, largestTwo, allThree, axes, and_self]

def ahead (v : Vec3 ℤ) : Vec3 ℤ := Vec3.ofAxes fun axis => (v.get axis).sign

theorem natAbs_sign (c : ℤ) :
    c.sign.natAbs = min 1 c.natAbs ∧ (c - c.sign).natAbs = c.natAbs - 1 := by
  rcases lt_trichotomy c 0 with below | zero | above
  · rw [Int.sign_eq_neg_one_of_neg below]
    omega
  · rw [zero]
    exact ⟨rfl, rfl⟩
  · rw [Int.sign_eq_one_of_pos above]
    omega

theorem eq_one_add_rest (n : ℕ) : n = min 1 n + (n - 1) := by
  omega

theorem max_split (a b c : ℕ) : max a (max b c) =
    max (min 1 a) (max (min 1 b) (min 1 c)) + max (a - 1) (max (b - 1) (c - 1)) := by
  have one : ∀ m n : ℕ, min 1 (max m n) = max (min 1 m) (min 1 n) := by
    intro m n
    omega
  have less : ∀ m n : ℕ, max m n - 1 = max (m - 1) (n - 1) := by
    intro m n
    omega
  rw [eq_one_add_rest (max a (max b c)), one, one, less, less]

theorem min_split (a b c : ℕ) : min a (min b c) =
    min (min 1 a) (min (min 1 b) (min 1 c)) + min (a - 1) (min (b - 1) (c - 1)) := by
  have one : ∀ m n : ℕ, min 1 (min m n) = min (min 1 m) (min 1 n) := by
    intro m n
    omega
  have less : ∀ m n : ℕ, min m n - 1 = min (m - 1) (n - 1) := by
    intro m n
    omega
  rw [eq_one_add_rest (min a (min b c)), one, one, less, less]

theorem largestTwo_add_min (a b c : ℕ) :
    max (a + b) (max (a + c) (b + c)) + min a (min b c) = a + b + c := by
  rw [max_add_add_right]
  rcases le_total a b with ordered | ordered
  · rw [max_eq_right ordered]
    omega
  · rw [max_eq_left ordered]
    omega

theorem norms_ahead (v : Vec3 ℤ) :
    largest v = largest (ahead v) + largest (v - ahead v) ∧
      largestTwo v = largestTwo (ahead v) + largestTwo (v - ahead v) ∧
      allThree v = allThree (ahead v) + allThree (v - ahead v) := by
  obtain ⟨x_step, x_left⟩ := natAbs_sign v.x
  obtain ⟨y_step, y_left⟩ := natAbs_sign v.y
  obtain ⟨z_step, z_left⟩ := natAbs_sign v.z
  have step : (ahead v).x.natAbs = min 1 v.x.natAbs ∧ (ahead v).y.natAbs = min 1 v.y.natAbs ∧
      (ahead v).z.natAbs = min 1 v.z.natAbs := ⟨x_step, y_step, z_step⟩
  have rest : (v - ahead v).x.natAbs = v.x.natAbs - 1 ∧
      (v - ahead v).y.natAbs = v.y.natAbs - 1 ∧ (v - ahead v).z.natAbs = v.z.natAbs - 1 :=
    ⟨x_left, y_left, z_left⟩
  simp only [largest, largestTwo, allThree, step, rest]
  generalize v.x.natAbs = a, v.y.natAbs = b, v.z.natAbs = c
  have sum : a + b + c = min 1 a + min 1 b + min 1 c + (a - 1 + (b - 1) + (c - 1)) := by omega
  refine ⟨max_split a b c, ?_, sum⟩
  have whole := largestTwo_add_min a b c
  have taken := largestTwo_add_min (min 1 a) (min 1 b) (min 1 c)
  have kept := largestTwo_add_min (a - 1) (b - 1) (c - 1)
  have smallest := min_split a b c
  linarith

/-- What a step along one, two or three axes costs. Each further axis adds no more than the one
before it, and never less than nothing. -/
structure Costs (K : Type*) [Field K] [LinearOrder K] where
  edge : K
  face : K
  corner : K
  edge_pos : 0 < edge
  face_le : face ≤ 2 * edge
  corner_le : edge + corner ≤ 2 * face
  face_le_corner : face ≤ corner

def UnitStep (d : Vec3 ℤ) : Prop := d ≠ 0 ∧ largest d ≤ 1

theorem unitStep_ahead (away : v ≠ 0) : UnitStep (ahead v) := by
  refine ⟨fun still => away ?_, largest_le_iff.mpr ?_⟩
  · apply Vec3.ext_get
    intro axis
    have none_left : (ahead v).get axis = 0 := by
      rw [still]
      cases axis <;> rfl
    rw [ahead, Vec3.get_ofAxes] at none_left
    rw [Int.sign_eq_zero_iff_zero.mp none_left]
    cases axis <;> rfl
  · have short : ∀ c : ℤ, c.sign.natAbs ≤ 1 := by
      intro c
      rw [(natAbs_sign c).1]
      exact min_le_left _ _
    exact ⟨short _, short _, short _⟩

theorem UnitStep.largest_eq {d : Vec3 ℤ} (unit : UnitStep d) : largest d = 1 := by
  have moves : largest d ≠ 0 := fun still => unit.1 (largest_eq_zero_iff.mp still)
  have short := unit.2
  omega

theorem UnitStep.axes {d : Vec3 ℤ} (unit : UnitStep d) :
    allThree d = 1 ∨ allThree d = 2 ∨ allThree d = 3 := by
  obtain ⟨x_short, y_short, z_short⟩ := largest_le_iff.mp unit.2
  have some_axis := (largest_le d).2
  rw [unit.largest_eq] at some_axis
  unfold allThree at some_axis ⊢
  omega

namespace Costs

variable {K : Type*} [Field K] [LinearOrder K] (costs : Costs K)

def along (axes : ℕ) : K :=
  if axes = 1 then costs.edge else if axes = 2 then costs.face else costs.corner

def distance (v : Vec3 ℤ) : K :=
  (2 * costs.edge - costs.face) * largest v +
    (2 * costs.face - costs.edge - costs.corner) * largestTwo v +
    (costs.corner - costs.face) * allThree v

theorem distance_eq {v : Vec3 ℤ} {corners faces edges : ℤ}
    (one : (largest v : ℤ) = corners + faces + edges)
    (two : (largestTwo v : ℤ) = 2 * corners + 2 * faces + edges)
    (three : (allThree v : ℤ) = 3 * corners + 2 * faces + edges) :
    costs.distance v = costs.corner * corners + costs.face * faces + costs.edge * edges := by
  rw [distance, ← Int.cast_natCast (largest v), ← Int.cast_natCast (largestTwo v),
    ← Int.cast_natCast (allThree v), one, two, three]
  push_cast
  ring

theorem distance_of_smallest {v : Vec3 ℤ} {a b c : ℕ} (below_a : c ≤ a) (below_b : c ≤ b)
    (one : largest v = max a (max b c))
    (two : largestTwo v = max (a + b) (max (a + c) (b + c))) (three : allThree v = a + b + c) :
    costs.distance v = costs.corner * (c : ℤ) + costs.face * ((min a b : ℕ) - c : ℤ) +
      costs.edge * ((a - b : ℤ).natAbs : ℤ) := by
  rcases le_total a b with order | order
  · apply costs.distance_eq
    · rw [one]
      omega
    · rw [two]
      omega
    · rw [three]
      omega
  · apply costs.distance_eq
    · rw [one]
      omega
    · rw [two]
      omega
    · rw [three]
      omega

theorem distance_neg (v : Vec3 ℤ) : costs.distance (-v) = costs.distance v := by
  obtain ⟨one, two, three⟩ := norms_neg v
  rw [distance, distance, one, two, three]

theorem distance_ahead (v : Vec3 ℤ) :
    costs.distance v = costs.distance (ahead v) + costs.distance (v - ahead v) := by
  obtain ⟨one, two, three⟩ := norms_ahead v
  rw [distance, distance, distance, one, two, three]
  push_cast
  ring

theorem distance_zero : costs.distance 0 = 0 := by
  have one : largest (0 : Vec3 ℤ) = 0 := rfl
  have two : largestTwo (0 : Vec3 ℤ) = 0 := rfl
  have three : allThree (0 : Vec3 ℤ) = 0 := rfl
  rw [distance, one, two, three]
  simp

theorem distance_unit {d : Vec3 ℤ} (unit : UnitStep d) :
    costs.distance d = costs.along (allThree d) := by
  obtain ⟨x_short, y_short, z_short⟩ := largest_le_iff.mp unit.2
  have one := unit.largest_eq
  have axes := unit.axes
  have two : largestTwo d = min 2 (allThree d) := by
    unfold largestTwo
    unfold allThree at axes ⊢
    omega
  rcases axes with three | three | three
  · have same : costs.distance d =
        costs.corner * (0 : ℤ) + costs.face * (0 : ℤ) + costs.edge * (1 : ℤ) :=
      costs.distance_eq (by omega) (by omega) (by omega)
    rw [same, three]
    simp [along]
  · have same : costs.distance d =
        costs.corner * (0 : ℤ) + costs.face * (1 : ℤ) + costs.edge * (0 : ℤ) :=
      costs.distance_eq (by omega) (by omega) (by omega)
    rw [same, three]
    simp [along]
  · have same : costs.distance d =
        costs.corner * (1 : ℤ) + costs.face * (0 : ℤ) + costs.edge * (0 : ℤ) :=
      costs.distance_eq (by omega) (by omega) (by omega)
    rw [same, three]
    simp [along]

variable [IsStrictOrderedRing K]

theorem face_weight_nonneg : 0 ≤ 2 * costs.face - costs.edge - costs.corner := by
  linarith [costs.corner_le]

theorem distance_add_le (v w : Vec3 ℤ) :
    costs.distance (v + w) ≤ costs.distance v + costs.distance w := by
  have one : (largest (v + w) : K) ≤ largest v + largest w := by
    exact_mod_cast largest_add_le v w
  have two : (largestTwo (v + w) : K) ≤ largestTwo v + largestTwo w := by
    exact_mod_cast largestTwo_add_le v w
  have three : (allThree (v + w) : K) ≤ allThree v + allThree w := by
    exact_mod_cast allThree_add_le v w
  have first := mul_le_mul_of_nonneg_left one (sub_nonneg.mpr costs.face_le)
  have second := mul_le_mul_of_nonneg_left two costs.face_weight_nonneg
  have third := mul_le_mul_of_nonneg_left three (sub_nonneg.mpr costs.face_le_corner)
  unfold distance
  linarith

theorem edge_le_distance (v : Vec3 ℤ) : costs.edge * largest v ≤ costs.distance v := by
  have two : (largest v : K) ≤ largestTwo v := by exact_mod_cast (largest_le v).1
  have three : (largest v : K) ≤ allThree v := by exact_mod_cast (largest_le v).2
  have second := mul_le_mul_of_nonneg_left two costs.face_weight_nonneg
  have third := mul_le_mul_of_nonneg_left three (sub_nonneg.mpr costs.face_le_corner)
  unfold distance
  linarith

theorem distance_eq_zero_iff : costs.distance v = 0 ↔ v = 0 := by
  constructor
  · intro zero
    have bound := costs.edge_le_distance v
    rw [zero] at bound
    have none_left : (largest v : K) ≤ 0 := nonpos_of_mul_nonpos_right bound costs.edge_pos
    exact largest_eq_zero_iff.mp (Nat.le_zero.mp (by exact_mod_cast none_left))
  · rintro rfl
    exact costs.distance_zero

end Costs

/-- `v` lies in the box of which `u` and `w` are opposite corners. -/
def Between (u w v : Vec3 ℤ) : Prop :=
  ∀ axis, min (u.get axis) (w.get axis) ≤ v.get axis ∧ v.get axis ≤ max (u.get axis) (w.get axis)

def StepIn (grid : Set (Vec3 ℤ)) (u v : Vec3 ℤ) : Prop :=
  (u ∈ grid ∧ v ∈ grid) ∧ UnitStep (v - u)

namespace Costs

variable {K : Type*} [Field K] [LinearOrder K] (costs : Costs K)

def ofStep (u v : Vec3 ℤ) : K := costs.along (allThree (v - u))

theorem distance_tight {grid : Set (Vec3 ℤ)} {start goal : Vec3 ℤ}
    (room : ∀ v, Between start goal v → v ∈ grid) :
    Walks.Tight (StepIn grid) costs.ofStep (fun u => costs.distance (goal - u))
      {u | Between start goal u} (fun u => largest (goal - u)) goal := by
  intro u inside away
  have rest_moves : goal - u ≠ 0 := sub_ne_zero.mpr (Ne.symm away)
  have unit := unitStep_ahead rest_moves
  have taken : u + ahead (goal - u) - u = ahead (goal - u) := add_sub_cancel_left _ _
  have rest : goal - (u + ahead (goal - u)) = goal - u - ahead (goal - u) :=
    sub_add_eq_sub_sub _ _ _
  have between : Between start goal (u + ahead (goal - u)) := by
    intro axis
    have here := inside axis
    rw [Vec3.get_add, ahead, Vec3.get_ofAxes, Vec3.get_sub]
    rcases lt_trichotomy (goal.get axis - u.get axis) 0 with below | zero | above
    · rw [Int.sign_eq_neg_one_of_neg below]
      omega
    · rw [zero, Int.sign_zero, add_zero]
      exact here
    · rw [Int.sign_eq_one_of_pos above]
      omega
  refine ⟨u + ahead (goal - u), between, ⟨⟨room u inside, room _ between⟩, ?_⟩, ?_, ?_⟩
  · rwa [taken]
  · dsimp only
    rw [rest, (norms_ahead (goal - u)).1, unit.largest_eq]
    omega
  · dsimp only
    rw [ofStep, taken, rest, ← costs.distance_unit unit]
    exact costs.distance_ahead _

variable [IsStrictOrderedRing K]

theorem distance_consistent {grid : Set (Vec3 ℤ)} (goal u v : Vec3 ℤ) (step : StepIn grid u v) :
    costs.distance (goal - u) ≤ costs.ofStep u v + costs.distance (goal - v) := by
  have parts : goal - u = v - u + (goal - v) := by abel
  rw [ofStep, ← costs.distance_unit step.2, parts]
  exact costs.distance_add_le _ _

/-- In a grid with the box between the two cells, the distance is the cost of a shortest walk. -/
theorem isLeast_distance {grid : Set (Vec3 ℤ)} {start goal : Vec3 ℤ}
    (room : ∀ v, Between start goal v → v ∈ grid) :
    IsLeast {c | Walks.Walk (StepIn grid) costs.ofStep start goal c}
      (costs.distance (goal - start)) := by
  refine Walks.isLeast_potential (costs.distance_consistent goal) (costs.distance_tight room) ?_ ?_
  · rw [sub_self, costs.distance_zero]
  · exact fun axis => ⟨min_le_left _ _, le_max_left _ _⟩

theorem distance_le_walk {grid : Set (Vec3 ℤ)} {start goal : Vec3 ℤ} {c : K}
    (walk : Walks.Walk (StepIn grid) costs.ofStep start goal c) :
    costs.distance (goal - start) ≤ c := by
  have bound := walk.potential_le (costs.distance_consistent goal)
  rwa [sub_self, costs.distance_zero, add_zero] at bound

end Costs

end Lattice

end Geometry
