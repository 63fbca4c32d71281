import RobocupDrone.Library.Diagonal
import RobocupDrone.PathSearching.Completeness

/-! The heuristic of the search is the cost of a shortest walk where nothing is in the way. -/

namespace RobocupDrone.PathSearching

open Geometry Lattice Walks

variable {K : Type*} [Field K]

def staticCost (sqrt : K → K) (d : Vec3 ℤ) : K :=
  sqrt ((d.x * d.x + d.y * d.y + d.z * d.z : ℤ) : K)

theorem Query.tentativeGScore_eq (q : Query K) (p : NodePool K) (current d : Vec3 ℤ) :
    q.tentativeGScore p current d = (p.nodes current).gScore + staticCost q.sqrt d := rfl

variable [LinearOrder K]

def MoveIn (grid : Set (Vec3 ℤ)) (u v : Vec3 ℤ) : Prop :=
  (u ∈ grid ∧ v ∈ grid) ∧ v - u ∈ Query.offsets

def GridWalk (sqrt : K → K) (grid : Set (Vec3 ℤ)) : Vec3 ℤ → Vec3 ℤ → K → Prop :=
  Walk (MoveIn grid) fun u v => staticCost sqrt (v - u)

/-- What the search needs of its heuristic. -/
structure Shortest (sqrt : K → K) (node1 node2 : GridNode K) : Prop where
  shortest : ∀ grid : Set (Vec3 ℤ), (∀ n, Between node1.index node2.index n → n ∈ grid) →
    IsLeast {c | GridWalk sqrt grid node1.index node2.index c} (getDiagHeu sqrt node1 node2)
  zero_iff : getDiagHeu sqrt node1 node2 = 0 ↔ node1.index = node2.index
  symmetric : getDiagHeu sqrt node1 node2 = getDiagHeu sqrt node2 node1
  consistent : ∀ d ∈ Query.offsets, ∀ next : GridNode K, next.index = node1.index + d →
    |getDiagHeu sqrt next node2 - getDiagHeu sqrt node1 node2| ≤ staticCost sqrt d
  remaining : ∀ grid c, GridWalk sqrt grid node1.index node2.index c →
    getHeu sqrt node1 node2 ≤ tieBreaker * c

theorem mem_offsets_iff {d : Vec3 ℤ} : d ∈ Query.offsets ↔ UnitStep d := by
  have short : ∀ c : ℤ, |c| ≤ 1 ↔ c.natAbs ≤ 1 := by
    intro c
    rw [Int.abs_eq_natAbs]
    omega
  constructor
  · intro member
    have bounds : d ≠ 0 ∧ ∀ axis, |d.get axis| ≤ 1 := by
      revert d
      decide
    exact ⟨bounds.1, largest_le_iff.mpr ⟨(short _).mp (bounds.2 .x), (short _).mp (bounds.2 .y),
      (short _).mp (bounds.2 .z)⟩⟩
  · rintro ⟨moves, near⟩
    obtain ⟨on_x, on_y, on_z⟩ := largest_le_iff.mp near
    refine Query.mem_offsets moves fun axis => (short _).mpr ?_
    cases axis
    · exact on_x
    · exact on_y
    · exact on_z

section Roots

variable [IsStrictOrderedRing K] {sqrt : K → K} (exact : Vec3.IsSqrt sqrt)

include exact
theorem sqrt_one : sqrt 1 = 1 := by
  have nonneg := exact.nonneg (zero_le_one (α := K))
  rcases mul_self_eq_one_iff.mp (exact.mul_self (zero_le_one (α := K))) with one | minus_one
  · exact one
  · linarith

theorem sqrt_two_le : sqrt 2 ≤ 2 * 1 := by
  rw [exact.le_iff zero_le_two (by norm_num)]
  norm_num

/-- A diagonal step through the cube and one along an edge are no shorter than two across faces. -/
theorem one_add_sqrt_three_le : 1 + sqrt 3 ≤ 2 * sqrt 2 := by
  have two_nonneg := exact.nonneg (zero_le_two (α := K))
  have three_nonneg : 0 ≤ sqrt 3 := exact.nonneg (by norm_num)
  have two : sqrt 2 * sqrt 2 = 2 := exact.mul_self zero_le_two
  have three : sqrt 3 * sqrt 3 = 3 := exact.mul_self (by norm_num)
  have below : sqrt 3 ≤ 2 := (exact.le_iff (by norm_num) zero_le_two).mpr (by norm_num)
  rw [mul_self_le_mul_self_iff (by linarith) (by linarith)]
  calc
    (1 + sqrt 3) * (1 + sqrt 3) = 1 + 2 * sqrt 3 + sqrt 3 * sqrt 3 := by ring
    _ ≤ 4 * (sqrt 2 * sqrt 2) := by
      rw [two, three]
      linarith
    _ = 2 * sqrt 2 * (2 * sqrt 2) := by ring

theorem sqrt_two_le_three : sqrt 2 ≤ sqrt 3 := by
  rw [exact.le_iff zero_le_two (exact.nonneg (by norm_num)), exact.mul_self (by norm_num)]
  norm_num

/-- The costs of the moves: one and the square roots of two and three. -/
def moveCosts : Costs K where
  edge := 1
  face := sqrt 2
  corner := sqrt 3
  edge_pos := zero_lt_one
  face_le := sqrt_two_le exact
  corner_le := one_add_sqrt_three_le exact
  face_le_corner := sqrt_two_le_three exact

theorem staticCost_eq {d : Vec3 ℤ} (unit : UnitStep d) :
    staticCost sqrt d = (moveCosts exact).along (allThree d) := by
  obtain ⟨x_short, y_short, z_short⟩ := largest_le_iff.mp unit.2
  have square : ∀ c : ℤ, c.natAbs ≤ 1 → c * c = c.natAbs := by
    intro c small
    obtain rfl | rfl | rfl : c = -1 ∨ c = 0 ∨ c = 1 := by omega
    all_goals rfl
  have sum : d.x * d.x + d.y * d.y + d.z * d.z = (allThree d : ℤ) := by
    rw [square _ x_short, square _ y_short, square _ z_short, allThree]
    push_cast
    ring
  rw [staticCost, sum]
  rcases unit.axes with one | two | three
  · rw [one]
    simpa [Costs.along, moveCosts] using sqrt_one exact
  · rw [two]
    simp [Costs.along, moveCosts]
  · rw [three]
    simp [Costs.along, moveCosts]

theorem getDiagHeu_eq (node1 node2 : GridNode K) :
    getDiagHeu sqrt node1 node2 = (moveCosts exact).distance (node2.index - node1.index) := by
  have apart : ∀ m n : ℤ, |m - n| = (n - m).natAbs := by
    intro m n
    rw [abs_sub_comm, Int.abs_eq_natAbs]
  obtain ⟨dx, on_x⟩ : ∃ dx, dx = (node2.index.x - node1.index.x).natAbs := ⟨_, rfl⟩
  obtain ⟨dy, on_y⟩ : ∃ dy, dy = (node2.index.y - node1.index.y).natAbs := ⟨_, rfl⟩
  obtain ⟨dz, on_z⟩ : ∃ dz, dz = (node2.index.z - node1.index.z).natAbs := ⟨_, rfl⟩
  have one : largest (node2.index - node1.index) = max dx (max dy dz) := by
    rw [on_x, on_y, on_z]
    rfl
  have two : largestTwo (node2.index - node1.index) =
      max (dx + dy) (max (dx + dz) (dy + dz)) := by
    rw [on_x, on_y, on_z]
    rfl
  have three : allThree (node2.index - node1.index) = dx + dy + dz := by
    rw [on_x, on_y, on_z]
    rfl
  have same : ∀ {corners faces edges corners' faces' edges' : ℤ}, corners = corners' →
      faces = faces' → edges = edges' → sqrt 3 * corners + sqrt 2 * faces + edges =
        (moveCosts exact).corner * corners' + (moveCosts exact).face * faces' +
          (moveCosts exact).edge * edges' := by
    rintro corners faces edges _ _ _ rfl rfl rfl
    simp only [moveCosts, one_mul]
  simp only [getDiagHeu, apart, ← on_x, ← on_y, ← on_z]
  -- whichever axis is used up by the diagonal, the other two are left
  split_ifs with z_done y_done x_done
  · rw [Costs.distance_of_smallest _ (by omega) (by omega) one two three]
    exact same (by omega) (by omega) (by omega)
  · rw [max_comm dy dz] at one
    rw [max_left_comm, add_comm dy dz] at two
    rw [add_right_comm] at three
    rw [Costs.distance_of_smallest _ (by omega) (by omega) one two three]
    exact same (by omega) (by omega) (by omega)
  · rw [max_left_comm, max_comm dx dz] at one
    rw [← max_assoc, max_comm, add_comm dx dy, add_comm dx dz] at two
    rw [add_rotate] at three
    rw [Costs.distance_of_smallest _ (by omega) (by omega) one two three]
    exact same (by omega) (by omega) (by omega)
  · omega

theorem gridWalk_iff {grid : Set (Vec3 ℤ)} {u w : Vec3 ℤ} {c : K} : GridWalk sqrt grid u w c ↔
    Walk (StepIn grid) (moveCosts exact).ofStep u w c := by
  constructor
  · intro walk
    refine walk.mono fun u v move => ?_
    have unit := mem_offsets_iff.mp move.2
    exact ⟨⟨move.1, unit⟩, staticCost_eq exact unit⟩
  · intro walk
    exact walk.mono fun u v step =>
      ⟨⟨step.1, mem_offsets_iff.mpr step.2⟩, (staticCost_eq exact step.2).symm⟩

theorem diagHeu_shortest (node1 node2 : GridNode K) : Shortest sqrt node1 node2 where
  shortest grid room := by
    have least := (moveCosts exact).isLeast_distance room
    simp only [getDiagHeu_eq exact, gridWalk_iff exact]
    exact least
  zero_iff := by
    rw [getDiagHeu_eq exact, Costs.distance_eq_zero_iff, sub_eq_zero, eq_comm]
  symmetric := by
    rw [getDiagHeu_eq exact, getDiagHeu_eq exact, ← Costs.distance_neg, neg_sub]
  consistent d member next moved := by
    have unit := mem_offsets_iff.mp member
    have there : node2.index - node1.index = d + (node2.index - next.index) := by
      rw [moved]
      abel
    have back : node2.index - next.index = -d + (node2.index - node1.index) := by
      rw [moved]
      abel
    have forth_le := (moveCosts exact).distance_add_le d (node2.index - next.index)
    have back_le := (moveCosts exact).distance_add_le (-d) (node2.index - node1.index)
    rw [← there] at forth_le
    rw [← back, Costs.distance_neg] at back_le
    rw [getDiagHeu_eq exact, getDiagHeu_eq exact, staticCost_eq exact unit,
      ← Costs.distance_unit _ unit, abs_le]
    constructor <;> linarith
  remaining grid c walk := by
    have positive : (0 : K) ≤ tieBreaker := by
      unfold tieBreaker
      positivity
    rw [getHeu, getDiagHeu_eq exact]
    exact mul_le_mul_of_nonneg_left
      ((moveCosts exact).distance_le_walk ((gridWalk_iff exact).mp walk)) positive

end Roots

theorem diagHeu_shortest_real :
    Shortest Real.sqrt (GridNode.new ⟨0, 0, 0⟩) (GridNode.new ⟨3, -1, 2⟩) :=
  diagHeu_shortest ⟨fun _ => Real.sqrt_nonneg _, Real.mul_self_sqrt⟩ _ _

end RobocupDrone.PathSearching
