import Mathlib.Algebra.Order.Floor.Ring
import Mathlib.Tactic.FieldSimp
import Mathlib.Tactic.Linarith
import Mathlib.Data.Rat.Floor
import RobocupDrone.Library.Vec3

/-! `dyn_a_star.h`: the grid of the path search, from points to cells of the node pool and back. -/

namespace RobocupDrone.PathSearching

open Geometry

variable {K : Type*} [Field K]

section Cast

variable [LinearOrder K] [FloorRing K]

def castInt (x : K) : ℤ := if 0 ≤ x then ⌊x⌋ else ⌈x⌉

/-- The offset is not below minus a half, or it is halfway between two integers. -/
def RoundsToNearest (s : K) : Prop := -0.5 ≤ s ∨ ∃ n : ℤ, s + 0.5 = n

variable [IsStrictOrderedRing K]

theorem castInt_near_iff (s : K) :
    |(castInt (s + 0.5) : K) - s| ≤ 0.5 ↔ RoundsToNearest s := by
  rw [castInt, abs_le, RoundsToNearest]
  split
  next nonneg =>
    have lower := Int.floor_le (s + 0.5)
    have upper := Int.lt_floor_add_one (s + 0.5)
    constructor
    · intro _
      left
      linarith
    · intro _
      constructor <;> linarith
  next negative =>
    have lower := Int.le_ceil (s + 0.5)
    constructor
    · intro near
      right
      exact ⟨⌈s + 0.5⌉, by linarith [near.2]⟩
    · intro exact_half
      rcases exact_half with above | ⟨n, whole⟩
      · exact absurd (by linarith) negative
      · rw [whole, Int.ceil_intCast]
        constructor <;> linarith

theorem castInt_int_iff (n : ℤ) : castInt ((n : K) + 0.5) = n ↔ 0 ≤ n := by
  rw [castInt]
  split
  next nonneg =>
    have floor : ⌊(n : K) + 0.5⌋ = n := by
      rw [Int.floor_eq_iff]
      constructor <;> linarith
    have above : (-1 : K) < n := by linarith
    have integer : -1 < n := by exact_mod_cast above
    constructor
    · intro _
      omega
    · intro _
      exact floor
  next negative =>
    have ceil : ⌈(n : K) + 0.5⌉ = n + 1 := by
      rw [Int.ceil_eq_iff]
      push_cast
      constructor <;> linarith
    have below : (n : K) < 0 := by linarith
    have integer : n < 0 := by exact_mod_cast below
    rw [ceil]
    omega

end Cast

/-- What `initGridMap` and `AstarSearch` set of an `AStar` before the search. -/
structure Grid (K : Type*) where
  poolSize : Vec3 ℤ
  stepSize : K
  center : Vec3 K
  deriving DecidableEq

namespace Grid

variable (grid : Grid K)

def invStepSize : K := 1 / grid.stepSize

def centerIdx : Vec3 ℤ := Vec3.ofAxes fun axis => (grid.poolSize.get axis).tdiv 2

def InPool (idx : Vec3 ℤ) : Prop :=
  ∀ axis, ¬(idx.get axis < 0 ∨ idx.get axis ≥ grid.poolSize.get axis)

instance (idx : Vec3 ℤ) : Decidable (grid.InPool idx) := inferInstanceAs (Decidable (∀ _ : Axis, _))

def index2Coord (index : Vec3 ℤ) : Vec3 K :=
  Vec3.ofAxes fun axis =>
    ((index.get axis - grid.centerIdx.get axis : ℤ) : K) * grid.stepSize + grid.center.get axis

def offset (pt : Vec3 K) (axis : Axis) : K :=
  (pt.get axis - grid.center.get axis) * grid.invStepSize

theorem index2Coord_offset (nonzero : grid.stepSize ≠ 0) (index : Vec3 ℤ) (axis : Axis) :
    grid.offset (grid.index2Coord index) axis =
      ((index.get axis - grid.centerIdx.get axis : ℤ) : K) := by
  rw [offset, index2Coord, Vec3.get_ofAxes, invStepSize]
  field_simp
  ring

theorem sub_center_eq (nonzero : grid.stepSize ≠ 0) (pt : Vec3 K) (axis : Axis) :
    pt.get axis - grid.center.get axis = grid.offset pt axis * grid.stepSize := by
  rw [offset, invStepSize]
  field_simp

variable [LinearOrder K] [FloorRing K]

def coord2Index (pt : Vec3 K) : Option (Vec3 ℤ) :=
  let idx := Vec3.ofAxes fun axis => castInt (grid.offset pt axis + 0.5) + grid.centerIdx.get axis
  if grid.InPool idx then some idx else none

theorem coord2Index_eq_some {pt : Vec3 K} {idx : Vec3 ℤ} :
    grid.coord2Index pt = some idx ↔ grid.InPool idx ∧
      ∀ axis, idx.get axis = castInt (grid.offset pt axis + 0.5) + grid.centerIdx.get axis := by
  rw [coord2Index]
  constructor
  · intro accepted
    split at accepted
    next inside =>
      rw [Option.some.injEq] at accepted
      rw [accepted] at inside
      refine ⟨inside, fun axis => ?_⟩
      rw [← accepted, Vec3.get_ofAxes]
    next => contradiction
  · rintro ⟨inside, each⟩
    have same : idx = Vec3.ofAxes fun axis =>
        castInt (grid.offset pt axis + 0.5) + grid.centerIdx.get axis := by
      apply Vec3.ext_get
      intro axis
      rw [Vec3.get_ofAxes, each axis]
    rw [← same, if_pos inside]

variable [IsStrictOrderedRing K]

/-- A point and a cell are at most half a step apart on each axis. -/
def WithinHalfStep (pt : Vec3 K) (idx : Vec3 ℤ) : Prop :=
  ∀ axis, |(grid.index2Coord idx).get axis - pt.get axis| ≤ grid.stepSize / 2

theorem withinHalfStep_iff (positive : 0 < grid.stepSize) {pt : Vec3 K} {idx : Vec3 ℤ}
    (accepted : grid.coord2Index pt = some idx) :
    grid.WithinHalfStep pt idx ↔ ∀ axis, RoundsToNearest (grid.offset pt axis) := by
  have cells := (grid.coord2Index_eq_some.mp accepted).2
  apply forall_congr'
  intro axis
  have apart : (grid.index2Coord idx).get axis - pt.get axis =
      ((castInt (grid.offset pt axis + 0.5) : K) - grid.offset pt axis) * grid.stepSize := by
    calc
      _ = ((idx.get axis - grid.centerIdx.get axis : ℤ) : K) * grid.stepSize -
          (pt.get axis - grid.center.get axis) := by
        rw [index2Coord, Vec3.get_ofAxes]
        ring
      _ = _ := by
        rw [grid.sub_center_eq positive.ne', cells axis, add_sub_cancel_right]
        ring
  have half : grid.stepSize / 2 = 0.5 * grid.stepSize := by ring
  rw [apart, abs_mul, abs_of_pos positive, half, mul_le_mul_iff_of_pos_right positive]
  exact castInt_near_iff _

theorem roundTrip_iff (nonzero : grid.stepSize ≠ 0) {i : Vec3 ℤ} (inside : grid.InPool i) :
    grid.coord2Index (grid.index2Coord i) = some i ↔
      ∀ axis, grid.centerIdx.get axis ≤ i.get axis := by
  rw [coord2Index_eq_some, and_iff_right inside]
  apply forall_congr'
  intro axis
  rw [grid.index2Coord_offset nonzero, ← sub_eq_iff_eq_add, eq_comm, castInt_int_iff, sub_nonneg]

/-- Which points and cells the maps of the grid treat as a nearest-cell quantisation would. -/
theorem nearest_cell (positive : 0 < grid.stepSize) :
    (∀ pt idx, grid.coord2Index pt = some idx →
      (grid.WithinHalfStep pt idx ↔ ∀ axis, RoundsToNearest (grid.offset pt axis))) ∧
    ∀ i, grid.InPool i → (grid.coord2Index (grid.index2Coord i) = some i ↔
      ∀ axis, grid.centerIdx.get axis ≤ i.get axis) :=
  ⟨fun _ _ => grid.withinHalfStep_iff positive, fun _ => grid.roundTrip_iff positive.ne'⟩

def meterGrid : Grid ℚ := ⟨⟨3, 3, 3⟩, 1, 0⟩

theorem nearest_cell_meterGrid :
    (∀ pt idx, meterGrid.coord2Index pt = some idx →
      (meterGrid.WithinHalfStep pt idx ↔ ∀ axis, RoundsToNearest (meterGrid.offset pt axis))) ∧
    ∀ i, meterGrid.InPool i → (meterGrid.coord2Index (meterGrid.index2Coord i) = some i ↔
      ∀ axis, meterGrid.centerIdx.get axis ≤ i.get axis) :=
  meterGrid.nearest_cell (by decide)

/-- The centre of the first cell along the x axis goes to the next one, a whole step away. -/
theorem first_cell_lost :
    meterGrid.InPool ⟨0, 1, 1⟩ ∧ meterGrid.index2Coord ⟨0, 1, 1⟩ = ⟨-1, 0, 0⟩ ∧
      meterGrid.coord2Index ⟨-1, 0, 0⟩ = some ⟨1, 1, 1⟩ ∧
      ¬meterGrid.WithinHalfStep ⟨-1, 0, 0⟩ ⟨1, 1, 1⟩ := by
  refine ⟨by decide, by decide +kernel, by decide +kernel, fun near => ?_⟩
  have on_x := near .x
  revert on_x
  decide +kernel

end Grid

end RobocupDrone.PathSearching
