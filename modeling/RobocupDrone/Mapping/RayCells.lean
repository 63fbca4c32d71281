import Mathlib.Data.List.Chain
import Mathlib.Data.Rat.Floor
import RobocupDrone.Mapping.RayCaster

/-! The cells that the steps of a ray caster write, up to the step that returns false. -/

namespace RobocupDrone.Mapping

open Geometry

variable {K : Type}

namespace RayCaster

variable {ray : RayCaster K}

section

variable [Field K] [LinearOrder K] [IsStrictOrderedRing K]

/-- The cells written to `ray_pt` by the calls of `step` up to the one that returns false. -/
def traversal : ℕ → RayCaster K → Option (List (Vec3 ℤ))
  | 0, _ => none
  | fuel + 1, ray =>
      match ray.step with
      | none => some [ray.cell]
      | some (cell, next) => (traversal fuel next).map (cell :: ·)

/-- One unit along one axis, towards the cell `stop`. -/
def UnitToward (stop m n : Vec3 ℤ) : Prop :=
  ∃ axis, m.get axis ≠ stop.get axis ∧
    n.get axis = m.get axis + signum (stop.get axis - m.get axis) ∧
    ∀ other ≠ axis, n.get other = m.get other

def cellsApart (m n : Vec3 ℤ) : ℕ :=
  (n.x - m.x).natAbs + (n.y - m.y).natAbs + (n.z - m.z).natAbs

structure IsTraversal (first last : Vec3 ℤ) (path : List (Vec3 ℤ)) : Prop where
  count : path.length = cellsApart first last + 1
  head : path.head? = some first
  getLast : path.getLast? = some last
  nodup : path.Nodup
  steps : path.IsChain (UnitToward last)

theorem Paced.unitToward (paced : ray.Paced) (under_way : ray.cell ≠ ray.stop) :
    UnitToward ray.stop ray.cell (ray.advance ray.nextAxis).cell := by
  have moves := paced.nextAxis_moves under_way
  have toward := (paced ray.nextAxis).toward
  have unit := (paced ray.nextAxis).step_natAbs moves
  have pos : ∀ axis, ray.cell.get axis = (ray.cursor axis).pos := fun axis => Vec3.get_ofAxes _ _
  have goal : ∀ axis, ray.stop.get axis = (ray.cursor axis).stop := fun axis => Vec3.get_ofAxes _ _
  have next : ∀ axis, (ray.advance ray.nextAxis).cell.get axis =
      ((ray.advance ray.nextAxis).cursor axis).pos := fun axis => Vec3.get_ofAxes _ _
  refine ⟨ray.nextAxis, ?_, ?_, fun other different => ?_⟩
  · rw [pos, goal]
    exact fun same => moves (Cursor.left_eq_zero_iff.mpr same)
  · have way : (ray.cursor ray.nextAxis).stop - (ray.cursor ray.nextAxis).pos =
        (ray.cursor ray.nextAxis).step * ((ray.cursor ray.nextAxis).left : ℤ) := by
      rw [toward]
      ring
    have positive : 0 < ((ray.cursor ray.nextAxis).left : ℤ) := by
      exact_mod_cast Nat.pos_of_ne_zero moves
    rw [next, cursor_advance_self, Cursor.advance, pos, goal, way, signum_eq_sign, Int.sign_mul,
      Int.sign_eq_one_of_pos positive, mul_one]
    rcases Int.natAbs_eq_iff.mp unit with forward | backward
    · rw [forward]
      rfl
    · rw [backward]
      rfl
  · rw [next, cursor_advance_of_ne ray different, pos]

end

theorem distance_eq (ray : RayCaster K) : ray.distance = cellsApart ray.cell ray.stop := rfl

theorem cellsApart_zero (m : Vec3 ℤ) : cellsApart m m = 0 := by
  simp [cellsApart]

variable [Field K] [LinearOrder K] [IsStrictOrderedRing K]

theorem Paced.traversal_spec (paced : ray.Paced) : ∃ path, IsTraversal ray.cell ray.stop path ∧
    (∀ m ∈ path, cellsApart m ray.stop ≤ ray.distance) ∧
    (∀ fuel > ray.distance, ray.traversal fuel = some path) ∧
    ∀ fuel ≤ ray.distance, ray.traversal fuel = none := by
  generalize far : ray.distance = n
  induction n generalizing ray with
  | zero =>
      have there := distance_eq_zero_iff.mp far
      refine ⟨[ray.cell], ?_, ?_, fun fuel enough => ?_, fun fuel short => ?_⟩
      · rw [there]
        exact ⟨by rw [cellsApart_zero]; rfl, rfl, rfl, List.nodup_singleton _,
          List.isChain_singleton _⟩
      · intro m member
        rw [List.mem_singleton.mp member, ← distance_eq, far]
      · obtain ⟨fuel, rfl⟩ := Nat.exists_eq_add_of_le' enough
        rw [traversal, step, if_pos there]
      · rw [Nat.le_zero.mp short, traversal]
  | succ n ih =>
      have under_way : ray.cell ≠ ray.stop := by
        intro there
        rw [distance_eq_zero_iff.mpr there] at far
        contradiction
      have fewer := paced.distance_advance under_way
      have near : (ray.advance ray.nextAxis).distance = n := by omega
      have same_end := ray.stop_advance ray.nextAxis
      have step_eq : ray.step = some (ray.cell, ray.advance ray.nextAxis) := if_neg under_way
      obtain ⟨path, is_path, close, long_enough, too_short⟩ := ih (paced.advance under_way) near
      rw [same_end] at is_path close
      have count := is_path.count
      rw [← same_end, ← distance_eq, near] at count
      refine ⟨ray.cell :: path, ⟨?_, rfl, ?_, ?_, ?_⟩, ?_, fun fuel enough => ?_,
        fun fuel short => ?_⟩
      · rw [List.length_cons, count, ← distance_eq, far]
      · rw [List.getLast?_cons, is_path.getLast, Option.getD_some]
      · rw [List.nodup_cons]
        refine ⟨fun again => ?_, is_path.nodup⟩
        have closer := close ray.cell again
        rw [← distance_eq, far] at closer
        omega
      · rw [List.isChain_cons]
        refine ⟨fun m first => ?_, is_path.steps⟩
        rw [is_path.head, Option.mem_some_iff] at first
        rw [← first]
        exact paced.unitToward under_way
      · intro m member
        rcases List.mem_cons.mp member with rfl | later
        · rw [← distance_eq, far]
        · exact (close m later).trans (Nat.le_succ n)
      · obtain ⟨fuel, rfl⟩ := Nat.exists_eq_add_of_le' (Nat.one_le_of_lt enough)
        rw [traversal, step_eq]
        simp only [long_enough fuel (Nat.lt_of_succ_lt_succ enough), Option.map_some]
      · cases fuel with
        | zero => rfl
        | succ fuel =>
            rw [traversal, step_eq]
            simp only [too_short fuel (Nat.le_of_succ_le_succ short), Option.map_none]

variable [FloorRing K]

def floorCell (pt : Vec3 K) : Vec3 ℤ := Vec3.ofAxes fun axis => ⌊pt.get axis⌋

/-- The traversal ends after as many advancing steps as there are cells between its ends, and goes
from the cell of the start to that of the end. -/
theorem traversal_ends (start stop : Vec3 K) :
    ∃ path, IsTraversal (floorCell start) (floorCell stop) path ∧
      (∀ fuel > cellsApart (floorCell start) (floorCell stop),
        (setInput start stop).traversal fuel = some path) ∧
      ∀ fuel ≤ cellsApart (floorCell start) (floorCell stop),
        (setInput start stop).traversal fuel = none := by
  obtain ⟨path, is_path, _, long_enough, too_short⟩ := (paced_setInput start stop).traversal_spec
  exact ⟨path, is_path, long_enough, too_short⟩

theorem traversal_ends_backwards :
    ∃ path, IsTraversal (floorCell (⟨1 / 2, 1, 0⟩ : Vec3 ℚ)) (floorCell (⟨-5 / 2, 2, 0⟩ : Vec3 ℚ))
        path ∧
      (∀ fuel > cellsApart (floorCell (⟨1 / 2, 1, 0⟩ : Vec3 ℚ))
          (floorCell (⟨-5 / 2, 2, 0⟩ : Vec3 ℚ)),
        (setInput (⟨1 / 2, 1, 0⟩ : Vec3 ℚ) ⟨-5 / 2, 2, 0⟩).traversal fuel = some path) ∧
      ∀ fuel ≤ cellsApart (floorCell (⟨1 / 2, 1, 0⟩ : Vec3 ℚ))
          (floorCell (⟨-5 / 2, 2, 0⟩ : Vec3 ℚ)),
        (setInput (⟨1 / 2, 1, 0⟩ : Vec3 ℚ) ⟨-5 / 2, 2, 0⟩).traversal fuel = none :=
  traversal_ends (⟨1 / 2, 1, 0⟩ : Vec3 ℚ) ⟨-5 / 2, 2, 0⟩

end RayCaster

end RobocupDrone.Mapping
