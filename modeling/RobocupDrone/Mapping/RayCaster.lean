import Mathlib.Algebra.Order.AddGroupWithTop
import Mathlib.Algebra.Order.Floor.Ring
import Mathlib.Order.Interval.Set.UnorderedInterval
import Mathlib.Tactic.FieldSimp
import RobocupDrone.Library.Vec3

/-! `raycast.cpp`: the cells a ray runs through, from its start towards its end. -/

namespace RobocupDrone.Mapping

open Geometry

variable {K : Type}

/-- What the ray caster keeps for one axis: `x_`, `endX_`, `stepX_`, `tMaxX_` and `tDeltaX_`. -/
structure Cursor (K : Type) where
  pos : ℤ
  stop : ℤ
  step : ℤ
  tMax : WithTop K
  tDelta : K

def Cursor.left (c : Cursor K) : ℕ := (c.stop - c.pos).natAbs

theorem Cursor.left_eq_zero_iff {c : Cursor K} : c.left = 0 ↔ c.pos = c.stop := by
  rw [left, Int.natAbs_eq_zero, sub_eq_zero, eq_comm]

structure RayCaster (K : Type) where
  cursor : Axis → Cursor K

namespace RayCaster

def cell (ray : RayCaster K) : Vec3 ℤ := Vec3.ofAxes fun axis => (ray.cursor axis).pos

def stop (ray : RayCaster K) : Vec3 ℤ := Vec3.ofAxes fun axis => (ray.cursor axis).stop

def distance (ray : RayCaster K) : ℕ :=
  (ray.cursor .x).left + (ray.cursor .y).left + (ray.cursor .z).left

theorem distance_eq_zero_iff {ray : RayCaster K} : ray.distance = 0 ↔ ray.cell = ray.stop := by
  have on_axis : ∀ axis, (ray.cursor axis).left = 0 ↔ ray.cell.get axis = ray.stop.get axis := by
    intro axis
    rw [Cursor.left_eq_zero_iff, cell, stop, Vec3.get_ofAxes, Vec3.get_ofAxes]
  constructor
  · intro none_left
    apply Vec3.ext_get
    intro axis
    rw [← on_axis axis]
    unfold distance at none_left
    cases axis <;> omega
  · intro there
    have arrived : ∀ axis, (ray.cursor axis).left = 0 := fun axis =>
      (on_axis axis).mpr (by rw [there])
    rw [distance, arrived, arrived, arrived]

end RayCaster

section

variable [Field K] [LinearOrder K]

def signum (x : ℤ) : ℤ := if x = 0 then 0 else if x < 0 then -1 else 1

section Input

variable [FloorRing K]

/-- `fmod` of the C library: the quotient is rounded towards zero. -/
def fmod (value modulus : K) : K :=
  value - modulus * (if 0 ≤ value / modulus then ⌊value / modulus⌋ else ⌈value / modulus⌉ : ℤ)

def mod (value modulus : K) : K := fmod (fmod value modulus + modulus) modulus

/-- `(1 - s) / ds` of `intbound`, where `1 - s` is positive and a division by zero infinite. -/
def crossing (s ds : K) : WithTop K :=
  if ds = 0 then ⊤ else ((1 - mod s 1) / ds : K)

def intbound (s ds : K) : WithTop K :=
  if ds < 0 then crossing (-s) (-ds) else crossing s ds

/-- `tDelta` of an axis without a cell difference is not a number in the source, and never
used. -/
def Cursor.setInput (start stop : K) : Cursor K :=
  let dx := ⌊stop⌋ - ⌊start⌋
  { pos := ⌊start⌋
    stop := ⌊stop⌋
    step := signum dx
    tMax := intbound start dx
    tDelta := signum dx / dx }

def RayCaster.setInput (start stop : Vec3 K) : RayCaster K :=
  ⟨fun axis => Cursor.setInput (start.get axis) (stop.get axis)⟩

end Input

def Cursor.advance (c : Cursor K) : Cursor K :=
  { c with pos := c.pos + c.step, tMax := c.tMax + c.tDelta }

namespace RayCaster

def nextAxis (ray : RayCaster K) : Axis :=
  if (ray.cursor .x).tMax < (ray.cursor .y).tMax then
    if (ray.cursor .x).tMax < (ray.cursor .z).tMax then .x else .z
  else
    if (ray.cursor .y).tMax < (ray.cursor .z).tMax then .y else .z

def advance (ray : RayCaster K) (axis : Axis) : RayCaster K :=
  ⟨Function.update ray.cursor axis (ray.cursor axis).advance⟩

/-- `step`: the cell written to `ray_pt` with the ray caster left behind, or nothing where the
source returns `false`. -/
def step (ray : RayCaster K) : Option (Vec3 ℤ × RayCaster K) :=
  if ray.cell = ray.stop then none else some (ray.cell, ray.advance ray.nextAxis)

/-- The cells of the first `fuel` steps. -/
def walk : ℕ → RayCaster K → List (Vec3 ℤ)
  | 0, _ => []
  | fuel + 1, ray =>
      match ray.step with
      | none => []
      | some (cell, next) => cell :: walk fuel next

/-- The cells that `while (raycaster.step(ray_pt))` goes through when nothing breaks it off:
`walk_distance` shows that no step is missing. -/
def cells (ray : RayCaster K) : List (Vec3 ℤ) := ray.walk ray.distance

end RayCaster

theorem signum_eq_sign (x : ℤ) : signum x = x.sign := by
  rcases lt_trichotomy x 0 with below | rfl | above
  · rw [signum, if_neg below.ne, if_pos below, Int.sign_eq_neg_one_of_neg below]
  · rfl
  · rw [signum, if_neg above.ne', if_neg above.not_gt, Int.sign_eq_one_of_pos above]

section Crossings

variable [FloorRing K]

theorem fmod_one_of_nonneg {value : K} (nonneg : 0 ≤ value) : fmod value 1 = Int.fract value := by
  rw [fmod, div_one, if_pos nonneg, one_mul, Int.fract]

variable [IsStrictOrderedRing K]

theorem mod_one (value : K) : mod value 1 = Int.fract value := by
  have inner : ∃ m : ℤ, fmod value 1 = value - m ∧ -1 < value - m := by
    rw [fmod, div_one, one_mul]
    split
    · exact ⟨⌊value⌋, rfl, by linarith [Int.floor_le value]⟩
    · exact ⟨⌈value⌉, rfl, by linarith [Int.ceil_lt_add_one value]⟩
  rcases inner with ⟨m, rounded, above⟩
  have shifted : value - m + 1 = value - ((m - 1 : ℤ) : K) := by
    push_cast
    ring
  rw [mod, rounded, fmod_one_of_nonneg (by linarith), shifted, Int.fract_sub_intCast]

theorem intbound_within_cell (s : K) {dx : ℤ} (moves : dx ≠ 0) :
    ∃ t : K, intbound s (dx : K) = t ∧ 0 < t ∧ t ≤ 1 / |(dx : K)| := by
  have moves_cast : (dx : K) ≠ 0 := Int.cast_ne_zero.mpr moves
  have size : 0 < |(dx : K)| := abs_pos.mpr moves_cast
  have within : ∀ r : K, 0 < (1 - Int.fract r) / |(dx : K)| ∧
      (1 - Int.fract r) / |(dx : K)| ≤ 1 / |(dx : K)| := by
    intro r
    have fract_lt := Int.fract_lt_one r
    have fract_nonneg := Int.fract_nonneg r
    constructor
    · apply div_pos _ size
      linarith
    · apply div_le_div_of_nonneg_right _ size.le
      linarith
  rcases lt_or_ge (dx : K) 0 with below | above
  · refine ⟨(1 - Int.fract (-s)) / |(dx : K)|, ?_, within (-s)⟩
    rw [intbound, if_pos below, crossing, if_neg (neg_ne_zero.mpr moves_cast), mod_one,
      abs_of_neg below]
  · refine ⟨(1 - Int.fract s) / |(dx : K)|, ?_, within s⟩
    rw [intbound, if_neg above.not_gt, crossing, if_neg moves_cast, mod_one, abs_of_nonneg above]

theorem signum_div_self {dx : ℤ} (moves : dx ≠ 0) :
    ((signum dx : ℤ) : K) / (dx : K) = 1 / |(dx : K)| := by
  rw [signum_eq_sign]
  rcases lt_or_gt_of_ne moves with below | above
  · have below_cast : (dx : K) < 0 := Int.cast_lt_zero.mpr below
    rw [Int.sign_eq_neg_one_of_neg below, abs_of_neg below_cast, Int.cast_neg, Int.cast_one,
      div_neg, neg_div]
  · have above_cast : 0 < (dx : K) := Int.cast_pos.mpr above
    rw [Int.sign_eq_one_of_pos above, abs_of_pos above_cast, Int.cast_one]

end Crossings

namespace Cursor

/-- The boundary crossings ahead: an axis that has arrived crosses its next boundary after the
end of the ray at time one, any other reaches its last cell before it. -/
structure Paced (c : Cursor K) : Prop where
  toward : c.stop = c.pos + c.step * c.left
  arrived : c.left = 0 → 1 < c.tMax
  moving : c.left ≠ 0 → ∃ t : K, c.tMax = t ∧ t + (c.left - 1) * c.tDelta ≤ 1 ∧
    1 < t + c.left * c.tDelta

variable {c : Cursor K}

theorem Paced.step_natAbs (paced : c.Paced) (moves : c.left ≠ 0) : c.step.natAbs = 1 := by
  have gap : c.stop - c.pos = c.step * c.left := by
    rw [paced.toward]
    ring
  have sizes : c.left = c.step.natAbs * c.left := by
    calc c.left = (c.stop - c.pos).natAbs := rfl
      _ = c.step.natAbs * c.left := by rw [gap, Int.natAbs_mul, Int.natAbs_natCast]
  apply Nat.eq_of_mul_eq_mul_right (Nat.pos_of_ne_zero moves)
  exact sizes.symm.trans (one_mul c.left).symm

theorem Paced.left_advance (paced : c.Paced) (moves : c.left ≠ 0) :
    c.advance.left + 1 = c.left := by
  have unit := paced.step_natAbs moves
  have toward := paced.toward
  have gap : c.advance.left = (c.stop - (c.pos + c.step)).natAbs := rfl
  rcases Int.natAbs_eq_iff.mp unit with forward | backward
  · rw [forward] at toward gap
    omega
  · rw [backward] at toward gap
    omega

theorem Paced.pos_advance_mem (paced : c.Paced) (moves : c.left ≠ 0) :
    c.advance.pos ∈ Set.uIcc c.pos c.stop := by
  have unit := paced.step_natAbs moves
  have toward := paced.toward
  change c.pos + c.step ∈ Set.uIcc c.pos c.stop
  rw [Set.mem_uIcc]
  rcases Int.natAbs_eq_iff.mp unit with forward | backward
  · rw [forward] at toward ⊢
    omega
  · rw [backward] at toward ⊢
    omega

variable [IsStrictOrderedRing K]

theorem paced_setInput [FloorRing K] (start stop : K) : (setInput start stop).Paced := by
  have left_cast : (((⌊stop⌋ - ⌊start⌋).natAbs : ℕ) : K) = |((⌊stop⌋ - ⌊start⌋ : ℤ) : K)| := by
    rw [← Int.cast_abs, Int.abs_eq_natAbs, Int.cast_natCast]
  constructor
  · change ⌊stop⌋ = ⌊start⌋ + signum (⌊stop⌋ - ⌊start⌋) * ((⌊stop⌋ - ⌊start⌋).natAbs : ℤ)
    rw [signum_eq_sign, Int.sign_mul_natAbs]
    ring
  · intro still
    have same_cell : ⌊stop⌋ - ⌊start⌋ = 0 := Int.natAbs_eq_zero.mp still
    have never : (setInput start stop).tMax = ⊤ := by
      simp [setInput, same_cell, intbound, crossing]
    rw [never]
    exact WithTop.one_lt_top
  · intro moves
    have cells_apart : ⌊stop⌋ - ⌊start⌋ ≠ 0 := fun same => moves (Int.natAbs_eq_zero.mpr same)
    rcases intbound_within_cell start cells_apart with ⟨t, first, positive, within⟩
    have size : 0 < |((⌊stop⌋ - ⌊start⌋ : ℤ) : K)| :=
      abs_pos.mpr (Int.cast_ne_zero.mpr cells_apart)
    have pace : (setInput start stop).tDelta = 1 / |((⌊stop⌋ - ⌊start⌋ : ℤ) : K)| :=
      signum_div_self cells_apart
    have whole : |((⌊stop⌋ - ⌊start⌋ : ℤ) : K)| * (1 / |((⌊stop⌋ - ⌊start⌋ : ℤ) : K)|) = 1 :=
      mul_one_div_cancel size.ne'
    refine ⟨t, first, ?_, ?_⟩
    · rw [pace, left, show (setInput start stop).stop - (setInput start stop).pos =
        ⌊stop⌋ - ⌊start⌋ from rfl, left_cast, sub_mul, whole]
      linarith
    · rw [pace, left, show (setInput start stop).stop - (setInput start stop).pos =
        ⌊stop⌋ - ⌊start⌋ from rfl, left_cast, whole]
      linarith

theorem Paced.tDelta_pos (paced : c.Paced) (moves : c.left ≠ 0) : 0 < c.tDelta := by
  rcases paced.moving moves with ⟨t, _, before, after⟩
  linarith

theorem Paced.tMax_le_one (paced : c.Paced) (moves : c.left ≠ 0) : c.tMax ≤ 1 := by
  have pace := paced.tDelta_pos moves
  rcases paced.moving moves with ⟨t, next, before, _⟩
  have ahead : (1 : K) ≤ c.left := by exact_mod_cast Nat.one_le_iff_ne_zero.mpr moves
  have rest : 0 ≤ (c.left - 1) * c.tDelta := mul_nonneg (by linarith) pace.le
  rw [next]
  exact_mod_cast (by linarith : t ≤ 1)

theorem Paced.advance (paced : c.Paced) (moves : c.left ≠ 0) : c.advance.Paced := by
  have fewer := paced.left_advance moves
  have fewer_cast : (c.left : K) = c.advance.left + 1 := by exact_mod_cast fewer.symm
  rcases paced.moving moves with ⟨t, next, before, after⟩
  have advanced : c.advance.tMax = ((t + c.tDelta : K) : WithTop K) := by
    rw [Cursor.advance, next, WithTop.coe_add]
  constructor
  · have toward := paced.toward
    change c.stop = c.pos + c.step + c.step * c.advance.left
    rw [toward, ← fewer]
    push_cast
    ring
  · intro arrived
    rw [arrived, Nat.cast_zero, zero_add] at fewer_cast
    rw [fewer_cast, one_mul] at after
    rw [advanced]
    exact_mod_cast after
  · intro _
    refine ⟨t + c.tDelta, advanced, ?_, ?_⟩
    · rw [fewer_cast] at before
      change t + c.tDelta + (c.advance.left - 1) * c.tDelta ≤ 1
      linarith
    · rw [fewer_cast] at after
      change 1 < t + c.tDelta + c.advance.left * c.tDelta
      linarith

end Cursor

end

namespace RayCaster

variable {ray : RayCaster K}

section

variable [Field K]

theorem cursor_advance_self (ray : RayCaster K) (axis : Axis) :
    (ray.advance axis).cursor axis = (ray.cursor axis).advance :=
  Function.update_self _ _ _

theorem cursor_advance_of_ne (ray : RayCaster K) {axis other : Axis} (different : other ≠ axis) :
    (ray.advance axis).cursor other = ray.cursor other :=
  Function.update_of_ne different _ _

theorem stop_advance (ray : RayCaster K) (axis : Axis) : (ray.advance axis).stop = ray.stop := by
  apply Vec3.ext_get
  intro other
  rw [stop, stop, Vec3.get_ofAxes, Vec3.get_ofAxes]
  by_cases same : other = axis
  · rw [same, cursor_advance_self]
    rfl
  · rw [cursor_advance_of_ne ray same]

end

variable [LinearOrder K]

theorem nextAxis_le (ray : RayCaster K) (axis : Axis) :
    (ray.cursor ray.nextAxis).tMax ≤ (ray.cursor axis).tMax := by
  unfold nextAxis
  split_ifs with x_before_y x_before_z y_before_z
  · cases axis
    · exact le_refl _
    · exact x_before_y.le
    · exact x_before_z.le
  · have z_before_x := not_lt.mp x_before_z
    cases axis
    · exact z_before_x
    · exact z_before_x.trans x_before_y.le
    · exact le_refl _
  · have y_before_x := not_lt.mp x_before_y
    cases axis
    · exact y_before_x
    · exact le_refl _
    · exact y_before_z.le
  · have z_before_y := not_lt.mp y_before_z
    cases axis
    · exact z_before_y.trans (not_lt.mp x_before_y)
    · exact z_before_y
    · exact le_refl _

variable [Field K]

theorem cells_of_under_way {ray : RayCaster K} (under_way : ray.cell ≠ ray.stop) :
    ∃ rest, ray.cells = ray.cell :: rest := by
  have far : ray.distance ≠ 0 := fun none_left => under_way (distance_eq_zero_iff.mp none_left)
  rcases Nat.exists_eq_succ_of_ne_zero far with ⟨fuel, distance_eq⟩
  refine ⟨(ray.advance ray.nextAxis).walk fuel, ?_⟩
  rw [cells, distance_eq, walk, step, if_neg under_way]

def Paced (ray : RayCaster K) : Prop := ∀ axis, (ray.cursor axis).Paced

variable [IsStrictOrderedRing K]

theorem paced_setInput [FloorRing K] (start stop : Vec3 K) : (setInput start stop).Paced :=
  fun axis => Cursor.paced_setInput (start.get axis) (stop.get axis)

/-- Before the end, the axis chosen by `step` still has cells to go: one that has arrived is
behind the others in time. -/
theorem Paced.nextAxis_moves (paced : ray.Paced) (under_way : ray.cell ≠ ray.stop) :
    (ray.cursor ray.nextAxis).left ≠ 0 := by
  rcases Vec3.exists_get_ne under_way with ⟨axis, apart⟩
  rw [cell, stop, Vec3.get_ofAxes, Vec3.get_ofAxes] at apart
  have moves : (ray.cursor axis).left ≠ 0 := fun none_left =>
    apart (Cursor.left_eq_zero_iff.mp none_left)
  have in_time : (ray.cursor ray.nextAxis).tMax ≤ 1 :=
    (ray.nextAxis_le axis).trans ((paced axis).tMax_le_one moves)
  intro none_left
  exact absurd in_time (not_le.mpr ((paced ray.nextAxis).arrived none_left))

theorem Paced.advance (paced : ray.Paced) (under_way : ray.cell ≠ ray.stop) :
    (ray.advance ray.nextAxis).Paced := by
  intro axis
  by_cases same : axis = ray.nextAxis
  · rw [same, cursor_advance_self]
    exact (paced ray.nextAxis).advance (paced.nextAxis_moves under_way)
  · rw [cursor_advance_of_ne ray same]
    exact paced axis

theorem Paced.distance_advance (paced : ray.Paced) (under_way : ray.cell ≠ ray.stop) :
    (ray.advance ray.nextAxis).distance + 1 = ray.distance := by
  have fewer := (paced ray.nextAxis).left_advance (paced.nextAxis_moves under_way)
  unfold distance
  cases chosen : ray.nextAxis with
  | x =>
      rw [chosen] at fewer
      rw [cursor_advance_self, cursor_advance_of_ne ray (by decide : Axis.y ≠ Axis.x),
        cursor_advance_of_ne ray (by decide : Axis.z ≠ Axis.x)]
      omega
  | y =>
      rw [chosen] at fewer
      rw [cursor_advance_self, cursor_advance_of_ne ray (by decide : Axis.x ≠ Axis.y),
        cursor_advance_of_ne ray (by decide : Axis.z ≠ Axis.y)]
      omega
  | z =>
      rw [chosen] at fewer
      rw [cursor_advance_self, cursor_advance_of_ne ray (by decide : Axis.x ≠ Axis.z),
        cursor_advance_of_ne ray (by decide : Axis.y ≠ Axis.z)]
      omega

theorem Paced.cell_advance_mem (paced : ray.Paced) (under_way : ray.cell ≠ ray.stop)
    (axis : Axis) :
    (ray.advance ray.nextAxis).cell.get axis ∈
      Set.uIcc (ray.cell.get axis) (ray.stop.get axis) := by
  rw [cell, cell, stop, Vec3.get_ofAxes, Vec3.get_ofAxes, Vec3.get_ofAxes]
  by_cases same : axis = ray.nextAxis
  · rw [same, cursor_advance_self]
    exact (paced ray.nextAxis).pos_advance_mem (paced.nextAxis_moves under_way)
  · rw [cursor_advance_of_ne ray same]
    exact Set.left_mem_uIcc

theorem Paced.step_cases (paced : ray.Paced) :
    (ray.cell = ray.stop ∧ ray.step = none) ∨
    ∃ next : RayCaster K, ray.step = some (ray.cell, next) ∧ ray.cell ≠ ray.stop ∧ next.Paced ∧
      next.distance + 1 = ray.distance ∧ next.stop = ray.stop ∧
      ∀ axis, next.cell.get axis ∈ Set.uIcc (ray.cell.get axis) (ray.stop.get axis) := by
  by_cases there : ray.cell = ray.stop
  · exact Or.inl ⟨there, if_pos there⟩
  · exact Or.inr ⟨ray.advance ray.nextAxis, if_neg there, there, paced.advance there,
      paced.distance_advance there, ray.stop_advance _, paced.cell_advance_mem there⟩

theorem Paced.walk_distance (paced : ray.Paced) (extra : ℕ) :
    ray.walk (ray.distance + extra) = ray.cells ∧ ray.cells.length = ray.distance := by
  generalize far : ray.distance = n
  induction n generalizing ray with
  | zero =>
      have there := distance_eq_zero_iff.mp far
      have ends : ∀ fuel, ray.walk fuel = [] := by
        intro fuel
        cases fuel with
        | zero => rfl
        | succ fuel => rw [walk, step, if_pos there]
      rw [cells, ends, ends]
      exact ⟨rfl, rfl⟩
  | succ n ih =>
      rcases paced.step_cases with ⟨there, _⟩ | ⟨next, made, _, next_paced, fewer, _⟩
      · rw [distance_eq_zero_iff.mpr there] at far
        omega
      · have near : next.distance = n := by omega
        rcases ih next_paced near with ⟨same, count⟩
        rw [cells, far, show n + 1 + extra = n + extra + 1 by omega, walk, walk, made]
        rw [cells, near] at same count
        exact ⟨congrArg _ same, congrArg _ count⟩

/-- The cells gone through lie between the first and the last one on every axis, and the last
one is not among them. -/
theorem Paced.walk_between (paced : ray.Paced) (fuel : ℕ) {passed : Vec3 ℤ}
    (passes : passed ∈ ray.walk fuel) :
    passed ≠ ray.stop ∧
      ∀ axis, passed.get axis ∈ Set.uIcc (ray.cell.get axis) (ray.stop.get axis) := by
  induction fuel generalizing ray with
  | zero => simp [walk] at passes
  | succ fuel ih =>
      rcases paced.step_cases with
        ⟨_, ends⟩ | ⟨next, made, under_way, next_paced, _, same_end, near⟩
      · simp [walk, ends] at passes
      · simp only [walk, made, List.mem_cons] at passes
        rcases passes with here | later
        · rw [here]
          exact ⟨under_way, fun axis => Set.left_mem_uIcc⟩
        · rcases ih next_paced later with ⟨before_end, between⟩
          rw [same_end] at before_end between
          refine ⟨before_end, fun axis => ?_⟩
          exact Set.uIcc_subset_uIcc (near axis) Set.right_mem_uIcc (between axis)

end RayCaster

end RobocupDrone.Mapping
