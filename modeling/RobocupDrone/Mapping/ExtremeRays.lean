import RobocupDrone.Mapping.RayReach

/-! Projected points whose rays end at a given distance from the camera along an axis, and the
depth frames that stay in the map. -/

namespace RobocupDrone.Mapping

open Geometry

variable {K : Type} [Field K]

section Nearest

variable [LinearOrder K]

theorem nearer_of_nonpos {t : K} (behind : t ≤ 0) (minT : K) : nearer t minT = minT :=
  if_neg fun ahead => absurd ahead.1 (not_lt.mpr behind)

theorem nearer_of_lt {t minT : K} (ahead : 0 < t) (before : t < minT) : nearer t minT = t :=
  if_pos ⟨ahead, before⟩

variable [IsStrictOrderedRing K]

theorem nearerOnAxis_zero (maxTc minTc minT : K) : nearerOnAxis 0 maxTc minTc minT = minT := by
  rw [nearerOnAxis, abs_zero, if_neg (lt_irrefl 0)]

theorem div_pos_iff_mul_pos {a b : K} : 0 < a / b ↔ 0 < a * b :=
  div_pos_iff.trans mul_pos_iff.symm

theorem div_nonpos_iff_mul_nonpos {a b : K} : a / b ≤ 0 ↔ a * b ≤ 0 := by
  rw [← not_lt, ← not_lt, div_pos_iff_mul_pos]

/-- A point a thousand times as far beyond a boundary as the wanted end, which lies on the other
side, leaves the other boundary behind and is in no range between the two. -/
theorem beyond_opposite {boundary other extent : K} (opposite : boundary * extent < 0)
    (ahead : 0 < other * extent) :
    other * (1000 * (boundary - extent)) ≤ 0 ∧
      ¬ (boundary < 1000 * (boundary - extent) ∧ 1000 * (boundary - extent) < other) ∧
      ¬ (other < 1000 * (boundary - extent) ∧ 1000 * (boundary - extent) < boundary) := by
  rcases mul_neg_iff.mp opposite with ⟨positive, extent_neg⟩ | ⟨negative, extent_pos⟩
  · have other_neg : other < 0 := neg_of_mul_pos_left ahead extent_neg.le
    refine ⟨mul_nonpos_of_nonpos_of_nonneg other_neg.le (by linarith), ?_, ?_⟩
    · intro within
      linarith
    · intro within
      linarith
  · have other_pos : 0 < other := pos_of_mul_pos_left ahead extent_pos.le
    refine ⟨mul_nonpos_of_nonneg_of_nonpos other_pos.le (by linarith), ?_, ?_⟩
    · intro within
      linarith
    · intro within
      linarith

theorem nearerOnAxis_below {d maxTc minTc : K} (none_above : maxTc * d ≤ 0)
    (ahead : 0 < minTc / d) (soon : minTc / d < 1000000) :
    nearerOnAxis d maxTc minTc 1000000 = minTc / d := by
  have moves : d ≠ 0 := by
    intro still
    rw [still, div_zero] at ahead
    exact lt_irrefl 0 ahead
  rw [nearerOnAxis, if_pos (abs_pos.mpr moves),
    nearer_of_nonpos (div_nonpos_iff_mul_nonpos.mpr none_above), nearer_of_lt ahead soon]

theorem nearerOnAxis_above {d maxTc minTc : K} (none_below : minTc * d ≤ 0)
    (ahead : 0 < maxTc / d) (soon : maxTc / d < 1000000) :
    nearerOnAxis d maxTc minTc 1000000 = maxTc / d := by
  have moves : d ≠ 0 := by
    intro still
    rw [still, div_zero] at ahead
    exact lt_irrefl 0 ahead
  rw [nearerOnAxis, if_pos (abs_pos.mpr moves), nearer_of_lt ahead soon,
    nearer_of_nonpos (div_nonpos_iff_mul_nonpos.mpr none_below)]

theorem nearerOnAxis_neither {d maxTc minTc : K} (none_above : maxTc * d ≤ 0)
    (none_below : minTc * d ≤ 0) (minT : K) : nearerOnAxis d maxTc minTc minT = minT := by
  rw [nearerOnAxis, nearer_of_nonpos (div_nonpos_iff_mul_nonpos.mpr none_above),
    nearer_of_nonpos (div_nonpos_iff_mul_nonpos.mpr none_below), ite_self]

end Nearest

section AlongAxis

variable (mp : MappingParameters K) {sqrt : K → K} {cameraPos : Vec3 K} {axis : Axis}
variable [LinearOrder K] [IsStrictOrderedRing K]

/-- The lower boundary of the map as seen from the camera, and the upper one. -/
def boundaryBelow (cameraPos : Vec3 K) (axis : Axis) : K :=
  mp.mapMinBoundary.get axis - cameraPos.get axis

def boundaryAbove (cameraPos : Vec3 K) (axis : Axis) : K :=
  mp.mapMaxBoundary.get axis - cameraPos.get axis

theorem closetPointInMap_along (d : K) :
    closetPointInMap mp (cameraPos + Vec3.along axis d) cameraPos =
      cameraPos + Vec3.along axis ((nearerOnAxis d (boundaryAbove mp cameraPos axis)
        (boundaryBelow mp cameraPos axis) 1000000 - 1e-3) * d) := by
  rw [closetPointInMap]
  rw [Vec3.add_sub_self, Vec3.smul_along]
  cases axis
  · change cameraPos + Vec3.along .x ((nearerOnAxis 0 _ _ (nearerOnAxis 0 _ _ (nearerOnAxis d
      (boundaryAbove mp cameraPos .x) (boundaryBelow mp cameraPos .x) _)) - _) * d) = _
    rw [nearerOnAxis_zero, nearerOnAxis_zero]
  · change cameraPos + Vec3.along .y ((nearerOnAxis 0 _ _ (nearerOnAxis d
      (boundaryAbove mp cameraPos .y) (boundaryBelow mp cameraPos .y) (nearerOnAxis 0 _ _ _)) -
      _) * d) = _
    rw [nearerOnAxis_zero, nearerOnAxis_zero]
  · change cameraPos + Vec3.along .z ((nearerOnAxis d (boundaryAbove mp cameraPos .z)
      (boundaryBelow mp cameraPos .z) (nearerOnAxis 0 _ _ (nearerOnAxis 0 _ _ _)) - _) * d) = _
    rw [nearerOnAxis_zero, nearerOnAxis_zero]

theorem rayEnd_along (exact : Vec3.IsSqrt sqrt) (d : K) {extent : K}
    (outside : ¬ (boundaryBelow mp cameraPos axis < d ∧ d < boundaryAbove mp cameraPos axis))
    (clipped : (nearerOnAxis d (boundaryAbove mp cameraPos axis)
      (boundaryBelow mp cameraPos axis) 1000000 - 1e-3) * d = extent)
    (near : |extent| ≤ mp.maxRayLength) :
    rayEnd mp sqrt cameraPos (cameraPos + Vec3.along axis d) =
      some (cameraPos + Vec3.along axis extent, 0) := by
  have not_in_map : ¬ mp.isInMap (cameraPos + Vec3.along axis d) := by
    intro in_map
    have margins := in_map axis
    simp only [Vec3.get_add, Vec3.get_along, if_true, not_lt] at margins
    apply outside
    rw [boundaryBelow, boundaryAbove]
    constructor <;> linarith
  have length_eq : (cameraPos + Vec3.along axis extent - cameraPos).lengthBy sqrt = |extent| := by
    rw [Vec3.add_sub_self, Vec3.lengthBy_along exact]
  rw [rayEnd, if_pos not_in_map]
  dsimp only
  rw [closetPointInMap_along, clipped, length_eq, if_neg near.not_gt]

/-- Where a boundary ahead clips the ray, one thousandth of the way back is added: a point a
thousand times farther on than the boundary, seen from the wanted end, is drawn to that end. -/
theorem clipped_back {boundary extent d : K} (far : d = 1000 * (boundary - extent))
    (opposite : boundary * extent < 0) :
    0 < boundary / d ∧ boundary / d < 1000000 ∧ (boundary / d - 1e-3) * d = extent := by
  have boundary_sq := mul_self_nonneg boundary
  have extent_sq := mul_self_nonneg extent
  have boundary_mul : 0 < boundary * d := by
    rw [far]
    linarith
  have extent_mul : extent * d ≤ 0 := by
    rw [far]
    linarith
  have d_ne : d ≠ 0 := right_ne_zero_of_mul boundary_mul.ne'
  have split : boundary / d = 1e-3 + extent / d := by
    have boundary_eq : boundary = 1e-3 * d + extent := by
      rw [far]
      ring
    calc boundary / d = (1e-3 * d + extent) / d := by rw [← boundary_eq]
      _ = 1e-3 + extent / d := by rw [add_div, mul_div_cancel_right₀ _ d_ne]
  have back : extent / d ≤ 0 := div_nonpos_iff_mul_nonpos.mpr extent_mul
  refine ⟨div_pos_iff_mul_pos.mpr boundary_mul, by linarith, ?_⟩
  rw [split, add_sub_cancel_left, div_mul_cancel₀ extent d_ne]

theorem reaches_opposite_below (exact : Vec3.IsSqrt sqrt) {extent : K}
    (near : |extent| ≤ mp.maxRayLength)
    (opposite : boundaryBelow mp cameraPos axis * extent < 0)
    (ahead : 0 < boundaryAbove mp cameraPos axis * extent) :
    ∃ ptW, rayEnd mp sqrt cameraPos ptW = some (cameraPos + Vec3.along axis extent, 0) := by
  rcases clipped_back rfl opposite with ⟨positive, soon, clipped⟩
  rcases beyond_opposite opposite ahead with ⟨none_above, outside, _⟩
  refine ⟨_, rayEnd_along mp exact _ outside ?_ near⟩
  rw [nearerOnAxis_below none_above positive soon, clipped]

theorem reaches_opposite_above (exact : Vec3.IsSqrt sqrt) {extent : K}
    (near : |extent| ≤ mp.maxRayLength)
    (opposite : boundaryAbove mp cameraPos axis * extent < 0)
    (ahead : 0 < boundaryBelow mp cameraPos axis * extent) :
    ∃ ptW, rayEnd mp sqrt cameraPos ptW = some (cameraPos + Vec3.along axis extent, 0) := by
  rcases clipped_back rfl opposite with ⟨positive, soon, clipped⟩
  rcases beyond_opposite opposite ahead with ⟨none_below, _, outside⟩
  refine ⟨_, rayEnd_along mp exact _ outside ?_ near⟩
  rw [nearerOnAxis_above none_below positive soon, clipped]

theorem reaches_free (exact : Vec3.IsSqrt sqrt) {extent : K} (moves : extent ≠ 0)
    (near : |extent| ≤ mp.maxRayLength)
    (none_below : boundaryBelow mp cameraPos axis * extent ≤ 0)
    (none_above : boundaryAbove mp cameraPos axis * extent ≤ 0) :
    ∃ ptW, rayEnd mp sqrt cameraPos ptW = some (cameraPos + Vec3.along axis extent, 0) := by
  have shrunk : ∀ a : K, a * extent ≤ 0 → a * (extent / (1000000 - 1e-3)) ≤ 0 := by
    intro a nonpos
    rw [← mul_div_assoc]
    exact div_nonpos_of_nonpos_of_nonneg nonpos (by norm_num)
  have outside : ¬ (boundaryBelow mp cameraPos axis < extent / (1000000 - 1e-3) ∧
      extent / (1000000 - 1e-3) < boundaryAbove mp cameraPos axis) := by
    intro within
    rcases lt_or_gt_of_ne moves with extent_neg | extent_pos
    · have d_neg : extent / (1000000 - 1e-3) < 0 :=
        div_neg_of_neg_of_pos extent_neg (by norm_num)
      have below_nonneg := nonneg_of_mul_nonpos_left none_below extent_neg
      linarith
    · have d_pos : 0 < extent / (1000000 - 1e-3) := div_pos extent_pos (by norm_num)
      have above_nonpos := nonpos_of_mul_nonpos_left none_above extent_pos
      linarith
  refine ⟨_, rayEnd_along mp exact _ outside ?_ near⟩
  rw [nearerOnAxis_neither (shrunk _ none_above) (shrunk _ none_below)]
  exact mul_div_cancel₀ extent (by norm_num)

theorem reaches_extreme (exact : Vec3.IsSqrt sqrt) {extent : K} (moves : extent ≠ 0)
    (near : |extent| ≤ mp.maxRayLength)
    (between : boundaryBelow mp cameraPos axis * boundaryAbove mp cameraPos axis < 0) :
    ∃ ptW, rayEnd mp sqrt cameraPos ptW = some (cameraPos + Vec3.along axis extent, 0) := by
  have opposite : boundaryBelow mp cameraPos axis * extent *
      (boundaryAbove mp cameraPos axis * extent) < 0 := by
    have square : 0 < extent * extent := mul_self_pos.mpr moves
    calc boundaryBelow mp cameraPos axis * extent * (boundaryAbove mp cameraPos axis * extent)
        = boundaryBelow mp cameraPos axis * boundaryAbove mp cameraPos axis *
            (extent * extent) := by ring
      _ < 0 := mul_neg_of_neg_of_pos between square
  rcases mul_neg_iff.mp opposite with ⟨ahead, behind⟩ | ⟨behind, ahead⟩
  · exact reaches_opposite_above mp exact near behind ahead
  · exact reaches_opposite_below mp exact near behind ahead

/-- A point at the camera has a ray end only with a ray length that is not negative. -/
theorem rayEnd_camera (exact : Vec3.IsSqrt sqrt) {end_pt : Vec3 K} {occ : ℤ}
    (ends : rayEnd mp sqrt cameraPos cameraPos = some (end_pt, occ)) :
    end_pt = cameraPos ∧ 0 ≤ mp.maxRayLength := by
  have at_camera : closetPointInMap mp cameraPos cameraPos = cameraPos := by
    apply Vec3.ext_get
    intro axis
    simp [closetPointInMap]
  have no_length : (cameraPos - cameraPos).lengthBy sqrt = 0 := by
    have still : cameraPos - cameraPos = Vec3.along .x 0 := by
      apply Vec3.ext_get
      intro axis
      simp
    rw [still, Vec3.lengthBy_along exact, abs_zero]
  have none_shortened : shortened mp sqrt cameraPos cameraPos = none := by
    rw [shortened, no_length, if_pos rfl]
  simp only [rayEnd, at_camera, no_length, none_shortened, Option.map_none] at ends
  split_ifs at ends with _ too_short too_short
  · cases ends
    exact ⟨rfl, not_lt.mp too_short⟩
  · cases ends
    exact ⟨rfl, not_lt.mp too_short⟩

end AlongAxis

section Voxels

variable (mp : MappingParameters K)

/-- The camera on an axis in voxels from the origin of the map, and the size of the map. -/
def voxelsFromOrigin (cameraPos : Vec3 K) (axis : Axis) : K :=
  (cameraPos.get axis - mp.mapOrigin.get axis) / mp.resolution

def voxelsAcross (axis : Axis) : K := mp.mapSize.get axis / mp.resolution

theorem boundaryBelow_eq (cameraPos : Vec3 K) (axis : Axis) :
    boundaryBelow mp cameraPos axis = -voxelsFromOrigin mp cameraPos axis * mp.resolution := by
  rw [boundaryBelow, voxelsFromOrigin, neg_mul, div_mul_cancel₀ _ mp.resolution_ne,
    MappingParameters.mapMinBoundary]
  ring

theorem boundaryAbove_eq (cameraPos : Vec3 K) (axis : Axis) :
    boundaryAbove mp cameraPos axis =
      (voxelsAcross mp axis - voxelsFromOrigin mp cameraPos axis) * mp.resolution := by
  rw [boundaryAbove, voxelsAcross, voxelsFromOrigin, sub_mul, div_mul_cancel₀ _ mp.resolution_ne,
    div_mul_cancel₀ _ mp.resolution_ne, MappingParameters.mapMaxBoundary, Vec3.get_add]
  ring

variable [LinearOrder K]

/-- A position along an axis from the camera falls into the map only if its voxel on that axis
does. -/
theorem column_along [FloorRing K] {cameraPos : Vec3 K} {axis : Axis} (extent : K)
    (inside : mp.isInMapIndex (mp.posToIndex (cameraPos + Vec3.along axis extent))) :
    0 ≤ voxelsFromOrigin mp cameraPos axis + extent / mp.resolution ∧
      ⌊voxelsFromOrigin mp cameraPos axis + extent / mp.resolution⌋ < ⌈voxelsAcross mp axis⌉ := by
  have column := (mp.isInMapIndex_posToIndex_iff _).mp inside axis
  have moved : (cameraPos + Vec3.along axis extent).get axis / mp.resolution -
      mp.mapOrigin.get axis / mp.resolution =
      voxelsFromOrigin mp cameraPos axis + extent / mp.resolution := by
    rw [voxelsFromOrigin, Vec3.get_add, Vec3.get_along, if_pos rfl]
    ring
  rw [MappingParameters.ColumnFits, moved, MappingParameters.mapVoxelNum, Vec3.get_ofAxes] at column
  exact ⟨Int.floor_nonneg.mp column.1, column.2⟩

theorem exists_outward [IsStrictOrderedRing K] (range : 0 < mp.maxRayLength) :
    ∃ extent : K, |extent| = mp.maxRayLength ∧ 0 < extent * mp.resolution ∧
      extent / mp.resolution = mp.maxRayLength / |mp.resolution| := by
  rcases lt_or_gt_of_ne mp.resolution_ne with negative | positive
  · refine ⟨-mp.maxRayLength, by rw [abs_neg, abs_of_pos range],
      mul_pos_of_neg_of_neg (neg_neg_of_pos range) negative, ?_⟩
    rw [abs_of_neg negative, neg_div, div_neg]
  · exact ⟨mp.maxRayLength, abs_of_pos range, mul_pos range positive, by rw [abs_of_pos positive]⟩

end Voxels

section EveryReach

variable {mp : MappingParameters K} {sqrt : K → K} {cameraPos : Vec3 K}
variable [LinearOrder K] [FloorRing K]

def EveryReachFits (mp : MappingParameters K) (sqrt : K → K) (cameraPos : Vec3 K) : Prop :=
  ∀ ptW, ∃ end_pt occ, rayEnd mp sqrt cameraPos ptW = some (end_pt, occ) ∧
    mp.ReachFits cameraPos end_pt

theorem EveryReachFits.reached (every : EveryReachFits mp sqrt cameraPos) {end_pt : Vec3 K}
    (reaches : ∃ ptW, rayEnd mp sqrt cameraPos ptW = some (end_pt, 0)) :
    mp.ReachFits cameraPos end_pt := by
  rcases reaches with ⟨ptW, ends⟩
  rcases every ptW with ⟨same_end, occ, also_ends, fits⟩
  rw [ends] at also_ends
  cases also_ends
  exact fits

variable [IsStrictOrderedRing K]

theorem EveryReachFits.camera (every : EveryReachFits mp sqrt cameraPos)
    (exact : Vec3.IsSqrt sqrt) : mp.ReachFits cameraPos cameraPos ∧ 0 ≤ mp.maxRayLength := by
  rcases every cameraPos with ⟨end_pt, occ, ends, fits⟩
  rcases rayEnd_camera mp exact ends with ⟨same, range⟩
  rw [same] at fits
  exact ⟨fits, range⟩

theorem EveryReachFits.camera_column (every : EveryReachFits mp sqrt cameraPos)
    (exact : Vec3.IsSqrt sqrt) (axis : Axis) :
    0 ≤ voxelsFromOrigin mp cameraPos axis ∧
      ⌊voxelsFromOrigin mp cameraPos axis⌋ < ⌈voxelsAcross mp axis⌉ := by
  have inside : mp.isInMapIndex (mp.posToIndex (cameraPos + Vec3.along axis 0)) := by
    rw [Vec3.add_along_zero]
    exact (every.camera exact).1.1
  have column := column_along mp 0 inside
  rwa [zero_div, add_zero] at column

theorem EveryReachFits.free_column (every : EveryReachFits mp sqrt cameraPos)
    (exact : Vec3.IsSqrt sqrt) (axis : Axis) {extent : K} (moves : extent ≠ 0)
    (near : |extent| ≤ mp.maxRayLength)
    (none_below : boundaryBelow mp cameraPos axis * extent ≤ 0)
    (none_above : boundaryAbove mp cameraPos axis * extent ≤ 0) :
    0 ≤ voxelsFromOrigin mp cameraPos axis + extent / mp.resolution ∧
      ⌊voxelsFromOrigin mp cameraPos axis + extent / mp.resolution⌋ < ⌈voxelsAcross mp axis⌉ :=
  column_along mp extent
    (every.reached (reaches_free mp exact moves near none_below none_above)).1

theorem EveryReachFits.off_origin (every : EveryReachFits mp sqrt cameraPos)
    (exact : Vec3.IsSqrt sqrt) (range : 0 < mp.maxRayLength) (axis : Axis) :
    0 < voxelsFromOrigin mp cameraPos axis := by
  rcases every.camera_column exact axis with ⟨not_below, before_end⟩
  apply lt_of_le_of_ne not_below
  intro at_origin
  rcases exists_outward mp range with ⟨outward, outward_near, outward_pos, outward_voxels⟩
  have across_pos : 0 < voxelsAcross mp axis := by
    have floor_nonneg := Int.floor_nonneg.mpr not_below
    exact Int.ceil_pos.mp (lt_of_le_of_lt floor_nonneg before_end)
  have none_below : boundaryBelow mp cameraPos axis * -outward ≤ 0 := by
    rw [boundaryBelow_eq, ← at_origin, neg_zero, zero_mul, zero_mul]
  have none_above : boundaryAbove mp cameraPos axis * -outward ≤ 0 := by
    rw [boundaryAbove_eq, ← at_origin]
    have product := mul_pos across_pos outward_pos
    linarith
  have inward_ne : -outward ≠ 0 := neg_ne_zero.mpr (left_ne_zero_of_mul outward_pos.ne')
  have inward_near : |-outward| ≤ mp.maxRayLength := by rw [abs_neg, outward_near]
  have column := every.free_column exact axis inward_ne inward_near none_below none_above
  rw [← at_origin, zero_add, neg_div, outward_voxels] at column
  have positive := div_pos range (abs_pos.mpr mp.resolution_ne)
  linarith [column.1]

theorem EveryReachFits.before_end (every : EveryReachFits mp sqrt cameraPos)
    (exact : Vec3.IsSqrt sqrt)
    (clear : mp.ClearOfRim cameraPos ∨ |mp.resolution| ≤ mp.maxRayLength)
    (range : 0 < mp.maxRayLength) (axis : Axis) :
    voxelsFromOrigin mp cameraPos axis < voxelsAcross mp axis := by
  rcases clear with clear_of_rim | whole_voxel
  · exact clear_of_rim (every.camera exact).1.1 axis
  · by_contra beyond
    rw [not_lt] at beyond
    rcases exists_outward mp range with ⟨outward, outward_near, outward_pos, outward_voxels⟩
    have none_below : boundaryBelow mp cameraPos axis * outward ≤ 0 := by
      rw [boundaryBelow_eq]
      have product := mul_nonneg (every.camera_column exact axis).1 outward_pos.le
      linarith
    have none_above : boundaryAbove mp cameraPos axis * outward ≤ 0 := by
      rw [boundaryAbove_eq]
      have product := mul_nonneg (sub_nonneg.mpr beyond) outward_pos.le
      linarith
    have column := every.free_column exact axis (left_ne_zero_of_mul outward_pos.ne')
      outward_near.le none_below none_above
    rw [outward_voxels] at column
    have whole : 1 ≤ mp.maxRayLength / |mp.resolution| :=
      (one_le_div (abs_pos.mpr mp.resolution_ne)).mpr whole_voxel
    have past : ⌊voxelsAcross mp axis⌋ + 1 ≤
        ⌊voxelsFromOrigin mp cameraPos axis + mp.maxRayLength / |mp.resolution|⌋ := by
      rw [← Int.floor_add_one]
      exact Int.floor_mono (by linarith)
    have ceil_le := Int.ceil_le_floor_add_one (voxelsAcross mp axis)
    omega

theorem EveryReachFits.camera_between (every : EveryReachFits mp sqrt cameraPos)
    (exact : Vec3.IsSqrt sqrt)
    (clear : mp.ClearOfRim cameraPos ∨ |mp.resolution| ≤ mp.maxRayLength)
    (range : 0 < mp.maxRayLength) (axis : Axis) :
    boundaryBelow mp cameraPos axis * boundaryAbove mp cameraPos axis < 0 := by
  have after_origin := every.off_origin exact range axis
  have to_end := sub_pos.mpr (every.before_end exact clear range axis)
  have square : 0 < mp.resolution * mp.resolution := mul_self_pos.mpr mp.resolution_ne
  have product := mul_pos (mul_pos after_origin to_end) square
  rw [boundaryBelow_eq, boundaryAbove_eq]
  linarith

theorem EveryReachFits.raysFit (every : EveryReachFits mp sqrt cameraPos)
    (exact : Vec3.IsSqrt sqrt)
    (clear : mp.ClearOfRim cameraPos ∨ |mp.resolution| ≤ mp.maxRayLength) :
    mp.RaysFit cameraPos := by
  rcases every.camera exact with ⟨camera_fits, range⟩
  constructor
  · exact range
  · intro axis extent extreme
    have near : |extent| ≤ mp.maxRayLength := by
      rcases extreme with forward | backward
      · rw [forward, abs_of_nonneg range]
      · rw [backward, abs_neg, abs_of_nonneg range]
    by_cases still : extent = 0
    · rw [still, Vec3.add_along_zero]
      exact camera_fits
    · have range_pos : 0 < mp.maxRayLength := (abs_pos.mpr still).trans_le near
      exact every.reached (reaches_extreme mp exact still near
        (every.camera_between exact clear range_pos axis))

end EveryReach

end RobocupDrone.Mapping
