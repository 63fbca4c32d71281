import RobocupDrone.Library.Voxels
import RobocupDrone.Mapping.GridMap

/-! The inflated occupancy: `clearAndInflateLocalMap` on the log-odds, `cloudCallback` on a point
cloud. -/

namespace RobocupDrone.Mapping

open Geometry

variable {K : Type} [Field K]

structure InflationParameters (K : Type) [Field K] extends MappingParameters K where
  obstaclesInflation : K
  minOccupancyLog : K
  localMapMargin : ℤ

structure InflatedMap (K : Type) extends MappingData K where
  occupancyBufferInflate : ℤ → ℤ
  hasCloud : Bool

def cube (n : ℤ) : Vec3 ℤ := Vec3.ofAxes fun _ => n

section Wrapping

variable [LinearOrder K] [FloorRing K] (mp : MappingParameters K)

/-- An index that leaves the map at a z or y face comes in again at the opposite face of the
neighbouring column or layer. -/
def MappingParameters.wrapped (idx : Vec3 ℤ) : Vec3 ℤ :=
  let y := idx.y + idx.z / mp.mapVoxelNum.z
  ⟨idx.x + y / mp.mapVoxelNum.y, y % mp.mapVoxelNum.y, idx.z % mp.mapVoxelNum.z⟩

theorem MappingParameters.inMap_iff {idx : Vec3 ℤ} : mp.isInMapIndex idx ↔
    (0 ≤ idx.x ∧ idx.x < mp.mapVoxelNum.x) ∧ (0 ≤ idx.y ∧ idx.y < mp.mapVoxelNum.y) ∧
      (0 ≤ idx.z ∧ idx.z < mp.mapVoxelNum.z) := by
  constructor
  · intro inside
    have on_x := inside .x
    have on_y := inside .y
    have on_z := inside .z
    simp only [Vec3.get] at on_x on_y on_z
    omega
  · rintro ⟨on_x, on_y, on_z⟩ axis
    cases axis
    · simp only [Vec3.get]
      omega
    · simp only [Vec3.get]
      omega
    · simp only [Vec3.get]
      omega

theorem MappingParameters.toAddress_wrapped (idx : Vec3 ℤ) :
    mp.toAddress (mp.wrapped idx) = mp.toAddress idx := by
  rw [toAddress_eq, toAddress_eq]
  simp only [wrapped]
  have on_y := Int.emod_add_mul_ediv (idx.y + idx.z / mp.mapVoxelNum.z) mp.mapVoxelNum.y
  have on_z := Int.emod_add_mul_ediv idx.z mp.mapVoxelNum.z
  calc
    _ = (idx.x * mp.mapVoxelNum.y + ((idx.y + idx.z / mp.mapVoxelNum.z) % mp.mapVoxelNum.y +
          mp.mapVoxelNum.y * ((idx.y + idx.z / mp.mapVoxelNum.z) / mp.mapVoxelNum.y))) *
          mp.mapVoxelNum.z + idx.z % mp.mapVoxelNum.z := by ring
    _ = (idx.x * mp.mapVoxelNum.y + idx.y) * mp.mapVoxelNum.z +
          (idx.z % mp.mapVoxelNum.z + mp.mapVoxelNum.z * (idx.z / mp.mapVoxelNum.z)) := by
      rw [on_y]
      ring
    _ = _ := by rw [on_z]

theorem MappingParameters.toAddress_eq_iff {voxel : Vec3 ℤ} (inside : mp.isInMapIndex voxel)
    (idx : Vec3 ℤ) : mp.toAddress voxel = mp.toAddress idx ↔ mp.wrapped idx = voxel := by
  have bounds := mp.inMap_iff.mp inside
  constructor
  · intro same
    rw [← mp.toAddress_wrapped idx, toAddress_eq, toAddress_eq] at same
    have on_y : 0 ≤ (mp.wrapped idx).y ∧ (mp.wrapped idx).y < mp.mapVoxelNum.y :=
      ⟨Int.emod_nonneg _ (by omega), Int.emod_lt_of_pos _ (by omega)⟩
    have on_z : 0 ≤ (mp.wrapped idx).z ∧ (mp.wrapped idx).z < mp.mapVoxelNum.z :=
      ⟨Int.emod_nonneg _ (by omega), Int.emod_lt_of_pos _ (by omega)⟩
    rcases digits_unique bounds.2.2.1 bounds.2.2.2 on_z.1 on_z.2 same with ⟨column, same_z⟩
    rcases digits_unique bounds.2.1.1 bounds.2.1.2 on_y.1 on_y.2 column with ⟨same_x, same_y⟩
    apply Vec3.ext_get
    intro axis
    cases axis
    · exact same_x.symm
    · exact same_y.symm
    · exact same_z.symm
  · intro wraps
    rw [← wraps, toAddress_wrapped]

theorem MappingParameters.wrapped_inside {voxel : Vec3 ℤ} (inside : mp.isInMapIndex voxel) :
    mp.wrapped voxel = voxel :=
  (mp.toAddress_eq_iff inside voxel).mp rfl

end Wrapping

section Inflate

variable [LinearOrder K] [FloorRing K] (mp : InflationParameters K)

def infStep : ℤ := ⌈mp.obstaclesInflation / mp.resolution⌉

def inflatePoint (pt : Vec3 ℤ) (step : ℤ) : List (Vec3 ℤ) := box (pt - cube step) (pt + cube step)

def vecMargin : ℤ := 5

def outsideCut (minCut maxCut minCutM maxCutM : Vec3 ℤ) (axis : Axis) : List (Vec3 ℤ) :=
  box minCutM (Vec3.ofAxes fun a => if a = axis then minCut.get a - 1 else maxCutM.get a) ++
    box (Vec3.ofAxes fun a => if a = axis then maxCut.get a + 1 else minCutM.get a) maxCutM

def clearedVoxels (md : MappingData K) : List (Vec3 ℤ) :=
  let minCut := mp.boundIndex (md.localBoundMin - cube mp.localMapMargin)
  let maxCut := mp.boundIndex (md.localBoundMax + cube mp.localMapMargin)
  let minCutM := mp.boundIndex (minCut - cube vecMargin)
  let maxCutM := mp.boundIndex (maxCut + cube vecMargin)
  [Axis.z, Axis.y, Axis.x].flatMap (outsideCut minCut maxCut minCutM maxCutM)

def clearedBuffer (md : MappingData K) : ℤ → K :=
  fill (mp.clampMinLog - unknownFlag) ((clearedVoxels mp md).map mp.toAddress) md.occupancyBuffer

def inflatedAddresses (occupancyBuffer : ℤ → K) (voxel : Vec3 ℤ) : List ℤ :=
  if occupancyBuffer (mp.toAddress voxel) > mp.minOccupancyLog then
    ((inflatePoint voxel (infStep mp)).map mp.toAddress).filter fun idxInf =>
      ¬(idxInf < 0 ∨ idxInf ≥ mp.bufferSize)
  else []

/-- `none`: the vector of neighbours would have a negative size. -/
def clearAndInflateLocalMap (md : InflatedMap K) : Option (InflatedMap K) :=
  let cleared := clearedBuffer mp md.toMappingData
  if 2 * infStep mp + 1 < 0 then none
  else
    let voxels := box md.localBoundMin md.localBoundMax
    let inflate := fill 0 (voxels.map mp.toAddress) md.occupancyBufferInflate
    some { md with
      occupancyBuffer := cleared
      occupancyBufferInflate := voxels.foldl
        (fun inflate voxel => fill 1 (inflatedAddresses mp cleared voxel) inflate) inflate }

/-- Every index of `idx` is at most `step` away from that of `other`. -/
def Within (step : ℤ) (other idx : Vec3 ℤ) : Prop :=
  ∀ axis, |other.get axis - idx.get axis| ≤ step

instance (step : ℤ) (other idx : Vec3 ℤ) : Decidable (Within step other idx) :=
  inferInstanceAs (Decidable (∀ _ : Axis, _))

/-- An occupied voxel of the local bound within the inflation of `idx`. -/
def Inflates (md : MappingData K) (occupancyBuffer : ℤ → K) (voxel idx : Vec3 ℤ) : Prop :=
  InBox md.localBoundMin md.localBoundMax voxel ∧
    occupancyBuffer (mp.toAddress voxel) > mp.minOccupancyLog ∧ Within (infStep mp) voxel idx

/-- A voxel is marked when an occupied voxel of the local bound is within the inflation, or when it
is outside the local bound and was marked before. -/
def ToBeMarked (md : InflatedMap K) (occupancyBuffer : ℤ → K) (voxel : Vec3 ℤ) : Prop :=
  (∃ occupied, Inflates mp md.toMappingData occupancyBuffer occupied voxel) ∨
    (¬InBox md.localBoundMin md.localBoundMax voxel ∧
      md.occupancyBufferInflate (mp.toAddress voxel) = 1)

def InflatedRight (md : InflatedMap K) : Prop :=
  ∃ after, clearAndInflateLocalMap mp md = some after ∧
    ∀ voxel, mp.isInMapIndex voxel →
      (after.occupancyBufferInflate (mp.toAddress voxel) = 1 ↔
        ToBeMarked mp md after.occupancyBuffer voxel)

theorem mem_inflatePoint_iff {pt idx : Vec3 ℤ} {step : ℤ} :
    idx ∈ inflatePoint pt step ↔ Within step pt idx := by
  unfold inflatePoint Within
  rw [mem_box_iff]
  apply forall_congr'
  intro axis
  rw [Vec3.get_sub, Vec3.get_add, cube, Vec3.get_ofAxes, abs_le]
  omega

theorem mem_inflatedAddresses_iff {occupancyBuffer : ℤ → K} {occupied voxel : Vec3 ℤ}
    (inside : mp.isInMapIndex voxel) :
    mp.toAddress voxel ∈ inflatedAddresses mp occupancyBuffer occupied ↔
      occupancyBuffer (mp.toAddress occupied) > mp.minOccupancyLog ∧
        ∃ idx, Within (infStep mp) occupied idx ∧ mp.wrapped idx = voxel := by
  have range := (mp.ownAddress inside).1
  unfold inflatedAddresses
  split_ifs with above
  · simp only [List.mem_filter, List.mem_map, mem_inflatePoint_iff, above, true_and]
    constructor
    · rintro ⟨⟨idx, near, same⟩, _⟩
      exact ⟨idx, near, (mp.toAddress_eq_iff inside idx).mp same.symm⟩
    · rintro ⟨idx, near, wraps⟩
      refine ⟨⟨idx, near, ((mp.toAddress_eq_iff inside idx).mpr wraps).symm⟩, ?_⟩
      simpa using range
  · simp [above]

theorem inflate_apply {md after : InflatedMap K} (done : clearAndInflateLocalMap mp md = some after)
    {voxel : Vec3 ℤ} (inside : mp.isInMapIndex voxel) :
    after.occupancyBufferInflate (mp.toAddress voxel) = 1 ↔
      (∃ occupied idx, Inflates mp md.toMappingData after.occupancyBuffer occupied idx ∧
        mp.wrapped idx = voxel) ∨
      (mp.toAddress voxel ∉ (box md.localBoundMin md.localBoundMax).map mp.toAddress ∧
        md.occupancyBufferInflate (mp.toAddress voxel) = 1) := by
  unfold clearAndInflateLocalMap at done
  dsimp only at done
  split_ifs at done
  rw [← Option.some.inj done]
  dsimp only
  rw [foldl_fill_apply, fill_apply]
  have marks : (∃ occupied ∈ box md.localBoundMin md.localBoundMax, mp.toAddress voxel ∈
      inflatedAddresses mp (clearedBuffer mp md.toMappingData) occupied) ↔
      ∃ occupied idx,
        Inflates mp md.toMappingData (clearedBuffer mp md.toMappingData) occupied idx ∧
          mp.wrapped idx = voxel := by
    constructor
    · rintro ⟨occupied, member, address⟩
      rcases (mem_inflatedAddresses_iff mp inside).mp address with ⟨above, idx, near, wraps⟩
      exact ⟨occupied, idx, ⟨mem_box_iff.mp member, above, near⟩, wraps⟩
    · rintro ⟨occupied, idx, ⟨local_bound, above, near⟩, wraps⟩
      refine ⟨occupied, mem_box_iff.mpr local_bound, ?_⟩
      exact (mem_inflatedAddresses_iff mp inside).mpr ⟨above, idx, near, wraps⟩
  rw [← marks]
  by_cases marked : ∃ occupied ∈ box md.localBoundMin md.localBoundMax, mp.toAddress voxel ∈
      inflatedAddresses mp (clearedBuffer mp md.toMappingData) occupied
  · rw [if_pos marked]
    exact iff_of_true rfl (.inl marked)
  · rw [if_neg marked, or_iff_right marked]
    split_ifs with cleared
    · simp [cleared]
    · simp [cleared]

theorem mem_local_iff {md : MappingData K} (low : mp.isInMapIndex md.localBoundMin)
    (high : mp.isInMapIndex md.localBoundMax) {voxel : Vec3 ℤ} (inside : mp.isInMapIndex voxel) :
    mp.toAddress voxel ∈ (box md.localBoundMin md.localBoundMax).map mp.toAddress ↔
      InBox md.localBoundMin md.localBoundMax voxel := by
  rw [List.mem_map]
  constructor
  · rintro ⟨other, member, same⟩
    have local_bound := mem_box_iff.mp member
    have other_inside : mp.isInMapIndex other := by
      intro axis
      have above := low axis
      have below := high axis
      have bounds := local_bound axis
      omega
    rwa [← (mp.ownAddress inside).2 other other_inside same]
  · intro local_bound
    exact ⟨voxel, mem_box_iff.mpr local_bound, rfl⟩

theorem clearAndInflate_returns_iff (md : InflatedMap K) :
    (∃ after, clearAndInflateLocalMap mp md = some after) ↔ 0 ≤ infStep mp := by
  unfold clearAndInflateLocalMap
  dsimp only
  split_ifs with negative
  · simp only [exists_false, false_iff]
    omega
  · simp only [Option.some.injEq, exists_eq', true_iff]
    omega

theorem clearAndInflate_occupancy {md after : InflatedMap K}
    (done : clearAndInflateLocalMap mp md = some after) :
    after.occupancyBuffer = clearedBuffer mp md.toMappingData := by
  unfold clearAndInflateLocalMap at done
  dsimp only at done
  split_ifs at done
  rw [← Option.some.inj done]

/-- A neighbour that leaves the map wraps to a voxel that is to be marked anyway. -/
def WrapsHarmlessly (md : InflatedMap K) : Prop :=
  let cleared := clearedBuffer mp md.toMappingData
  ∀ occupied idx, Inflates mp md.toMappingData cleared occupied idx → ¬mp.isInMapIndex idx →
    mp.isInMapIndex (mp.wrapped idx) → ToBeMarked mp md cleared (mp.wrapped idx)

instance (md : MappingData K) (occupancyBuffer : ℤ → K) (voxel idx : Vec3 ℤ) :
    Decidable (Inflates mp md occupancyBuffer voxel idx) :=
  inferInstanceAs (Decidable (_ ∧ _))

instance (md : InflatedMap K) (occupancyBuffer : ℤ → K) (voxel : Vec3 ℤ) :
    Decidable (ToBeMarked mp md occupancyBuffer voxel) :=
  decidable_of_iff ((∃ occupied ∈ box md.localBoundMin md.localBoundMax,
      Inflates mp md.toMappingData occupancyBuffer occupied voxel) ∨ _)
    (or_congr_left ⟨fun ⟨occupied, _, near⟩ => ⟨occupied, near⟩,
      fun ⟨occupied, near⟩ => ⟨occupied, mem_box_iff.mpr near.1, near⟩⟩)

instance (md : InflatedMap K) : Decidable (WrapsHarmlessly mp md) :=
  decidable_of_iff (∀ occupied ∈ box md.localBoundMin md.localBoundMax,
      ∀ idx ∈ inflatePoint occupied (infStep mp),
        Inflates mp md.toMappingData (clearedBuffer mp md.toMappingData) occupied idx →
          ¬mp.isInMapIndex idx → mp.isInMapIndex (mp.wrapped idx) →
            ToBeMarked mp md (clearedBuffer mp md.toMappingData) (mp.wrapped idx))
    ⟨fun all occupied idx near => all occupied (mem_box_iff.mpr near.1) idx
        (mem_inflatePoint_iff.mpr near.2.2) near,
      fun all occupied _ idx _ => all occupied idx⟩

theorem inflated_right_iff {md : InflatedMap K} (low : mp.isInMapIndex md.localBoundMin)
    (high : mp.isInMapIndex md.localBoundMax) :
    InflatedRight mp md ↔ 0 ≤ infStep mp ∧ WrapsHarmlessly mp md := by
  constructor
  · rintro ⟨after, done, right⟩
    refine ⟨(clearAndInflate_returns_iff mp md).mp ⟨after, done⟩, ?_⟩
    intro occupied idx near outside wraps
    rw [← clearAndInflate_occupancy mp done] at near ⊢
    apply (right _ wraps).mp
    exact (inflate_apply mp done wraps).mpr (.inl ⟨occupied, idx, near, rfl⟩)
  · rintro ⟨step, harmless⟩
    rcases (clearAndInflate_returns_iff mp md).mpr step with ⟨after, done⟩
    refine ⟨after, done, fun voxel inside => ?_⟩
    rw [inflate_apply mp done inside, mem_local_iff mp low high inside, ToBeMarked]
    constructor
    · rintro (⟨occupied, idx, near, wraps⟩ | kept)
      · by_cases in_map : mp.isInMapIndex idx
        · rw [mp.wrapped_inside in_map] at wraps
          exact .inl ⟨occupied, wraps ▸ near⟩
        · rw [clearAndInflate_occupancy mp done] at near ⊢
          have marked := harmless occupied idx near in_map (wraps ▸ inside)
          rwa [wraps] at marked
      · exact .inr kept
    · rintro (⟨occupied, near⟩ | kept)
      · exact .inl ⟨occupied, voxel, near, mp.wrapped_inside inside⟩
      · exact .inr kept

/-- Nothing wraps when the occupied voxels are further than the inflation from the faces that
bound a column or a layer. -/
theorem wrapsHarmlessly_of_clear {md : InflatedMap K}
    (clear : ∀ occupied, InBox md.localBoundMin md.localBoundMax occupied →
      clearedBuffer mp md.toMappingData (mp.toAddress occupied) > mp.minOccupancyLog →
        (infStep mp ≤ occupied.y ∧ occupied.y + infStep mp < mp.mapVoxelNum.y) ∧
          (infStep mp ≤ occupied.z ∧ occupied.z + infStep mp < mp.mapVoxelNum.z)) :
    WrapsHarmlessly mp md := by
  intro occupied idx near outside wraps
  have faces := clear occupied near.1 near.2.1
  have on_y := abs_le.mp (near.2.2 .y)
  have on_z := abs_le.mp (near.2.2 .z)
  simp only [Vec3.get] at on_y on_z
  have kept : mp.wrapped idx = idx := by
    have same_z : idx.z / mp.mapVoxelNum.z = 0 := Int.ediv_eq_zero_of_lt (by omega) (by omega)
    have rest_z : idx.z % mp.mapVoxelNum.z = idx.z := Int.emod_eq_of_lt (by omega) (by omega)
    have same_y : idx.y / mp.mapVoxelNum.y = 0 := Int.ediv_eq_zero_of_lt (by omega) (by omega)
    have rest_y : idx.y % mp.mapVoxelNum.y = idx.y := Int.emod_eq_of_lt (by omega) (by omega)
    simp [MappingParameters.wrapped, same_z, rest_z, same_y, rest_y]
  rw [kept] at wraps
  contradiction

theorem outsideCut_range {minCut maxCut minCutM maxCutM idx : Vec3 ℤ} {axis : Axis}
    (outside : idx ∈ outsideCut minCut maxCut minCutM maxCutM axis)
    (cuts : minCut.get axis - 1 ≤ maxCutM.get axis ∧ minCutM.get axis ≤ maxCut.get axis + 1) :
    InBox minCutM maxCutM idx ∧
      (idx.get axis < minCut.get axis ∨ maxCut.get axis < idx.get axis) := by
  rcases List.mem_append.mp outside with front | behind
  · have inside := mem_box_iff.mp front
    have on_axis := inside axis
    simp only [Vec3.get_ofAxes, if_true] at on_axis
    refine ⟨fun a => ?_, .inl (by omega)⟩
    have bounds := inside a
    by_cases same : a = axis
    · rw [same]
      omega
    · simpa only [Vec3.get_ofAxes, same, if_false] using bounds
  · have inside := mem_box_iff.mp behind
    have on_axis := inside axis
    simp only [Vec3.get_ofAxes, if_true] at on_axis
    refine ⟨fun a => ?_, .inr (by omega)⟩
    have bounds := inside a
    by_cases same : a = axis
    · rw [same]
      omega
    · simpa only [Vec3.get_ofAxes, same, if_false] using bounds

theorem clearedBuffer_local {md : MappingData K} (margin : 0 ≤ mp.localMapMargin)
    (low : mp.isInMapIndex md.localBoundMin) (high : mp.isInMapIndex md.localBoundMax)
    {voxel : Vec3 ℤ} (local_bound : InBox md.localBoundMin md.localBoundMax voxel) :
    clearedBuffer mp md (mp.toAddress voxel) = md.occupancyBuffer (mp.toAddress voxel) := by
  have range : ∀ axis, 0 ≤ md.localBoundMin.get axis ∧
      md.localBoundMin.get axis ≤ voxel.get axis ∧ voxel.get axis ≤ md.localBoundMax.get axis ∧
      md.localBoundMax.get axis < mp.mapVoxelNum.get axis := by
    intro axis
    have above := low axis
    have below := high axis
    have bounds := local_bound axis
    omega
  have inside : mp.isInMapIndex voxel := by
    intro axis
    have bounds := range axis
    omega
  have kept : mp.toAddress voxel ∉ (clearedVoxels mp md).map mp.toAddress := by
    intro cleared
    rcases List.mem_map.mp cleared with ⟨other, member, same⟩
    rcases List.mem_flatMap.mp member with ⟨axis, _, outside⟩
    have cuts := range axis
    have parts := outsideCut_range outside (by
      simp only [MappingParameters.boundIndex, Vec3.get_ofAxes, Vec3.get_sub, Vec3.get_add, cube,
        vecMargin]
      omega)
    have other_inside : mp.isInMapIndex other := by
      intro a
      have bounds := parts.1 a
      have on_map := range a
      simp only [MappingParameters.boundIndex, Vec3.get_ofAxes] at bounds
      omega
    rw [(mp.ownAddress inside).2 other other_inside same] at parts
    have beyond := parts.2
    simp only [MappingParameters.boundIndex, Vec3.get_ofAxes, Vec3.get_sub, Vec3.get_add, cube]
      at beyond
    omega
  rw [clearedBuffer, fill_apply, if_neg kept]

end Inflate

def lowMap : InflationParameters ℚ where
  resolution := 1
  mapSize := ⟨2, 4, 4⟩
  groundHeight := 0
  localUpdateRange := ⟨5, 5, 5⟩
  maxRayLength := 4
  probHitLog := 1
  probMissLog := -1
  clampMinLog := -2
  clampMaxLog := 2
  resolution_ne := one_ne_zero
  obstaclesInflation := 0.5
  minOccupancyLog := 0
  localMapMargin := 10

/-- All of the map is local, and the voxel `occupied` is all that is occupied. -/
def oneObstacle (occupied : Vec3 ℤ) : InflatedMap ℚ where
  toMappingData := { initMap lowMap.toMappingParameters with
    occupancyBuffer := fun address => if address = lowMap.toAddress occupied then 1 else -2
    localBoundMin := ⟨0, 0, 0⟩
    localBoundMax := ⟨1, 3, 3⟩ }
  occupancyBufferInflate := fun _ => 0
  hasCloud := false

theorem obstacle_inflated :
    InflatedRight lowMap (oneObstacle ⟨1, 1, 1⟩) :=
  (inflated_right_iff lowMap (by decide +kernel) (by decide +kernel)).mpr (by decide +kernel)

/-- The neighbour below the ground marks the top of the next column. -/
theorem ground_obstacle_wraps :
    ¬∀ md : InflatedMap ℚ, lowMap.isInMapIndex md.localBoundMin →
      lowMap.isInMapIndex md.localBoundMax → InflatedRight lowMap md := by
  intro every
  rcases every (oneObstacle ⟨0, 2, 0⟩) (by decide +kernel) (by decide +kernel) with
    ⟨after, done, right⟩
  have top : lowMap.isInMapIndex ⟨0, 1, 3⟩ := by decide +kernel
  have marked : ((clearAndInflateLocalMap lowMap (oneObstacle ⟨0, 2, 0⟩)).map fun after =>
      after.occupancyBufferInflate (lowMap.toAddress ⟨0, 1, 3⟩)) = some 1 := by
    decide +kernel
  rw [done, Option.map_some, Option.some.injEq] at marked
  have clear : ∀ occupied ∈ box ⟨0, 0, 0⟩ ⟨1, 3, 3⟩,
      ¬(clearedBuffer lowMap (oneObstacle ⟨0, 2, 0⟩).toMappingData (lowMap.toAddress occupied) >
        lowMap.minOccupancyLog ∧ Within (infStep lowMap) occupied ⟨0, 1, 3⟩) := by
    decide +kernel
  rcases (right _ top).mp marked with ⟨occupied, near⟩ | kept
  · rw [clearAndInflate_occupancy lowMap done] at near
    exact clear occupied (mem_box_iff.mpr near.1) near.2
  · exact kept.1 (by decide +kernel)

end RobocupDrone.Mapping
