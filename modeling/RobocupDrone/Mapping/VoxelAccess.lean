import Mathlib.Data.Set.Function
import Mathlib.Tactic.Positivity
import RobocupDrone.Library.Buffer
import RobocupDrone.Mapping.Inflation

/-! `grid_map.h`: the accesses to a voxel, by its position or its index. -/

namespace RobocupDrone.Mapping

open Geometry

variable {K : Type} [Field K]

def MappingParameters.indexToPos (mp : MappingParameters K) (id : Vec3 ℤ) : Vec3 K :=
  Vec3.ofAxes fun axis => (id.get axis + 0.5) * mp.resolution + mp.mapOrigin.get axis

section Access

variable [LinearOrder K] [FloorRing K] (mp : InflationParameters K) (md : InflatedMap K)

/-- `none`: an access outside the buffer. -/
def setOccupied (pos : Vec3 K) : Option (InflatedMap K) :=
  if ¬ mp.isInMap pos then some md
  else
    let id := mp.posToIndex pos
    (Buffers.write mp.bufferSize md.occupancyBufferInflate
      (id.x * mp.mapVoxelNum.y * mp.mapVoxelNum.z + id.y * mp.mapVoxelNum.z + id.z) 1).map
        fun buffer => { md with occupancyBufferInflate := buffer }

def setOccupancy (pos : Vec3 K) (occ : K) : Option (InflatedMap K) :=
  if occ ≠ 1 ∧ occ ≠ 0 then some md
  else if ¬ mp.isInMap pos then some md
  else
    let id := mp.posToIndex pos
    (Buffers.write mp.bufferSize md.occupancyBuffer (mp.toAddress id) occ).map fun buffer =>
      { md with occupancyBuffer := buffer }

def getOccupancy (pos : Vec3 K) : Option ℤ :=
  if ¬ mp.isInMap pos then some (-1)
  else
    let id := mp.posToIndex pos
    (Buffers.read mp.bufferSize md.occupancyBuffer (mp.toAddress id)).map fun log =>
      if log > mp.minOccupancyLog then 1 else 0

def getInflateOccupancy (pos : Vec3 K) : Option ℤ :=
  if ¬ mp.isInMap pos then some (-1)
  else
    let id := mp.posToIndex pos
    Buffers.read mp.bufferSize md.occupancyBufferInflate (mp.toAddress id)

/-- `getOccupancy` of an index. -/
def getOccupancyIndex (id : Vec3 ℤ) : Option ℤ :=
  if id.x < 0 ∨ id.x ≥ mp.mapVoxelNum.x ∨ id.y < 0 ∨ id.y ≥ mp.mapVoxelNum.y ∨ id.z < 0 ∨
      id.z ≥ mp.mapVoxelNum.z then
    some (-1)
  else
    (Buffers.read mp.bufferSize md.occupancyBuffer (mp.toAddress id)).map fun log =>
      if log > mp.minOccupancyLog then 1 else 0

end Access

namespace MappingParameters

variable [LinearOrder K] [FloorRing K] (mp : MappingParameters K)

theorem posToIndex_get (pos : Vec3 K) (axis : Axis) : (mp.posToIndex pos).get axis =
    ⌊(pos.get axis - mp.mapOrigin.get axis) / mp.resolution⌋ := by
  rw [posToIndex, Vec3.get_ofAxes, resolutionInv, mul_one_div]

theorem exists_voxel (sizes : ∀ axis, 0 ≤ mp.mapVoxelNum.get axis) {address : ℤ}
    (inside : address ∈ Set.Ico 0 mp.bufferSize) :
    ∃ id, mp.isInMapIndex id ∧ mp.toAddress id = address := by
  obtain ⟨nonneg, below⟩ := inside
  have on_y : 0 ≤ mp.mapVoxelNum.y := sizes .y
  have on_z : 0 ≤ mp.mapVoxelNum.z := sizes .z
  rw [bufferSize] at below
  have z_pos : 0 < mp.mapVoxelNum.z := by
    refine lt_of_le_of_ne on_z fun flat => ?_
    rw [← flat, mul_zero] at below
    omega
  have y_pos : 0 < mp.mapVoxelNum.y := by
    refine lt_of_le_of_ne on_y fun flat => ?_
    rw [← flat, mul_zero, zero_mul] at below
    omega
  have columns : address / mp.mapVoxelNum.z < mp.mapVoxelNum.x * mp.mapVoxelNum.y :=
    Int.ediv_lt_of_lt_mul z_pos below
  have layers : address / mp.mapVoxelNum.z / mp.mapVoxelNum.y < mp.mapVoxelNum.x :=
    Int.ediv_lt_of_lt_mul y_pos columns
  refine ⟨mp.wrapped ⟨0, 0, address⟩, mp.inMap_iff.mpr ?_, ?_⟩
  · simp only [wrapped, zero_add]
    exact ⟨⟨Int.ediv_nonneg (Int.ediv_nonneg nonneg on_z) on_y, layers⟩,
      ⟨Int.emod_nonneg _ y_pos.ne', Int.emod_lt_of_pos _ y_pos⟩,
      Int.emod_nonneg _ z_pos.ne', Int.emod_lt_of_pos _ z_pos⟩
  · rw [toAddress_wrapped, toAddress_eq, zero_mul, zero_add, zero_mul, zero_add]

theorem toAddress_bijOn (sizes : ∀ axis, 0 ≤ mp.mapVoxelNum.get axis) :
    Set.BijOn mp.toAddress {id | mp.isInMapIndex id} (Set.Ico 0 mp.bufferSize) := by
  refine ⟨fun id inside => (mp.ownAddress inside).1, fun id inside other other_inside same => ?_,
    fun address inside => ?_⟩
  · exact (mp.ownAddress other_inside).2 id inside same
  · exact mp.exists_voxel sizes inside

variable [IsStrictOrderedRing K]

theorem mapVoxelNum_nonneg (positive : 0 < mp.resolution) (axis : Axis)
    (size : 0 ≤ mp.mapSize.get axis) : 0 ≤ mp.mapVoxelNum.get axis := by
  rw [mapVoxelNum, Vec3.get_ofAxes]
  exact Int.ceil_nonneg (div_nonneg size positive.le)

/-- An accepted position lies before the end of the map, so in its last voxel at most, even where
that one ends later. -/
theorem posToIndex_inside (positive : 0 < mp.resolution) {pos : Vec3 K}
    (inside : mp.isInMap pos) : mp.isInMapIndex (mp.posToIndex pos) := by
  have margin : (0 : K) < 1e-4 := by norm_num
  intro axis
  obtain ⟨above, below⟩ := inside axis
  have boundary : mp.mapMaxBoundary.get axis = mp.mapOrigin.get axis + mp.mapSize.get axis :=
    Vec3.get_add _ _ _
  rw [boundary] at below
  rw [mapMinBoundary] at above
  rw [not_lt] at above below
  have nonneg : 0 ≤ (pos.get axis - mp.mapOrigin.get axis) / mp.resolution :=
    div_nonneg (by linarith) positive.le
  have within : (pos.get axis - mp.mapOrigin.get axis) / mp.resolution <
      mp.mapSize.get axis / mp.resolution :=
    div_lt_div_of_pos_right (by linarith) positive
  have low : 0 ≤ ⌊(pos.get axis - mp.mapOrigin.get axis) / mp.resolution⌋ :=
    Int.floor_nonneg.mpr nonneg
  have high : ⌊(pos.get axis - mp.mapOrigin.get axis) / mp.resolution⌋ <
      ⌈mp.mapSize.get axis / mp.resolution⌉ :=
    Int.floor_lt.mpr (within.trans_le (Int.le_ceil _))
  rw [posToIndex_get, mapVoxelNum, Vec3.get_ofAxes]
  omega

theorem posToIndex_indexToPos (id : Vec3 ℤ) : mp.posToIndex (mp.indexToPos id) = id := by
  apply Vec3.ext_get
  intro axis
  rw [posToIndex_get, indexToPos, Vec3.get_ofAxes, add_sub_cancel_right,
    mul_div_cancel_right₀ _ mp.resolution_ne, Int.floor_intCast_add]
  have half : ⌊(0.5 : K)⌋ = 0 := by
    rw [Int.floor_eq_zero_iff]
    constructor <;> norm_num
  rw [half, add_zero]

theorem indexToPos_posToIndex (positive : 0 < mp.resolution) (pos : Vec3 K) (axis : Axis) :
    |(mp.indexToPos (mp.posToIndex pos)).get axis - pos.get axis| ≤ mp.resolution / 2 := by
  set offset := (pos.get axis - mp.mapOrigin.get axis) / mp.resolution with offset_eq
  have place : pos.get axis = offset * mp.resolution + mp.mapOrigin.get axis := by
    rw [offset_eq, div_mul_cancel₀ _ mp.resolution_ne, sub_add_cancel]
  have low := Int.floor_le offset
  have high := Int.lt_floor_add_one offset
  have half : |(⌊offset⌋ : K) + 0.5 - offset| ≤ 0.5 := by
    rw [abs_le]
    constructor <;> linarith
  calc
    _ = |((⌊offset⌋ : K) + 0.5 - offset) * mp.resolution| := by
      rw [indexToPos, Vec3.get_ofAxes, posToIndex_get, ← offset_eq, place]
      ring_nf
    _ = |(⌊offset⌋ : K) + 0.5 - offset| * mp.resolution := by
      rw [abs_mul, abs_of_pos positive]
    _ ≤ 0.5 * mp.resolution := mul_le_mul_of_nonneg_right half positive.le
    _ = mp.resolution / 2 := by norm_num; ring

end MappingParameters

section Touched

variable (mp : InflationParameters K) [LinearOrder K] [FloorRing K]

def SameVoxel (md other : InflatedMap K) (voxel : Vec3 ℤ) : Prop :=
  other.occupancyBuffer (mp.toAddress voxel) = md.occupancyBuffer (mp.toAddress voxel) ∧
    other.occupancyBufferInflate (mp.toAddress voxel) =
      md.occupancyBufferInflate (mp.toAddress voxel)

/-- The read stays in the buffer and depends on no other voxel, on none at all when refused. -/
def ReadsVoxel (accepted : Prop) (voxel : Vec3 ℤ) (get : InflatedMap K → Option ℤ) : Prop :=
  (accepted → mp.OwnAddress voxel) ∧
    ∀ md, (get md).isSome ∧
      ∀ other, (accepted → SameVoxel mp md other voxel) → get other = get md

/-- The write stays in the buffer and changes no other voxel, none at all when refused. -/
def WritesVoxel (accepted : Prop) (voxel : Vec3 ℤ)
    (set : InflatedMap K → Option (InflatedMap K)) : Prop :=
  (accepted → mp.OwnAddress voxel) ∧
    ∀ md, ∃ after, set md = some after ∧ (¬accepted → after = md) ∧
      after.toMappingData = { md.toMappingData with occupancyBuffer := after.occupancyBuffer } ∧
      ∀ other, mp.isInMapIndex other → other ≠ voxel → SameVoxel mp md after other

variable {mp} {voxel : Vec3 ℤ}

/-- Where a result is made of the entries of a voxel with its own address, no other is read. -/
theorem readsVoxel_of_entries {accepted : Prop} {get : InflatedMap K → Option ℤ}
    (own : accepted → mp.OwnAddress voxel) (result : K → ℤ → ℤ)
    (read : accepted → ∀ md, get md = some (result (md.occupancyBuffer (mp.toAddress voxel))
      (md.occupancyBufferInflate (mp.toAddress voxel))))
    (refused : ¬accepted → ∀ md, get md = some (-1)) : ReadsVoxel mp accepted voxel get := by
  refine ⟨own, fun md => ?_⟩
  by_cases inside : accepted
  · rw [read inside md]
    refine ⟨rfl, fun other same => ?_⟩
    rw [read inside other, (same inside).1, (same inside).2]
  · rw [refused inside md]
    exact ⟨rfl, fun other _ => refused inside other⟩

theorem write_voxel {α : Type} (own : mp.OwnAddress voxel) (buffer : ℤ → α) (value : α) :
    ∃ after, Buffers.write mp.bufferSize buffer (mp.toAddress voxel) value = some after ∧
      ∀ other, mp.isInMapIndex other → other ≠ voxel →
        after (mp.toAddress other) = buffer (mp.toAddress other) := by
  have written := Buffers.write_of_mem buffer own.1 value
  exact ⟨_, written, fun other inside apart =>
    Buffers.write_other written fun same => apart (own.2 other inside same)⟩

variable (mp) (positive : 0 < mp.resolution)

theorem getOccupancyIndex_reads (id : Vec3 ℤ) :
    ReadsVoxel mp (mp.isInMapIndex id) id fun md => getOccupancyIndex mp md id := by
  have guard : (id.x < 0 ∨ id.x ≥ mp.mapVoxelNum.x ∨ id.y < 0 ∨ id.y ≥ mp.mapVoxelNum.y ∨
      id.z < 0 ∨ id.z ≥ mp.mapVoxelNum.z) ↔ ¬mp.isInMapIndex id := by
    rw [mp.inMap_iff]
    omega
  refine readsVoxel_of_entries mp.ownAddress
    (fun log _ => if log > mp.minOccupancyLog then 1 else 0) (fun inside md => ?_)
    fun outside _ => if_pos (guard.mpr outside)
  rw [getOccupancyIndex, if_neg (guard.not.mpr (not_not.mpr inside)),
    Buffers.read_of_mem _ (mp.ownAddress inside).1, Option.map_some]

variable [IsStrictOrderedRing K]

include positive
theorem ownAddress_posToIndex {pos : Vec3 K} (inside : mp.isInMap pos) :
    mp.OwnAddress (mp.posToIndex pos) :=
  mp.ownAddress (mp.posToIndex_inside positive inside)

theorem getOccupancy_reads (pos : Vec3 K) :
    ReadsVoxel mp (mp.isInMap pos) (mp.posToIndex pos) fun md => getOccupancy mp md pos := by
  have own : mp.isInMap pos → mp.OwnAddress (mp.posToIndex pos) :=
    ownAddress_posToIndex mp positive
  refine readsVoxel_of_entries own (fun log _ => if log > mp.minOccupancyLog then 1 else 0)
    (fun inside md => ?_) fun outside _ => if_pos outside
  rw [getOccupancy, if_neg (not_not.mpr inside)]
  dsimp only
  rw [Buffers.read_of_mem _ (own inside).1, Option.map_some]

theorem getInflateOccupancy_reads (pos : Vec3 K) :
    ReadsVoxel mp (mp.isInMap pos) (mp.posToIndex pos) fun md =>
      getInflateOccupancy mp md pos := by
  have own : mp.isInMap pos → mp.OwnAddress (mp.posToIndex pos) :=
    ownAddress_posToIndex mp positive
  refine readsVoxel_of_entries own (fun _ inflated => inflated) (fun inside md => ?_)
    fun outside _ => if_pos outside
  rw [getInflateOccupancy, if_neg (not_not.mpr inside)]
  exact Buffers.read_of_mem _ (own inside).1

theorem setOccupancy_writes (pos : Vec3 K) (occ : K) :
    WritesVoxel mp (mp.isInMap pos) (mp.posToIndex pos) fun md => setOccupancy mp md pos occ := by
  refine ⟨ownAddress_posToIndex mp positive, fun md => ?_⟩
  have unchanged : ∀ other, SameVoxel mp md md other := fun _ => ⟨rfl, rfl⟩
  by_cases value : occ ≠ 1 ∧ occ ≠ 0
  · exact ⟨md, if_pos value, fun _ => rfl, rfl, fun other _ _ => unchanged other⟩
  · by_cases inside : mp.isInMap pos
    · obtain ⟨after, written, kept⟩ :=
        write_voxel (ownAddress_posToIndex mp positive inside) md.occupancyBuffer occ
      refine ⟨{ md with occupancyBuffer := after }, ?_, fun outside => absurd inside outside, rfl,
        fun other other_inside apart => ⟨kept other other_inside apart, rfl⟩⟩
      simp only [setOccupancy, if_neg value, if_neg (not_not.mpr inside), written, Option.map_some]
    · refine ⟨md, ?_, fun _ => rfl, rfl, fun other _ _ => unchanged other⟩
      simp only [setOccupancy, if_neg value, if_pos inside]

theorem setOccupied_writes (pos : Vec3 K) :
    WritesVoxel mp (mp.isInMap pos) (mp.posToIndex pos) fun md => setOccupied mp md pos := by
  refine ⟨ownAddress_posToIndex mp positive, fun md => ?_⟩
  by_cases inside : mp.isInMap pos
  · obtain ⟨after, written, kept⟩ :=
      write_voxel (ownAddress_posToIndex mp positive inside) md.occupancyBufferInflate 1
    refine ⟨{ md with occupancyBufferInflate := after }, ?_, fun outside => absurd inside outside,
      rfl, fun other other_inside apart => ⟨rfl, kept other other_inside apart⟩⟩
    rw [MappingParameters.toAddress] at written
    simp only [setOccupied, if_neg (not_not.mpr inside), written, Option.map_some]
  · refine ⟨md, ?_, fun _ => rfl, rfl, fun other _ _ => ⟨rfl, rfl⟩⟩
    simp only [setOccupied, if_pos inside]

/-- What every access to a voxel rests on. -/
structure VoxelAccess : Prop where
  index : ∀ pos, mp.isInMap pos → ∀ axis, 0 ≤ (mp.posToIndex pos).get axis ∧
    (mp.posToIndex pos).get axis < mp.mapVoxelNum.get axis
  address : Set.BijOn mp.toAddress {id | mp.isInMapIndex id} (Set.Ico 0 mp.bufferSize)
  index_of_middle : ∀ id, mp.posToIndex (mp.indexToPos id) = id
  middle_of_index : ∀ pos axis,
    |(mp.indexToPos (mp.posToIndex pos)).get axis - pos.get axis| ≤ mp.resolution / 2
  get_occupancy : ∀ pos,
    ReadsVoxel mp (mp.isInMap pos) (mp.posToIndex pos) fun md => getOccupancy mp md pos
  get_occupancy_index : ∀ id,
    ReadsVoxel mp (mp.isInMapIndex id) id fun md => getOccupancyIndex mp md id
  get_inflate_occupancy : ∀ pos,
    ReadsVoxel mp (mp.isInMap pos) (mp.posToIndex pos) fun md => getInflateOccupancy mp md pos
  set_occupancy : ∀ pos occ,
    WritesVoxel mp (mp.isInMap pos) (mp.posToIndex pos) fun md => setOccupancy mp md pos occ
  set_occupied : ∀ pos,
    WritesVoxel mp (mp.isInMap pos) (mp.posToIndex pos) fun md => setOccupied mp md pos

theorem voxelAccess (sizes : ∀ axis, 0 ≤ mp.mapSize.get axis) : VoxelAccess mp where
  index pos inside axis := by
    have bounds := mp.posToIndex_inside positive inside axis
    omega
  address := mp.toAddress_bijOn fun axis => mp.mapVoxelNum_nonneg positive axis (sizes axis)
  index_of_middle := mp.posToIndex_indexToPos
  middle_of_index := mp.indexToPos_posToIndex positive
  get_occupancy := getOccupancy_reads mp positive
  get_occupancy_index := getOccupancyIndex_reads mp
  get_inflate_occupancy := getInflateOccupancy_reads mp positive
  set_occupancy := setOccupancy_writes mp positive
  set_occupied := setOccupied_writes mp positive

end Touched

def unevenMap : InflationParameters ℚ :=
  { lowMap with
    resolution := 0.3
    mapSize := ⟨1, 0.5, 2⟩
    resolution_ne := by norm_num }

theorem unevenMap_voxelAccess : VoxelAccess unevenMap :=
  voxelAccess unevenMap (by decide +kernel) (by decide +kernel)

end RobocupDrone.Mapping
