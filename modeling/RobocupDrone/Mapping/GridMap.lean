import Mathlib.Data.BitVec
import RobocupDrone.Mapping.RayCaster

/-! `grid_map.cpp`: the occupancy map, from an accepted depth frame to the cached update. -/

namespace RobocupDrone.Mapping

open Geometry

variable {K : Type} [Field K]

/-- The part of `MappingParameters` that ray casting reads, as the launch file sets it. `initMap`
divides by the resolution. -/
structure MappingParameters (K : Type) [Field K] where
  resolution : K
  mapSize : Vec3 K
  groundHeight : K
  localUpdateRange : Vec3 K
  maxRayLength : K
  probHitLog : K
  probMissLog : K
  clampMinLog : K
  clampMaxLog : K
  resolution_ne : resolution ≠ 0

/-- The part of `MappingData` that the depth callbacks and ray casting read or write. Buffers are
indexed by address; `cam2body` is the translation of `cam2body_`. -/
structure MappingData (K : Type) where
  occupancyBuffer : ℤ → K
  cameraPos : Vec3 K
  cam2body : Vec3 K
  occNeedUpdate : Bool
  localUpdated : Bool
  hasOdom : Bool
  flagUseDepthFusion : Bool
  updateNum : ℤ
  projPoints : List (Vec3 K)
  countHit : ℤ → BitVec 16
  countHitAndMiss : ℤ → BitVec 16
  flagTraverse : ℤ → BitVec 8
  flagRayend : ℤ → BitVec 8
  raycastNum : BitVec 8
  cacheVoxel : List (Vec3 ℤ)
  localBoundMin : Vec3 ℤ
  localBoundMax : Vec3 ℤ

def invalidIdx : ℤ := -10000

def unknownFlag : K := 0.01

def logit (log : K → K) (x : K) : K := log (x / (1 - x))

namespace MappingParameters

variable (mp : MappingParameters K)

def resolutionInv : K := 1 / mp.resolution

def mapOrigin : Vec3 K := ⟨-mp.mapSize.x / 2.0, -mp.mapSize.y / 2.0, mp.groundHeight⟩

def mapMinBoundary : Vec3 K := mp.mapOrigin

def mapMaxBoundary : Vec3 K := mp.mapOrigin + mp.mapSize

/-- The world position of a ray caster cell: `(ray_pt + half) * resolution_`. -/
def cellCentre (rayPt : Vec3 ℤ) : Vec3 K :=
  Vec3.ofAxes fun axis => ((rayPt.get axis : K) + 0.5) * mp.resolution

variable [LinearOrder K]

def isInMap (pos : Vec3 K) : Prop :=
  ∀ axis, ¬ pos.get axis < mp.mapMinBoundary.get axis + 1e-4 ∧
    ¬ mp.mapMaxBoundary.get axis - 1e-4 < pos.get axis

instance (pos : Vec3 K) : Decidable (mp.isInMap pos) :=
  inferInstanceAs (Decidable (∀ _ : Axis, _))

variable [FloorRing K]

def mapVoxelNum : Vec3 ℤ := Vec3.ofAxes fun axis => ⌈mp.mapSize.get axis / mp.resolution⌉

/-- `isInMap` of an index. -/
def isInMapIndex (idx : Vec3 ℤ) : Prop :=
  ∀ axis, ¬ idx.get axis < 0 ∧ ¬ mp.mapVoxelNum.get axis - 1 < idx.get axis

instance (idx : Vec3 ℤ) : Decidable (mp.isInMapIndex idx) :=
  inferInstanceAs (Decidable (∀ _ : Axis, _))

def posToIndex (pos : Vec3 K) : Vec3 ℤ :=
  Vec3.ofAxes fun axis => ⌊(pos.get axis - mp.mapOrigin.get axis) * mp.resolutionInv⌋

def toAddress (id : Vec3 ℤ) : ℤ :=
  id.x * mp.mapVoxelNum.y * mp.mapVoxelNum.z + id.y * mp.mapVoxelNum.z + id.z

def bufferSize : ℤ := mp.mapVoxelNum.x * mp.mapVoxelNum.y * mp.mapVoxelNum.z

def OwnAddress (id : Vec3 ℤ) : Prop :=
  (0 ≤ mp.toAddress id ∧ mp.toAddress id < mp.bufferSize) ∧
    ∀ other, mp.isInMapIndex other → mp.toAddress other = mp.toAddress id → other = id

def boundIndex (id : Vec3 ℤ) : Vec3 ℤ :=
  Vec3.ofAxes fun axis => max (min (id.get axis) (mp.mapVoxelNum.get axis - 1)) 0

theorem digits_unique {a b n r s : ℤ} (r_nonneg : 0 ≤ r) (r_lt : r < n) (s_nonneg : 0 ≤ s)
    (s_lt : s < n) (same : a * n + r = b * n + s) : a = b ∧ r = s := by
  have quotients : ∀ {c q : ℤ}, 0 ≤ q → q < n → (c * n + q) / n = c := by
    intro c q q_nonneg q_lt
    rw [Int.add_comm, Int.add_mul_ediv_right _ _ (by omega), Int.ediv_eq_zero_of_lt q_nonneg q_lt,
      zero_add]
  have equal : a = b := by
    rw [← quotients (c := a) r_nonneg r_lt, same, quotients s_nonneg s_lt]
  rw [equal] at same
  exact ⟨equal, by omega⟩

theorem digits_range {a m n r : ℤ} (a_nonneg : 0 ≤ a) (a_lt : a < m) (r_nonneg : 0 ≤ r)
    (r_lt : r < n) : 0 ≤ a * n + r ∧ a * n + r < m * n := by
  have n_nonneg : 0 ≤ n := by omega
  have product := mul_nonneg a_nonneg n_nonneg
  have next := mul_le_mul_of_nonneg_right (by omega : a + 1 ≤ m) n_nonneg
  rw [add_mul, one_mul] at next
  constructor <;> omega

theorem toAddress_eq (id : Vec3 ℤ) :
    mp.toAddress id = (id.x * mp.mapVoxelNum.y + id.y) * mp.mapVoxelNum.z + id.z := by
  rw [toAddress]
  ring

theorem ownAddress {id : Vec3 ℤ} (inside : mp.isInMapIndex id) : mp.OwnAddress id := by
  have range : ∀ {idx : Vec3 ℤ}, mp.isInMapIndex idx → ∀ axis,
      0 ≤ idx.get axis ∧ idx.get axis < mp.mapVoxelNum.get axis := by
    intro idx in_map axis
    have bounds := in_map axis
    omega
  have on_x := range inside .x
  have on_y := range inside .y
  have on_z := range inside .z
  constructor
  · have columns := digits_range on_x.1 on_x.2 on_y.1 on_y.2
    have voxels := digits_range columns.1 columns.2 on_z.1 on_z.2
    rw [toAddress_eq, bufferSize]
    exact voxels
  · intro other other_inside same
    have other_y := range other_inside .y
    have other_z := range other_inside .z
    rw [toAddress_eq, toAddress_eq] at same
    rcases digits_unique other_z.1 other_z.2 on_z.1 on_z.2 same with ⟨same_column, same_z⟩
    rcases digits_unique other_y.1 other_y.2 on_y.1 on_y.2 same_column with ⟨same_x, same_y⟩
    apply Vec3.ext_get
    intro axis
    cases axis
    · exact same_x
    · exact same_y
    · exact same_z

end MappingParameters

/-- The data after `initMap`. The camera position and the local bounds are not set there. -/
def initMap (mp : MappingParameters K) : MappingData K where
  occupancyBuffer := fun _ => mp.clampMinLog - unknownFlag
  cameraPos := ⟨0, 0, 0⟩
  cam2body := ⟨0.142, 0.045, 0⟩
  occNeedUpdate := false
  localUpdated := false
  hasOdom := false
  flagUseDepthFusion := false
  updateNum := 0
  projPoints := []
  countHit := fun _ => 0
  countHitAndMiss := fun _ => 0
  flagTraverse := fun _ => -1
  flagRayend := fun _ => -1
  raycastNum := 0
  cacheVoxel := []
  localBoundMin := ⟨0, 0, 0⟩
  localBoundMax := ⟨0, 0, 0⟩

structure Quaternion (K : Type) where
  w : K
  x : K
  y : K
  z : K

def Quaternion.rotate (q : Quaternion K) (v : Vec3 K) : Vec3 K :=
  let tx := 2.0 * q.x
  let ty := 2.0 * q.y
  let tz := 2.0 * q.z
  { x := (1 - (ty * q.y + tz * q.z)) * v.x + (ty * q.x - tz * q.w) * v.y +
      (tz * q.x + ty * q.w) * v.z
    y := (ty * q.x + tz * q.w) * v.x + (1 - (tx * q.x + tz * q.z)) * v.y +
      (tz * q.y - tx * q.w) * v.z
    z := (tz * q.x - ty * q.w) * v.x + (tz * q.y + tx * q.w) * v.y +
      (1 - (tx * q.x + ty * q.y)) * v.z }

inductive DepthFrame (K : Type)
  | pose (position : Vec3 K)
  | odom (position : Vec3 K) (orientation : Quaternion K)

section Callbacks

variable [LinearOrder K] (mp : MappingParameters K)

def depthPoseCallback (position : Vec3 K) (md : MappingData K) : MappingData K :=
  let md := { md with cameraPos := position }
  let md :=
    if mp.isInMap md.cameraPos then
      { md with hasOdom := true, updateNum := md.updateNum + 1, occNeedUpdate := true }
    else { md with occNeedUpdate := false }
  { md with flagUseDepthFusion := true }

def depthOdomCallback (position : Vec3 K) (orientation : Quaternion K) (md : MappingData K) :
    MappingData K :=
  { md with
    cameraPos := orientation.rotate md.cam2body + position
    occNeedUpdate := true
    flagUseDepthFusion := true }

def receive : DepthFrame K → MappingData K → MappingData K
  | .pose position, md => depthPoseCallback mp position md
  | .odom position orientation, md => depthOdomCallback position orientation md

end Callbacks

section RayEnds

variable [LinearOrder K] (mp : MappingParameters K)

def nearer (t minT : K) : K := if 0 < t ∧ t < minT then t else minT

/-- One round of the loop of `closetPointInMap`. -/
def nearerOnAxis (diff maxTc minTc minT : K) : K :=
  if 0 < |diff| then nearer (minTc / diff) (nearer (maxTc / diff) minT) else minT

def closetPointInMap (pt cameraPt : Vec3 K) : Vec3 K :=
  let diff := pt - cameraPt
  let maxTc := mp.mapMaxBoundary - cameraPt
  let minTc := mp.mapMinBoundary - cameraPt
  let minT := nearerOnAxis diff.x maxTc.x minTc.x 1000000
  let minT := nearerOnAxis diff.y maxTc.y minTc.y minT
  let minT := nearerOnAxis diff.z maxTc.z minTc.z minT
  cameraPt + (minT - 1e-3) • diff

variable (sqrt : K → K)

/-- The point moved towards the camera until `max_ray_length_`; at distance zero the division
gives no number. -/
def shortened (cameraPos ptW : Vec3 K) : Option (Vec3 K) :=
  let length := (ptW - cameraPos).lengthBy sqrt
  if length = 0 then none
  else some (mp.maxRayLength • ((ptW - cameraPos) / length) + cameraPos)

/-- Where the ray of a projected point ends, with the `occ` handed to `setCacheOccupancy`. -/
def rayEnd (cameraPos ptW : Vec3 K) : Option (Vec3 K × ℤ) :=
  if ¬ mp.isInMap ptW then
    let ptW := closetPointInMap mp ptW cameraPos
    if (ptW - cameraPos).lengthBy sqrt > mp.maxRayLength then
      (shortened mp sqrt cameraPos ptW).map fun ptW => (ptW, 0)
    else some (ptW, 0)
  else if (ptW - cameraPos).lengthBy sqrt > mp.maxRayLength then
    (shortened mp sqrt cameraPos ptW).map fun ptW => (ptW, 0)
  else some (ptW, 1)

variable {mp sqrt} in
theorem rayEnd_occ {cameraPos ptW : Vec3 K} {ray : Vec3 K × ℤ}
    (ends : rayEnd mp sqrt cameraPos ptW = some ray) : ray.2 = 1 ∨ ray.2 = 0 := by
  rw [rayEnd] at ends
  dsimp only at ends
  split_ifs at ends
  · rcases Option.map_eq_some_iff.mp ends with ⟨_, _, same⟩
    exact .inr (congrArg Prod.snd same).symm
  · exact .inl (congrArg Prod.snd (Option.some.inj ends)).symm
  · rcases Option.map_eq_some_iff.mp ends with ⟨_, _, same⟩
    exact .inr (congrArg Prod.snd same).symm
  · exact .inr (congrArg Prod.snd (Option.some.inj ends)).symm

end RayEnds

section CachedVoxels

variable [LinearOrder K] [FloorRing K] (mp : MappingParameters K)

def setCacheOccupancy (pos : Vec3 K) (occ : ℤ) (md : MappingData K) : ℤ × MappingData K :=
  if occ ≠ 1 ∧ occ ≠ 0 then (invalidIdx, md)
  else
    let id := mp.posToIndex pos
    let idxCtns := mp.toAddress id
    let md := { md with
      countHitAndMiss :=
        Function.update md.countHitAndMiss idxCtns (md.countHitAndMiss idxCtns + 1) }
    let md :=
      if md.countHitAndMiss idxCtns = 1 then { md with cacheVoxel := md.cacheVoxel ++ [id] }
      else md
    let md :=
      if occ = 1 then
        { md with countHit := Function.update md.countHit idxCtns (md.countHit idxCtns + 1) }
      else md
    (idxCtns, md)

/-- One round of the loop over `cache_voxel_`. -/
def updateVoxel (minId maxId : Vec3 ℤ) (md : MappingData K) (idx : Vec3 ℤ) : MappingData K :=
  let idxCtns := mp.toAddress idx
  let logOddsUpdate :=
    if (md.countHit idxCtns).toInt ≥
        (md.countHitAndMiss idxCtns).toInt - (md.countHit idxCtns).toInt then mp.probHitLog
    else mp.probMissLog
  let md := { md with
    countHit := Function.update md.countHit idxCtns 0
    countHitAndMiss := Function.update md.countHitAndMiss idxCtns 0 }
  let setOccupancy (value : K) (md : MappingData K) : MappingData K :=
    { md with occupancyBuffer := Function.update md.occupancyBuffer idxCtns value }
  if logOddsUpdate ≥ 0 ∧ md.occupancyBuffer idxCtns ≥ mp.clampMaxLog then md
  else if logOddsUpdate ≤ 0 ∧ md.occupancyBuffer idxCtns ≤ mp.clampMinLog then
    setOccupancy mp.clampMinLog md
  else
    let inLocal := ∀ axis, minId.get axis ≤ idx.get axis ∧ idx.get axis ≤ maxId.get axis
    let md := if inLocal then md else setOccupancy mp.clampMinLog md
    setOccupancy (min (max (md.occupancyBuffer idxCtns + logOddsUpdate) mp.clampMinLog)
      mp.clampMaxLog) md

/-- The loop over `cache_voxel_`, which empties it. -/
def updateFromCache (minId maxId : Vec3 ℤ) (md : MappingData K) : MappingData K :=
  md.cacheVoxel.foldl (updateVoxel mp minId maxId) { md with cacheVoxel := [] }

/-- The locals of `raycastProcess` while it goes through the points: `min_x` to `max_z`, and as
a record of the run the indices handed to `setCacheOccupancy`, the newest first. -/
structure Pass (K : Type) where
  data : MappingData K
  low : Vec3 K
  high : Vec3 K
  touched : List (Vec3 ℤ)

namespace Pass

def setCacheOccupancy (pos : Vec3 K) (occ : ℤ) (pass : Pass K) : ℤ × Pass K :=
  let made := Mapping.setCacheOccupancy mp pos occ pass.data
  (made.1, { pass with data := made.2, touched := mp.posToIndex pos :: pass.touched })

def widen (pt : Vec3 K) (pass : Pass K) : Pass K :=
  { pass with
    high := Vec3.ofAxes fun axis => max (pass.high.get axis) (pt.get axis)
    low := Vec3.ofAxes fun axis => min (pass.low.get axis) (pt.get axis) }

/-- The inner loop of `raycastProcess`: a cell that another ray of the frame went through ends
the ray. -/
def traverse : List (Vec3 ℤ) → Pass K → Pass K
  | [], pass => pass
  | rayPt :: rest, pass =>
      let (voxIdx, pass) := pass.setCacheOccupancy mp (mp.cellCentre rayPt) 0
      if voxIdx ≠ invalidIdx then
        if pass.data.flagTraverse voxIdx = pass.data.raycastNum then pass
        else
          traverse rest { pass with
            data := { pass.data with
              flagTraverse :=
                Function.update pass.data.flagTraverse voxIdx pass.data.raycastNum } }
      else traverse rest pass

end Pass

def startPass (md : MappingData K) : Pass K where
  data := { md with raycastNum := md.raycastNum + 1 }
  low := mp.mapMaxBoundary
  high := mp.mapMinBoundary
  touched := []

section Rays

variable (sqrt : K → K)

def castRay (cameraPos ptW : Vec3 K) (occ : ℤ) (pass : Pass K) : Pass K :=
  let (voxIdx, pass) := pass.setCacheOccupancy mp ptW occ
  let pass := pass.widen ptW
  let raycaster := RayCaster.setInput (ptW / mp.resolution) (cameraPos / mp.resolution)
  if voxIdx ≠ invalidIdx then
    if pass.data.flagRayend voxIdx = pass.data.raycastNum then pass
    else
      Pass.traverse mp raycaster.cells { pass with
        data := { pass.data with
          flagRayend := Function.update pass.data.flagRayend voxIdx pass.data.raycastNum } }
  else Pass.traverse mp raycaster.cells pass

def castPoint (cameraPos : Vec3 K) (pass : Pass K) (ptW : Vec3 K) : Option (Pass K) :=
  (rayEnd mp sqrt cameraPos ptW).map fun (ptW, occ) => castRay mp cameraPos ptW occ pass

def finishPass (cameraPos : Vec3 K) (pass : Pass K) : MappingData K :=
  let pass := pass.widen cameraPos
  let maxZ := max pass.high.z mp.groundHeight
  let md := { pass.data with
    localBoundMax := mp.boundIndex (mp.posToIndex ⟨pass.high.x, pass.high.y, maxZ⟩)
    localBoundMin := mp.boundIndex (mp.posToIndex pass.low)
    localUpdated := true }
  updateFromCache mp (mp.boundIndex (mp.posToIndex (cameraPos - mp.localUpdateRange)))
    (mp.boundIndex (mp.posToIndex (cameraPos + mp.localUpdateRange))) md

/-- `raycastProcess`, with the indices handed to `setCacheOccupancy`. -/
def raycastProcess (md : MappingData K) : Option (MappingData K × List (Vec3 ℤ)) :=
  if md.projPoints = [] then some (md, [])
  else
    (md.projPoints.foldlM (castPoint mp sqrt md.cameraPos) (startPass mp md)).map fun pass =>
      (finishPass mp md.cameraPos pass, pass.touched)

end Rays

end CachedVoxels

end RobocupDrone.Mapping
