import RobocupDrone.Mapping.Inflation

/-! `cloudCallback`: a cleared box of voxels, and the inflated points of a cloud. -/

namespace RobocupDrone.Mapping

open Geometry

variable {K : Type} [Field K] [LinearOrder K] [FloorRing K] (mp : InflationParameters K)

def resetBuffer (minPos maxPos : Vec3 K) (md : InflatedMap K) : InflatedMap K :=
  { md with
    occupancyBufferInflate := fill 0
      ((box (mp.boundIndex (mp.posToIndex minPos)) (mp.boundIndex (mp.posToIndex maxPos))).map
        mp.toAddress) md.occupancyBufferInflate }

/-- The inflated occupancy and `min_x` to `max_z` while the points are gone through. -/
structure CloudPass (K : Type) where
  inflate : ℤ → ℤ
  low : Vec3 K
  high : Vec3 K

def shifted (pt : Vec3 K) (steps : Vec3 ℤ) : Vec3 K :=
  Vec3.ofAxes fun axis => pt.get axis + (steps.get axis : K) * mp.resolution

def CloudPass.widen (pt : Vec3 K) (pass : CloudPass K) : CloudPass K :=
  { pass with
    high := Vec3.ofAxes fun axis => max (pass.high.get axis) (pt.get axis)
    low := Vec3.ofAxes fun axis => min (pass.low.get axis) (pt.get axis) }

def inflateAt (pt : Vec3 K) (pass : CloudPass K) (steps : Vec3 ℤ) : CloudPass K :=
  let p3dInf := shifted mp pt steps
  let pass := pass.widen p3dInf
  let infPt := mp.posToIndex p3dInf
  if ¬mp.isInMapIndex infPt then pass
  else { pass with inflate := Function.update pass.inflate (mp.toAddress infPt) 1 }

/-- `x` and `y` from `-inf_step` to `inf_step`, `z` from `-inf_step_z` to `inf_step_z`. -/
def cloudSteps : List (Vec3 ℤ) :=
  box ⟨-infStep mp, -infStep mp, -1⟩ ⟨infStep mp, infStep mp, 1⟩

def InRange (cameraPos pt : Vec3 K) : Prop :=
  ∀ axis, |pt.get axis - cameraPos.get axis| < mp.localUpdateRange.get axis

instance (cameraPos pt : Vec3 K) : Decidable (InRange mp cameraPos pt) :=
  inferInstanceAs (Decidable (∀ _ : Axis, _))

def addPoint (cameraPos : Vec3 K) (pass : CloudPass K) (pt : Vec3 K) : CloudPass K :=
  if InRange mp cameraPos pt then (cloudSteps mp).foldl (inflateAt mp pt) pass else pass

def cloudCallback (latestCloud : List (Vec3 K)) (md : InflatedMap K) : InflatedMap K :=
  let md := { md with hasCloud := true }
  if md.hasOdom = false then md
  else if latestCloud = [] then md
  else
    let md := resetBuffer mp (md.cameraPos - mp.localUpdateRange)
      (md.cameraPos + mp.localUpdateRange) md
    let start : CloudPass K :=
      ⟨md.occupancyBufferInflate, mp.mapMaxBoundary, mp.mapMinBoundary⟩
    let pass := (latestCloud.foldl (addPoint mp md.cameraPos) start).widen md.cameraPos
    let maxZ := max pass.high.z mp.groundHeight
    { md with
      occupancyBufferInflate := pass.inflate
      localBoundMax := mp.boundIndex (mp.posToIndex ⟨pass.high.x, pass.high.y, maxZ⟩)
      localBoundMin := mp.boundIndex (mp.posToIndex pass.low) }

/-- The voxel of the point differs from `voxel` by at most `inf_step` in x and y and 1 in z. -/
def NearVoxel (pt : Vec3 K) (voxel : Vec3 ℤ) : Prop :=
  |(mp.posToIndex pt).x - voxel.x| ≤ infStep mp ∧ |(mp.posToIndex pt).y - voxel.y| ≤ infStep mp ∧
    |(mp.posToIndex pt).z - voxel.z| ≤ 1

theorem posToIndex_shifted [IsStrictOrderedRing K] (pt : Vec3 K) (steps : Vec3 ℤ) :
    mp.posToIndex (shifted mp pt steps) = mp.posToIndex pt + steps := by
  apply Vec3.ext_get
  intro axis
  rw [Vec3.get_add, MappingParameters.posToIndex, MappingParameters.posToIndex, Vec3.get_ofAxes,
    Vec3.get_ofAxes, shifted, Vec3.get_ofAxes, ← Int.floor_add_intCast]
  congr 1
  rw [MappingParameters.resolutionInv]
  field_simp [mp.resolution_ne]
  ring

/-- The addresses that the loops over `steps` mark. -/
def markedAddresses (pt : Vec3 K) (steps : List (Vec3 ℤ)) : List ℤ :=
  ((steps.map fun k => mp.posToIndex (shifted mp pt k)).filter fun idx =>
    mp.isInMapIndex idx).map mp.toAddress

def pointAddresses (cameraPos pt : Vec3 K) : List ℤ :=
  if InRange mp cameraPos pt then markedAddresses mp pt (cloudSteps mp) else []

theorem foldl_inflateAt (pt : Vec3 K) (steps : List (Vec3 ℤ)) (pass : CloudPass K) :
    (steps.foldl (inflateAt mp pt) pass).inflate =
      fill 1 (markedAddresses mp pt steps) pass.inflate := by
  induction steps generalizing pass with
  | nil => rfl
  | cons k rest ih =>
      rw [List.foldl_cons, ih]
      by_cases inside : mp.isInMapIndex (mp.posToIndex (shifted mp pt k))
      · have first : markedAddresses mp pt (k :: rest) =
            mp.toAddress (mp.posToIndex (shifted mp pt k)) :: markedAddresses mp pt rest := by
          simp [markedAddresses, inside]
        rw [first]
        simp only [inflateAt, CloudPass.widen, inside, not_true_eq_false, if_false]
        rfl
      · have first : markedAddresses mp pt (k :: rest) = markedAddresses mp pt rest := by
          simp [markedAddresses, inside]
        rw [first]
        simp only [inflateAt, CloudPass.widen, inside, not_false_eq_true, if_true]

theorem foldl_addPoint (cameraPos : Vec3 K) (cloud : List (Vec3 K)) (pass : CloudPass K) :
    (cloud.foldl (addPoint mp cameraPos) pass).inflate =
      cloud.foldl (fun inflate pt => fill 1 (pointAddresses mp cameraPos pt) inflate)
        pass.inflate := by
  induction cloud generalizing pass with
  | nil => rfl
  | cons pt rest ih =>
      rw [List.foldl_cons, List.foldl_cons, ih, addPoint, pointAddresses]
      split_ifs
      · rw [foldl_inflateAt]
      · rfl

theorem mem_cloudSteps_iff {steps : Vec3 ℤ} : steps ∈ cloudSteps mp ↔
    |steps.x| ≤ infStep mp ∧ |steps.y| ≤ infStep mp ∧ |steps.z| ≤ 1 := by
  rw [cloudSteps, mem_box_iff, inBox_iff, abs_le, abs_le, abs_le]

theorem mem_pointAddresses_iff [IsStrictOrderedRing K] {cameraPos pt : Vec3 K} {voxel : Vec3 ℤ}
    (inside : mp.isInMapIndex voxel) :
    mp.toAddress voxel ∈ pointAddresses mp cameraPos pt ↔
      InRange mp cameraPos pt ∧ NearVoxel mp pt voxel := by
  unfold pointAddresses
  split_ifs with near
  · rw [and_iff_right near]
    simp only [markedAddresses, List.mem_map, List.mem_filter, posToIndex_shifted,
      decide_eq_true_eq]
    constructor
    · rintro ⟨idx, ⟨⟨steps, member, moved⟩, in_map⟩, same⟩
      have here := (mp.ownAddress inside).2 idx in_map same
      have bounds := (mem_cloudSteps_iff mp).mp member
      rw [here] at moved
      unfold NearVoxel
      rw [← moved]
      have back : ∀ a b : ℤ, |a - (a + b)| = |b| := by
        intro a b
        rw [sub_add_cancel_left, abs_neg]
      exact ⟨(back _ _).trans_le bounds.1, (back _ _).trans_le bounds.2.1,
        (back _ _).trans_le bounds.2.2⟩
    · rintro ⟨on_x, on_y, on_z⟩
      refine ⟨voxel, ⟨⟨voxel - mp.posToIndex pt, ?_, ?_⟩, inside⟩, rfl⟩
      · rw [mem_cloudSteps_iff]
        exact ⟨by rwa [abs_sub_comm] at on_x, by rwa [abs_sub_comm] at on_y,
          by rwa [abs_sub_comm] at on_z⟩
      · apply Vec3.ext_get
        intro axis
        rw [Vec3.get_add, Vec3.get_sub, add_sub_cancel]
  · simp [near]

def InCloudBox (md : InflatedMap K) (voxel : Vec3 ℤ) : Prop :=
  InBox (mp.boundIndex (mp.posToIndex (md.cameraPos - mp.localUpdateRange)))
    (mp.boundIndex (mp.posToIndex (md.cameraPos + mp.localUpdateRange))) voxel

instance (pt : Vec3 K) (voxel : Vec3 ℤ) : Decidable (NearVoxel mp pt voxel) :=
  inferInstanceAs (Decidable (_ ∧ _))

instance (md : InflatedMap K) (voxel : Vec3 ℤ) : Decidable (InCloudBox mp md voxel) :=
  inferInstanceAs (Decidable (InBox _ _ _))

/-- The cloud has a point in range of the camera whose voxel is near. -/
def SeesObstacle (cloud : List (Vec3 K)) (md : InflatedMap K) (voxel : Vec3 ℤ) : Prop :=
  ∃ pt ∈ cloud, InRange mp md.cameraPos pt ∧ NearVoxel mp pt voxel

instance (cloud : List (Vec3 K)) (md : InflatedMap K) (voxel : Vec3 ℤ) :
    Decidable (SeesObstacle mp cloud md voxel) :=
  inferInstanceAs (Decidable (∃ pt ∈ cloud, _))

theorem mem_cloudBox_iff {md : InflatedMap K} {voxel : Vec3 ℤ} (inside : mp.isInMapIndex voxel) :
    mp.toAddress voxel ∈ (box (mp.boundIndex (mp.posToIndex (md.cameraPos - mp.localUpdateRange)))
      (mp.boundIndex (mp.posToIndex (md.cameraPos + mp.localUpdateRange)))).map mp.toAddress ↔
      InCloudBox mp md voxel := by
  rw [List.mem_map]
  constructor
  · rintro ⟨other, member, same⟩
    have bounds := mem_box_iff.mp member
    have other_inside : mp.isInMapIndex other := by
      intro axis
      have in_map := inside axis
      have on_axis := bounds axis
      simp only [MappingParameters.boundIndex, Vec3.get_ofAxes] at on_axis
      omega
    rw [← (mp.ownAddress inside).2 other other_inside same]
    exact bounds
  · intro bounds
    exact ⟨voxel, mem_box_iff.mpr bounds, rfl⟩

theorem cloudCallback_apply [IsStrictOrderedRing K] {cloud : List (Vec3 K)} {md : InflatedMap K}
    (odom : md.hasOdom = true) (nonempty : cloud ≠ []) {voxel : Vec3 ℤ}
    (inside : mp.isInMapIndex voxel) :
    (cloudCallback mp cloud md).occupancyBufferInflate (mp.toAddress voxel) =
      if SeesObstacle mp cloud md voxel then 1
      else if InCloudBox mp md voxel then 0
      else md.occupancyBufferInflate (mp.toAddress voxel) := by
  have seen : (∃ pt ∈ cloud, mp.toAddress voxel ∈ pointAddresses mp md.cameraPos pt) ↔
      SeesObstacle mp cloud md voxel := by
    simp only [mem_pointAddresses_iff mp inside]
    rfl
  simp only [cloudCallback, odom, nonempty, Bool.true_eq_false, if_false, CloudPass.widen,
    resetBuffer]
  rw [foldl_addPoint, foldl_fill_apply]
  simp only [seen, fill_apply, mem_cloudBox_iff mp inside]

theorem cloud_marks_iff [IsStrictOrderedRing K] {cloud : List (Vec3 K)} {md : InflatedMap K}
    (odom : md.hasOdom = true) (nonempty : cloud ≠ []) {voxel : Vec3 ℤ}
    (inside : mp.isInMapIndex voxel) :
    let inflate := (cloudCallback mp cloud md).occupancyBufferInflate (mp.toAddress voxel)
    (InCloudBox mp md voxel → (inflate = 1 ↔ SeesObstacle mp cloud md voxel)) ∧
      (¬InCloudBox mp md voxel → (SeesObstacle mp cloud md voxel → inflate = 1) ∧
        (¬SeesObstacle mp cloud md voxel →
          inflate = md.occupancyBufferInflate (mp.toAddress voxel))) := by
  intro inflate
  have value : inflate = _ := cloudCallback_apply mp odom nonempty inside
  rw [value]
  constructor
  · intro in_box
    by_cases seen : SeesObstacle mp cloud md voxel
    · simp [seen]
    · simp [seen, in_box]
  · intro outside
    constructor
    · intro seen
      rw [if_pos seen]
    · intro unseen
      rw [if_neg unseen, if_neg outside]

def onePointMap : InflatedMap ℚ where
  toMappingData := { initMap lowMap.toMappingParameters with
    cameraPos := ⟨0, 0, 2⟩
    hasOdom := true }
  occupancyBufferInflate := fun _ => 0
  hasCloud := false

theorem one_point_marked :
    let inflate := (cloudCallback lowMap [⟨0.5, 0.5, 1.5⟩] onePointMap).occupancyBufferInflate
      (lowMap.toAddress ⟨1, 2, 2⟩)
    (InCloudBox lowMap onePointMap ⟨1, 2, 2⟩ →
        (inflate = 1 ↔ SeesObstacle lowMap [⟨0.5, 0.5, 1.5⟩] onePointMap ⟨1, 2, 2⟩)) ∧
      (¬InCloudBox lowMap onePointMap ⟨1, 2, 2⟩ →
        (SeesObstacle lowMap [⟨0.5, 0.5, 1.5⟩] onePointMap ⟨1, 2, 2⟩ → inflate = 1) ∧
        (¬SeesObstacle lowMap [⟨0.5, 0.5, 1.5⟩] onePointMap ⟨1, 2, 2⟩ →
          inflate = onePointMap.occupancyBufferInflate (lowMap.toAddress ⟨1, 2, 2⟩))) :=
  cloud_marks_iff lowMap rfl (by simp) (by decide +kernel)

end RobocupDrone.Mapping
