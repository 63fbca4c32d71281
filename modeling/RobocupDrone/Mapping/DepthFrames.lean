import Mathlib.Analysis.SpecialFunctions.Log.Basic
import RobocupDrone.Mapping.ExtremeRays
import RobocupDrone.Mapping.FrameRays

/-! The depth frames whose rays touch no voxel outside the map, and the poses for which this holds
whatever points are projected. -/

namespace RobocupDrone.Mapping

open Geometry

variable {K : Type} [Field K]

section Frames

variable (mp : MappingParameters K)
variable {sqrt : K → K}

theorem newStamp_initMap : NewStamp (initMap mp) := by
  intro address
  change (-1 : BitVec 8) ≠ 0 + 1
  decide

variable [LinearOrder K]

theorem receive_flags (frame : DepthFrame K) (md : MappingData K) :
    (receive mp frame md).flagRayend = md.flagRayend ∧
      (receive mp frame md).raycastNum = md.raycastNum := by
  cases frame with
  | pose position =>
      change (depthPoseCallback mp position md).flagRayend = _ ∧
        (depthPoseCallback mp position md).raycastNum = _
      rw [depthPoseCallback]
      dsimp only
      split_ifs <;> exact ⟨rfl, rfl⟩
  | odom position orientation => exact ⟨rfl, rfl⟩

theorem receive_pose_cameraPos (position : Vec3 K) (md : MappingData K) :
    (receive mp (.pose position) md).cameraPos = position := by
  change (depthPoseCallback mp position md).cameraPos = position
  rw [depthPoseCallback]
  dsimp only
  split_ifs
  · rfl
  · rfl

theorem pose_accepted_iff (position : Vec3 K) (md : MappingData K) :
    (receive mp (.pose position) md).occNeedUpdate = true ↔ mp.isInMap position := by
  change (depthPoseCallback mp position md).occNeedUpdate = true ↔ _
  rw [depthPoseCallback]
  dsimp only
  split_ifs with in_map
  · exact iff_of_true rfl in_map
  · exact iff_of_false not_false in_map

theorem newStamp_receive (frame : DepthFrame K) {md : MappingData K} (fresh : NewStamp md) :
    NewStamp (receive mp frame md) := by
  intro address
  rcases receive_flags mp frame md with ⟨same_flags, same_stamp⟩
  rw [same_flags, same_stamp]
  exact fresh address

variable [FloorRing K] [IsStrictOrderedRing K]

/-- Only `depthOdomCallback` may accept a camera in the rim of the map; there the condition is
still exact when a ray is at least one voxel long. -/
def DepthFrame.OffRim (cameraPos : Vec3 K) : DepthFrame K → Prop
  | .pose _ => True
  | .odom _ _ => mp.ClearOfRim cameraPos ∨ |mp.resolution| ≤ mp.maxRayLength

theorem clearOfRim_of_isInMap {cameraPos : Vec3 K} (in_map : mp.isInMap cameraPos) :
    mp.ClearOfRim cameraPos := by
  intro inside axis
  change voxelsFromOrigin mp cameraPos axis < voxelsAcross mp axis
  have at_camera : mp.isInMapIndex (mp.posToIndex (cameraPos + Vec3.along axis 0)) := by
    rwa [Vec3.add_along_zero]
  have column := (column_along mp 0 at_camera).1
  have margins := in_map axis
  have below_neg : boundaryBelow mp cameraPos axis < 0 := by
    rw [boundaryBelow]
    linarith [not_lt.mp margins.1]
  have above_pos : 0 < boundaryAbove mp cameraPos axis := by
    rw [boundaryAbove]
    linarith [not_lt.mp margins.2]
  rw [zero_div, add_zero] at column
  rw [boundaryBelow_eq, neg_mul, neg_lt_zero] at below_neg
  rw [boundaryAbove_eq] at above_pos
  have resolution_pos : 0 < mp.resolution := pos_of_mul_pos_right below_neg column
  exact sub_pos.mp (pos_of_mul_pos_left above_pos resolution_pos.le)

theorem reachFits_of_aligned {cameraPos ptW : Vec3 K}
    (aligned : ∀ axis, ∃ m : ℤ, mp.mapOrigin.get axis / mp.resolution = m)
    (inside : mp.isInMapIndex (mp.posToIndex ptW)) : mp.ReachFits cameraPos ptW := by
  refine ⟨inside, fun _ => ?_⟩
  rw [mp.isInMapIndex_cellCentre_iff]
  rw [mp.isInMapIndex_posToIndex_iff] at inside
  intro axis
  rcases aligned axis with ⟨m, corner⟩
  have column := inside axis
  rw [MappingParameters.ColumnFits, corner, Int.floor_sub_intCast] at column ⊢
  have middle : ⌊((mp.cellOf ptW).get axis : K) + 0.5⌋ = ⌊ptW.get axis / mp.resolution⌋ := by
    rw [MappingParameters.cellOf, Vec3.get_ofAxes, Int.floor_eq_iff]
    constructor <;> norm_num
  rwa [middle]

/-- `raycastProcess` stays inside the map on a depth frame exactly when the rays of the frame
fit. -/
theorem depth_frame_inside_iff (frame : DepthFrame K) (md : MappingData K)
    (points : List (Vec3 K)) :
    FrameInside mp sqrt { receive mp frame md with projPoints := points } ↔
      ∃ rays, rayEnds mp sqrt (receive mp frame md).cameraPos points = some rays ∧
        mp.FrameFits { receive mp frame md with projPoints := points } (rays.map Prod.fst) :=
  frameInside_iff _

theorem all_points_inside_iff (exact : Vec3.IsSqrt sqrt) (frame : DepthFrame K)
    (md : MappingData K) (accepted : (receive mp frame md).occNeedUpdate = true) :
    (mp.RaysFit (receive mp frame md).cameraPos →
      ∀ points, FrameInside mp sqrt { receive mp frame md with projPoints := points }) ∧
    (NewStamp md → frame.OffRim mp (receive mp frame md).cameraPos →
      ((∀ points, FrameInside mp sqrt { receive mp frame md with projPoints := points }) ↔
        mp.RaysFit (receive mp frame md).cameraPos)) := by
  have sufficient : mp.RaysFit (receive mp frame md).cameraPos →
      ∀ points, FrameInside mp sqrt { receive mp frame md with projPoints := points } :=
    fun fits points => MappingParameters.RaysFit.frameInside exact fits
  refine ⟨sufficient, fun fresh off_rim => ⟨fun inside => ?_, sufficient⟩⟩
  have clear : mp.ClearOfRim (receive mp frame md).cameraPos ∨
      |mp.resolution| ≤ mp.maxRayLength := by
    cases frame with
    | pose position =>
        rw [receive_pose_cameraPos]
        exact Or.inl (clearOfRim_of_isInMap mp ((pose_accepted_iff mp position md).mp accepted))
    | odom position orientation => exact off_rim
  have every : EveryReachFits mp sqrt (receive mp frame md).cameraPos :=
    fun ptW => (inside [ptW]).single_reach (newStamp_receive mp frame fresh)
  exact every.raysFit exact clear

end Frames

section Reals

theorem isSqrt_real : Vec3.IsSqrt Real.sqrt where
  nonneg := fun _ => Real.sqrt_nonneg _
  mul_self := Real.mul_self_sqrt

noncomputable def wholeMetres : MappingParameters ℝ where
  resolution := 1
  mapSize := ⟨10, 10, 10⟩
  groundHeight := 0
  localUpdateRange := ⟨5, 5, 5⟩
  maxRayLength := 3
  probHitLog := logit Real.log 0.65
  probMissLog := logit Real.log 0.35
  clampMinLog := logit Real.log 0.12
  clampMaxLog := logit Real.log 0.90
  resolution_ne := one_ne_zero

theorem wholeMetres_raysFit : wholeMetres.RaysFit ⟨0, 0, 5⟩ := by
  constructor
  · norm_num [wholeMetres]
  · intro axis extent extreme
    apply reachFits_of_aligned
    · intro other
      cases other
      · exact ⟨-5, by norm_num [wholeMetres, MappingParameters.mapOrigin, Vec3.get]⟩
      · exact ⟨-5, by norm_num [wholeMetres, MappingParameters.mapOrigin, Vec3.get]⟩
      · exact ⟨0, by norm_num [wholeMetres, MappingParameters.mapOrigin, Vec3.get]⟩
    · rw [MappingParameters.isInMapIndex_posToIndex_iff]
      intro other
      have sizes : wholeMetres.mapVoxelNum = ⟨10, 10, 10⟩ := by
        norm_num [MappingParameters.mapVoxelNum, wholeMetres, Vec3.ofAxes, Vec3.get]
      have shift : -3 ≤ (if other = axis then extent else 0) ∧
          (if other = axis then extent else 0) ≤ 3 := by
        have longest : wholeMetres.maxRayLength = 3 := rfl
        rw [longest] at extreme
        rcases extreme with forward | backward
        · rw [forward]
          split <;> norm_num
        · rw [backward]
          split <;> norm_num
      rw [MappingParameters.ColumnFits, sizes, Vec3.get_add, Vec3.get_along]
      generalize (if other = axis then extent else 0) = s at shift
      rw [Int.floor_nonneg, Int.floor_lt]
      cases other
      · norm_num [wholeMetres, MappingParameters.mapOrigin, Vec3.get]
        constructor <;> linarith
      · norm_num [wholeMetres, MappingParameters.mapOrigin, Vec3.get]
        constructor <;> linarith
      · norm_num [wholeMetres, MappingParameters.mapOrigin, Vec3.get]
        constructor <;> linarith

theorem whole_metres_inside :
    wholeMetres.RaysFit ⟨0, 0, 5⟩ ∧ FrameInside wholeMetres Real.sqrt
      { receive wholeMetres (.pose ⟨0, 0, 5⟩) (initMap wholeMetres) with
        projPoints := [⟨1, 2, 6⟩, ⟨300, 0, -40⟩] } := by
  have camera_in_map : wholeMetres.isInMap ⟨0, 0, 5⟩ := by
    intro axis
    rw [MappingParameters.mapMaxBoundary, MappingParameters.mapMinBoundary, Vec3.get_add]
    cases axis <;> norm_num [wholeMetres, MappingParameters.mapOrigin, Vec3.get]
  have accepted := (pose_accepted_iff wholeMetres _ (initMap wholeMetres)).mpr camera_in_map
  have fits := wholeMetres_raysFit
  rw [← receive_pose_cameraPos wholeMetres ⟨0, 0, 5⟩ (initMap wholeMetres)] at fits
  have exact_at := (all_points_inside_iff wholeMetres isSqrt_real (.pose ⟨0, 0, 5⟩)
    (initMap wholeMetres) accepted).2 (newStamp_initMap wholeMetres) trivial
  exact ⟨wholeMetres_raysFit, exact_at.mpr fits _⟩

/-- The parameters of `advanced_param.xml` with the map of `single_run_in_exp_type1.launch`. -/
noncomputable def launchParameters : MappingParameters ℝ where
  resolution := 0.07
  mapSize := ⟨100, 50, 1.5⟩
  groundHeight := -0.01
  localUpdateRange := ⟨5.5, 5.5, 4.5⟩
  maxRayLength := 4.5
  probHitLog := logit Real.log 0.65
  probMissLog := logit Real.log 0.35
  clampMinLog := logit Real.log 0.12
  clampMaxLog := logit Real.log 0.90
  resolution_ne := by norm_num

theorem launch_isInMap {z : ℝ} (above : -0.005 ≤ z) (below : z ≤ 1) :
    launchParameters.isInMap ⟨0, 0, z⟩ := by
  intro axis
  rw [MappingParameters.mapMaxBoundary, MappingParameters.mapMinBoundary, Vec3.get_add]
  cases axis
  · norm_num [launchParameters, MappingParameters.mapOrigin, Vec3.get]
  · norm_num [launchParameters, MappingParameters.mapOrigin, Vec3.get]
  · norm_num [launchParameters, MappingParameters.mapOrigin, Vec3.get]
    constructor <;> linarith

theorem launch_columnFits {axis : Axis} {u : ℝ}
    (low : launchParameters.mapOrigin.get axis / 0.07 ≤ u)
    (high : u < (launchParameters.mapOrigin.get axis + launchParameters.mapSize.get axis) / 0.07) :
    launchParameters.ColumnFits axis u := by
  have voxel : launchParameters.resolution = 0.07 := rfl
  rw [MappingParameters.ColumnFits, Int.floor_nonneg, Int.floor_lt, voxel,
    MappingParameters.mapVoxelNum, Vec3.get_ofAxes, voxel]
  refine ⟨sub_nonneg.mpr low, ?_⟩
  calc u - launchParameters.mapOrigin.get axis / 0.07
      < launchParameters.mapSize.get axis / 0.07 := by
        rw [add_div] at high
        linarith
    _ ≤ ⌈launchParameters.mapSize.get axis / 0.07⌉ := Int.le_ceil _

/-- A camera a metre above the ground sees the ground below it, five millimetres under the level
at which the cells of the ray caster meet. -/
theorem ground_point_outside :
    (receive launchParameters (.pose ⟨0, 0, 1⟩) (initMap launchParameters)).occNeedUpdate = true ∧
      ¬ FrameInside launchParameters Real.sqrt
        { receive launchParameters (.pose ⟨0, 0, 1⟩) (initMap launchParameters) with
          projPoints := [⟨0, 0, -0.005⟩] } := by
  have camera_in_map := launch_isInMap (by norm_num : (-0.005 : ℝ) ≤ 1) le_rfl
  have ground_in_map := launch_isInMap le_rfl (by norm_num : (-0.005 : ℝ) ≤ 1)
  have fresh := newStamp_receive launchParameters (.pose ⟨0, 0, 1⟩)
    (newStamp_initMap launchParameters)
  have straight_down : (⟨0, 0, -0.005⟩ : Vec3 ℝ) - ⟨0, 0, 1⟩ = Vec3.along .z (-1.005) := by
    apply Vec3.ext_get
    intro axis
    rw [Vec3.get_sub, Vec3.get_along]
    cases axis
    · simp [Vec3.get]
    · simp [Vec3.get]
    · norm_num [Vec3.get]
  have ends_there : rayEnd launchParameters Real.sqrt ⟨0, 0, 1⟩ ⟨0, 0, -0.005⟩ =
      some (⟨0, 0, -0.005⟩, 1) := by
    rw [rayEnd, if_neg (not_not.mpr ground_in_map), straight_down,
      Vec3.lengthBy_along isSqrt_real]
    norm_num [launchParameters]
  constructor
  · exact (pose_accepted_iff launchParameters _ _).mpr camera_in_map
  · intro inside
    rcases inside.single_reach fresh with ⟨end_pt, occ, ends, fits⟩
    rw [receive_pose_cameraPos] at ends fits
    rw [ends_there] at ends
    cases ends
    have lower_cell : (launchParameters.cellOf ⟨0, 0, -0.005⟩).get .z = -1 := by
      rw [MappingParameters.cellOf, Vec3.get_ofAxes, Int.floor_eq_iff]
      norm_num [launchParameters, Vec3.get]
    have camera_cell : (launchParameters.cellOf ⟨0, 0, 1⟩).get .z = 14 := by
      rw [MappingParameters.cellOf, Vec3.get_ofAxes, Int.floor_eq_iff]
      norm_num [launchParameters, Vec3.get]
    have leaves : launchParameters.cellOf ⟨0, 0, -0.005⟩ ≠
        launchParameters.cellOf ⟨0, 0, 1⟩ := by
      intro same
      rw [same, camera_cell] at lower_cell
      omega
    have column := (launchParameters.isInMapIndex_cellCentre_iff _).mp (fits.2 leaves) .z
    have not_below := Int.floor_nonneg.mp column.1
    rw [lower_cell] at not_below
    norm_num [launchParameters, MappingParameters.mapOrigin, Vec3.get] at not_below

/-- The same camera and a point a metre ahead of it. -/
theorem level_point_inside :
    FrameInside launchParameters Real.sqrt
      { receive launchParameters (.pose ⟨0, 0, 1⟩) (initMap launchParameters) with
        projPoints := [⟨1, 0, 1⟩] } := by
  have in_map : launchParameters.isInMap ⟨1, 0, 1⟩ := by
    intro axis
    rw [MappingParameters.mapMaxBoundary, MappingParameters.mapMinBoundary, Vec3.get_add]
    cases axis <;> norm_num [launchParameters, MappingParameters.mapOrigin, Vec3.get]
  have ahead : (⟨1, 0, 1⟩ : Vec3 ℝ) - ⟨0, 0, 1⟩ = Vec3.along .x 1 := by
    apply Vec3.ext_get
    intro axis
    rw [Vec3.get_sub, Vec3.get_along]
    cases axis <;> simp [Vec3.get]
  have ends_there : rayEnd launchParameters Real.sqrt ⟨0, 0, 1⟩ ⟨1, 0, 1⟩ =
      some (⟨1, 0, 1⟩, 1) := by
    rw [rayEnd, if_neg (not_not.mpr in_map), ahead, Vec3.lengthBy_along isSqrt_real]
    norm_num [launchParameters]
  have point_inside : launchParameters.isInMapIndex (launchParameters.posToIndex ⟨1, 0, 1⟩) := by
    rw [MappingParameters.isInMapIndex_posToIndex_iff]
    intro axis
    apply launch_columnFits <;> cases axis <;>
      norm_num [launchParameters, MappingParameters.mapOrigin, Vec3.get]
  have camera_cell : launchParameters.cellOf ⟨0, 0, 1⟩ = ⟨0, 0, 14⟩ := by
    apply Vec3.ext_get
    intro axis
    rw [MappingParameters.cellOf, Vec3.get_ofAxes, Int.floor_eq_iff]
    cases axis <;> norm_num [launchParameters, Vec3.get]
  have point_cell : launchParameters.cellOf ⟨1, 0, 1⟩ = ⟨14, 0, 14⟩ := by
    apply Vec3.ext_get
    intro axis
    rw [MappingParameters.cellOf, Vec3.get_ofAxes, Int.floor_eq_iff]
    cases axis <;> norm_num [launchParameters, Vec3.get]
  refine (depth_frame_inside_iff launchParameters _ _ _).mpr ⟨[(⟨1, 0, 1⟩, 1)], ?_, ?_, ?_, .inl ?_⟩
  · rw [receive_pose_cameraPos, rayEnds, List.mapM_cons, ends_there]
    rfl
  · intro end_pt member
    rw [List.mem_singleton.mp member]
    exact point_inside
  · intro end_pt earlier suffix casts
    obtain ⟨rfl, rfl⟩ : end_pt = ⟨1, 0, 1⟩ ∧ earlier = [] := by
      rcases List.suffix_cons_iff.mp suffix with same | shorter
      · exact List.cons.inj same
      · cases List.suffix_nil.mp shorter
    refine ⟨point_inside, fun _ => ?_⟩
    rw [MappingParameters.isInMapIndex_cellCentre_iff, point_cell]
    intro axis
    apply launch_columnFits <;> cases axis <;>
      norm_num [launchParameters, MappingParameters.mapOrigin, Vec3.get]
  · change launchParameters.isInMapIndex (launchParameters.posToIndex
      (launchParameters.cellCentre (launchParameters.cellOf _)))
    rw [receive_pose_cameraPos, MappingParameters.isInMapIndex_cellCentre_iff, camera_cell]
    intro axis
    apply launch_columnFits <;> cases axis <;>
      norm_num [launchParameters, MappingParameters.mapOrigin, Vec3.get]

end Reals

end RobocupDrone.Mapping
