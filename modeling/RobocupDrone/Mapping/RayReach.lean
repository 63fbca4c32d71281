import RobocupDrone.Mapping.GridMap

/-! Which voxels the rays of a depth frame reach, and when all of them are voxels of the map. -/

namespace RobocupDrone.Mapping

open Geometry

variable {K : Type} [Field K] [LinearOrder K]

namespace MappingParameters

variable (mp : MappingParameters K)

section

variable [FloorRing K]

/-- The cell of a position for the ray caster, whose cells start at the world origin. -/
def cellOf (pos : Vec3 K) : Vec3 ℤ := Vec3.ofAxes fun axis => ⌊pos.get axis / mp.resolution⌋

/-- The voxel of a ray end is in the map, and so is the voxel that the first ray caster cell
stands for, unless the ray never leaves the cell of the camera. -/
def ReachFits (cameraPos ptW : Vec3 K) : Prop :=
  mp.isInMapIndex (mp.posToIndex ptW) ∧
    (mp.cellOf ptW ≠ mp.cellOf cameraPos →
      mp.isInMapIndex (mp.posToIndex (mp.cellCentre (mp.cellOf ptW))))

/-- The condition on the six points at `max_ray_length_` from the camera along an axis. -/
structure RaysFit (cameraPos : Vec3 K) : Prop where
  range : 0 ≤ mp.maxRayLength
  reach : ∀ axis extent, extent = mp.maxRayLength ∨ extent = -mp.maxRayLength →
    mp.ReachFits cameraPos (cameraPos + Vec3.along axis extent)

/-- The camera is not in the part of the last voxels that lies beyond `map_max_boundary_`. -/
def ClearOfRim (cameraPos : Vec3 K) : Prop :=
  mp.isInMapIndex (mp.posToIndex cameraPos) →
    ∀ axis, (cameraPos.get axis - mp.mapOrigin.get axis) / mp.resolution <
      mp.mapSize.get axis / mp.resolution

def ColumnFits (axis : Axis) (u : K) : Prop :=
  0 ≤ ⌊u - mp.mapOrigin.get axis / mp.resolution⌋ ∧
    ⌊u - mp.mapOrigin.get axis / mp.resolution⌋ < mp.mapVoxelNum.get axis

theorem isInMapIndex_posToIndex_iff (pos : Vec3 K) :
    mp.isInMapIndex (mp.posToIndex pos) ↔
      ∀ axis, mp.ColumnFits axis (pos.get axis / mp.resolution) := by
  have same : ∀ axis, (pos.get axis - mp.mapOrigin.get axis) * mp.resolutionInv =
      pos.get axis / mp.resolution - mp.mapOrigin.get axis / mp.resolution := by
    intro axis
    rw [resolutionInv, mul_one_div, sub_div]
  simp only [isInMapIndex, posToIndex, Vec3.get_ofAxes, same, ColumnFits, not_lt,
    Int.le_sub_one_iff]

theorem isInMapIndex_cellCentre_iff (rayPt : Vec3 ℤ) :
    mp.isInMapIndex (mp.posToIndex (mp.cellCentre rayPt)) ↔
      ∀ axis, mp.ColumnFits axis ((rayPt.get axis : K) + 0.5) := by
  rw [isInMapIndex_posToIndex_iff]
  simp only [cellCentre, Vec3.get_ofAxes, mul_div_cancel_right₀ _ mp.resolution_ne]

theorem cellOf_get (pos : Vec3 K) (axis : Axis) :
    (mp.cellOf pos).get axis = ⌊pos.get axis / mp.resolution⌋ :=
  Vec3.get_ofAxes _ _

theorem cellOf_along (pos : Vec3 K) (axis : Axis) (extent : K) (other : Axis) :
    (mp.cellOf (pos + Vec3.along axis extent)).get other =
      if other = axis then ⌊(pos.get axis + extent) / mp.resolution⌋
      else (mp.cellOf pos).get other := by
  by_cases same : other = axis
  · simp [cellOf_get, same]
  · simp [cellOf_get, same]

end

variable {mp}

theorem ColumnFits.between [FloorRing K] [IsStrictOrderedRing K]
    {axis : Axis} {low u high : K} (low_fits : mp.ColumnFits axis low)
    (high_fits : mp.ColumnFits axis high) (above : low ≤ u) (below : u ≤ high) :
    mp.ColumnFits axis u := by
  have from_low := Int.floor_mono (sub_le_sub_right above (mp.mapOrigin.get axis / mp.resolution))
  have to_high := Int.floor_mono (sub_le_sub_right below (mp.mapOrigin.get axis / mp.resolution))
  exact ⟨low_fits.1.trans from_low, to_high.trans_lt high_fits.2⟩

theorem between_extremes [IsStrictOrderedRing K] {c x : K} (near : |x - c| ≤ mp.maxRayLength) :
    ∃ low high, (low = mp.maxRayLength ∨ low = -mp.maxRayLength) ∧
      (high = mp.maxRayLength ∨ high = -mp.maxRayLength) ∧
      (c + low) / mp.resolution ≤ x / mp.resolution ∧
      x / mp.resolution ≤ (c + high) / mp.resolution := by
  have within := abs_le.mp near
  rcases lt_or_gt_of_ne mp.resolution_ne with negative | positive
  · refine ⟨mp.maxRayLength, -mp.maxRayLength, Or.inl rfl, Or.inr rfl, ?_, ?_⟩
    · exact div_le_div_of_nonpos_of_le negative.le (by linarith)
    · exact div_le_div_of_nonpos_of_le negative.le (by linarith)
  · refine ⟨-mp.maxRayLength, mp.maxRayLength, Or.inr rfl, Or.inl rfl, ?_, ?_⟩
    · exact div_le_div_of_nonneg_right (by linarith) positive.le
    · exact div_le_div_of_nonneg_right (by linarith) positive.le

variable [FloorRing K]

section Fits

variable {cameraPos ptW : Vec3 K}

theorem RaysFit.extreme_column (fits : mp.RaysFit cameraPos) {axis : Axis} {extent : K}
    (extreme : extent = mp.maxRayLength ∨ extent = -mp.maxRayLength) :
    mp.ColumnFits axis ((cameraPos.get axis + extent) / mp.resolution) := by
  have column := (mp.isInMapIndex_posToIndex_iff _).mp (fits.reach axis extent extreme).1 axis
  simpa using column

theorem RaysFit.extreme_centre (fits : mp.RaysFit cameraPos) {axis : Axis} {extent : K}
    (extreme : extent = mp.maxRayLength ∨ extent = -mp.maxRayLength)
    (leaves : ⌊(cameraPos.get axis + extent) / mp.resolution⌋ ≠ (mp.cellOf cameraPos).get axis)
    (other : Axis) :
    mp.ColumnFits other (((if other = axis then ⌊(cameraPos.get axis + extent) / mp.resolution⌋
      else (mp.cellOf cameraPos).get other : ℤ) : K) + 0.5) := by
  have other_cell : mp.cellOf (cameraPos + Vec3.along axis extent) ≠ mp.cellOf cameraPos := by
    intro same
    apply leaves
    rw [← same, cellOf_along, if_pos rfl]
  have centre := (mp.isInMapIndex_cellCentre_iff _).mp
    ((fits.reach axis extent extreme).2 other_cell) other
  rwa [cellOf_along] at centre

variable [IsStrictOrderedRing K]

theorem RaysFit.position_inside (fits : mp.RaysFit cameraPos)
    (near : ∀ axis, |ptW.get axis - cameraPos.get axis| ≤ mp.maxRayLength) :
    mp.isInMapIndex (mp.posToIndex ptW) := by
  rw [isInMapIndex_posToIndex_iff]
  intro axis
  rcases between_extremes (near axis) with ⟨low, high, low_extreme, high_extreme, above, below⟩
  exact (fits.extreme_column low_extreme).between (fits.extreme_column high_extreme) above below

theorem RaysFit.camera_column (fits : mp.RaysFit cameraPos) (axis : Axis) :
    mp.ColumnFits axis (cameraPos.get axis / mp.resolution) := by
  apply (mp.isInMapIndex_posToIndex_iff _).mp _ axis
  apply fits.position_inside
  intro other
  rw [sub_self, abs_zero]
  exact fits.range

/-- A cell between the camera and a point in its range that is not the camera's on some axis is
matched by an extreme at least as far on that axis, whose cell has a voxel in the map. -/
theorem RaysFit.extreme_cell (fits : mp.RaysFit cameraPos) {axis : Axis} {cell : ℤ}
    (near : |ptW.get axis - cameraPos.get axis| ≤ mp.maxRayLength)
    (between : cell ∈ Set.uIcc ((mp.cellOf ptW).get axis) ((mp.cellOf cameraPos).get axis))
    (apart : cell ≠ (mp.cellOf cameraPos).get axis) :
    ∃ far : ℤ, (∀ other, mp.ColumnFits other
        (((if other = axis then far else (mp.cellOf cameraPos).get other : ℤ) : K) + 0.5)) ∧
      cell ∈ Set.uIcc far ((mp.cellOf cameraPos).get axis) := by
  rcases between_extremes near with ⟨low, high, low_extreme, high_extreme, above, below⟩
  have low_cell := Int.floor_mono above
  have high_cell := Int.floor_mono below
  rw [cellOf_get, Set.mem_uIcc] at between
  rcases lt_or_gt_of_ne apart with before | after
  · have leaves : ⌊(cameraPos.get axis + low) / mp.resolution⌋ ≠
        (mp.cellOf cameraPos).get axis := by omega
    refine ⟨_, fits.extreme_centre low_extreme leaves, ?_⟩
    rw [Set.mem_uIcc]
    omega
  · have leaves : ⌊(cameraPos.get axis + high) / mp.resolution⌋ ≠
        (mp.cellOf cameraPos).get axis := by omega
    refine ⟨_, fits.extreme_centre high_extreme leaves, ?_⟩
    rw [Set.mem_uIcc]
    omega

theorem RaysFit.cell_inside (fits : mp.RaysFit cameraPos)
    (near : ∀ axis, |ptW.get axis - cameraPos.get axis| ≤ mp.maxRayLength) {cell : Vec3 ℤ}
    (between : ∀ axis,
      cell.get axis ∈ Set.uIcc ((mp.cellOf ptW).get axis) ((mp.cellOf cameraPos).get axis))
    (before_camera : cell ≠ mp.cellOf cameraPos) :
    mp.isInMapIndex (mp.posToIndex (mp.cellCentre cell)) := by
  rw [isInMapIndex_cellCentre_iff]
  intro axis
  have cell_le := Int.floor_le (cameraPos.get axis / mp.resolution)
  have lt_cell := Int.lt_floor_add_one (cameraPos.get axis / mp.resolution)
  rw [← cellOf_get] at cell_le lt_cell
  by_cases same : cell.get axis = (mp.cellOf cameraPos).get axis
  · -- another axis leaves the camera's cell, and its extreme keeps this coordinate
    rcases Vec3.exists_get_ne before_camera with ⟨other, apart⟩
    have different : axis ≠ other := by
      intro equal
      rw [← equal] at apart
      exact apart same
    rcases fits.extreme_cell (near other) (between other) apart with ⟨far, columns, _⟩
    have column := columns axis
    rwa [if_neg different, ← same] at column
  · rcases fits.extreme_cell (near axis) (between axis) same with ⟨far, columns, toward⟩
    have column := columns axis
    rw [if_pos rfl] at column
    rcases lt_or_gt_of_ne same with before | after
    · have far_le : far ≤ cell.get axis := by
        rw [Set.mem_uIcc] at toward
        omega
      have far_le_cast : (far : K) ≤ cell.get axis := Int.cast_le.mpr far_le
      have next_le : (cell.get axis : K) + 1 ≤ (mp.cellOf cameraPos).get axis := by
        exact_mod_cast before
      exact column.between (fits.camera_column axis) (by linarith) (by linarith)
    · have le_far : cell.get axis ≤ far := by
        rw [Set.mem_uIcc] at toward
        omega
      have le_far_cast : (cell.get axis : K) ≤ far := Int.cast_le.mpr le_far
      have next_le : ((mp.cellOf cameraPos).get axis : K) + 1 ≤ cell.get axis := by
        exact_mod_cast after
      exact (fits.camera_column axis).between column (by linarith) (by linarith)

end Fits

end MappingParameters

section Passes

variable (mp : MappingParameters K) [FloorRing K]

theorem cell_setInput (ptW cameraPos : Vec3 K) :
    (RayCaster.setInput (ptW / mp.resolution) (cameraPos / mp.resolution)).cell =
      mp.cellOf ptW := by
  apply Vec3.ext_get
  intro axis
  simp [RayCaster.cell, RayCaster.setInput, Cursor.setInput, MappingParameters.cellOf]

theorem stop_setInput (ptW cameraPos : Vec3 K) :
    (RayCaster.setInput (ptW / mp.resolution) (cameraPos / mp.resolution)).stop =
      mp.cellOf cameraPos := by
  apply Vec3.ext_get
  intro axis
  simp [RayCaster.stop, RayCaster.setInput, Cursor.setInput, MappingParameters.cellOf]

theorem traverse_cons (rayPt : Vec3 ℤ) (rest : List (Vec3 ℤ)) (pass : Pass K) :
    ∃ next : Pass K,
      next.touched = mp.posToIndex (mp.cellCentre rayPt) :: pass.touched ∧
      (Pass.traverse mp (rayPt :: rest) pass = next ∨
        Pass.traverse mp (rayPt :: rest) pass = Pass.traverse mp rest next) := by
  rw [Pass.traverse]
  dsimp only
  split_ifs
  · exact ⟨_, rfl, Or.inl rfl⟩
  · exact ⟨_, rfl, Or.inr rfl⟩
  · exact ⟨_, rfl, Or.inr rfl⟩

theorem touched_traverse (cells : List (Vec3 ℤ)) (pass : Pass K) {id : Vec3 ℤ}
    (touches : id ∈ (Pass.traverse mp cells pass).touched) :
    id ∈ pass.touched ∨ ∃ rayPt ∈ cells, id = mp.posToIndex (mp.cellCentre rayPt) := by
  induction cells generalizing pass with
  | nil => exact Or.inl touches
  | cons rayPt rest ih =>
      rcases traverse_cons mp rayPt rest pass with ⟨next, newest, stops | goes_on⟩
      · rw [stops, newest, List.mem_cons] at touches
        rcases touches with here | earlier
        · exact Or.inr ⟨rayPt, List.mem_cons_self, here⟩
        · exact Or.inl earlier
      · rw [goes_on] at touches
        rcases ih next touches with by_now | ⟨later, later_mem, there⟩
        · rw [newest, List.mem_cons] at by_now
          rcases by_now with here | earlier
          · exact Or.inr ⟨rayPt, List.mem_cons_self, here⟩
          · exact Or.inl earlier
        · exact Or.inr ⟨later, List.mem_cons_of_mem _ later_mem, there⟩

theorem touched_traverse_mono (cells : List (Vec3 ℤ)) (pass : Pass K) {id : Vec3 ℤ}
    (touched : id ∈ pass.touched) : id ∈ (Pass.traverse mp cells pass).touched := by
  induction cells generalizing pass with
  | nil => exact touched
  | cons rayPt rest ih =>
      rcases traverse_cons mp rayPt rest pass with ⟨next, newest, stops | goes_on⟩
      · rw [stops, newest]
        exact List.mem_cons_of_mem _ touched
      · rw [goes_on]
        apply ih
        rw [newest]
        exact List.mem_cons_of_mem _ touched

theorem touched_traverse_head (rayPt : Vec3 ℤ) (rest : List (Vec3 ℤ)) (pass : Pass K) :
    mp.posToIndex (mp.cellCentre rayPt) ∈ (Pass.traverse mp (rayPt :: rest) pass).touched := by
  rcases traverse_cons mp rayPt rest pass with ⟨next, newest, stops | goes_on⟩
  · rw [stops, newest]
    exact List.mem_cons_self
  · rw [goes_on]
    apply touched_traverse_mono
    rw [newest]
    exact List.mem_cons_self

/-- No ray of an earlier frame that ended in some voxel carries the stamp of the next frame. -/
def NewStamp (md : MappingData K) : Prop :=
  ∀ address, md.flagRayend address ≠ md.raycastNum + 1

theorem setCacheOccupancy_flags (pos : Vec3 K) (occ : ℤ) (md : MappingData K) :
    (setCacheOccupancy mp pos occ md).2.flagRayend = md.flagRayend ∧
      (setCacheOccupancy mp pos occ md).2.raycastNum = md.raycastNum := by
  rw [setCacheOccupancy]
  dsimp only
  split_ifs <;> exact ⟨rfl, rfl⟩

/-- What casting a ray can do: the voxel of its end comes first, then, unless a ray of the same
stamp ended there, those of its cells. -/
theorem castRay_cases (cameraPos ptW : Vec3 K) (occ : ℤ) (pass : Pass K) :
    ∃ next : Pass K, next.touched = mp.posToIndex ptW :: pass.touched ∧
      ((∃ address, pass.data.flagRayend address = pass.data.raycastNum ∧
          castRay mp cameraPos ptW occ pass = next) ∨
        castRay mp cameraPos ptW occ pass = Pass.traverse mp
          (RayCaster.setInput (ptW / mp.resolution) (cameraPos / mp.resolution)).cells next) := by
  have flags := setCacheOccupancy_flags mp ptW occ pass.data
  rw [castRay]
  dsimp only [Pass.setCacheOccupancy, Pass.widen]
  split_ifs with valid stamped
  · rw [flags.1, flags.2] at stamped
    exact ⟨_, rfl, Or.inl ⟨_, stamped, rfl⟩⟩
  · exact ⟨_, rfl, Or.inr rfl⟩
  · exact ⟨_, rfl, Or.inr rfl⟩

theorem reachFits_of_castRay (cameraPos ptW : Vec3 K) (occ : ℤ) {pass : Pass K}
    (fresh : ∀ address, pass.data.flagRayend address ≠ pass.data.raycastNum)
    (inside : ∀ id ∈ (castRay mp cameraPos ptW occ pass).touched, mp.isInMapIndex id) :
    mp.ReachFits cameraPos ptW := by
  rcases castRay_cases mp cameraPos ptW occ pass with ⟨next, newest, stamped | goes_on⟩
  · rcases stamped with ⟨address, same, _⟩
    exact absurd same (fresh address)
  · rw [goes_on] at inside
    constructor
    · apply inside
      apply touched_traverse_mono
      rw [newest]
      exact List.mem_cons_self
    · intro leaves
      apply inside
      rw [← cell_setInput mp ptW cameraPos, ← stop_setInput mp ptW cameraPos] at leaves
      rcases RayCaster.cells_of_under_way leaves with ⟨rest, starts⟩
      rw [starts, cell_setInput]
      exact touched_traverse_head mp _ _ _

section Inside

variable {mp} [IsStrictOrderedRing K] {cameraPos ptW : Vec3 K} {pass : Pass K}

theorem MappingParameters.RaysFit.castRay_inside (fits : mp.RaysFit cameraPos)
    (near : ∀ axis, |ptW.get axis - cameraPos.get axis| ≤ mp.maxRayLength) (occ : ℤ)
    (so_far : ∀ id ∈ pass.touched, mp.isInMapIndex id) :
    ∀ id ∈ (castRay mp cameraPos ptW occ pass).touched, mp.isInMapIndex id := by
  rcases castRay_cases mp cameraPos ptW occ pass with ⟨next, newest, stamped_or_on⟩
  have by_now : ∀ id ∈ next.touched, mp.isInMapIndex id := by
    intro id touched
    rw [newest, List.mem_cons] at touched
    rcases touched with here | earlier
    · rw [here]
      exact fits.position_inside near
    · exact so_far id earlier
  intro id touched
  rcases stamped_or_on with ⟨_, _, stops⟩ | goes_on
  · rw [stops] at touched
    exact by_now id touched
  · rw [goes_on] at touched
    rcases touched_traverse mp _ next touched with earlier | ⟨rayPt, passes, there⟩
    · exact by_now id earlier
    · rcases (RayCaster.paced_setInput _ _).walk_between _ passes with ⟨before_end, between⟩
      rw [stop_setInput] at before_end between
      rw [cell_setInput] at between
      rw [there]
      exact fits.cell_inside near between before_end

end Inside

end Passes

section RayEnds

variable (mp : MappingParameters K) [IsStrictOrderedRing K] {sqrt : K → K}

theorem shortened_near (exact : Vec3.IsSqrt sqrt) (range : 0 ≤ mp.maxRayLength)
    {cameraPos ptW : Vec3 K} (far : (ptW - cameraPos).lengthBy sqrt > mp.maxRayLength) :
    ∃ near_pt, shortened mp sqrt cameraPos ptW = some near_pt ∧
      ∀ axis, |near_pt.get axis - cameraPos.get axis| ≤ mp.maxRayLength := by
  have length_pos : 0 < (ptW - cameraPos).lengthBy sqrt := lt_of_le_of_lt range far
  refine ⟨_, if_neg length_pos.ne', fun axis => ?_⟩
  have component := Vec3.abs_get_le_lengthBy exact (ptW - cameraPos) axis
  rw [Vec3.get_add, add_sub_cancel_right, Vec3.get_smul, Vec3.get_div, abs_mul,
    abs_of_nonneg range, abs_div, abs_of_pos length_pos]
  exact mul_le_of_le_one_right range ((div_le_one length_pos).mpr component)

theorem rayEnd_near (exact : Vec3.IsSqrt sqrt) (range : 0 ≤ mp.maxRayLength)
    (cameraPos ptW : Vec3 K) :
    ∃ near_pt occ, rayEnd mp sqrt cameraPos ptW = some (near_pt, occ) ∧
      ∀ axis, |near_pt.get axis - cameraPos.get axis| ≤ mp.maxRayLength := by
  have within : ∀ pt : Vec3 K, ¬ (pt - cameraPos).lengthBy sqrt > mp.maxRayLength →
      ∀ axis, |pt.get axis - cameraPos.get axis| ≤ mp.maxRayLength := by
    intro pt near axis
    have component := Vec3.abs_get_le_lengthBy exact (pt - cameraPos) axis
    rw [Vec3.get_sub] at component
    exact component.trans (not_lt.mp near)
  rw [rayEnd]
  dsimp only
  split_ifs with in_map far far
  · rcases shortened_near mp exact range far with ⟨near_pt, made, near⟩
    exact ⟨near_pt, 0, by rw [made, Option.map_some], near⟩
  · exact ⟨_, 1, rfl, within _ far⟩
  · rcases shortened_near mp exact range far with ⟨near_pt, made, near⟩
    exact ⟨near_pt, 0, by rw [made, Option.map_some], near⟩
  · exact ⟨_, 0, rfl, within _ far⟩

end RayEnds

section Frames

variable (mp : MappingParameters K) (sqrt : K → K) [FloorRing K]

/-- `raycastProcess` completes, and every voxel index it hands to `setCacheOccupancy` is in the
map, with an address that is its own. -/
def FrameInside (md : MappingData K) : Prop :=
  ∃ after touched, raycastProcess mp sqrt md = some (after, touched) ∧
    ∀ id ∈ touched, mp.isInMapIndex id ∧ mp.OwnAddress id

variable {mp sqrt}

/-- A frame of one point, with a new stamp, is inside the map only if the end of its ray fits. -/
theorem FrameInside.single_reach {md : MappingData K} {ptW : Vec3 K}
    (inside : FrameInside mp sqrt { md with projPoints := [ptW] }) (fresh : NewStamp md) :
    ∃ end_pt occ, rayEnd mp sqrt md.cameraPos ptW = some (end_pt, occ) ∧
      mp.ReachFits md.cameraPos end_pt := by
  rcases inside with ⟨after, touched, completes, all_inside⟩
  rw [raycastProcess, if_neg (List.cons_ne_nil _ _)] at completes
  simp only [List.foldlM_cons, List.foldlM_nil, castPoint] at completes
  rcases ends : rayEnd mp sqrt md.cameraPos ptW with _ | ⟨end_pt, occ⟩
  · simp [ends] at completes
  · simp only [ends, Option.map_some, Option.bind_eq_bind, Option.bind_some, Option.pure_def,
      Option.some.injEq, Prod.mk.injEq] at completes
    rw [← completes.2] at all_inside
    have indices_inside := fun id touched => (all_inside id touched).1
    refine ⟨end_pt, occ, rfl, reachFits_of_castRay mp _ _ occ ?_ indices_inside⟩
    exact fresh

variable [IsStrictOrderedRing K]

theorem MappingParameters.RaysFit.fold_inside (exact : Vec3.IsSqrt sqrt) {cameraPos : Vec3 K}
    (fits : mp.RaysFit cameraPos) (points : List (Vec3 K)) {pass : Pass K}
    (so_far : ∀ id ∈ pass.touched, mp.isInMapIndex id) :
    ∃ last, points.foldlM (castPoint mp sqrt cameraPos) pass = some last ∧
      ∀ id ∈ last.touched, mp.isInMapIndex id := by
  induction points generalizing pass with
  | nil => exact ⟨pass, rfl, so_far⟩
  | cons ptW rest ih =>
      rcases rayEnd_near mp exact fits.range cameraPos ptW with ⟨near_pt, occ, ends, near⟩
      rcases ih (fits.castRay_inside near occ so_far) with ⟨last, completes, inside⟩
      refine ⟨last, ?_, inside⟩
      rw [List.foldlM_cons, castPoint, ends, Option.map_some, Option.bind_eq_bind,
        Option.bind_some, completes]

theorem MappingParameters.RaysFit.frameInside (exact : Vec3.IsSqrt sqrt) {md : MappingData K}
    (fits : mp.RaysFit md.cameraPos) : FrameInside mp sqrt md := by
  rw [FrameInside, raycastProcess]
  split_ifs with no_points
  · exact ⟨_, [], rfl, by simp⟩
  · have none_yet : ∀ id ∈ (startPass mp md).touched, mp.isInMapIndex id := by
      intro id touched
      exact absurd touched List.not_mem_nil
    rcases fits.fold_inside exact md.projPoints none_yet with ⟨last, completes, inside⟩
    rw [completes]
    exact ⟨_, _, rfl, fun id touched => ⟨inside id touched, mp.ownAddress (inside id touched)⟩⟩

end Frames

end RobocupDrone.Mapping
