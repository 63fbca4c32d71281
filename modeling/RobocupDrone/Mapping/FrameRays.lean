import RobocupDrone.Mapping.RayReach

/-! The rays of one frame: which of them are cast, how far they go, and when all of them stay in
the map. -/

namespace RobocupDrone.Mapping

open Geometry

variable {K : Type} [Field K] [LinearOrder K]

section Ends

variable (mp : MappingParameters K) (sqrt : K → K)

/-- The ends of the rays of some points, if all of them are numbers. -/
def rayEnds (cameraPos : Vec3 K) (points : List (Vec3 K)) : Option (List (Vec3 K × ℤ)) :=
  points.mapM (rayEnd mp sqrt cameraPos)

variable {mp sqrt}

theorem rayEnds_cons (cameraPos ptW : Vec3 K) (points : List (Vec3 K)) :
    rayEnds mp sqrt cameraPos (ptW :: points) =
      (rayEnd mp sqrt cameraPos ptW).bind fun ray =>
        (rayEnds mp sqrt cameraPos points).map fun rays => ray :: rays := by
  unfold rayEnds
  rw [List.mapM_cons]
  cases rayEnd mp sqrt cameraPos ptW with
  | none => rfl
  | some ray => cases List.mapM (rayEnd mp sqrt cameraPos) points <;> rfl

theorem rayEnds_occ {cameraPos : Vec3 K} {points : List (Vec3 K)} {rays : List (Vec3 K × ℤ)}
    (ends : rayEnds mp sqrt cameraPos points = some rays) :
    ∀ ray ∈ rays, ray.2 = 1 ∨ ray.2 = 0 := by
  induction points generalizing rays with
  | nil =>
      obtain rfl := Option.some.inj ends
      exact fun _ member => absurd member List.not_mem_nil
  | cons ptW points ih =>
      rw [rayEnds_cons] at ends
      obtain ⟨ray, first, others⟩ := Option.bind_eq_some_iff.mp ends
      obtain ⟨rest, later, rfl⟩ := Option.map_eq_some_iff.mp others
      exact List.forall_mem_cons.mpr ⟨rayEnd_occ first, ih later⟩

end Ends

def through : (Vec3 ℤ → Bool) → List (Vec3 ℤ) → List (Vec3 ℤ)
  | _, [] => []
  | traversed, id :: rest =>
      if traversed id then [id]
      else id :: through (fun other => traversed other || decide (other = id)) rest

theorem mem_of_mem_through {traversed : Vec3 ℤ → Bool} {ids : List (Vec3 ℤ)} {id : Vec3 ℤ}
    (member : id ∈ through traversed ids) : id ∈ ids := by
  induction ids generalizing traversed with
  | nil => exact member
  | cons head rest ih =>
      rw [through] at member
      split at member
      · rw [List.mem_singleton.mp member]
        exact List.mem_cons_self
      · rcases List.mem_cons.mp member with here | later
        · rw [here]
          exact List.mem_cons_self
        · exact List.mem_cons_of_mem _ (ih later)

theorem head_mem_through (traversed : Vec3 ℤ → Bool) (id : Vec3 ℤ) (rest : List (Vec3 ℤ)) :
    id ∈ through traversed (id :: rest) := by
  rw [through]
  split
  · exact List.mem_singleton_self id
  · exact List.mem_cons_self

section Frame

variable [FloorRing K] (mp : MappingParameters K)

namespace MappingParameters

def voxelOf (cell : Vec3 ℤ) : Vec3 ℤ := mp.posToIndex (mp.cellCentre cell)

def rayVoxels (cameraPos end_pt : Vec3 K) : List (Vec3 ℤ) :=
  (RayCaster.setInput (end_pt / mp.resolution) (cameraPos / mp.resolution)).cells.map mp.voxelOf

/-- No ray of the frame has ended in the voxel, and no stamp is left there that equals the one of
the frame. -/
def Casts (md : MappingData K) (earlier : List (Vec3 K)) (end_pt : Vec3 K) : Prop :=
  md.flagRayend (mp.toAddress (mp.posToIndex end_pt)) ≠ md.raycastNum + 1 ∧
    ∀ other ∈ earlier, mp.posToIndex other ≠ mp.posToIndex end_pt

instance (md : MappingData K) (earlier : List (Vec3 K)) (end_pt : Vec3 K) :
    Decidable (mp.Casts md earlier end_pt) := inferInstanceAs (Decidable (_ ∧ _))

/-- The voxels that the rays to some ends, the last ray first, have gone through. -/
def traversedBy (md : MappingData K) : List (Vec3 K) → Vec3 ℤ → Bool
  | [], id => decide (md.flagTraverse (mp.toAddress id) = md.raycastNum + 1)
  | end_pt :: earlier, id => traversedBy md earlier id ||
      (decide (mp.Casts md earlier end_pt) &&
        decide (id ∈ through (traversedBy md earlier) (mp.rayVoxels md.cameraPos end_pt)))

def WayFits (md : MappingData K) (earlier : List (Vec3 K)) (end_pt : Vec3 K) : Prop :=
  ∀ id ∈ through (mp.traversedBy md earlier) (mp.rayVoxels md.cameraPos end_pt),
    mp.isInMapIndex id

/-- The rays of a frame fit: every end is in the map, every ray that is cast starts in the map,
and, where the cell of the camera stands for a voxel outside, none goes through such a voxel
before it meets another ray or the camera. -/
structure FrameFits (md : MappingData K) (reached : List (Vec3 K)) : Prop where
  ends : ∀ end_pt ∈ reached, mp.isInMapIndex (mp.posToIndex end_pt)
  starts : ∀ end_pt earlier, end_pt :: earlier <:+ reached.reverse → mp.Casts md earlier end_pt →
    mp.ReachFits md.cameraPos end_pt
  ways : mp.isInMapIndex (mp.voxelOf (mp.cellOf md.cameraPos)) ∨
    ∀ end_pt earlier, end_pt :: earlier <:+ reached.reverse → mp.Casts md earlier end_pt →
      mp.WayFits md earlier end_pt

end MappingParameters

def castAll (md : MappingData K) (rays : List (Vec3 K × ℤ)) : Pass K :=
  rays.foldr (fun ray pass => castRay mp md.cameraPos ray.1 ray.2 pass) (startPass mp md)

theorem touched_castRay (cameraPos end_pt : Vec3 K) (occ : ℤ) (pass : Pass K) {id : Vec3 ℤ}
    (member : id ∈ mp.posToIndex end_pt :: pass.touched) :
    id ∈ (castRay mp cameraPos end_pt occ pass).touched := by
  obtain ⟨next, newest, ⟨_, _, stops⟩ | goes⟩ := castRay_cases mp cameraPos end_pt occ pass
  · rwa [stops, newest]
  · rw [goes]
    exact touched_traverse_mono mp _ next (newest ▸ member)

theorem setCacheOccupancy_address {occ : ℤ} (known : occ = 1 ∨ occ = 0) (pos : Vec3 K)
    (md : MappingData K) :
    (setCacheOccupancy mp pos occ md).1 = mp.toAddress (mp.posToIndex pos) ∧
      (setCacheOccupancy mp pos occ md).2.flagTraverse = md.flagTraverse := by
  rw [setCacheOccupancy, if_neg (by omega)]
  dsimp only
  split_ifs <;> exact ⟨rfl, rfl⟩

variable {mp}

theorem toAddress_ne_invalidIdx {id : Vec3 ℤ} (inside : mp.isInMapIndex id) :
    mp.toAddress id ≠ invalidIdx := by
  have address := (mp.ownAddress inside).1.1
  unfold invalidIdx
  omega

theorem toAddress_inj {id other : Vec3 ℤ} (inside : mp.isInMapIndex id)
    (other_inside : mp.isInMapIndex other) (same : mp.toAddress other = mp.toAddress id) :
    other = id := (mp.ownAddress inside).2 other other_inside same

/-- A cell of the map gets the stamp of the frame, and ends the ray if it had it. -/
theorem traverse_cons_inside {rayPt : Vec3 ℤ} (inside : mp.isInMapIndex (mp.voxelOf rayPt))
    (rest : List (Vec3 ℤ)) (pass : Pass K) :
    ∃ next : Pass K, next.touched = mp.voxelOf rayPt :: pass.touched ∧
      next.data.raycastNum = pass.data.raycastNum ∧
      next.data.flagRayend = pass.data.flagRayend ∧
      next.data.flagTraverse = Function.update pass.data.flagTraverse
        (mp.toAddress (mp.voxelOf rayPt)) pass.data.raycastNum ∧
      Pass.traverse mp (rayPt :: rest) pass =
        if pass.data.flagTraverse (mp.toAddress (mp.voxelOf rayPt)) = pass.data.raycastNum then next
        else Pass.traverse mp rest next := by
  have address := setCacheOccupancy_address mp (Or.inr rfl) (mp.cellCentre rayPt) pass.data
  have flags := setCacheOccupancy_flags mp (mp.cellCentre rayPt) 0 pass.data
  have voxel : mp.posToIndex (mp.cellCentre rayPt) = mp.voxelOf rayPt := rfl
  rw [Pass.traverse]
  dsimp only [Pass.setCacheOccupancy]
  rw [address.1, address.2, flags.2, voxel, if_pos (toAddress_ne_invalidIdx inside)]
  by_cases stamped :
      pass.data.flagTraverse (mp.toAddress (mp.voxelOf rayPt)) = pass.data.raycastNum
  · have same := Function.update_eq_self (mp.toAddress (mp.voxelOf rayPt)) pass.data.flagTraverse
    rw [stamped] at same
    rw [if_pos stamped, same]
    exact ⟨_, rfl, flags.2, flags.1, address.2, (if_pos stamped).symm⟩
  · rw [if_neg stamped]
    refine ⟨_, ?_, ?_, ?_, ?_, (if_neg stamped).symm⟩
    · rfl
    · rfl
    · exact flags.1
    · rfl

theorem traverse_spec (cells : List (Vec3 ℤ)) {pass : Pass K} {traversed : Vec3 ℤ → Bool}
    (agrees : ∀ id, mp.isInMapIndex id →
      (pass.data.flagTraverse (mp.toAddress id) = pass.data.raycastNum ↔ traversed id = true)) :
    ((∀ id ∈ (Pass.traverse mp cells pass).touched, mp.isInMapIndex id) ↔
        (∀ id ∈ pass.touched, mp.isInMapIndex id) ∧
          ∀ id ∈ through traversed (cells.map mp.voxelOf), mp.isInMapIndex id) ∧
      ((∀ id ∈ through traversed (cells.map mp.voxelOf), mp.isInMapIndex id) →
        (Pass.traverse mp cells pass).data.raycastNum = pass.data.raycastNum ∧
          (Pass.traverse mp cells pass).data.flagRayend = pass.data.flagRayend ∧
            ∀ id, mp.isInMapIndex id →
              ((Pass.traverse mp cells pass).data.flagTraverse (mp.toAddress id) =
                  pass.data.raycastNum ↔
                traversed id = true ∨ id ∈ through traversed (cells.map mp.voxelOf))) := by
  induction cells generalizing pass traversed with
  | nil =>
      refine ⟨⟨fun inside => ⟨inside, fun _ member => absurd member List.not_mem_nil⟩,
        fun both => both.1⟩, fun _ => ⟨rfl, rfl, fun id inside => ?_⟩⟩
      exact (agrees id inside).trans ⟨Or.inl, fun either => either.resolve_right List.not_mem_nil⟩
  | cons rayPt rest ih =>
      rw [List.map_cons]
      have first := head_mem_through traversed (mp.voxelOf rayPt) (rest.map mp.voxelOf)
      by_cases inside : mp.isInMapIndex (mp.voxelOf rayPt)
      · obtain ⟨next, newest, stamp, rayend, marks, goes⟩ := traverse_cons_inside inside rest pass
        have same := agrees _ inside
        have marked : ∀ id, mp.isInMapIndex id →
            (next.data.flagTraverse (mp.toAddress id) = next.data.raycastNum ↔
              traversed id = true ∨ id = mp.voxelOf rayPt) := by
          intro id here
          rw [marks, stamp]
          by_cases equal : id = mp.voxelOf rayPt
          · rw [equal, Function.update_self]
            exact iff_of_true rfl (Or.inr rfl)
          · have apart : mp.toAddress id ≠ mp.toAddress (mp.voxelOf rayPt) :=
              fun address => equal (toAddress_inj inside here address)
            rw [Function.update_of_ne apart, agrees id here, or_iff_left equal]
        rw [goes, through]
        by_cases stamped : traversed (mp.voxelOf rayPt) = true
        · rw [if_pos (same.mpr stamped), if_pos stamped, newest]
          refine ⟨?_, fun _ => ⟨stamp, rayend, fun id here => ?_⟩⟩
          · rw [List.forall_mem_cons, List.forall_mem_singleton]
            exact and_comm
          · rw [← stamp, marked id here, List.mem_singleton]
        · rw [if_neg (mt same.mp stamped), if_neg stamped]
          have longer : ∀ id, mp.isInMapIndex id →
              (next.data.flagTraverse (mp.toAddress id) = next.data.raycastNum ↔
                (traversed id || decide (id = mp.voxelOf rayPt)) = true) := by
            intro id here
            rw [marked id here, Bool.or_eq_true, decide_eq_true_iff]
          have others := ih longer
          rw [others.1, newest, List.forall_mem_cons, List.forall_mem_cons]
          refine ⟨⟨fun ⟨⟨own, before⟩, later⟩ => ⟨before, own, later⟩,
            fun ⟨before, own, later⟩ => ⟨⟨own, before⟩, later⟩⟩, fun ⟨_, later⟩ => ?_⟩
          obtain ⟨last_stamp, last_rayend, last_marks⟩ := others.2 later
          refine ⟨last_stamp.trans stamp, last_rayend.trans rayend, fun id here => ?_⟩
          rw [← stamp, last_marks id here, Bool.or_eq_true, decide_eq_true_iff, List.mem_cons,
            or_assoc]
      · refine ⟨⟨fun every => ?_, fun both => absurd (both.2 _ first) inside⟩,
          fun every => absurd (every _ first) inside⟩
        exact absurd (every _ (touched_traverse_head mp rayPt rest pass)) inside

/-- The stamps on the voxels of the map, after rays to some ends. -/
structure Marks (mp : MappingParameters K) (md : MappingData K) (reached : List (Vec3 K))
    (pass : Pass K) : Prop where
  stamp : pass.data.raycastNum = md.raycastNum + 1
  rayend : ∀ id, mp.isInMapIndex id →
    (pass.data.flagRayend (mp.toAddress id) = md.raycastNum + 1 ↔
      md.flagRayend (mp.toAddress id) = md.raycastNum + 1 ∨
        ∃ end_pt ∈ reached, mp.posToIndex end_pt = id)
  traverse : ∀ id, mp.isInMapIndex id →
    (pass.data.flagTraverse (mp.toAddress id) = md.raycastNum + 1 ↔
      mp.traversedBy md reached id = true)

section Cast

variable {md : MappingData K} {earlier : List (Vec3 K)} {pass : Pass K}

theorem marks_startPass (md : MappingData K) : Marks mp md [] (startPass mp md) where
  stamp := rfl
  rayend _ _ := ⟨Or.inl, fun either => either.resolve_right fun ⟨_, member, _⟩ =>
    absurd member List.not_mem_nil⟩
  traverse _ _ := decide_eq_true_iff.symm

theorem Marks.casts_iff (marks : Marks mp md earlier pass) {end_pt : Vec3 K}
    (inside : mp.isInMapIndex (mp.posToIndex end_pt)) :
    mp.Casts md earlier end_pt ↔
      pass.data.flagRayend (mp.toAddress (mp.posToIndex end_pt)) ≠ pass.data.raycastNum := by
  rw [marks.stamp, ne_eq, marks.rayend _ inside, not_or]
  exact and_congr_right fun _ => ⟨fun none ⟨other, member, same⟩ => none other member same,
    fun none other member same => none ⟨other, member, same⟩⟩

/-- The voxel of a ray end in the map gets the stamp of the frame, and casts no ray if it had
it. -/
theorem castRay_inside {occ : ℤ} (known : occ = 1 ∨ occ = 0) (cameraPos : Vec3 K)
    {end_pt : Vec3 K} (inside : mp.isInMapIndex (mp.posToIndex end_pt)) (pass : Pass K) :
    ∃ next : Pass K, next.touched = mp.posToIndex end_pt :: pass.touched ∧
      next.data.raycastNum = pass.data.raycastNum ∧
      next.data.flagTraverse = pass.data.flagTraverse ∧
      next.data.flagRayend = Function.update pass.data.flagRayend
        (mp.toAddress (mp.posToIndex end_pt)) pass.data.raycastNum ∧
      castRay mp cameraPos end_pt occ pass =
        if pass.data.flagRayend (mp.toAddress (mp.posToIndex end_pt)) = pass.data.raycastNum
        then next
        else Pass.traverse mp (RayCaster.setInput (end_pt / mp.resolution)
          (cameraPos / mp.resolution)).cells next := by
  have address := setCacheOccupancy_address mp known end_pt pass.data
  have flags := setCacheOccupancy_flags mp end_pt occ pass.data
  rw [castRay]
  dsimp only [Pass.setCacheOccupancy, Pass.widen]
  rw [address.1, flags.1, flags.2, if_pos (toAddress_ne_invalidIdx inside)]
  by_cases stamped :
      pass.data.flagRayend (mp.toAddress (mp.posToIndex end_pt)) = pass.data.raycastNum
  · have same := Function.update_eq_self (mp.toAddress (mp.posToIndex end_pt)) pass.data.flagRayend
    rw [stamped] at same
    rw [if_pos stamped, same]
    exact ⟨_, rfl, flags.2, address.2, flags.1, (if_pos stamped).symm⟩
  · rw [if_neg stamped]
    refine ⟨_, ?_, ?_, ?_, ?_, (if_neg stamped).symm⟩
    · rfl
    · rfl
    · exact address.2
    · rfl

theorem Marks.rayend_cons (marks : Marks mp md earlier pass) {end_pt : Vec3 K}
    (inside : mp.isInMapIndex (mp.posToIndex end_pt)) (id : Vec3 ℤ) (here : mp.isInMapIndex id) :
    Function.update pass.data.flagRayend (mp.toAddress (mp.posToIndex end_pt))
        pass.data.raycastNum (mp.toAddress id) = md.raycastNum + 1 ↔
      md.flagRayend (mp.toAddress id) = md.raycastNum + 1 ∨
        ∃ other ∈ end_pt :: earlier, mp.posToIndex other = id := by
  by_cases equal : mp.posToIndex end_pt = id
  · rw [equal, Function.update_self]
    exact iff_of_true marks.stamp (Or.inr ⟨end_pt, List.mem_cons_self, equal⟩)
  · have apart : mp.toAddress id ≠ mp.toAddress (mp.posToIndex end_pt) :=
      fun address => equal (toAddress_inj inside here address).symm
    rw [Function.update_of_ne apart, marks.rayend id here, List.exists_mem_cons_iff,
      or_iff_right equal]

theorem castRay_spec (marks : Marks mp md earlier pass) {occ : ℤ} (known : occ = 1 ∨ occ = 0)
    (end_pt : Vec3 K) :
    ((∀ id ∈ (castRay mp md.cameraPos end_pt occ pass).touched, mp.isInMapIndex id) ↔
        (∀ id ∈ pass.touched, mp.isInMapIndex id) ∧ mp.isInMapIndex (mp.posToIndex end_pt) ∧
          (mp.Casts md earlier end_pt → mp.WayFits md earlier end_pt)) ∧
      (mp.isInMapIndex (mp.posToIndex end_pt) →
        (mp.Casts md earlier end_pt → mp.WayFits md earlier end_pt) →
          Marks mp md (end_pt :: earlier) (castRay mp md.cameraPos end_pt occ pass)) := by
  by_cases inside : mp.isInMapIndex (mp.posToIndex end_pt)
  · obtain ⟨next, newest, stamp, traverse, rayend, cast⟩ :=
      castRay_inside known md.cameraPos inside pass
    have casts := marks.casts_iff inside
    have ended := marks.rayend_cons inside
    rw [← rayend] at ended
    rw [cast]
    by_cases stamped :
        pass.data.flagRayend (mp.toAddress (mp.posToIndex end_pt)) = pass.data.raycastNum
    · have skips : ¬mp.Casts md earlier end_pt := fun yes => casts.mp yes stamped
      rw [if_pos stamped, newest, List.forall_mem_cons]
      refine ⟨⟨fun ⟨own, before⟩ => ⟨before, own, fun yes => absurd yes skips⟩,
        fun ⟨before, own, _⟩ => ⟨own, before⟩⟩, fun _ _ => ⟨stamp.trans marks.stamp, ended,
        fun id here => ?_⟩⟩
      rw [traverse, marks.traverse id here, MappingParameters.traversedBy, decide_eq_false skips,
        Bool.false_and, Bool.or_false]
    · have goes := casts.mpr stamped
      have agrees : ∀ id, mp.isInMapIndex id →
          (next.data.flagTraverse (mp.toAddress id) = next.data.raycastNum ↔
            mp.traversedBy md earlier id = true) := fun id here => by
        rw [traverse, stamp, marks.stamp, marks.traverse id here]
      obtain ⟨touches, keeps⟩ := traverse_spec (RayCaster.setInput (end_pt / mp.resolution)
        (md.cameraPos / mp.resolution)).cells agrees
      rw [if_neg stamped, touches, newest, List.forall_mem_cons]
      refine ⟨⟨fun ⟨⟨own, before⟩, way⟩ => ⟨before, own, fun _ => way⟩,
        fun ⟨before, own, way⟩ => ⟨⟨own, before⟩, way goes⟩⟩, fun _ way => ?_⟩
      obtain ⟨last_stamp, last_rayend, last_marks⟩ := keeps (way goes)
      rw [stamp, marks.stamp] at last_stamp last_marks
      refine ⟨last_stamp, last_rayend ▸ ended, fun id here => ?_⟩
      rw [last_marks id here, MappingParameters.traversedBy, decide_eq_true goes, Bool.true_and,
        Bool.or_eq_true, decide_eq_true_iff]
      rfl
  · refine ⟨⟨fun every => absurd ?_ inside, fun ⟨_, own, _⟩ => absurd own inside⟩,
      fun own => absurd own inside⟩
    exact every _ (touched_castRay mp md.cameraPos end_pt occ pass List.mem_cons_self)

theorem castAll_spec (md : MappingData K) (rays : List (Vec3 K × ℤ))
    (known : ∀ ray ∈ rays, ray.2 = 1 ∨ ray.2 = 0) :
    ((∀ id ∈ (castAll mp md rays).touched, mp.isInMapIndex id) ↔
        ∀ end_pt earlier, end_pt :: earlier <:+ rays.map Prod.fst →
          mp.isInMapIndex (mp.posToIndex end_pt) ∧
            (mp.Casts md earlier end_pt → mp.WayFits md earlier end_pt)) ∧
      ((∀ id ∈ (castAll mp md rays).touched, mp.isInMapIndex id) →
        Marks mp md (rays.map Prod.fst) (castAll mp md rays)) := by
  induction rays with
  | nil =>
      refine ⟨iff_of_true (fun _ member => absurd member List.not_mem_nil)
        fun _ _ suffix => ?_, fun _ => marks_startPass md⟩
      exact absurd (List.suffix_nil.mp suffix) (List.cons_ne_nil _ _)
  | cons ray rays ih =>
      obtain ⟨touches, marks⟩ := ih fun other member => known other (List.mem_cons_of_mem _ member)
      have before : ∀ {id}, id ∈ (castAll mp md rays).touched →
          id ∈ (castAll mp md (ray :: rays)).touched := fun touched =>
        touched_castRay mp md.cameraPos ray.1 ray.2 _ (List.mem_cons_of_mem _ touched)
      by_cases every : ∀ id ∈ (castAll mp md rays).touched, mp.isInMapIndex id
      · obtain ⟨last, last_marks⟩ :=
          castRay_spec (marks every) (known ray List.mem_cons_self) ray.1
        refine ⟨⟨fun inside end_pt earlier suffix => ?_, fun fits => last.mpr ⟨every, ?_⟩⟩,
          fun inside => ?_⟩
        · rcases List.suffix_cons_iff.mp suffix with same | suffix
          · obtain ⟨rfl, rfl⟩ := List.cons.inj same
            exact (last.mp inside).2
          · exact touches.mp every end_pt earlier suffix
        · exact fits ray.1 _ (List.suffix_refl _)
        · obtain ⟨_, own, way⟩ := last.mp inside
          exact last_marks own way
      · refine ⟨iff_of_false (fun inside => every fun id touched => inside id (before touched))
          fun fits => every ?_, fun inside => absurd (fun id touched => inside id (before touched))
            every⟩
        exact touches.mpr fun end_pt earlier suffix =>
          fits end_pt earlier (suffix.trans (List.suffix_cons _ _))

end Cast

section Whole

variable {sqrt : K → K}

theorem foldlM_castPoint (cameraPos : Vec3 K) (points : List (Vec3 K)) (pass : Pass K) :
    points.foldlM (castPoint mp sqrt cameraPos) pass =
      (rayEnds mp sqrt cameraPos points).map fun rays =>
        rays.foldl (fun pass ray => castRay mp cameraPos ray.1 ray.2 pass) pass := by
  induction points generalizing pass with
  | nil => rfl
  | cons ptW points ih =>
      rw [List.foldlM_cons, rayEnds_cons, castPoint]
      cases rayEnd mp sqrt cameraPos ptW with
      | none => rfl
      | some ray =>
          simp only [Option.map_some, Option.bind_eq_bind, Option.bind_some, Option.map_map]
          exact ih _

theorem frameInside_iff_castAll (md : MappingData K) :
    FrameInside mp sqrt md ↔
      ∃ rays, rayEnds mp sqrt md.cameraPos md.projPoints = some rays ∧
        ∀ id ∈ (castAll mp md rays.reverse).touched, mp.isInMapIndex id := by
  have own : ∀ ids : List (Vec3 ℤ), (∀ id ∈ ids, mp.isInMapIndex id ∧ mp.OwnAddress id) ↔
      ∀ id ∈ ids, mp.isInMapIndex id := fun ids =>
    ⟨fun both id member => (both id member).1,
      fun inside id member => ⟨inside id member, mp.ownAddress (inside id member)⟩⟩
  unfold FrameInside raycastProcess
  simp only [own]
  by_cases none : md.projPoints = []
  · rw [if_pos none, none]
    exact iff_of_true ⟨_, _, rfl, fun _ member => absurd member List.not_mem_nil⟩
      ⟨[], rfl, fun _ member => absurd member List.not_mem_nil⟩
  · rw [if_neg none, foldlM_castPoint]
    cases ends : rayEnds mp sqrt md.cameraPos md.projPoints with
    | none =>
        refine iff_of_false (fun ⟨_, _, made, _⟩ => ?_) fun ⟨_, made, _⟩ => ?_
        · cases made
        · cases made
    | some rays =>
        have order : castAll mp md rays.reverse =
            rays.foldl (fun pass ray => castRay mp md.cameraPos ray.1 ray.2 pass)
              (startPass mp md) := List.foldr_reverse
        constructor
        · rintro ⟨after, touched, made, inside⟩
          cases made
          dsimp only at inside
          rw [← order] at inside
          exact ⟨rays, rfl, inside⟩
        · rintro ⟨_, same, inside⟩
          cases same
          rw [order] at inside
          exact ⟨_, _, rfl, inside⟩

theorem reachFits_of_wayFits {md : MappingData K} {earlier : List (Vec3 K)} {end_pt : Vec3 K}
    (inside : mp.isInMapIndex (mp.posToIndex end_pt)) (way : mp.WayFits md earlier end_pt) :
    mp.ReachFits md.cameraPos end_pt := by
  refine ⟨inside, fun leaves => way _ ?_⟩
  rw [← cell_setInput mp end_pt md.cameraPos, ← stop_setInput mp end_pt md.cameraPos] at leaves
  obtain ⟨rest, starts⟩ := RayCaster.cells_of_under_way leaves
  rw [MappingParameters.rayVoxels, starts, cell_setInput]
  exact head_mem_through _ _ _

variable [IsStrictOrderedRing K]

/-- Between an end and a camera whose cells stand for voxels of the map lie only such cells. -/
theorem wayFits_of_reachFits {md : MappingData K} {end_pt : Vec3 K}
    (fits : mp.ReachFits md.cameraPos end_pt)
    (camera : mp.isInMapIndex (mp.voxelOf (mp.cellOf md.cameraPos))) (earlier : List (Vec3 K)) :
    mp.WayFits md earlier end_pt := by
  intro id member
  obtain ⟨cell, passes, rfl⟩ := List.mem_map.mp (mem_of_mem_through member)
  obtain ⟨before_end, between⟩ := (RayCaster.paced_setInput _ _).walk_between _ passes
  rw [stop_setInput] at before_end between
  rw [cell_setInput] at between
  have leaves : mp.cellOf end_pt ≠ mp.cellOf md.cameraPos := fun same => by
    refine before_end (Vec3.ext_get fun axis => ?_)
    have there := between axis
    rw [same, Set.uIcc_self] at there
    exact there
  have start := (mp.isInMapIndex_cellCentre_iff _).mp (fits.2 leaves)
  have stop := (mp.isInMapIndex_cellCentre_iff _).mp camera
  refine (mp.isInMapIndex_cellCentre_iff _).mpr fun axis => ?_
  have cast_le : ∀ {m n : ℤ}, m ≤ n → (m : K) + 0.5 ≤ (n : K) + 0.5 := fun le =>
    add_le_add_left (Int.cast_le.mpr le) _
  rcases Set.mem_uIcc.mp (between axis) with ⟨above, below⟩ | ⟨above, below⟩
  · exact (start axis).between (stop axis) (cast_le above) (cast_le below)
  · exact (stop axis).between (start axis) (cast_le above) (cast_le below)

theorem frameFits_iff (md : MappingData K) (reached : List (Vec3 K)) :
    mp.FrameFits md reached ↔ ∀ end_pt earlier, end_pt :: earlier <:+ reached.reverse →
      mp.isInMapIndex (mp.posToIndex end_pt) ∧
        (mp.Casts md earlier end_pt → mp.WayFits md earlier end_pt) := by
  constructor
  · intro fits end_pt earlier suffix
    have member := List.mem_reverse.mp (suffix.subset List.mem_cons_self)
    refine ⟨fits.ends end_pt member, fun casts => ?_⟩
    rcases fits.ways with camera | ways
    · exact wayFits_of_reachFits (fits.starts end_pt earlier suffix casts) camera earlier
    · exact ways end_pt earlier suffix casts
  · intro fits
    refine ⟨fun end_pt member => ?_, fun end_pt earlier suffix casts => ?_, Or.inr ?_⟩
    · obtain ⟨later, earlier, whole⟩ := List.append_of_mem (List.mem_reverse.mpr member)
      exact (fits end_pt earlier ⟨later, whole.symm⟩).1
    · obtain ⟨inside, way⟩ := fits end_pt earlier suffix
      exact reachFits_of_wayFits inside (way casts)
    · exact fun end_pt earlier suffix casts => (fits end_pt earlier suffix).2 casts

theorem frameInside_iff (md : MappingData K) :
    FrameInside mp sqrt md ↔
      ∃ rays, rayEnds mp sqrt md.cameraPos md.projPoints = some rays ∧
        mp.FrameFits md (rays.map Prod.fst) := by
  rw [frameInside_iff_castAll]
  refine exists_congr fun rays => and_congr_right fun ends => ?_
  have known : ∀ ray ∈ rays.reverse, ray.2 = 1 ∨ ray.2 = 0 := fun ray member =>
    rayEnds_occ ends ray (List.mem_reverse.mp member)
  rw [(castAll_spec md rays.reverse known).1, frameFits_iff, List.map_reverse]

end Whole

end Frame

end RobocupDrone.Mapping
