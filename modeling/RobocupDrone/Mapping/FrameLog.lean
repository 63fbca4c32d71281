import RobocupDrone.Library.Machine
import RobocupDrone.Mapping.GridMap

/-! `raycastProcess` with a record of its calls of `setCacheOccupancy`, its tests of the flag
buffers and its updates of the occupancy, and the sequence of the frames. -/

namespace RobocupDrone.Mapping

open Geometry Reactive

variable {K : Type}

inductive FlagBuffer
  | rayend
  | traverse
deriving DecidableEq

def MappingData.flags (md : MappingData K) : FlagBuffer → ℤ → BitVec 8
  | .rayend => md.flagRayend
  | .traverse => md.flagTraverse

/-- The flag of a voxel is set to `raycast_num_`. -/
def MappingData.mark (md : MappingData K) (voxIdx : ℤ) : FlagBuffer → MappingData K
  | .rayend => { md with flagRayend := Function.update md.flagRayend voxIdx md.raycastNum }
  | .traverse => { md with flagTraverse := Function.update md.flagTraverse voxIdx md.raycastNum }

/-- A call of `setCacheOccupancy`, or a test of a flag buffer with its result. -/
inductive RayEvent
  | call (id : Vec3 ℤ) (occ : ℤ)
  | test (buffer : FlagBuffer) (voxIdx : ℤ) (found : Bool)
deriving DecidableEq

/-- A pass with its events, the newest first. -/
structure LoggedPass (K : Type) extends Pass K where
  log : List RayEvent

abbrev FlagTest (K : Type) := LoggedPass K → FlagBuffer → ℤ → Bool

/-- The test of the source: the flag of the voxel is `raycast_num_`. -/
def byStamp : FlagTest K := fun pass buffer voxIdx =>
  decide (pass.data.flags buffer voxIdx = pass.data.raycastNum)

def Marked (log : List RayEvent) (buffer : FlagBuffer) (voxIdx : ℤ) : Prop :=
  .test buffer voxIdx false ∈ log

instance (log : List RayEvent) (buffer : FlagBuffer) (voxIdx : ℤ) :
    Decidable (Marked log buffer voxIdx) :=
  inferInstanceAs (Decidable (_ ∈ log))

def byVisited : FlagTest K := fun pass buffer voxIdx => decide (Marked pass.log buffer voxIdx)

/-- The data of the next frame: the other callbacks may write everything but the members that only
`raycastProcess` uses. -/
def nextFrame (md frame : MappingData K) : MappingData K :=
  { frame with
    countHit := md.countHit
    countHitAndMiss := md.countHitAndMiss
    flagTraverse := md.flagTraverse
    flagRayend := md.flagRayend
    raycastNum := md.raycastNum
    cacheVoxel := md.cacheVoxel }

theorem flags_nextFrame (md frame : MappingData K) : (nextFrame md frame).flags = md.flags := by
  funext buffer
  cases buffer <;> rfl

variable [Field K] [LinearOrder K] [FloorRing K] (mp : MappingParameters K)

namespace LoggedPass

def setCacheOccupancy (pos : Vec3 K) (occ : ℤ) (pass : LoggedPass K) : ℤ × LoggedPass K :=
  let made := pass.toPass.setCacheOccupancy mp pos occ
  (made.1, ⟨made.2, .call (mp.posToIndex pos) occ :: pass.log⟩)

def widen (pt : Vec3 K) (pass : LoggedPass K) : LoggedPass K :=
  { pass with toPass := pass.toPass.widen pt }

def visit (test : FlagTest K) (buffer : FlagBuffer) (voxIdx : ℤ) (pass : LoggedPass K) :
    Bool × LoggedPass K :=
  let found := test pass buffer voxIdx
  let data := if found then pass.data else pass.data.mark voxIdx buffer
  (found, { pass with data := data, log := .test buffer voxIdx found :: pass.log })

def traverse (test : FlagTest K) : List (Vec3 ℤ) → LoggedPass K → LoggedPass K
  | [], pass => pass
  | rayPt :: rest, pass =>
      let (voxIdx, pass) := pass.setCacheOccupancy mp (mp.cellCentre rayPt) 0
      if voxIdx ≠ invalidIdx then
        let (found, pass) := pass.visit test .traverse voxIdx
        if found then pass else traverse test rest pass
      else traverse test rest pass

def castRay (test : FlagTest K) (cameraPos ptW : Vec3 K) (occ : ℤ) (pass : LoggedPass K) :
    LoggedPass K :=
  let (voxIdx, pass) := pass.setCacheOccupancy mp ptW occ
  let pass := pass.widen ptW
  let raycaster := RayCaster.setInput (ptW / mp.resolution) (cameraPos / mp.resolution)
  if voxIdx ≠ invalidIdx then
    let (found, pass) := pass.visit test .rayend voxIdx
    if found then pass else traverse mp test raycaster.cells pass
  else traverse mp test raycaster.cells pass

end LoggedPass

/-- A voxel is updated with `prob_hit_log_`. -/
def majority (md : MappingData K) (idx : Vec3 ℤ) : Bool :=
  decide ((md.countHit (mp.toAddress idx)).toInt ≥
    (md.countHitAndMiss (mp.toAddress idx)).toInt - (md.countHit (mp.toAddress idx)).toInt)

/-- A round of the loop over `cache_voxel_`, with the updates made, the newest first. -/
def updateLogged (minId maxId : Vec3 ℤ) (made : MappingData K × List (Vec3 ℤ × Bool))
    (idx : Vec3 ℤ) : MappingData K × List (Vec3 ℤ × Bool) :=
  (updateVoxel mp minId maxId made.1 idx, (idx, majority mp made.1 idx) :: made.2)

/-- A frame with the data it leaves, its events and its updates of the occupancy. -/
structure FrameRecord (K : Type) where
  data : MappingData K
  log : List RayEvent
  updates : List (Vec3 ℤ × Bool)

/-- The data when the loop over `cache_voxel_` starts. -/
def boundedData (cameraPos : Vec3 K) (pass : Pass K) : MappingData K :=
  let pass := pass.widen cameraPos
  let maxZ := max pass.high.z mp.groundHeight
  { pass.data with
    localBoundMax := mp.boundIndex (mp.posToIndex ⟨pass.high.x, pass.high.y, maxZ⟩)
    localBoundMin := mp.boundIndex (mp.posToIndex pass.low)
    localUpdated := true }

def rangeMin (cameraPos : Vec3 K) : Vec3 ℤ :=
  mp.boundIndex (mp.posToIndex (cameraPos - mp.localUpdateRange))

def rangeMax (cameraPos : Vec3 K) : Vec3 ℤ :=
  mp.boundIndex (mp.posToIndex (cameraPos + mp.localUpdateRange))

def LoggedPass.finish (cameraPos : Vec3 K) (pass : LoggedPass K) : FrameRecord K :=
  let md := boundedData mp cameraPos pass.toPass
  let made := md.cacheVoxel.foldl (updateLogged mp (rangeMin mp cameraPos) (rangeMax mp cameraPos))
    ({ md with cacheVoxel := [] }, [])
  ⟨made.1, pass.log, made.2⟩

section Frames

variable (sqrt : K → K)

def LoggedPass.castPoint (test : FlagTest K) (cameraPos : Vec3 K) (pass : LoggedPass K)
    (ptW : Vec3 K) : Option (LoggedPass K) :=
  (rayEnd mp sqrt cameraPos ptW).map fun (ptW, occ) => pass.castRay mp test cameraPos ptW occ

def loggedPass (test : FlagTest K) (md : MappingData K) : Option (LoggedPass K) :=
  md.projPoints.foldlM (LoggedPass.castPoint mp sqrt test md.cameraPos) ⟨startPass mp md, []⟩

def loggedProcess (test : FlagTest K) (md : MappingData K) : Option (FrameRecord K) :=
  if md.projPoints = [] then some ⟨md, [], []⟩
  else (loggedPass mp sqrt test md).map fun pass => pass.finish mp md.cameraPos

/-- The frames of the map, from `initMap` on. A frame without a result stops it. -/
def frames : Machine (Option (MappingData K)) (MappingData K) Unit where
  start s := s = some (initMap mp)
  step s frame :=
    (s.bind fun md => (raycastProcess mp sqrt (nextFrame md frame)).map Prod.fst, [])

def OnFrame (P : MappingData K → FrameRecord K → Prop)
    (t : Transition (Option (MappingData K)) (MappingData K)) : Prop :=
  ∀ md record, t.pre = some md →
    loggedProcess mp sqrt byStamp (nextFrame md t.input) = some record →
      P (nextFrame md t.input) record

end Frames

section Projection

namespace LoggedPass

theorem toPass_traverse (cells : List (Vec3 ℤ)) (pass : LoggedPass K) :
    (traverse mp byStamp cells pass).toPass = Pass.traverse mp cells pass.toPass := by
  induction cells generalizing pass with
  | nil => rfl
  | cons rayPt rest ih =>
      rw [traverse, Pass.traverse]
      dsimp only [LoggedPass.setCacheOccupancy, visit, byStamp, MappingData.flags]
      generalize pass.toPass.setCacheOccupancy mp (mp.cellCentre rayPt) 0 = made
      by_cases valid : made.1 ≠ invalidIdx
      · rw [if_pos valid, if_pos valid]
        by_cases found : made.2.data.flagTraverse made.1 = made.2.data.raycastNum
        · simp only [found, decide_true, if_true]
        · simp only [found, decide_false, Bool.false_eq_true, if_false]
          exact ih _
      · rw [if_neg valid, if_neg valid]
        exact ih _

theorem toPass_castRay (cameraPos ptW : Vec3 K) (occ : ℤ) (pass : LoggedPass K) :
    (pass.castRay mp byStamp cameraPos ptW occ).toPass =
      Mapping.castRay mp cameraPos ptW occ pass.toPass := by
  rw [castRay, Mapping.castRay]
  dsimp only [LoggedPass.setCacheOccupancy, widen, visit, byStamp, MappingData.flags, Pass.widen]
  generalize pass.toPass.setCacheOccupancy mp ptW occ = made
  by_cases valid : made.1 ≠ invalidIdx
  · rw [if_pos valid, if_pos valid]
    by_cases found : made.2.data.flagRayend made.1 = made.2.data.raycastNum
    · simp only [found, decide_true, if_true]
    · simp only [found, decide_false, Bool.false_eq_true, if_false]
      exact toPass_traverse mp _ _
  · rw [if_neg valid, if_neg valid]
    exact toPass_traverse mp _ _

variable (sqrt : K → K)

theorem toPass_castPoint (cameraPos ptW : Vec3 K) (pass : LoggedPass K) :
    (pass.castPoint mp sqrt byStamp cameraPos ptW).map toPass =
      Mapping.castPoint mp sqrt cameraPos pass.toPass ptW := by
  rw [castPoint, Mapping.castPoint, Option.map_map]
  congr 1
  funext ray
  exact toPass_castRay mp cameraPos ray.1 ray.2 pass

theorem toPass_points (cameraPos : Vec3 K) (points : List (Vec3 K)) (pass : LoggedPass K) :
    (points.foldlM (castPoint mp sqrt byStamp cameraPos) pass).map toPass =
      points.foldlM (Mapping.castPoint mp sqrt cameraPos) pass.toPass := by
  induction points generalizing pass with
  | nil => rfl
  | cons ptW rest ih =>
      rw [List.foldlM_cons, List.foldlM_cons, ← toPass_castPoint]
      cases pass.castPoint mp sqrt byStamp cameraPos ptW with
      | none => rfl
      | some next => exact ih next

end LoggedPass

theorem fst_updateLogged (minId maxId : Vec3 ℤ) (entries : List (Vec3 ℤ))
    (made : MappingData K × List (Vec3 ℤ × Bool)) :
    (entries.foldl (updateLogged mp minId maxId) made).1 =
      entries.foldl (updateVoxel mp minId maxId) made.1 := by
  induction entries generalizing made with
  | nil => rfl
  | cons idx rest ih => exact ih _

theorem LoggedPass.data_finish (cameraPos : Vec3 K) (pass : LoggedPass K) :
    (pass.finish mp cameraPos).data = finishPass mp cameraPos pass.toPass :=
  fst_updateLogged mp _ _ _ _

theorem data_loggedProcess (sqrt : K → K) (md : MappingData K) :
    (loggedProcess mp sqrt byStamp md).map FrameRecord.data =
      (raycastProcess mp sqrt md).map Prod.fst := by
  rw [loggedProcess, raycastProcess]
  split_ifs
  · rfl
  · have points : _ = List.foldlM (castPoint mp sqrt md.cameraPos) (startPass mp md)
        md.projPoints :=
      LoggedPass.toPass_points mp sqrt md.cameraPos md.projPoints ⟨startPass mp md, []⟩
    rw [← points, loggedPass, Option.map_map, Option.map_map, Option.map_map]
    congr 1
    funext pass
    exact pass.data_finish mp md.cameraPos

theorem frames_step {sqrt : K → K} {s : Option (MappingData K)} {frame after : MappingData K}
    (stepped : ((frames mp sqrt).step s frame).1 = some after) :
    ∃ md record, s = some md ∧
      loggedProcess mp sqrt byStamp (nextFrame md frame) = some record ∧ record.data = after := by
  rcases Option.bind_eq_some_iff.mp stepped with ⟨md, before, process⟩
  rw [← data_loggedProcess] at process
  rcases Option.map_eq_some_iff.mp process with ⟨record, done, left⟩
  exact ⟨md, record, before, done, left⟩

theorem OnFrame.congr {sqrt : K → K} {P Q : MappingData K → FrameRecord K → Prop}
    {t : Transition (Option (MappingData K)) (MappingData K)}
    (same : ∀ md record, t.pre = some md →
      loggedProcess mp sqrt byStamp (nextFrame md t.input) = some record →
        (P (nextFrame md t.input) record ↔ Q (nextFrame md t.input) record)) :
    OnFrame mp sqrt P t ↔ OnFrame mp sqrt Q t := by
  constructor
  · intro holds md record before done
    exact (same md record before done).mp (holds md record before done)
  · intro holds md record before done
    exact (same md record before done).mpr (holds md record before done)

end Projection

section Rules

theorem flags_call (pos : Vec3 K) (occ : ℤ) (md : MappingData K) :
    (setCacheOccupancy mp pos occ md).2.flags = md.flags ∧
      (setCacheOccupancy mp pos occ md).2.raycastNum = md.raycastNum := by
  rw [setCacheOccupancy]
  dsimp only
  split_ifs <;> exact ⟨rfl, rfl⟩

theorem fst_call (pos : Vec3 K) {occ : ℤ} (valid : occ = 1 ∨ occ = 0) (pass : LoggedPass K) :
    (pass.setCacheOccupancy mp pos occ).1 = mp.toAddress (mp.posToIndex pos) := by
  rcases valid with rfl | rfl
  · simp [LoggedPass.setCacheOccupancy, Pass.setCacheOccupancy, setCacheOccupancy]
  · simp [LoggedPass.setCacheOccupancy, Pass.setCacheOccupancy, setCacheOccupancy]

theorem castRay_stamped {cameraPos ptW : Vec3 K} {occ : ℤ} (valid : occ = 1 ∨ occ = 0)
    (voxel : mp.toAddress (mp.posToIndex ptW) ≠ invalidIdx) {pass : LoggedPass K}
    (stamped : byStamp pass .rayend (mp.toAddress (mp.posToIndex ptW)) = true) :
    pass.castRay mp byStamp cameraPos ptW occ =
      { toPass := ((pass.setCacheOccupancy mp ptW occ).2.widen ptW).toPass
        log := .test .rayend (mp.toAddress (mp.posToIndex ptW)) true ::
          .call (mp.posToIndex ptW) occ :: pass.log } := by
  have found : pass.data.flags .rayend (mp.toAddress (mp.posToIndex ptW)) =
      pass.data.raycastNum := of_decide_eq_true stamped
  have flags := flags_call mp ptW occ pass.data
  have test : byStamp ((pass.setCacheOccupancy mp ptW occ).2.widen ptW) .rayend
      (mp.toAddress (mp.posToIndex ptW)) = true := by
    apply decide_eq_true
    change (setCacheOccupancy mp ptW occ pass.data).2.flags .rayend _ =
      (setCacheOccupancy mp ptW occ pass.data).2.raycastNum
    rw [flags.1, flags.2]
    exact found
  rw [LoggedPass.castRay]
  dsimp only
  rw [fst_call mp ptW valid, if_pos voxel, LoggedPass.visit]
  dsimp only
  rw [test, if_pos rfl]
  rfl

/-- A property of passes that no step of a pass destroys. -/
structure Kept (test : FlagTest K) (I : LoggedPass K → Prop) : Prop where
  call : ∀ pass pos occ, I pass → I (pass.setCacheOccupancy mp pos occ).2
  visit : ∀ pass buffer voxIdx, I pass → I (pass.visit test buffer voxIdx).2
  widen : ∀ pass pt, I pass → I (pass.widen pt)

variable {mp} {test : FlagTest K} {I : LoggedPass K → Prop}

namespace Kept

theorem traverse (kept : Kept mp test I) (cells : List (Vec3 ℤ)) {pass : LoggedPass K}
    (holds : I pass) : I (LoggedPass.traverse mp test cells pass) := by
  induction cells generalizing pass with
  | nil => exact holds
  | cons rayPt rest ih =>
      rw [LoggedPass.traverse]
      dsimp only
      have called := kept.call pass (mp.cellCentre rayPt) 0 holds
      have visited := kept.visit _ .traverse
        (pass.setCacheOccupancy mp (mp.cellCentre rayPt) 0).1 called
      split_ifs
      · exact visited
      · exact ih visited
      · exact ih called

theorem castRay (kept : Kept mp test I) (cameraPos ptW : Vec3 K) (occ : ℤ) {pass : LoggedPass K}
    (holds : I pass) : I (pass.castRay mp test cameraPos ptW occ) := by
  rw [LoggedPass.castRay]
  dsimp only
  have called := kept.widen _ ptW (kept.call pass ptW occ holds)
  have visited := kept.visit _ .rayend (pass.setCacheOccupancy mp ptW occ).1 called
  split_ifs
  · exact visited
  · exact kept.traverse _ visited
  · exact kept.traverse _ called

theorem points (kept : Kept mp test I) {sqrt : K → K} {cameraPos : Vec3 K}
    {points : List (Vec3 K)} {pass after : LoggedPass K} (holds : I pass)
    (done : points.foldlM (LoggedPass.castPoint mp sqrt test cameraPos) pass = some after) :
    I after := by
  induction points generalizing pass with
  | nil =>
      rw [← Option.some.inj done]
      exact holds
  | cons ptW rest ih =>
      rw [List.foldlM_cons] at done
      rcases Option.bind_eq_some_iff.mp done with ⟨next, cast, later⟩
      rcases Option.map_eq_some_iff.mp cast with ⟨ray, _, same⟩
      rw [← same] at later
      exact ih (kept.castRay cameraPos ray.1 ray.2 holds) later

end Kept

end Rules

end RobocupDrone.Mapping
