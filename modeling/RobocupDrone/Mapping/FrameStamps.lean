import RobocupDrone.Mapping.FrameLog
import RobocupDrone.Mapping.Inflation

/-! The stamps in the flag buffers against sets of visited voxels that start empty in each frame. -/

namespace RobocupDrone.Mapping

open Geometry Reactive

section Logs

/-- Every test of the log meets `P` together with the events before it. -/
def TestsMeet (P : List RayEvent → FlagBuffer → ℤ → Bool → Prop) : List RayEvent → Prop
  | [] => True
  | .call _ _ :: earlier => TestsMeet P earlier
  | .test buffer voxIdx found :: earlier => P earlier buffer voxIdx found ∧ TestsMeet P earlier

def Agrees : List RayEvent → Prop :=
  TestsMeet fun earlier buffer voxIdx found => found = true ↔ Marked earlier buffer voxIdx

def Tested (log : List RayEvent) (buffer : FlagBuffer) (voxIdx : ℤ) : Prop :=
  ∃ found, .test buffer voxIdx found ∈ log

variable {P : List RayEvent → FlagBuffer → ℤ → Bool → Prop}

theorem TestsMeet.tail {event : RayEvent} {log : List RayEvent}
    (meets : TestsMeet P (event :: log)) : TestsMeet P log := by
  cases event with
  | call id occ => exact meets
  | test buffer voxIdx found => exact meets.2

theorem testsMeet_of_tested {Q : FlagBuffer → ℤ → Prop} {log : List RayEvent}
    (every : ∀ buffer voxIdx, Tested log buffer voxIdx → Q buffer voxIdx) :
    TestsMeet (fun _ buffer voxIdx _ => Q buffer voxIdx) log := by
  induction log with
  | nil => trivial
  | cons event rest ih =>
      have older := ih fun buffer voxIdx tested =>
        every buffer voxIdx (tested.imp fun _ member => List.mem_cons_of_mem _ member)
      cases event with
      | call id occ => exact older
      | test buffer voxIdx found => exact ⟨every buffer voxIdx ⟨found, List.mem_cons_self⟩, older⟩

theorem TestsMeet.of_suffix {earlier log : List RayEvent} (meets : TestsMeet P log)
    (suffix : earlier <:+ log) : TestsMeet P earlier := by
  rcases suffix with ⟨newer, rfl⟩
  induction newer with
  | nil => exact meets
  | cons event rest ih => exact ih meets.tail

theorem TestsMeet.of_mem {log : List RayEvent} (meets : TestsMeet P log) {buffer : FlagBuffer}
    {voxIdx : ℤ} {found : Bool} (member : .test buffer voxIdx found ∈ log) :
    ∃ earlier, P earlier buffer voxIdx found ∧ earlier ⊆ log := by
  induction log with
  | nil => simp at member
  | cons event rest ih =>
      rcases List.mem_cons.mp member with newest | older
      · rw [← newest] at meets
        exact ⟨rest, meets.1, List.subset_cons_self _ _⟩
      · rcases ih meets.tail older with ⟨earlier, holds, part⟩
        exact ⟨earlier, holds, List.subset_cons_of_subset _ part⟩

end Logs

section Congruence

variable {K : Type}
variable {T U : FlagTest K} {I : LoggedPass K → Prop}
variable {P : List RayEvent → FlagBuffer → ℤ → Bool → Prop}
variable {sqrt : K → K} {cameraPos : Vec3 K} {points : List (Vec3 K)} {pass after : LoggedPass K}

/-- `U` gives the results of `T` as long as they meet `P`. -/
def SameWhile (I : LoggedPass K → Prop) (P : List RayEvent → FlagBuffer → ℤ → Bool → Prop)
    (T U : FlagTest K) : Prop :=
  ∀ pass buffer voxIdx, I pass → P pass.log buffer voxIdx (T pass buffer voxIdx) →
    U pass buffer voxIdx = T pass buffer voxIdx

theorem SameWhile.visit (same : SameWhile I P T U) {pass : LoggedPass K} (holds : I pass)
    {buffer : FlagBuffer} {voxIdx : ℤ}
    (meets : TestsMeet P (pass.visit T buffer voxIdx).2.log) :
    pass.visit U buffer voxIdx = pass.visit T buffer voxIdx := by
  have equal := same pass buffer voxIdx holds meets.1
  rw [LoggedPass.visit, LoggedPass.visit, equal]

variable [Field K] [LinearOrder K] [FloorRing K]
variable {mp : MappingParameters K}

theorem suffix_kept (T : FlagTest K) (log : List RayEvent) :
    Kept mp T fun pass => log <:+ pass.log where
  call := fun _ _ _ suffix => suffix.trans (List.suffix_cons _ _)
  visit := fun _ _ _ suffix => suffix.trans (List.suffix_cons _ _)
  widen := fun _ _ suffix => suffix

theorem suffix_traverse (T : FlagTest K) (cells : List (Vec3 ℤ)) (pass : LoggedPass K) :
    pass.log <:+ (LoggedPass.traverse mp T cells pass).log :=
  (suffix_kept T pass.log).traverse cells (List.suffix_refl _)

theorem SameWhile.traverse (same : SameWhile I P T U) (kept : Kept mp T I)
    (cells : List (Vec3 ℤ)) {pass : LoggedPass K} (holds : I pass)
    (meets : TestsMeet P (LoggedPass.traverse mp T cells pass).log) :
    LoggedPass.traverse mp U cells pass = LoggedPass.traverse mp T cells pass := by
  induction cells generalizing pass with
  | nil => rfl
  | cons rayPt rest ih =>
      rw [LoggedPass.traverse] at meets
      rw [LoggedPass.traverse, LoggedPass.traverse]
      dsimp only at meets ⊢
      have called := kept.call pass (mp.cellCentre rayPt) 0 holds
      generalize pass.setCacheOccupancy mp (mp.cellCentre rayPt) 0 = made at called meets ⊢
      by_cases valid : made.1 ≠ invalidIdx
      · rw [if_pos valid] at meets
        rw [if_pos valid, if_pos valid]
        have visited := kept.visit _ .traverse made.1 called
        by_cases found : (made.2.visit T .traverse made.1).1 = true
        · rw [if_pos found] at meets
          rw [same.visit called meets, if_pos found, if_pos found]
        · rw [if_neg found] at meets
          have first := meets.of_suffix (suffix_traverse T rest _)
          rw [same.visit called first, if_neg found, if_neg found]
          exact ih visited meets
      · rw [if_neg valid] at meets
        rw [if_neg valid, if_neg valid]
        exact ih called meets

theorem SameWhile.castRay (same : SameWhile I P T U) (kept : Kept mp T I)
    (cameraPos ptW : Vec3 K) (occ : ℤ) {pass : LoggedPass K} (holds : I pass)
    (meets : TestsMeet P (pass.castRay mp T cameraPos ptW occ).log) :
    pass.castRay mp U cameraPos ptW occ = pass.castRay mp T cameraPos ptW occ := by
  rw [LoggedPass.castRay] at meets
  rw [LoggedPass.castRay, LoggedPass.castRay]
  dsimp only at meets ⊢
  have called := kept.widen _ ptW (kept.call pass ptW occ holds)
  generalize pass.setCacheOccupancy mp ptW occ = made at called meets ⊢
  by_cases valid : made.1 ≠ invalidIdx
  · rw [if_pos valid] at meets
    rw [if_pos valid, if_pos valid]
    have visited := kept.visit _ .rayend made.1 called
    by_cases found : ((made.2.widen ptW).visit T .rayend made.1).1 = true
    · rw [if_pos found] at meets
      rw [same.visit called meets, if_pos found, if_pos found]
    · rw [if_neg found] at meets
      have first := meets.of_suffix (suffix_traverse T _ _)
      rw [same.visit called first, if_neg found, if_neg found]
      exact same.traverse kept _ visited meets
  · rw [if_neg valid] at meets
    rw [if_neg valid, if_neg valid]
    exact same.traverse kept _ called meets

theorem SameWhile.foldlM (same : SameWhile I P T U) (kept : Kept mp T I) (holds : I pass)
    (done : points.foldlM (LoggedPass.castPoint mp sqrt T cameraPos) pass = some after)
    (meets : TestsMeet P after.log) :
    points.foldlM (LoggedPass.castPoint mp sqrt U cameraPos) pass = some after := by
  induction points generalizing pass with
  | nil => exact done
  | cons ptW rest ih =>
      rw [List.foldlM_cons] at done ⊢
      rcases Option.bind_eq_some_iff.mp done with ⟨next, cast, later⟩
      rcases Option.map_eq_some_iff.mp cast with ⟨ray, ends, after_ray⟩
      have next_eq : pass.castRay mp T cameraPos ray.1 ray.2 = next := after_ray
      have so_far := meets.of_suffix ((suffix_kept T next.log).points (List.suffix_refl _) later)
      rw [← next_eq] at so_far
      have equal := same.castRay kept cameraPos ray.1 ray.2 holds so_far
      have held := kept.castRay cameraPos ray.1 ray.2 holds
      rw [next_eq] at equal held
      rw [LoggedPass.castPoint, ends]
      change (rest.foldlM _ (pass.castRay mp U cameraPos ray.1 ray.2)) = _
      rw [equal]
      exact ih held later

theorem points_isSome (other : LoggedPass K)
    (done : points.foldlM (LoggedPass.castPoint mp sqrt T cameraPos) pass = some after) :
    ∃ last, points.foldlM (LoggedPass.castPoint mp sqrt U cameraPos) other = some last := by
  induction points generalizing pass other with
  | nil => exact ⟨other, rfl⟩
  | cons ptW rest ih =>
      rw [List.foldlM_cons] at done
      rcases Option.bind_eq_some_iff.mp done with ⟨next, cast, later⟩
      rcases Option.map_eq_some_iff.mp cast with ⟨ray, ends, _⟩
      rcases ih (other.castRay mp U cameraPos ray.1 ray.2) later with ⟨last, rest_done⟩
      refine ⟨last, ?_⟩
      rw [List.foldlM_cons, LoggedPass.castPoint, ends]
      exact rest_done

end Congruence

section Stamps

variable {K : Type}
variable (stamped : FlagBuffer → ℤ → Prop)

/-- The flags that carry the stamp are those marked in this pass and those in `stamped`. -/
def StampsShow (stamped : FlagBuffer → ℤ → Prop) (pass : LoggedPass K) : Prop :=
  ∀ buffer voxIdx, pass.data.flags buffer voxIdx = pass.data.raycastNum ↔
    Marked pass.log buffer voxIdx ∨ stamped buffer voxIdx

theorem flags_mark (md : MappingData K) (voxIdx : ℤ) (buffer other : FlagBuffer) (voxel : ℤ) :
    (md.mark voxIdx buffer).flags other voxel =
      if other = buffer ∧ voxel = voxIdx then md.raycastNum else md.flags other voxel := by
  cases buffer <;> cases other <;>
    simp [MappingData.mark, MappingData.flags, Function.update_apply]

theorem raycastNum_mark (md : MappingData K) (voxIdx : ℤ) (buffer : FlagBuffer) :
    (md.mark voxIdx buffer).raycastNum = md.raycastNum := by
  cases buffer <;> rfl

theorem stampsShow_visit (T : FlagTest K) {pass : LoggedPass K} (shown : StampsShow stamped pass)
    (buffer : FlagBuffer) (voxIdx : ℤ) :
    StampsShow stamped (pass.visit T buffer voxIdx).2 := by
  intro other voxel
  rw [LoggedPass.visit]
  dsimp only
  by_cases found : T pass buffer voxIdx = true
  · rw [if_pos found, shown other voxel]
    simp [Marked, found]
  · rw [if_neg found, flags_mark, raycastNum_mark]
    by_cases here : other = buffer ∧ voxel = voxIdx
    · rw [if_pos here]
      simp [Marked, found, here]
    · have other_event : RayEvent.test other voxel false ≠
          .test buffer voxIdx (T pass buffer voxIdx) := by
        intro same
        injection same with same_buffer same_voxel
        exact here ⟨same_buffer, same_voxel⟩
      rw [if_neg here, shown other voxel, Marked, Marked, List.mem_cons, or_iff_right other_event]

theorem byStamp_of_unstamped : SameWhile (StampsShow (K := K) stamped)
    (fun _ buffer voxIdx _ => ¬stamped buffer voxIdx) byVisited byStamp := by
  intro pass buffer voxIdx shown unstamped
  rw [byStamp, byVisited, decide_eq_decide, shown buffer voxIdx, or_iff_left unstamped]

theorem byVisited_of_agrees : SameWhile (fun _ : LoggedPass K => True)
    (fun earlier buffer voxIdx found => found = true ↔ Marked earlier buffer voxIdx)
    byStamp byVisited := by
  intro pass buffer voxIdx _ right
  rw [Bool.eq_iff_iff, right]
  exact decide_eq_true_iff

variable [Field K] [LinearOrder K] [FloorRing K]
variable {mp : MappingParameters K}

theorem stampsShow_call {pass : LoggedPass K} (shown : StampsShow stamped pass) (pos : Vec3 K)
    (occ : ℤ) : StampsShow stamped (pass.setCacheOccupancy mp pos occ).2 := by
  intro buffer voxIdx
  have flags := flags_call mp pos occ pass.data
  change (setCacheOccupancy mp pos occ pass.data).2.flags buffer voxIdx =
    (setCacheOccupancy mp pos occ pass.data).2.raycastNum ↔
      Marked (.call (mp.posToIndex pos) occ :: pass.log) buffer voxIdx ∨ _
  rw [flags.1, flags.2, shown buffer voxIdx]
  simp [Marked]

theorem stampsShow_kept (T : FlagTest K) : Kept mp T (StampsShow stamped) where
  call := fun _ pos occ shown => stampsShow_call stamped shown pos occ
  visit := fun _ buffer voxIdx shown => stampsShow_visit stamped T shown buffer voxIdx
  widen := fun _ _ shown => shown

theorem agrees_kept : Kept mp byVisited fun pass => Agrees pass.log where
  call := fun _ _ _ agrees => agrees
  visit := fun _ _ _ agrees => ⟨decide_eq_true_iff, agrees⟩
  widen := fun _ _ agrees => agrees

theorem stamp_tests_kept : Kept mp byStamp fun pass => StampsShow stamped pass ∧
    TestsMeet (fun earlier buffer voxIdx found =>
      found = true ↔ Marked earlier buffer voxIdx ∨ stamped buffer voxIdx) pass.log where
  call := fun _ pos occ holds => ⟨stampsShow_call stamped holds.1 pos occ, holds.2⟩
  visit := fun _ buffer voxIdx holds => ⟨stampsShow_visit stamped byStamp holds.1 buffer voxIdx,
    decide_eq_true_iff.trans (holds.1 buffer voxIdx), holds.2⟩
  widen := fun _ _ holds => holds

theorem unstamped_of_agrees {log : List RayEvent} (agrees : Agrees log)
    (by_stamp : TestsMeet (fun earlier buffer voxIdx found =>
      found = true ↔ Marked earlier buffer voxIdx ∨ stamped buffer voxIdx) log)
    {buffer : FlagBuffer} {voxIdx : ℤ} (tested : Tested log buffer voxIdx) :
    ¬stamped buffer voxIdx := by
  intro stale
  have never_marked : ¬Marked log buffer voxIdx := by
    intro marked
    rcases by_stamp.of_mem marked with ⟨earlier, right, _⟩
    have found := right.mpr (.inr stale)
    contradiction
  rcases tested with ⟨found, member⟩
  rcases by_stamp.of_mem member with ⟨_, with_stamp, _⟩
  rcases agrees.of_mem member with ⟨earlier, right, part⟩
  exact never_marked (part (right.mp (with_stamp.mpr (.inr stale))))

end Stamps

section Frames

variable {K : Type} [Field K]
variable {md : MappingData K} {record : FrameRecord K}
variable (mp : MappingParameters K)

theorem stampsShow_start (md : MappingData K) :
    StampsShow (fun buffer voxIdx => md.flags buffer voxIdx = md.raycastNum + 1)
      ⟨startPass mp md, []⟩ := by
  intro buffer voxIdx
  rw [or_iff_right (by simp [Marked])]
  cases buffer
  · exact Iff.rfl
  · exact Iff.rfl

variable [LinearOrder K] [FloorRing K]
variable (sqrt : K → K)

/-- The tests of the frame find exactly the voxels marked in it, and the frame is the one of a
visited set that starts empty. -/
def FrameFresh (md : MappingData K) (record : FrameRecord K) : Prop :=
  Agrees record.log ∧ loggedProcess mp sqrt byVisited md = some record

/-- No voxel that the frame tests, with a visited set that starts empty, has the stamp of the frame
before it starts. -/
def StampUnused (md : MappingData K) : Prop :=
  ∀ record buffer voxIdx, loggedProcess mp sqrt byVisited md = some record →
    Tested record.log buffer voxIdx → md.flags buffer voxIdx ≠ md.raycastNum + 1

theorem visited_of_agrees (done : loggedProcess mp sqrt byStamp md = some record)
    (agrees : Agrees record.log) : loggedProcess mp sqrt byVisited md = some record := by
  rw [loggedProcess] at done ⊢
  by_cases empty : md.projPoints = []
  · rwa [if_pos empty] at done ⊢
  · rw [if_neg empty] at done ⊢
    rcases Option.map_eq_some_iff.mp done with ⟨pass, points, finished⟩
    rw [← finished] at agrees
    have kept : Kept mp byStamp fun _ => True := ⟨fun _ _ _ _ => trivial, fun _ _ _ _ => trivial,
      fun _ _ _ => trivial⟩
    have same := byVisited_of_agrees.foldlM kept trivial points agrees
    rw [loggedPass, same, Option.map_some, finished]

theorem unused_of_agrees (done : loggedProcess mp sqrt byStamp md = some record)
    (agrees : Agrees record.log) : StampUnused mp sqrt md := by
  intro other buffer voxIdx visited tested
  rw [visited_of_agrees mp sqrt done agrees] at visited
  rw [← Option.some.inj visited] at tested
  rw [loggedProcess] at done
  split_ifs at done
  · rw [← Option.some.inj done] at tested
    rcases tested with ⟨found, member⟩
    simp at member
  · rcases Option.map_eq_some_iff.mp done with ⟨pass, points, finished⟩
    have tests := ((stamp_tests_kept _).points ⟨stampsShow_start mp md, trivial⟩ points).2
    rw [← finished] at agrees tested
    exact unstamped_of_agrees _ agrees tests tested

theorem agrees_of_unused (done : loggedProcess mp sqrt byStamp md = some record)
    (unused : StampUnused mp sqrt md) : Agrees record.log := by
  rw [loggedProcess] at done
  by_cases empty : md.projPoints = []
  · rw [if_pos empty] at done
    rw [← Option.some.inj done]
    trivial
  · rw [if_neg empty] at done
    rcases Option.map_eq_some_iff.mp done with ⟨pass, points, finished⟩
    rcases points_isSome (U := byVisited) ⟨startPass mp md, []⟩ points with ⟨last, visited⟩
    have frame : loggedProcess mp sqrt byVisited md = some (last.finish mp md.cameraPos) := by
      rw [loggedProcess, if_neg empty, loggedPass, visited, Option.map_some]
    have unstamped := testsMeet_of_tested fun buffer voxIdx tested =>
      unused _ buffer voxIdx frame tested
    have by_stamp := (byStamp_of_unstamped _).foldlM (stampsShow_kept _ byVisited)
      (stampsShow_start mp md) visited unstamped
    have same_pass : pass = last := Option.some.inj (points.symm.trans by_stamp)
    have start : Agrees (⟨startPass mp md, []⟩ : LoggedPass K).log := trivial
    have agrees := agrees_kept.points start visited
    rw [← finished, same_pass]
    exact agrees

/-- In every sequence of frames. -/
theorem stamps_fresh_iff (inputs : List (MappingData K)) :
    Throughout (fun t _ => OnFrame mp sqrt (FrameFresh mp sqrt) t ↔
        OnFrame mp sqrt (fun md _ => StampUnused mp sqrt md) t)
      ((frames mp sqrt).exec [] (some (initMap mp)) inputs).1 := by
  have run := (Machine.Run.start (M := frames mp sqrt) (s := some (initMap mp)) rfl).exec inputs
  refine run.throughout ?_
  intro past s frame _
  apply OnFrame.congr
  intro md record _ done
  constructor
  · intro fresh
    exact unused_of_agrees mp sqrt done fresh.1
  · intro unused
    have agrees := agrees_of_unused mp sqrt done unused
    exact ⟨agrees, visited_of_agrees mp sqrt done agrees⟩

end Frames

section FirstFrames

variable {K : Type}

/-- The stamps after `n` frames, while they have not come round. -/
structure EarlyStamps (n : ℕ) (md : MappingData K) : Prop where
  stamp : md.raycastNum = BitVec.ofNat 8 n
  flags : ∀ buffer voxIdx, md.flags buffer voxIdx = -1 ∨
    ∃ k, 1 ≤ k ∧ k ≤ n ∧ md.flags buffer voxIdx = BitVec.ofNat 8 k

theorem EarlyStamps.unused {n : ℕ} {md : MappingData K} (early : EarlyStamps n md)
    (short : n < 254) (buffer : FlagBuffer) (voxIdx : ℤ) :
    md.flags buffer voxIdx ≠ md.raycastNum + 1 := by
  have next : md.raycastNum + 1 = BitVec.ofNat 8 (n + 1) := by
    rw [early.stamp, BitVec.ofNat_add]
    rfl
  have next_nat : (md.raycastNum + 1).toNat = n + 1 := by
    rw [next, BitVec.toNat_ofNat]
    omega
  intro same
  rw [← same] at next_nat
  rcases early.flags buffer voxIdx with initial | ⟨k, _, bound, older⟩
  · rw [initial] at next_nat
    have all_ones : (-1 : BitVec 8).toNat = 255 := rfl
    omega
  · rw [older, BitVec.toNat_ofNat] at next_nat
    omega

variable [Field K] [LinearOrder K] [FloorRing K]
variable (mp : MappingParameters K)

theorem flags_kept (T : FlagTest K) (stamp : BitVec 8) (old : FlagBuffer → ℤ → BitVec 8) :
    Kept mp T fun pass => pass.data.raycastNum = stamp ∧ ∀ buffer voxIdx,
      pass.data.flags buffer voxIdx = old buffer voxIdx ∨
        pass.data.flags buffer voxIdx = stamp where
  call := by
    intro pass pos occ holds
    have flags := flags_call mp pos occ pass.data
    change (setCacheOccupancy mp pos occ pass.data).2.raycastNum = stamp ∧ ∀ buffer voxIdx,
      (setCacheOccupancy mp pos occ pass.data).2.flags buffer voxIdx = _ ∨
        (setCacheOccupancy mp pos occ pass.data).2.flags buffer voxIdx = stamp
    rw [flags.1, flags.2]
    exact holds
  visit := by
    intro pass buffer voxIdx holds
    rw [LoggedPass.visit]
    dsimp only
    split_ifs
    · exact holds
    · rw [raycastNum_mark]
      refine ⟨holds.1, fun other voxel => ?_⟩
      rw [flags_mark]
      split_ifs
      · exact .inr holds.1
      · exact holds.2 other voxel
  widen := fun _ _ holds => holds

theorem flags_updateVoxel (minId maxId : Vec3 ℤ) (md : MappingData K) (idx : Vec3 ℤ) :
    (updateVoxel mp minId maxId md idx).flags = md.flags ∧
      (updateVoxel mp minId maxId md idx).raycastNum = md.raycastNum := by
  rw [updateVoxel]
  dsimp only
  split_ifs <;> exact ⟨rfl, rfl⟩

theorem flags_finish (cameraPos : Vec3 K) (pass : LoggedPass K) :
    (pass.finish mp cameraPos).data.flags = pass.data.flags ∧
      (pass.finish mp cameraPos).data.raycastNum = pass.data.raycastNum := by
  have loop : ∀ (entries : List (Vec3 ℤ)) (made : MappingData K × List (Vec3 ℤ × Bool)),
      (entries.foldl (updateLogged mp (rangeMin mp cameraPos) (rangeMax mp cameraPos))
        made).1.flags = made.1.flags ∧
      (entries.foldl (updateLogged mp (rangeMin mp cameraPos) (rangeMax mp cameraPos))
        made).1.raycastNum = made.1.raycastNum := by
    intro entries
    induction entries with
    | nil => exact fun _ => ⟨rfl, rfl⟩
    | cons idx rest ih =>
        intro made
        have round := flags_updateVoxel mp (rangeMin mp cameraPos) (rangeMax mp cameraPos) made.1
          idx
        rw [List.foldl_cons, (ih _).1, (ih _).2]
        exact round
  exact loop _ _

variable (sqrt : K → K)

theorem flags_frame {md : MappingData K} {record : FrameRecord K}
    (done : loggedProcess mp sqrt byStamp md = some record) (nonempty : md.projPoints ≠ []) :
    record.data.raycastNum = md.raycastNum + 1 ∧ ∀ buffer voxIdx,
      record.data.flags buffer voxIdx = md.flags buffer voxIdx ∨
        record.data.flags buffer voxIdx = md.raycastNum + 1 := by
  rw [loggedProcess, if_neg nonempty] at done
  rcases Option.map_eq_some_iff.mp done with ⟨pass, points, finished⟩
  have start : (startPass mp md).data.flags = md.flags := rfl
  have kept := (flags_kept mp byStamp (md.raycastNum + 1) md.flags).points
    ⟨rfl, fun _ _ => .inl (by rw [start])⟩ points
  have after := flags_finish mp md.cameraPos pass
  rw [← finished, after.1, after.2]
  exact kept

theorem early_stamps {history : History (Option (MappingData K)) (MappingData K)}
    {s : Option (MappingData K)} (run : (frames mp sqrt).Run history s) :
    ∀ md, s = some md → ∃ n, n ≤ history.length ∧ EarlyStamps n md := by
  refine run.induct (I := fun history s => ∀ md, s = some md →
    ∃ n, n ≤ history.length ∧ EarlyStamps n md) ?_ ?_
  · intro s initial md same
    rw [initial] at same
    rw [← Option.some.inj same]
    exact ⟨0, le_rfl, rfl, fun buffer _ => .inl (by cases buffer <;> rfl)⟩
  · intro past s frame _ early after same
    rcases frames_step mp same with ⟨md, record, before, done, left⟩
    rcases early md before with ⟨n, bound, stamps⟩
    rw [← left]
    have same_flags := flags_nextFrame md frame
    by_cases empty : (nextFrame md frame).projPoints = []
    · rw [loggedProcess, if_pos empty] at done
      rw [← Option.some.inj done]
      refine ⟨n, bound.trans (Nat.le_succ _), stamps.stamp, ?_⟩
      rw [same_flags]
      exact stamps.flags
    · have frame_flags := flags_frame mp sqrt done empty
      have next : record.data.raycastNum = BitVec.ofNat 8 (n + 1) := by
        rw [frame_flags.1, BitVec.ofNat_add]
        exact congrArg (· + 1) stamps.stamp
      refine ⟨n + 1, Nat.succ_le_succ bound, next, ?_⟩
      intro buffer voxIdx
      rcases frame_flags.2 buffer voxIdx with kept | newest
      · rw [kept, same_flags]
        rcases stamps.flags buffer voxIdx with initial | ⟨k, positive, older, flag⟩
        · exact .inl initial
        · exact .inr ⟨k, positive, older.trans (Nat.le_succ n), flag⟩
      · rw [← frame_flags.1, next] at newest
        exact .inr ⟨n + 1, Nat.succ_pos n, le_rfl, newest⟩

theorem early_frames_fresh {history : History (Option (MappingData K)) (MappingData K)}
    {s : Option (MappingData K)} (run : (frames mp sqrt).Run history s) :
    Throughout (fun t past => past.length < 254 → OnFrame mp sqrt (FrameFresh mp sqrt) t)
      history := by
  refine run.throughout ?_
  intro past s frame so_far short md record before done
  rcases early_stamps mp sqrt so_far md before with ⟨n, bound, stamps⟩
  have unused : StampUnused mp sqrt (nextFrame md frame) := by
    intro _ buffer voxIdx _ _
    rw [flags_nextFrame]
    exact stamps.unused (by omega) buffer voxIdx
  have agrees := agrees_of_unused mp sqrt done unused
  exact ⟨agrees, visited_of_agrees mp sqrt done agrees⟩

theorem flags_loggedCall (pos : Vec3 K) (occ : ℤ) (pass : LoggedPass K) :
    (pass.setCacheOccupancy mp pos occ).2.data.flags = pass.data.flags :=
  (flags_call mp pos occ pass.data).1

theorem rayend_traverse (T : FlagTest K) (cells : List (Vec3 ℤ)) (pass : LoggedPass K) :
    (LoggedPass.traverse mp T cells pass).data.flags .rayend = pass.data.flags .rayend := by
  induction cells generalizing pass with
  | nil => rfl
  | cons rayPt rest ih =>
      have visit : ∀ (voxel : ℤ) (pass : LoggedPass K),
          (pass.visit T .traverse voxel).2.data.flags .rayend = pass.data.flags .rayend := by
        intro voxel pass
        rw [LoggedPass.visit]
        dsimp only
        split_ifs <;> rfl
      rw [LoggedPass.traverse]
      dsimp only
      split_ifs
      · rw [visit, flags_loggedCall]
      · rw [ih, visit, flags_loggedCall]
      · rw [ih, flags_loggedCall]

theorem rayend_castRay (T : FlagTest K) {cameraPos ptW : Vec3 K} {occ : ℤ}
    (valid : occ = 1 ∨ occ = 0) {voxIdx : ℤ}
    (elsewhere : mp.toAddress (mp.posToIndex ptW) ≠ voxIdx) (pass : LoggedPass K) :
    (pass.castRay mp T cameraPos ptW occ).data.flags .rayend voxIdx =
      pass.data.flags .rayend voxIdx := by
  have called : ((pass.setCacheOccupancy mp ptW occ).2.widen ptW).data.flags .rayend voxIdx =
      pass.data.flags .rayend voxIdx :=
    congrFun (congrFun (flags_loggedCall mp ptW occ pass) .rayend) voxIdx
  have visited : ((pass.setCacheOccupancy mp ptW occ).2.widen ptW |>.visit T .rayend
      (mp.toAddress (mp.posToIndex ptW))).2.data.flags .rayend voxIdx =
        pass.data.flags .rayend voxIdx := by
    rw [LoggedPass.visit]
    dsimp only
    split_ifs
    · exact called
    · rw [flags_mark, if_neg fun here => elsewhere here.2.symm]
      exact called
  rw [LoggedPass.castRay]
  dsimp only
  rw [fst_call mp ptW valid]
  split_ifs
  · exact visited
  · rw [rayend_traverse]
    exact visited
  · rw [rayend_traverse]
    exact called

theorem loggedProcess_single (T : FlagTest K) (md : MappingData K) {ptW : Vec3 K}
    (single : md.projPoints = [ptW]) {ray : Vec3 K × ℤ}
    (ends : rayEnd mp sqrt md.cameraPos ptW = some ray) :
    loggedProcess mp sqrt T md = some (((⟨startPass mp md, []⟩ : LoggedPass K).castRay mp T
      md.cameraPos ray.1 ray.2).finish mp md.cameraPos) := by
  rw [loggedProcess, single, if_neg (List.cons_ne_nil _ _), loggedPass, single, List.foldlM_cons,
    LoggedPass.castPoint, ends]
  rfl

end FirstFrames

def onePointFrame (ptW : Vec3 ℚ) : MappingData ℚ :=
  { initMap lowMap.toMappingParameters with
    cameraPos := ⟨0, 0, 2⟩
    projPoints := [ptW] }

theorem other_frame (md : MappingData ℚ) :
    ∃ after, (raycastProcess lowMap.toMappingParameters (fun x => x)
        (nextFrame md (onePointFrame ⟨0, 1, 2⟩))).map Prod.fst = some after ∧
      after.raycastNum = md.raycastNum + 1 ∧
      after.flags .rayend 22 = md.flags .rayend 22 := by
  have ends : rayEnd lowMap.toMappingParameters (fun x => x) ⟨0, 0, 2⟩ ⟨0, 1, 2⟩ =
      some (⟨0, 1, 2⟩, 1) := by
    decide +kernel
  have done := loggedProcess_single lowMap.toMappingParameters (fun x => x) byStamp
    (nextFrame md (onePointFrame ⟨0, 1, 2⟩)) rfl ends
  have stamps := flags_frame lowMap.toMappingParameters (fun x => x) done (List.cons_ne_nil _ _)
  refine ⟨_, by rw [← data_loggedProcess, done]; rfl, stamps.1, ?_⟩
  rw [(flags_finish lowMap.toMappingParameters _ _).1,
    rayend_castRay lowMap.toMappingParameters byStamp (.inl rfl) (by decide +kernel)]
  rfl

theorem after_other_frames (n : ℕ) (md : MappingData ℚ)
    (past : History (Option (MappingData ℚ)) (MappingData ℚ)) :
    ∃ before older, ((frames lowMap.toMappingParameters fun x => x).exec past (some md)
        (List.replicate n (onePointFrame ⟨0, 1, 2⟩) ++ [onePointFrame ⟨0, -1, 2⟩])).1 =
          ⟨some before, onePointFrame ⟨0, -1, 2⟩⟩ :: older ∧
      before.raycastNum = md.raycastNum + BitVec.ofNat 8 n ∧
      before.flags .rayend 22 = md.flags .rayend 22 := by
  induction n generalizing md past with
  | zero => exact ⟨md, past, rfl, (BitVec.add_zero _).symm, rfl⟩
  | succ n ih =>
      rcases other_frame md with ⟨after, done, stamp, flag⟩
      rcases ih after (⟨some md, onePointFrame ⟨0, 1, 2⟩⟩ :: past) with
        ⟨before, older, run, same_stamp, same_flag⟩
      refine ⟨before, older, ?_, ?_, same_flag.trans flag⟩
      · rw [← run, ← done]
        rfl
      · rw [same_stamp, stamp, BitVec.add_assoc, Nat.add_comm n 1, BitVec.ofNat_add]
        rfl

/-- The 255th frame takes a voxel that no ray ever reached for the end of one of its rays. -/
theorem unseen_voxel_skipped :
    ¬∀ inputs, Throughout (fun t _ => OnFrame lowMap.toMappingParameters (fun x => x)
        (FrameFresh lowMap.toMappingParameters fun x => x) t)
      ((frames lowMap.toMappingParameters fun x => x).exec []
        (some (initMap lowMap.toMappingParameters)) inputs).1 := by
  intro every
  rcases after_other_frames 254 (initMap lowMap.toMappingParameters) [] with
    ⟨before, older, run, stamp, flag⟩
  have fresh := every (List.replicate 254 (onePointFrame ⟨0, 1, 2⟩) ++ [onePointFrame ⟨0, -1, 2⟩])
  rw [run] at fresh
  have ends : rayEnd lowMap.toMappingParameters (fun x => x) ⟨0, 0, 2⟩ ⟨0, -1, 2⟩ =
      some (⟨0, -1, 2⟩, 1) := by
    decide +kernel
  have done := loggedProcess_single lowMap.toMappingParameters (fun x => x) byStamp
    (nextFrame before (onePointFrame ⟨0, -1, 2⟩)) rfl ends
  have agrees := (fresh.1 before _ rfl done).1
  have stamped : byStamp (⟨startPass lowMap.toMappingParameters
      (nextFrame before (onePointFrame ⟨0, -1, 2⟩)), []⟩ : LoggedPass ℚ) .rayend
        (lowMap.toAddress (lowMap.posToIndex ⟨0, -1, 2⟩)) = true := by
    have address : lowMap.toAddress (lowMap.posToIndex ⟨0, -1, 2⟩) = 22 := by decide +kernel
    rw [address]
    apply decide_eq_true
    change before.flags .rayend 22 = before.raycastNum + 1
    rw [flag, stamp]
    rfl
  have skipped : LoggedPass.castRay lowMap.toMappingParameters byStamp ⟨0, 0, 2⟩ ⟨0, -1, 2⟩ 1 _ =
      _ :=
    castRay_stamped lowMap.toMappingParameters (.inl rfl) (by decide +kernel) stamped
  change Agrees (LoggedPass.castRay lowMap.toMappingParameters byStamp ⟨0, 0, 2⟩ ⟨0, -1, 2⟩ 1
    ⟨startPass lowMap.toMappingParameters
      (nextFrame before (onePointFrame ⟨0, -1, 2⟩)), []⟩).log at agrees
  rw [skipped] at agrees
  have marked := agrees.1.mp rfl
  simp [Marked] at marked

end RobocupDrone.Mapping
