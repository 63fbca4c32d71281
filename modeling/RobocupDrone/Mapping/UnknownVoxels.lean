import Mathlib.Tactic.Linarith
import RobocupDrone.Mapping.VoteCounts

/-! The log-odds of the map over its runs: a voxel is unknown while nothing was observed of it. -/

namespace RobocupDrone.Mapping

open Geometry Reactive

variable {K : Type} [Field K]

/-- What `initMap` and `clearAndInflateLocalMap` write for a voxel that was not observed. -/
def unknownLog (mp : MappingParameters K) : K := mp.clampMinLog - unknownFlag

def initInflatedMap (mp : InflationParameters K) : InflatedMap K where
  toMappingData := initMap mp.toMappingParameters
  occupancyBufferInflate := fun _ => 0
  hasCloud := false

/-- A write to `occupancy_buffer_`: from the cache, or by the clearing outside the local range. -/
inductive MapWrite
  | update (address : ℤ)
  | clear (address : ℤ)
deriving DecidableEq

/-- A call of `raycastProcess` or of `clearAndInflateLocalMap`. The other callbacks have left
`written`. -/
inductive MapCall (K : Type)
  | raycast (written : InflatedMap K)
  | inflate (written : InflatedMap K)

/-- The other callbacks may write everything but `occupancy_buffer_` and the members that only
`raycastProcess` uses. -/
def nextCall (md written : InflatedMap K) : InflatedMap K :=
  { written with
    toMappingData := { nextFrame md.toMappingData written.toMappingData with
      occupancyBuffer := md.occupancyBuffer } }

def Observed (trace : List MapWrite) (address : ℤ) : Prop :=
  SetSince (· = .update address) (· = .clear address) trace

section Runs

variable (mp : InflationParameters K) [LinearOrder K]
variable (sqrt : K → K)

section

variable [FloorRing K]

def isUnknown (md : MappingData K) (id : Vec3 ℤ) : Prop :=
  md.occupancyBuffer (mp.toAddress (mp.boundIndex id)) < mp.clampMinLog - 1e-3

instance (md : MappingData K) (id : Vec3 ℤ) : Decidable (isUnknown mp md id) :=
  inferInstanceAs (Decidable (_ < _))

/-- The writes of a frame to `occupancy_buffer_`. -/
def frameWrites (record : FrameRecord K) : List MapWrite :=
  record.updates.reverse.map fun made => .update (mp.toAddress made.1)

def raycastWrites (md : MappingData K) : List MapWrite :=
  ((loggedProcess mp.toMappingParameters sqrt byStamp md).map (frameWrites mp)).getD []

def clearWrites (md : MappingData K) : List MapWrite :=
  (clearedVoxels mp md).map fun voxel => .clear (mp.toAddress voxel)

def MapCall.run (md : InflatedMap K) : MapCall K → Option (InflatedMap K) × List MapWrite
  | .raycast written =>
      let md := nextCall md written
      ((raycastProcess mp.toMappingParameters sqrt md.toMappingData).map fun done =>
        { md with toMappingData := done.1 }, raycastWrites mp sqrt md.toMappingData)
  | .inflate written =>
      let md := nextCall md written
      (clearAndInflateLocalMap mp md, clearWrites mp md.toMappingData)

/-- The calls on the map, from `initMap` on, with their writes. A call without a result stops it. -/
def mapCalls : Machine (Option (InflatedMap K)) (MapCall K) MapWrite where
  start s := s = some (initInflatedMap mp)
  step s call := (s.map fun md => call.run mp sqrt md).getD (none, [])

/-- An entry of `occupancy_buffer_` for an address that was observed, or not. -/
def EntryFits (observed : Prop) (value : K) : Prop :=
  observed ∧ mp.clampMinLog ≤ value ∧ value ≤ mp.clampMaxLog ∨
    ¬observed ∧ value = unknownLog mp.toMappingParameters

structure TellsObserved (trace : List MapWrite) (md : MappingData K) : Prop where
  entries : ∀ address, md.occupancyBuffer address = unknownLog mp.toMappingParameters ∨
    mp.clampMinLog ≤ md.occupancyBuffer address ∧ md.occupancyBuffer address ≤ mp.clampMaxLog
  unknown_iff : ∀ address, md.occupancyBuffer address = unknownLog mp.toMappingParameters ↔
    ¬Observed trace address
  isUnknown_iff : ∀ id, isUnknown mp md id ↔ ¬Observed trace (mp.toAddress (mp.boundIndex id))

end

variable {mp}

theorem EntryFits.congr {observed observed' : Prop} (same : observed ↔ observed') {value : K}
    (fits : EntryFits mp observed value) : EntryFits mp observed' value :=
  (propext same : observed = observed') ▸ fits

variable [FloorRing K]

theorem unknownLog_lt [IsStrictOrderedRing K] :
    unknownLog mp.toMappingParameters < mp.clampMinLog - 1e-3 := by
  have flag : (1e-3 : K) < unknownFlag := by
    unfold unknownFlag
    norm_num
  unfold unknownLog
  linarith

theorem EntryFits.cases [IsStrictOrderedRing K] {observed : Prop} {value : K}
    (fits : EntryFits mp observed value) :
    (value = unknownLog mp.toMappingParameters ∨
        mp.clampMinLog ≤ value ∧ value ≤ mp.clampMaxLog) ∧
      (value = unknownLog mp.toMappingParameters ↔ ¬observed) ∧
      (value < mp.clampMinLog - 1e-3 ↔ ¬observed) := by
  have below : unknownLog mp.toMappingParameters < mp.clampMinLog - 1e-3 := unknownLog_lt
  have small : (0 : K) < 1e-3 := by norm_num
  rcases fits with ⟨seen, low, high⟩ | ⟨unseen, unknown⟩
  · refine ⟨.inr ⟨low, high⟩, iff_of_false ?_ (not_not_intro seen),
      iff_of_false ?_ (not_not_intro seen)⟩
    · intro same
      linarith
    · exact not_lt.mpr (by linarith)
  · rw [unknown]
    exact ⟨.inl rfl, iff_of_true rfl unseen, iff_of_true below unseen⟩

theorem votedOccupancy_range [IsStrictOrderedRing K] (clamps : mp.clampMinLog ≤ mp.clampMaxLog)
    (minId maxId idx : Vec3 ℤ) (hit : Bool) {observed : Prop} {value : K}
    (fits : EntryFits mp observed value) :
    mp.clampMinLog ≤ votedOccupancy mp.toMappingParameters minId maxId idx hit value ∧
      votedOccupancy mp.toMappingParameters minId maxId idx hit value ≤ mp.clampMaxLog := by
  have below : unknownLog mp.toMappingParameters < mp.clampMinLog - 1e-3 := unknownLog_lt
  have small : (0 : K) < 1e-3 := by norm_num
  unfold votedOccupancy
  dsimp only
  generalize (if hit = true then mp.probHitLog else mp.probMissLog) = logOddsUpdate
  by_cases full : logOddsUpdate ≥ 0 ∧ value ≥ mp.clampMaxLog
  · rw [if_pos full]
    rcases fits with ⟨_, range⟩ | ⟨_, unknown⟩
    · exact range
    · have high := full.2
      rw [unknown] at high
      exfalso
      linarith
  · rw [if_neg full]
    split_ifs
    · exact ⟨le_rfl, clamps⟩
    · exact ⟨le_min (le_max_right _ _) clamps, min_le_right _ _⟩
    · exact ⟨le_min (le_max_right _ _) clamps, min_le_right _ _⟩

theorem voxelUpdates_fit [IsStrictOrderedRing K] (clamps : mp.clampMinLog ≤ mp.clampMaxLog)
    (minId maxId : Vec3 ℤ) (entries : List (Vec3 ℤ)) {observed : Prop} (voxel : VoxelState K)
    (fits : EntryFits mp observed voxel.value) :
    EntryFits mp (entries ≠ [] ∨ observed) (entries.foldl
      (VoxelState.update mp.toMappingParameters minId maxId) voxel).value := by
  induction entries generalizing voxel observed with
  | nil => exact fits.congr (by simp)
  | cons idx rest ih =>
      have voted : EntryFits mp True
          (voxel.update mp.toMappingParameters minId maxId idx).value :=
        .inl ⟨trivial, votedOccupancy_range clamps minId maxId idx _ fits⟩
      exact (ih _ voted).congr (by simp)

theorem mem_frameWrites {record : FrameRecord K} {write : MapWrite} :
    write ∈ frameWrites mp record ↔
      ∃ made ∈ record.updates, write = .update (mp.toAddress made.1) := by
  simp only [frameWrites, List.mem_map, List.mem_reverse, eq_comm]

theorem update_written_iff {record : FrameRecord K} {address : ℤ} :
    .update address ∈ frameWrites mp record ↔
      updatesOn mp.toMappingParameters record.updates address ≠ [] := by
  rw [mem_frameWrites, updatesOn, Ne, List.filter_eq_nil_iff]
  push Not
  simp only [MapWrite.update.injEq, decide_eq_true_eq]
  constructor
  · rintro ⟨made, member, here⟩
    exact ⟨made, member, here.symm⟩
  · rintro ⟨made, member, here⟩
    exact ⟨made, member, here.symm⟩

theorem frame_fits [IsStrictOrderedRing K] (clamps : mp.clampMinLog ≤ mp.clampMaxLog)
    {sqrt : K → K} {md : MappingData K} {record : FrameRecord K}
    (done : loggedProcess mp.toMappingParameters sqrt byStamp md = some record) {address : ℤ}
    {observed : Prop} (fits : EntryFits mp observed (md.occupancyBuffer address)) :
    EntryFits mp (.update address ∈ frameWrites mp record ∨ observed)
      (record.data.occupancyBuffer address) := by
  rw [loggedProcess] at done
  split_ifs at done
  · rw [← Option.some.inj done]
    exact fits.congr (by simp [frameWrites])
  · rcases Option.map_eq_some_iff.mp done with ⟨pass, points, finished⟩
    have unchanged : pass.data.occupancyBuffer = md.occupancyBuffer :=
      (occupancy_kept mp.toMappingParameters byStamp md.occupancyBuffer).points rfl points
    have state := voxelState_finish mp.toMappingParameters md.cameraPos pass address
    rw [finished, unchanged] at state
    have value := congrArg VoxelState.value state
    have number := congrArg (fun voxel => voxel.updates.length) state
    dsimp only [voxelState] at value number
    rw [updates_foldl, List.length_nil, add_zero] at number
    rw [value]
    refine (voxelUpdates_fit clamps _ _ _ _ fits).congr (or_congr_left ?_)
    rw [update_written_iff, ← List.length_pos_iff, ← List.length_pos_iff, number]

theorem clear_fits {md after : InflatedMap K}
    (done : clearAndInflateLocalMap mp md = some after) {address : ℤ} {observed : Prop}
    (fits : EntryFits mp observed (md.occupancyBuffer address)) :
    EntryFits mp (observed ∧ .clear address ∉ clearWrites mp md.toMappingData)
      (after.occupancyBuffer address) := by
  have written : .clear address ∈ clearWrites mp md.toMappingData ↔
      address ∈ (clearedVoxels mp md.toMappingData).map mp.toAddress := by
    simp [clearWrites]
  rw [clearAndInflate_occupancy mp done, clearedBuffer, fill_apply, written]
  split_ifs with cleared
  · exact .inr ⟨fun both => both.2 cleared, rfl⟩
  · exact fits.congr (and_iff_left cleared).symm

theorem call_fits [IsStrictOrderedRing K] (clamps : mp.clampMinLog ≤ mp.clampMaxLog)
    {sqrt : K → K} {md after : InflatedMap K} {call : MapCall K} {trace : List MapWrite}
    (fits : ∀ address, EntryFits mp (Observed trace address) (md.occupancyBuffer address))
    (done : (call.run mp sqrt md).1 = some after) (address : ℤ) :
    EntryFits mp (Observed (trace ++ (call.run mp sqrt md).2) address)
      (after.occupancyBuffer address) := by
  cases call with
  | raycast written =>
      rcases Option.map_eq_some_iff.mp done with ⟨raycast, process, rfl⟩
      have data :=
        data_loggedProcess mp.toMappingParameters sqrt (nextCall md written).toMappingData
      rw [process, Option.map_some, Option.map_eq_some_iff] at data
      rcases data with ⟨record, logged, same⟩
      have writes : (MapCall.run mp sqrt md (.raycast written)).2 = frameWrites mp record := by
        change raycastWrites mp sqrt (nextCall md written).toMappingData = _
        rw [raycastWrites, logged]
        rfl
      have framed := frame_fits clamps logged (fits address)
      rw [same] at framed
      rw [writes]
      refine framed.congr ?_
      rw [Observed, Observed, setSince_append_of_sets]
      · simp
      · intro made member
        rcases mem_frameWrites.mp member with ⟨_, _, rfl⟩
        exact MapWrite.noConfusion
  | inflate written =>
      refine (clear_fits done (fits address)).congr ?_
      rw [Observed, Observed, setSince_append_of_resets]
      · exact and_congr_right' List.forall_mem_ne'.symm
      · intro made member
        rcases List.mem_map.mp member with ⟨_, _, rfl⟩
        exact MapWrite.noConfusion

theorem run_fits [IsStrictOrderedRing K] (clamps : mp.clampMinLog ≤ mp.clampMaxLog)
    {sqrt : K → K} {history : History (Option (InflatedMap K)) (MapCall K)}
    {s : Option (InflatedMap K)} (run : (mapCalls mp sqrt).Run history s) :
    ∀ md, s = some md → ∀ address,
      EntryFits mp (Observed ((mapCalls mp sqrt).trace history) address)
        (md.occupancyBuffer address) := by
  refine run.induct (I := fun history s => ∀ md, s = some md → ∀ address,
    EntryFits mp (Observed ((mapCalls mp sqrt).trace history) address)
      (md.occupancyBuffer address)) ?_ ?_
  · intro s initial md same address
    rw [initial] at same
    rw [← Option.some.inj same]
    exact .inr ⟨not_setSince_nil, rfl⟩
  · intro past s call _ fits after done
    cases s with
    | none => exact absurd done (by simp [mapCalls])
    | some md => exact call_fits clamps (fits md rfl) done

/-- A voxel is unknown until it is updated from the cache, and again once it is cleared. -/
theorem run_tells_observed [IsStrictOrderedRing K] (clamps : mp.clampMinLog ≤ mp.clampMaxLog)
    {sqrt : K → K} {history : History (Option (InflatedMap K)) (MapCall K)} {md : InflatedMap K}
    (run : (mapCalls mp sqrt).Run history (some md)) :
    TellsObserved mp ((mapCalls mp sqrt).trace history) md.toMappingData := by
  have fits := run_fits clamps run md rfl
  constructor
  · exact fun address => (fits address).cases.1
  · exact fun address => (fits address).cases.2.1
  · exact fun id => (fits (mp.toAddress (mp.boundIndex id))).cases.2.2

end Runs

def onePointCalls : List (MapCall ℚ) :=
  [.raycast { initInflatedMap lowMap with cameraPos := ⟨0, 0, 2⟩, projPoints := [⟨0, 1, 2⟩] },
    .inflate (initInflatedMap lowMap)]

theorem one_point_tells_observed : ∃ md,
    ((mapCalls lowMap fun x => x).exec [] (some (initInflatedMap lowMap)) onePointCalls).2 =
        some md ∧
      TellsObserved lowMap ((mapCalls lowMap fun x => x).trace
        ((mapCalls lowMap fun x => x).exec [] (some (initInflatedMap lowMap)) onePointCalls).1)
        md.toMappingData := by
  have start : (mapCalls lowMap fun x => x).Run [] (some (initInflatedMap lowMap)) := .start rfl
  have run := start.exec onePointCalls
  have left : ((mapCalls lowMap fun x => x).exec [] (some (initInflatedMap lowMap))
      onePointCalls).2.isSome = true := by
    decide +kernel
  rcases Option.isSome_iff_exists.mp left with ⟨md, same⟩
  rw [same] at run
  exact ⟨md, same, run_tells_observed (by decide +kernel) run⟩

example : ((mapCalls lowMap fun x => x).exec [] (some (initInflatedMap lowMap))
    onePointCalls).2.map (fun md => (decide (isUnknown lowMap md.toMappingData ⟨1, 3, 2⟩),
      decide (isUnknown lowMap md.toMappingData ⟨0, 0, 0⟩))) = some (false, true) := by
  decide +kernel

end RobocupDrone.Mapping
