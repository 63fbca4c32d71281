import RobocupDrone.Library.Counter
import RobocupDrone.Mapping.FrameLog
import RobocupDrone.Mapping.Inflation

/-! The vote on a voxel: the 16 bit counters of its calls, and the update from the cache. -/

namespace RobocupDrone.Mapping

open Geometry Reactive Counter

variable {K : Type}

/-- One when a ray of the frame went through the voxel at the address. -/
def crossed (pass : LoggedPass K) (voxIdx : ℤ) : ℕ :=
  if pass.data.flagTraverse voxIdx = pass.data.raycastNum then 1 else 0

theorem crossed_visit (voxel : ℤ) (pass : LoggedPass K) (voxIdx : ℤ) :
    crossed (pass.visit byStamp .traverse voxel).2 voxIdx =
      if voxIdx = voxel then 1 else crossed pass voxIdx := by
  rw [LoggedPass.visit]
  dsimp only [byStamp, MappingData.flags]
  by_cases here : voxIdx = voxel
  · rw [if_pos here, here]
    by_cases found : pass.data.flagTraverse voxel = pass.data.raycastNum
    · simp [crossed, found]
    · simp [crossed, found, MappingData.mark]
  · rw [if_neg here]
    by_cases found : pass.data.flagTraverse voxel = pass.data.raycastNum
    · simp [crossed, found]
    · simp [crossed, found, MappingData.mark, here]

theorem crossed_of_visit {voxel : ℤ} {pass : LoggedPass K}
    (first : ¬(pass.visit byStamp .traverse voxel).1 = true) : crossed pass voxel = 0 := by
  have fresh : ¬pass.data.flagTraverse voxel = pass.data.raycastNum := by
    intro found
    exact first (decide_eq_true found)
  rw [crossed, if_neg fresh]

section Votes

variable [Field K] [LinearOrder K] (mp : MappingParameters K)

def votedOccupancy (minId maxId idx : Vec3 ℤ) (hit : Bool) (value : K) : K :=
  let logOddsUpdate := if hit then mp.probHitLog else mp.probMissLog
  if logOddsUpdate ≥ 0 ∧ value ≥ mp.clampMaxLog then value
  else if logOddsUpdate ≤ 0 ∧ value ≤ mp.clampMinLog then mp.clampMinLog
  else
    let inLocal := ∀ axis, minId.get axis ≤ idx.get axis ∧ idx.get axis ≤ maxId.get axis
    min (max ((if inLocal then value else mp.clampMinLog) + logOddsUpdate) mp.clampMinLog)
      mp.clampMaxLog

/-- What the loop keeps for one voxel. -/
@[ext]
structure VoxelState (K : Type) where
  hit : BitVec 16
  both : BitVec 16
  value : K
  updates : List (Vec3 ℤ × Bool)

def VoxelState.update (minId maxId : Vec3 ℤ) (voxel : VoxelState K) (idx : Vec3 ℤ) :
    VoxelState K :=
  let vote := decide (voxel.hit.toInt ≥ voxel.both.toInt - voxel.hit.toInt)
  ⟨0, 0, votedOccupancy mp minId maxId idx vote voxel.value, (idx, vote) :: voxel.updates⟩

theorem updates_foldl (minId maxId : Vec3 ℤ) (entries : List (Vec3 ℤ)) (voxel : VoxelState K) :
    ((entries.foldl (VoxelState.update mp minId maxId) voxel).updates).length =
      entries.length + voxel.updates.length := by
  induction entries generalizing voxel with
  | nil => simp
  | cons idx rest ih =>
      rw [List.foldl_cons, ih]
      simp only [VoxelState.update, List.length_cons]
      omega

theorem counters_foldl (minId maxId : Vec3 ℤ) (entries : List (Vec3 ℤ)) (voxel : VoxelState K)
    (zero : entries = [] → voxel.hit = 0 ∧ voxel.both = 0) :
    (entries.foldl (VoxelState.update mp minId maxId) voxel).hit = 0 ∧
      (entries.foldl (VoxelState.update mp minId maxId) voxel).both = 0 := by
  induction entries generalizing voxel with
  | nil => exact zero rfl
  | cons idx rest ih => exact ih _ fun _ => ⟨rfl, rfl⟩

end Votes

variable [Field K] [LinearOrder K] [FloorRing K] (mp : MappingParameters K)

/-- A call of `setCacheOccupancy` with `occ` for the voxel at the address. -/
def RayEvent.callOn (occ voxIdx : ℤ) : RayEvent → Bool
  | .call id value => decide (mp.toAddress id = voxIdx ∧ value = occ)
  | .test _ _ _ => false

def callsWith (log : List RayEvent) (occ voxIdx : ℤ) : ℕ :=
  log.countP (RayEvent.callOn mp occ voxIdx)

def hits (log : List RayEvent) (voxIdx : ℤ) : ℕ := callsWith mp log 1 voxIdx

def misses (log : List RayEvent) (voxIdx : ℤ) : ℕ := callsWith mp log 0 voxIdx

def calls (log : List RayEvent) (voxIdx : ℤ) : ℕ := hits mp log voxIdx + misses mp log voxIdx

theorem callsWith_call (id : Vec3 ℤ) (value : ℤ) (log : List RayEvent) (occ voxIdx : ℤ) :
    callsWith mp (.call id value :: log) occ voxIdx =
      callsWith mp log occ voxIdx + if mp.toAddress id = voxIdx ∧ value = occ then 1 else 0 := by
  rw [callsWith, List.countP_cons]
  simp only [RayEvent.callOn, decide_eq_true_eq]
  rfl

theorem callsWith_test (buffer : FlagBuffer) (voxel : ℤ) (found : Bool) (log : List RayEvent)
    (occ voxIdx : ℤ) :
    callsWith mp (.test buffer voxel found :: log) occ voxIdx = callsWith mp log occ voxIdx :=
  List.countP_cons_of_neg (by simp [RayEvent.callOn])

/-- When the calls stay in the map, those for the address of a voxel are those for the voxel. -/
theorem callsWith_voxel {log : List RayEvent}
    (in_map : ∀ id occ, .call id occ ∈ log → mp.isInMapIndex id) {voxel : Vec3 ℤ}
    (inside : mp.isInMapIndex voxel) (occ : ℤ) :
    callsWith mp log occ (mp.toAddress voxel) = log.count (.call voxel occ) := by
  apply List.countP_congr
  intro event member
  cases event with
  | call id value =>
      simp only [RayEvent.callOn, decide_eq_true_eq, beq_iff_eq, RayEvent.call.injEq]
      have own := (mp.ownAddress inside).2 id (in_map id value member)
      constructor
      · rintro ⟨same, with_occ⟩
        exact ⟨own same, with_occ⟩
      · rintro ⟨same, with_occ⟩
        exact ⟨by rw [same], with_occ⟩
  | test buffer voxIdx found => simp [RayEvent.callOn]

/-- The counters are zero and the cache is empty. -/
structure Clean (md : MappingData K) : Prop where
  hit : ∀ voxIdx, md.countHit voxIdx = 0
  both : ∀ voxIdx, md.countHitAndMiss voxIdx = 0
  cache : md.cacheVoxel = []

def entriesOn (entries : List (Vec3 ℤ)) (voxIdx : ℤ) : List (Vec3 ℤ) :=
  entries.filter fun idx => mp.toAddress idx = voxIdx

/-- The counters hold the numbers of calls, as far as their bits go, and the cache has an entry
for each time that `count_hit_and_miss_` came to one. -/
structure Tallied (pass : LoggedPass K) : Prop where
  hit : ∀ voxIdx, pass.data.countHit voxIdx = BitVec.ofNat 16 (hits mp pass.log voxIdx)
  both : ∀ voxIdx, pass.data.countHitAndMiss voxIdx = BitVec.ofNat 16 (calls mp pass.log voxIdx)
  queued : ∀ voxIdx, (entriesOn mp pass.data.cacheVoxel voxIdx).length =
    turns 16 (calls mp pass.log voxIdx)

theorem setCacheOccupancy_counts (pos : Vec3 K) {occ : ℤ} (valid : occ = 1 ∨ occ = 0)
    (md : MappingData K) :
    let idxCtns := mp.toAddress (mp.posToIndex pos)
    let after := (setCacheOccupancy mp pos occ md).2
    after.countHitAndMiss =
        Function.update md.countHitAndMiss idxCtns (md.countHitAndMiss idxCtns + 1) ∧
      after.countHit = (if occ = 1 then
        Function.update md.countHit idxCtns (md.countHit idxCtns + 1) else md.countHit) ∧
      after.cacheVoxel = md.cacheVoxel ++
        if md.countHitAndMiss idxCtns + 1 = 1 then [mp.posToIndex pos] else [] := by
  by_cases first : md.countHitAndMiss (mp.toAddress (mp.posToIndex pos)) = 0#16
  · rcases valid with rfl | rfl
    · simp [setCacheOccupancy, first]
    · simp [setCacheOccupancy, first]
  · rcases valid with rfl | rfl
    · simp [setCacheOccupancy, first]
    · simp [setCacheOccupancy, first]

theorem setCacheOccupancy_invalid (pos : Vec3 K) {occ : ℤ} (invalid : ¬(occ = 1 ∨ occ = 0))
    (md : MappingData K) : (setCacheOccupancy mp pos occ md).2 = md := by
  rw [setCacheOccupancy, if_pos (by omega)]

theorem calls_call (id : Vec3 ℤ) {occ : ℤ} (valid : occ = 1 ∨ occ = 0) (log : List RayEvent)
    (voxIdx : ℤ) :
    calls mp (.call id occ :: log) voxIdx =
      calls mp log voxIdx + if mp.toAddress id = voxIdx then 1 else 0 := by
  rw [calls, hits, misses, callsWith_call, callsWith_call, calls, hits, misses]
  rcases valid with rfl | rfl
  · by_cases here : mp.toAddress id = voxIdx
    · simp [here]
      omega
    · simp [here]
  · by_cases here : mp.toAddress id = voxIdx
    · simp [here]
      omega
    · simp [here]

theorem Tallied.of_unchanged {mp : MappingParameters K} {pass next : LoggedPass K}
    (tallied : Tallied mp pass) (hit : next.data.countHit = pass.data.countHit)
    (both : next.data.countHitAndMiss = pass.data.countHitAndMiss)
    (cache : next.data.cacheVoxel = pass.data.cacheVoxel)
    (same : ∀ wanted voxIdx, (wanted = 1 ∨ wanted = 0) →
      callsWith mp next.log wanted voxIdx = callsWith mp pass.log wanted voxIdx) :
    Tallied mp next := by
  have same_hits : ∀ voxIdx, hits mp next.log voxIdx = hits mp pass.log voxIdx :=
    fun voxIdx => same 1 voxIdx (.inl rfl)
  have same_calls : ∀ voxIdx, calls mp next.log voxIdx = calls mp pass.log voxIdx := by
    intro voxIdx
    rw [calls, calls, misses, misses, same_hits, same 0 voxIdx (.inr rfl)]
  constructor
  · intro voxIdx
    rw [hit, same_hits, tallied.hit]
  · intro voxIdx
    rw [both, same_calls, tallied.both]
  · intro voxIdx
    rw [cache, same_calls, tallied.queued]

theorem queued_call {pass : LoggedPass K} (tallied : Tallied mp pass) (id : Vec3 ℤ) (voxIdx : ℤ) :
    (entriesOn mp (pass.data.cacheVoxel ++
      if pass.data.countHitAndMiss (mp.toAddress id) + 1 = 1 then [id] else []) voxIdx).length =
      turns 16 (calls mp pass.log voxIdx + if mp.toAddress id = voxIdx then 1 else 0) := by
  have earlier := tallied.queued voxIdx
  rw [entriesOn] at earlier
  rw [entriesOn, List.filter_append, List.length_append, earlier]
  by_cases here : mp.toAddress id = voxIdx
  · have next : pass.data.countHitAndMiss voxIdx + 1 =
        BitVec.ofNat 16 (calls mp pass.log voxIdx + 1) := by
      rw [tallied.both, BitVec.ofNat_add]
      rfl
    rw [if_pos here, here, turns_succ, next]
    by_cases comes_round : BitVec.ofNat 16 (calls mp pass.log voxIdx + 1) = 1
    · rw [if_pos comes_round, if_pos comes_round]
      simp [here]
    · rw [if_neg comes_round, if_neg comes_round]
      rfl
  · rw [if_neg here]
    split_ifs
    · simp [here]
    · simp

theorem tallied_call (pass : LoggedPass K) (pos : Vec3 K) (occ : ℤ) (tallied : Tallied mp pass) :
    Tallied mp (pass.setCacheOccupancy mp pos occ).2 := by
  have data : (pass.setCacheOccupancy mp pos occ).2.data =
      (setCacheOccupancy mp pos occ pass.data).2 := rfl
  have log : (pass.setCacheOccupancy mp pos occ).2.log =
      .call (mp.posToIndex pos) occ :: pass.log := rfl
  by_cases valid : occ = 1 ∨ occ = 0
  · rcases setCacheOccupancy_counts mp pos valid pass.data with ⟨both, hit, cache⟩
    constructor
    · intro voxIdx
      rw [data, log, hit, hits, callsWith_call]
      by_cases with_hit : occ = 1
      · simp only [with_hit, if_true, and_true]
        exact update_succ tallied.hit _ voxIdx
      · rw [if_neg with_hit, if_neg fun both => with_hit both.2, tallied.hit]
        rfl
    · intro voxIdx
      rw [data, log, both, calls_call mp _ valid]
      exact update_succ tallied.both _ voxIdx
    · intro voxIdx
      rw [data, log, cache, calls_call mp _ valid]
      exact queued_call mp tallied _ voxIdx
  · have unchanged := setCacheOccupancy_invalid mp pos valid pass.data
    rw [← data] at unchanged
    refine tallied.of_unchanged (by rw [unchanged]) (by rw [unchanged]) (by rw [unchanged]) ?_
    intro wanted voxIdx known
    rw [log, callsWith_call, if_neg, add_zero]
    rintro ⟨_, as_wanted⟩
    exact valid (as_wanted ▸ known)

theorem tallied_visit (test : FlagTest K) (pass : LoggedPass K) (buffer : FlagBuffer) (voxIdx : ℤ)
    (tallied : Tallied mp pass) : Tallied mp (pass.visit test buffer voxIdx).2 := by
  have log : (pass.visit test buffer voxIdx).2.log =
      .test buffer voxIdx (test pass buffer voxIdx) :: pass.log := rfl
  have data : (pass.visit test buffer voxIdx).2.data =
      if test pass buffer voxIdx then pass.data else pass.data.mark voxIdx buffer := rfl
  have counters : (pass.visit test buffer voxIdx).2.data.countHit = pass.data.countHit ∧
      (pass.visit test buffer voxIdx).2.data.countHitAndMiss = pass.data.countHitAndMiss ∧
      (pass.visit test buffer voxIdx).2.data.cacheVoxel = pass.data.cacheVoxel := by
    rw [data]
    split_ifs
    · exact ⟨rfl, rfl, rfl⟩
    · cases buffer <;> exact ⟨rfl, rfl, rfl⟩
  refine tallied.of_unchanged counters.1 counters.2.1 counters.2.2 ?_
  intro wanted voxel _
  rw [log, callsWith_test]

theorem tallied_kept (test : FlagTest K) : Kept mp test (Tallied mp) where
  call := tallied_call mp
  visit := tallied_visit mp test
  widen := fun _ _ tallied => ⟨tallied.hit, tallied.both, tallied.queued⟩

theorem tallied_start {md : MappingData K} (clean : Clean md) :
    Tallied mp ⟨startPass mp md, []⟩ := by
  constructor
  · intro voxIdx
    exact clean.hit voxIdx
  · intro voxIdx
    exact clean.both voxIdx
  · intro voxIdx
    have empty : (startPass mp md).data.cacheVoxel = [] := clean.cache
    change (entriesOn mp (startPass mp md).data.cacheVoxel voxIdx).length = turns 16 0
    rw [empty, turns_zero]
    rfl

def updatesOn (updates : List (Vec3 ℤ × Bool)) (voxIdx : ℤ) : List (Vec3 ℤ × Bool) :=
  updates.filter fun made => mp.toAddress made.1 = voxIdx

def voxelState (made : MappingData K × List (Vec3 ℤ × Bool)) (voxIdx : ℤ) : VoxelState K :=
  ⟨made.1.countHit voxIdx, made.1.countHitAndMiss voxIdx, made.1.occupancyBuffer voxIdx,
    updatesOn mp made.2 voxIdx⟩

theorem updateVoxel_buffers (minId maxId : Vec3 ℤ) (md : MappingData K) (idx : Vec3 ℤ) :
    let idxCtns := mp.toAddress idx
    let after := updateVoxel mp minId maxId md idx
    after.countHit = Function.update md.countHit idxCtns 0 ∧
      after.countHitAndMiss = Function.update md.countHitAndMiss idxCtns 0 ∧
      after.cacheVoxel = md.cacheVoxel ∧
      after.occupancyBuffer = Function.update md.occupancyBuffer idxCtns
        (votedOccupancy mp minId maxId idx (majority mp md idx)
          (md.occupancyBuffer idxCtns)) := by
  unfold updateVoxel votedOccupancy majority
  simp only [decide_eq_true_eq]
  generalize (if (md.countHit (mp.toAddress idx)).toInt ≥
    (md.countHitAndMiss (mp.toAddress idx)).toInt - (md.countHit (mp.toAddress idx)).toInt then
      mp.probHitLog else mp.probMissLog) = logOddsUpdate
  by_cases high : logOddsUpdate ≥ 0 ∧ md.occupancyBuffer (mp.toAddress idx) ≥ mp.clampMaxLog
  · rw [if_pos high, if_pos high]
    exact ⟨rfl, rfl, rfl, (Function.update_eq_self _ _).symm⟩
  · rw [if_neg high, if_neg high]
    by_cases low : logOddsUpdate ≤ 0 ∧ md.occupancyBuffer (mp.toAddress idx) ≤ mp.clampMinLog
    · rw [if_pos low, if_pos low]
      exact ⟨rfl, rfl, rfl, rfl⟩
    · rw [if_neg low, if_neg low]
      by_cases inLocal : ∀ axis, minId.get axis ≤ idx.get axis ∧ idx.get axis ≤ maxId.get axis
      · rw [if_pos inLocal, if_pos inLocal]
        exact ⟨rfl, rfl, rfl, rfl⟩
      · rw [if_neg inLocal, if_neg inLocal]
        refine ⟨rfl, rfl, rfl, ?_⟩
        dsimp only
        rw [Function.update_self, Function.update_idem]

theorem voxelState_updateLogged (minId maxId : Vec3 ℤ)
    (made : MappingData K × List (Vec3 ℤ × Bool)) (idx : Vec3 ℤ) (voxIdx : ℤ) :
    voxelState mp (updateLogged mp minId maxId made idx) voxIdx =
      if mp.toAddress idx = voxIdx then (voxelState mp made voxIdx).update mp minId maxId idx
      else voxelState mp made voxIdx := by
  rcases updateVoxel_buffers mp minId maxId made.1 idx with ⟨hit, both, _, value⟩
  by_cases here : mp.toAddress idx = voxIdx
  · rw [if_pos here, voxelState, updateLogged, hit, both, value, here]
    simp [VoxelState.update, voxelState, updatesOn, majority, here]
  · have there : voxIdx ≠ mp.toAddress idx := Ne.symm here
    rw [if_neg here, voxelState, updateLogged, hit, both, value]
    simp [voxelState, updatesOn, here, there]

theorem voxelState_foldl (minId maxId : Vec3 ℤ) (entries : List (Vec3 ℤ))
    (made : MappingData K × List (Vec3 ℤ × Bool)) (voxIdx : ℤ) :
    voxelState mp (entries.foldl (updateLogged mp minId maxId) made) voxIdx =
      (entriesOn mp entries voxIdx).foldl (VoxelState.update mp minId maxId)
        (voxelState mp made voxIdx) := by
  induction entries generalizing made with
  | nil => rfl
  | cons idx rest ih =>
      rw [List.foldl_cons, ih, voxelState_updateLogged, entriesOn, entriesOn]
      by_cases here : mp.toAddress idx = voxIdx
      · rw [if_pos here, List.filter_cons_of_pos (by simpa using here), List.foldl_cons]
      · rw [if_neg here, List.filter_cons_of_neg (by simpa using here)]

theorem cacheVoxel_foldl (minId maxId : Vec3 ℤ) (entries : List (Vec3 ℤ))
    (made : MappingData K × List (Vec3 ℤ × Bool)) :
    (entries.foldl (updateLogged mp minId maxId) made).1.cacheVoxel = made.1.cacheVoxel := by
  induction entries generalizing made with
  | nil => rfl
  | cons idx rest ih =>
      rw [List.foldl_cons, ih]
      exact (updateVoxel_buffers mp minId maxId made.1 idx).2.2.1

theorem voxelState_finish (cameraPos : Vec3 K) (pass : LoggedPass K) (voxIdx : ℤ) :
    voxelState mp ((pass.finish mp cameraPos).data, (pass.finish mp cameraPos).updates) voxIdx =
      (entriesOn mp pass.data.cacheVoxel voxIdx).foldl
        (VoxelState.update mp (rangeMin mp cameraPos) (rangeMax mp cameraPos))
        ⟨pass.data.countHit voxIdx, pass.data.countHitAndMiss voxIdx,
          pass.data.occupancyBuffer voxIdx, []⟩ :=
  voxelState_foldl mp _ _ _ _ voxIdx

theorem clean_finish {pass : LoggedPass K} (tallied : Tallied mp pass) (cameraPos : Vec3 K) :
    Clean (pass.finish mp cameraPos).data := by
  have zero : ∀ voxIdx, (pass.finish mp cameraPos).data.countHit voxIdx = 0 ∧
      (pass.finish mp cameraPos).data.countHitAndMiss voxIdx = 0 := by
    intro voxIdx
    have state := voxelState_finish mp cameraPos pass voxIdx
    have counters := counters_foldl mp (rangeMin mp cameraPos) (rangeMax mp cameraPos)
      (entriesOn mp pass.data.cacheVoxel voxIdx)
      ⟨pass.data.countHit voxIdx, pass.data.countHitAndMiss voxIdx,
        pass.data.occupancyBuffer voxIdx, []⟩ (by
      intro none_queued
      have queued := tallied.queued voxIdx
      rw [none_queued, List.length_nil] at queued
      have no_calls := turns_eq_zero_iff.mp queued.symm
      have no_hits : hits mp pass.log voxIdx = 0 := by
        rw [calls] at no_calls
        omega
      exact ⟨by rw [tallied.hit, no_hits]; rfl, by rw [tallied.both, no_calls]; rfl⟩)
    rw [← state] at counters
    exact counters
  exact ⟨fun voxIdx => (zero voxIdx).1, fun voxIdx => (zero voxIdx).2, cacheVoxel_foldl mp _ _ _ _⟩

/-- The loop over the cache makes one update of the voxel at the address, with the log-odds of the
majority of its calls. -/
def VotedOnce (md : MappingData K) (record : FrameRecord K) (voxIdx : ℤ) : Prop :=
  ∃ idx, mp.toAddress idx = voxIdx ∧
    updatesOn mp record.updates voxIdx =
      [(idx, decide (misses mp record.log voxIdx ≤ hits mp record.log voxIdx))] ∧
    record.data.occupancyBuffer voxIdx =
      votedOccupancy mp (rangeMin mp md.cameraPos) (rangeMax mp md.cameraPos) idx
        (decide (misses mp record.log voxIdx ≤ hits mp record.log voxIdx))
        (md.occupancyBuffer voxIdx)

def countedVote (log : List RayEvent) (voxIdx : ℤ) : Bool :=
  decide ((BitVec.ofNat 16 (hits mp log voxIdx)).toInt ≥
    (BitVec.ofNat 16 (calls mp log voxIdx)).toInt - (BitVec.ofNat 16 (hits mp log voxIdx)).toInt)

theorem countedVote_iff (log : List RayEvent) (voxIdx : ℤ) :
    countedVote mp log voxIdx = decide (misses mp log voxIdx ≤ hits mp log voxIdx) ↔
      ((BitVec.ofNat 16 (hits mp log voxIdx)).toInt ≥
          (BitVec.ofNat 16 (calls mp log voxIdx)).toInt -
            (BitVec.ofNat 16 (hits mp log voxIdx)).toInt ↔
        calls mp log voxIdx ≤ 2 * hits mp log voxIdx) := by
  have double : misses mp log voxIdx ≤ hits mp log voxIdx ↔
      calls mp log voxIdx ≤ 2 * hits mp log voxIdx := by
    rw [calls]
    omega
  rw [countedVote, decide_eq_decide, double]

theorem voxelState_queued {md : MappingData K} {pass : LoggedPass K} (tallied : Tallied mp pass)
    (unchanged : pass.data.occupancyBuffer = md.occupancyBuffer) {voxIdx : ℤ} {entry : Vec3 ℤ}
    (single : entriesOn mp pass.data.cacheVoxel voxIdx = [entry]) :
    voxelState mp ((pass.finish mp md.cameraPos).data, (pass.finish mp md.cameraPos).updates)
        voxIdx =
      ⟨0, 0, votedOccupancy mp (rangeMin mp md.cameraPos) (rangeMax mp md.cameraPos) entry
          (countedVote mp pass.log voxIdx) (md.occupancyBuffer voxIdx),
        [(entry, countedVote mp pass.log voxIdx)]⟩ := by
  rw [voxelState_finish, single, tallied.hit, tallied.both, unchanged]
  rfl

theorem votedOnce_iff {md : MappingData K} {pass : LoggedPass K} (tallied : Tallied mp pass)
    (unchanged : pass.data.occupancyBuffer = md.occupancyBuffer) {voxIdx : ℤ}
    (touched : 0 < calls mp pass.log voxIdx) :
    VotedOnce mp md (pass.finish mp md.cameraPos) voxIdx ↔
      Fits 15 (calls mp pass.log voxIdx) (hits mp pass.log voxIdx) := by
  have part : hits mp pass.log voxIdx ≤ calls mp pass.log voxIdx := Nat.le_add_right _ _
  have log : (pass.finish mp md.cameraPos).log = pass.log := rfl
  rw [fits_iff part touched, ← tallied.queued, ← countedVote_iff, VotedOnce, log]
  constructor
  · rintro ⟨idx, _, once, _⟩
    have number := congrArg (fun voxel => voxel.updates.length)
      (voxelState_finish mp md.cameraPos pass voxIdx)
    dsimp only [voxelState] at number
    rw [once, updates_foldl] at number
    rcases List.length_eq_one_iff.mp number.symm with ⟨entry, single⟩
    have updates := congrArg VoxelState.updates (voxelState_queued mp tallied unchanged single)
    dsimp only [voxelState] at updates
    rw [once] at updates
    exact ⟨number.symm, (congrArg Prod.snd (List.cons.inj updates).1).symm⟩
  · rintro ⟨number, vote⟩
    rcases List.length_eq_one_iff.mp number with ⟨entry, single⟩
    have member : entry ∈ entriesOn mp pass.data.cacheVoxel voxIdx := by simp [single]
    have here : mp.toAddress entry = voxIdx := by
      simpa using (List.mem_filter.mp member).2
    have state := voxelState_queued mp tallied unchanged single
    rw [vote] at state
    exact ⟨entry, here, congrArg VoxelState.updates state, congrArg VoxelState.value state⟩

/-- What a frame promises: one update for each voxel that it touches, and counters and cache as
they were. -/
def FrameCounted (md : MappingData K) (record : FrameRecord K) : Prop :=
  Clean record.data ∧ ∀ voxIdx, 0 < calls mp record.log voxIdx → VotedOnce mp md record voxIdx

theorem occupancy_kept (test : FlagTest K) (occupancyBuffer : ℤ → K) :
    Kept mp test fun pass => pass.data.occupancyBuffer = occupancyBuffer where
  call := by
    intro pass pos occ same
    rw [← same]
    change (setCacheOccupancy mp pos occ pass.data).2.occupancyBuffer = _
    rw [setCacheOccupancy]
    dsimp only
    split_ifs <;> rfl
  visit := by
    intro pass buffer voxIdx same
    rw [← same, LoggedPass.visit]
    dsimp only
    split_ifs
    · rfl
    · cases buffer <;> rfl
  widen := fun _ _ same => same

section Runs

variable (sqrt : K → K)

/-- The counters do not lose a call of the frame in a way that matters. -/
def CallsFit (record : FrameRecord K) : Prop :=
  ∀ voxIdx, 0 < calls mp record.log voxIdx →
    Fits 15 (calls mp record.log voxIdx) (hits mp record.log voxIdx)

theorem frame_cases {test : FlagTest K} {md : MappingData K} {record : FrameRecord K}
    (clean : Clean md) (done : loggedProcess mp sqrt test md = some record) :
    record = ⟨md, [], []⟩ ∨ ∃ pass, Tallied mp pass ∧
      pass.data.occupancyBuffer = md.occupancyBuffer ∧ record = pass.finish mp md.cameraPos := by
  rw [loggedProcess] at done
  split_ifs at done
  · exact .inl (Option.some.inj done).symm
  · rcases Option.map_eq_some_iff.mp done with ⟨pass, points, same⟩
    exact .inr ⟨pass, (tallied_kept mp test).points (tallied_start mp clean) points,
      (occupancy_kept mp test md.occupancyBuffer).points rfl points, same.symm⟩

theorem clean_frame {test : FlagTest K} {md : MappingData K} {record : FrameRecord K}
    (clean : Clean md) (done : loggedProcess mp sqrt test md = some record) :
    Clean record.data := by
  rcases frame_cases mp sqrt clean done with same | ⟨pass, tallied, _, same⟩
  · rw [same]
    exact clean
  · rw [same]
    exact clean_finish mp tallied md.cameraPos

theorem frameCounted_iff {test : FlagTest K} {md : MappingData K} {record : FrameRecord K}
    (clean : Clean md) (done : loggedProcess mp sqrt test md = some record) :
    FrameCounted mp md record ↔ CallsFit mp record := by
  rw [FrameCounted, and_iff_right (clean_frame mp sqrt clean done)]
  apply forall_congr'
  intro voxIdx
  apply imp_congr_right
  intro touched
  rcases frame_cases mp sqrt clean done with same | ⟨pass, tallied, unchanged, same⟩
  · rw [same] at touched
    contradiction
  · rw [same] at touched ⊢
    exact votedOnce_iff mp tallied unchanged touched

theorem run_clean {history : History (Option (MappingData K)) (MappingData K)}
    {s : Option (MappingData K)} (run : (frames mp sqrt).Run history s) :
    ∀ md, s = some md → Clean md := by
  refine run.invariant (I := fun s => ∀ md, s = some md → Clean md) ?_ ?_
  · intro s initial md same
    rw [initial] at same
    rw [← Option.some.inj same]
    exact ⟨fun _ => rfl, fun _ => rfl, rfl⟩
  · intro s frame clean after same
    rcases frames_step mp same with ⟨md, record, before, done, left⟩
    have kept := clean md before
    have next : Clean (nextFrame md frame) := ⟨kept.hit, kept.both, kept.cache⟩
    rw [← left]
    exact clean_frame mp sqrt next done

/-- In every sequence of frames. -/
theorem votes_right_iff (inputs : List (MappingData K)) :
    Throughout (fun t _ => OnFrame mp sqrt (FrameCounted mp) t ↔
        OnFrame mp sqrt (fun _ => CallsFit mp) t)
      ((frames mp sqrt).exec [] (some (initMap mp)) inputs).1 := by
  have run := (Machine.Run.start (M := frames mp sqrt) (s := some (initMap mp)) rfl).exec inputs
  refine run.throughout ?_
  intro past s frame so_far
  apply OnFrame.congr
  intro md record before done
  have kept := run_clean mp sqrt so_far md before
  have clean : Clean (nextFrame md frame) := ⟨kept.hit, kept.both, kept.cache⟩
  exact frameCounted_iff mp sqrt clean done

end Runs

section FewPoints

theorem crossed_call (pos : Vec3 K) (occ : ℤ) (pass : LoggedPass K) (voxIdx : ℤ) :
    crossed (pass.setCacheOccupancy mp pos occ).2 voxIdx = crossed pass voxIdx := by
  have flags := flags_call mp pos occ pass.data
  change (if (setCacheOccupancy mp pos occ pass.data).2.flags .traverse voxIdx =
    (setCacheOccupancy mp pos occ pass.data).2.raycastNum then 1 else 0) = _
  rw [flags.1, flags.2]
  rfl

theorem calls_visit (test : FlagTest K) (buffer : FlagBuffer) (voxel : ℤ) (pass : LoggedPass K)
    (voxIdx : ℤ) :
    calls mp (pass.visit test buffer voxel).2.log voxIdx = calls mp pass.log voxIdx := by
  change calls mp (.test buffer voxel (test pass buffer voxel) :: pass.log) voxIdx = _
  rw [calls, calls, hits, hits, misses, misses, callsWith_test, callsWith_test]

/-- A ray calls on a voxel once more than it goes through it for the first time in the frame. -/
theorem calls_traverse (cells : List (Vec3 ℤ)) (pass : LoggedPass K) {voxIdx : ℤ}
    (voxel : voxIdx ≠ invalidIdx) :
    calls mp (LoggedPass.traverse mp byStamp cells pass).log voxIdx + crossed pass voxIdx ≤
      calls mp pass.log voxIdx +
        crossed (LoggedPass.traverse mp byStamp cells pass) voxIdx + 1 := by
  induction cells generalizing pass with
  | nil => exact Nat.le_succ _
  | cons rayPt rest ih =>
      rw [LoggedPass.traverse]
      dsimp only
      have called : calls mp (pass.setCacheOccupancy mp (mp.cellCentre rayPt) 0).2.log voxIdx =
          calls mp pass.log voxIdx +
            if (pass.setCacheOccupancy mp (mp.cellCentre rayPt) 0).1 = voxIdx then 1 else 0 :=
        calls_call mp _ (.inr rfl) pass.log voxIdx
      have before := crossed_call mp (mp.cellCentre rayPt) 0 pass voxIdx
      generalize pass.setCacheOccupancy mp (mp.cellCentre rayPt) 0 = made at called before ⊢
      have visited := calls_visit mp byStamp .traverse made.1 made.2 voxIdx
      have crossing := crossed_visit made.1 made.2 voxIdx
      have one : (if made.1 = voxIdx then 1 else 0) ≤ 1 := by split_ifs <;> omega
      split_ifs with valid found
      · have kept : crossed made.2 voxIdx ≤
            crossed (made.2.visit byStamp .traverse made.1).2 voxIdx := by
          rw [crossing]
          unfold crossed
          split_ifs <;> omega
        omega
      · have later := ih (made.2.visit byStamp .traverse made.1).2
        by_cases here : made.1 = voxIdx
        · have none_before := crossed_of_visit found
          rw [if_pos here.symm] at crossing
          rw [here] at none_before
          omega
        · rw [if_neg (Ne.symm here)] at crossing
          rw [if_neg here] at called
          omega
      · have later := ih made.2
        rw [if_neg (by omega)] at called
        omega

theorem calls_castRay (cameraPos ptW : Vec3 K) (occ : ℤ) (valid : occ = 1 ∨ occ = 0)
    (pass : LoggedPass K) {voxIdx : ℤ} (voxel : voxIdx ≠ invalidIdx) :
    calls mp (pass.castRay mp byStamp cameraPos ptW occ).log voxIdx + crossed pass voxIdx ≤
      calls mp pass.log voxIdx + crossed (pass.castRay mp byStamp cameraPos ptW occ) voxIdx +
        2 := by
  rw [LoggedPass.castRay]
  dsimp only
  have called : calls mp (pass.setCacheOccupancy mp ptW occ).2.log voxIdx ≤
      calls mp pass.log voxIdx + 1 := by
    change calls mp (.call (mp.posToIndex ptW) occ :: pass.log) voxIdx ≤ _
    rw [calls_call mp _ valid]
    split_ifs <;> omega
  have before := crossed_call mp ptW occ pass voxIdx
  generalize pass.setCacheOccupancy mp ptW occ = made at called before ⊢
  have visited := calls_visit mp byStamp .rayend made.1 (made.2.widen ptW) voxIdx
  have crossing : crossed ((made.2.widen ptW).visit byStamp .rayend made.1).2 voxIdx =
      crossed made.2 voxIdx := by
    rw [LoggedPass.visit]
    dsimp only
    split_ifs <;> rfl
  have widened : calls mp (made.2.widen ptW).log voxIdx = calls mp made.2.log voxIdx ∧
      crossed (made.2.widen ptW) voxIdx = crossed made.2 voxIdx := ⟨rfl, rfl⟩
  split_ifs with has_voxel found
  · omega
  · have ray := calls_traverse mp (RayCaster.setInput (ptW / mp.resolution)
      (cameraPos / mp.resolution)).cells ((made.2.widen ptW).visit byStamp .rayend made.1).2 voxel
    omega
  · have ray := calls_traverse mp (RayCaster.setInput (ptW / mp.resolution)
      (cameraPos / mp.resolution)).cells (made.2.widen ptW) voxel
    omega

variable (sqrt : K → K)

theorem calls_points {cameraPos : Vec3 K} {points : List (Vec3 K)} {pass after : LoggedPass K}
    (done : points.foldlM (LoggedPass.castPoint mp sqrt byStamp cameraPos) pass = some after)
    {voxIdx : ℤ} (voxel : voxIdx ≠ invalidIdx) :
    calls mp after.log voxIdx + crossed pass voxIdx ≤
      calls mp pass.log voxIdx + crossed after voxIdx + 2 * points.length := by
  induction points generalizing pass with
  | nil =>
      rw [← Option.some.inj done]
      exact Nat.le_add_right _ _
  | cons ptW rest ih =>
      rw [List.foldlM_cons] at done
      rcases Option.bind_eq_some_iff.mp done with ⟨next, cast, later⟩
      rcases Option.map_eq_some_iff.mp cast with ⟨ray, ends, same⟩
      have here := calls_castRay mp cameraPos ray.1 ray.2 (rayEnd_occ ends) pass voxel
      have next_eq : pass.castRay mp byStamp cameraPos ray.1 ray.2 = next := same
      have there := ih later
      rw [next_eq] at here
      rw [List.length_cons]
      omega

/-- A point makes at most two calls on a voxel, but for the first ray through it: a frame of up to
16383 points is counted right. -/
theorem fits_of_few_points {md : MappingData K} {record : FrameRecord K}
    (done : loggedProcess mp sqrt byStamp md = some record) (few : md.projPoints.length ≤ 16383)
    {voxIdx : ℤ} (voxel : voxIdx ≠ invalidIdx) :
    Fits 15 (calls mp record.log voxIdx) (hits mp record.log voxIdx) := by
  left
  rw [loggedProcess] at done
  split_ifs at done
  · rw [← Option.some.inj done]
    exact Nat.two_pow_pos 15
  · rcases Option.map_eq_some_iff.mp done with ⟨pass, points, same⟩
    have bound := calls_points mp sqrt points voxel
    have one : crossed pass voxIdx ≤ 1 := by
      unfold crossed
      split_ifs <;> omega
    have none_yet : calls mp (⟨startPass mp md, []⟩ : LoggedPass K).log voxIdx = 0 := rfl
    rw [← same]
    change calls mp pass.log voxIdx < 2 ^ 15
    omega

/-- Once a ray of the frame ended in its voxel, a point of the map is only counted. -/
theorem points_again {cameraPos ptW : Vec3 K}
    (ends : rayEnd mp sqrt cameraPos ptW = some (ptW, 1))
    (voxel : mp.toAddress (mp.posToIndex ptW) ≠ invalidIdx) (n : ℕ) {pass : LoggedPass K}
    (stamped : byStamp pass .rayend (mp.toAddress (mp.posToIndex ptW)) = true) :
    ∃ after, (List.replicate n ptW).foldlM (LoggedPass.castPoint mp sqrt byStamp cameraPos) pass =
        some after ∧
      hits mp after.log (mp.toAddress (mp.posToIndex ptW)) =
        hits mp pass.log (mp.toAddress (mp.posToIndex ptW)) + n ∧
      misses mp after.log (mp.toAddress (mp.posToIndex ptW)) =
        misses mp pass.log (mp.toAddress (mp.posToIndex ptW)) := by
  induction n generalizing pass with
  | zero => exact ⟨pass, rfl, rfl, rfl⟩
  | succ n ih =>
      have counted : pass.castRay mp byStamp cameraPos ptW 1 = _ :=
        castRay_stamped mp (.inl rfl) voxel stamped
      have flags := flags_call mp ptW 1 pass.data
      have again := @ih (pass.castRay mp byStamp cameraPos ptW 1) (by
        rw [counted]
        apply decide_eq_true
        change (setCacheOccupancy mp ptW 1 pass.data).2.flags .rayend _ =
          (setCacheOccupancy mp ptW 1 pass.data).2.raycastNum
        rw [flags.1, flags.2]
        exact of_decide_eq_true stamped)
      rcases again with ⟨after, done, more_hits, same_misses⟩
      refine ⟨after, ?_, ?_, ?_⟩
      · rw [List.replicate_succ, List.foldlM_cons, LoggedPass.castPoint, ends]
        exact done
      · rw [more_hits, counted, hits, callsWith_test, callsWith_call, if_pos ⟨rfl, rfl⟩, hits]
        omega
      · rw [same_misses, counted, misses, callsWith_test, callsWith_call, if_neg (by simp), misses]
        omega

end FewPoints

def wallFrame : MappingData ℚ :=
  { initMap lowMap.toMappingParameters with
    cameraPos := ⟨0, 0, 2⟩
    projPoints := List.replicate 32768 ⟨0, 1, 2⟩ }

theorem first_wall_point :
    ((⟨startPass lowMap.toMappingParameters wallFrame, []⟩ : LoggedPass ℚ).castPoint
      lowMap.toMappingParameters (fun x => x) byStamp ⟨0, 0, 2⟩ ⟨0, 1, 2⟩).map (fun pass =>
        (hits lowMap.toMappingParameters pass.log 30, misses lowMap.toMappingParameters pass.log 30,
          byStamp pass .rayend 30)) = some (1, 1, true) := by
  decide +kernel

/-- All but one of the calls on the voxel of the wall are hits, and it gets `prob_miss_log_`. -/
theorem wall_voted_down :
    ¬∀ inputs, Throughout (fun t _ => OnFrame lowMap.toMappingParameters (fun x => x)
        (FrameCounted lowMap.toMappingParameters) t)
      ((frames lowMap.toMappingParameters fun x => x).exec []
        (some (initMap lowMap.toMappingParameters)) inputs).1 := by
  intro every
  rcases Option.map_eq_some_iff.mp first_wall_point with ⟨pass, cast, counts⟩
  have ends : rayEnd lowMap.toMappingParameters (fun x => x) ⟨0, 0, 2⟩ ⟨0, 1, 2⟩ =
      some (⟨0, 1, 2⟩, 1) := by
    decide +kernel
  have address : lowMap.toAddress (lowMap.posToIndex ⟨0, 1, 2⟩) = 30 := by decide +kernel
  simp only [Prod.mk.injEq] at counts
  rcases counts with ⟨one_hit, one_miss, stamped⟩
  rcases points_again lowMap.toMappingParameters (fun x => x) ends (by decide +kernel) 32767
    (address ▸ stamped) with ⟨after, points, all_hits, same_misses⟩
  rw [address, one_hit] at all_hits
  rw [address, one_miss] at same_misses
  have done : loggedProcess lowMap.toMappingParameters (fun x => x) byStamp
      (nextFrame (initMap lowMap.toMappingParameters) wallFrame) =
        some (after.finish lowMap.toMappingParameters ⟨0, 0, 2⟩) := by
    have wall : (nextFrame (initMap lowMap.toMappingParameters) wallFrame).projPoints =
        ⟨0, 1, 2⟩ :: List.replicate 32767 ⟨0, 1, 2⟩ := List.replicate_succ
    rw [loggedProcess, wall, if_neg (List.cons_ne_nil _ _), loggedPass, wall, List.foldlM_cons]
    change Option.map _ ((LoggedPass.castPoint lowMap.toMappingParameters (fun x => x) byStamp
      ⟨0, 0, 2⟩ ⟨startPass lowMap.toMappingParameters wallFrame, []⟩ ⟨0, 1, 2⟩).bind _) = _
    rw [cast, Option.bind_some]
    exact congrArg (Option.map _) points
  have counted := (every [wallFrame]).1 _ _ rfl done
  rw [frameCounted_iff _ _ ⟨fun _ => rfl, fun _ => rfl, rfl⟩ done] at counted
  have hits_now : hits lowMap.toMappingParameters (after.finish lowMap.toMappingParameters
      ⟨0, 0, 2⟩).log 30 = 32768 := all_hits
  have calls_now : calls lowMap.toMappingParameters (after.finish lowMap.toMappingParameters
      ⟨0, 0, 2⟩).log 30 = 32769 := by
    change hits lowMap.toMappingParameters after.log 30 +
      misses lowMap.toMappingParameters after.log 30 = 32769
    rw [all_hits, same_misses]
  have fits := counted 30
  rw [calls_now, hits_now, Fits] at fits
  omega

end RobocupDrone.Mapping
