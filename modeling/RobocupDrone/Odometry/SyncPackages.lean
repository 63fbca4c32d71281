import Mathlib.Algebra.Order.Field.Basic
import Mathlib.Algebra.Field.Rat
import Mathlib.Algebra.Order.Ring.Rat
import RobocupDrone.Library.Numerals

/-! `laserMapping.cpp`: a scan waits until the IMU has come past its end, and then takes the IMU
messages up to there with it. Times are exact numbers. -/

namespace RobocupDrone.Odometry

variable {L I K : Type} [LinearOrder K]

section

variable [Field K]

/-- `sensor_msgs::Imu` with its stamp in seconds. -/
structure Imu (I K : Type) where
  stamp : K
  data : I

/-- The points of a scan, each with its `curvature`: the milliseconds since the scan began. -/
structure Cloud (L K : Type) where
  points : List (L × K)

structure MeasureGroup (L I K : Type) where
  lidar : Cloud L K
  lidarBegTime : K
  lidarEndTime : K
  imu : List (Imu I K)

structure SyncConfig (K : Type) where
  timeSyncEn : Bool
  timeDiffLidarToImu : K

/-- What the callbacks and `sync_packages` share. -/
structure SyncState (L I K : Type) [Field K] where
  lidarBuffer : List (Cloud L K) := []
  timeBuffer : List K := []
  imuBuffer : List (Imu I K) := []
  lidarPushed : Bool := false
  lidarEndTime : K := 0
  lastTimestampLidar : K := 0
  lastTimestampImu : K := -1
  timediffLidarWrtImu : K := 0
  timediffSetFlg : Bool := false
  lidarMeanScantime : K := 0
  scanNum : ℕ := 0
  meas : MeasureGroup L I K := ⟨⟨[]⟩, 0, 0, []⟩

/-- What the main loop does: `spinOnce` runs callbacks, and then it asks for a package. -/
inductive SyncEvent (L I K : Type)
  | standardPcl (stamp : K) (cloud : Cloud L K)
  | livoxPcl (stamp : K) (cloud : Cloud L K)
  | imu (msg : Imu I K)
  | sync

/-- The while loop of `sync_packages`: what it takes and what it leaves. -/
def popImu (endTime : K) : K → List (Imu I K) → List (Imu I K) × List (Imu I K)
  | _, [] => ([], [])
  | imuTime, msg :: rest =>
      if imuTime < endTime then
        if endTime < msg.stamp then ([], msg :: rest)
        else
          let (taken, left) := popImu endTime msg.stamp rest
          (msg :: taken, left)
      else ([], msg :: rest)

namespace SyncState

/-- On a step back in time the scans are dropped, but not their times. -/
def lidarLoopBack (stamp : K) (s : SyncState L I K) : SyncState L I K :=
  if stamp < s.lastTimestampLidar then { s with lidarBuffer := [] } else s

def standardPclCbk (stamp : K) (cloud : Cloud L K) (s : SyncState L I K) : SyncState L I K :=
  let s := s.lidarLoopBack stamp
  { s with
    lidarBuffer := s.lidarBuffer ++ [cloud]
    timeBuffer := s.timeBuffer ++ [stamp]
    lastTimestampLidar := stamp }

/-- The self-synchronisation of `livox_pcl_cbk`. -/
def selfSync (config : SyncConfig K) (s : SyncState L I K) : SyncState L I K :=
  if config.timeSyncEn ∧ s.timediffSetFlg = false ∧
      1 < |s.lastTimestampLidar - s.lastTimestampImu| ∧ s.imuBuffer.isEmpty = false then
    { s with
      timediffSetFlg := true
      timediffLidarWrtImu := s.lastTimestampLidar + 0.1 - s.lastTimestampImu }
  else s

def livoxPclCbk (config : SyncConfig K) (stamp : K) (cloud : Cloud L K) (s : SyncState L I K) :
    SyncState L I K :=
  let s := { s.lidarLoopBack stamp with lastTimestampLidar := stamp }
  let s := s.selfSync config
  { s with
    lidarBuffer := s.lidarBuffer ++ [cloud]
    timeBuffer := s.timeBuffer ++ [s.lastTimestampLidar] }

/-- The stamp that `imu_cbk` gives to a message. -/
def imuStamp (config : SyncConfig K) (stamp : K) (s : SyncState L I K) : K :=
  if 0.1 < |s.timediffLidarWrtImu| ∧ config.timeSyncEn then s.timediffLidarWrtImu + stamp
  else stamp - config.timeDiffLidarToImu

def imuCbk (config : SyncConfig K) (msg : Imu I K) (s : SyncState L I K) : SyncState L I K :=
  let timestamp := s.imuStamp config msg.stamp
  let s := if timestamp < s.lastTimestampImu then { s with imuBuffer := [] } else s
  { s with
    lastTimestampImu := timestamp
    imuBuffer := s.imuBuffer ++ [{ msg with stamp := timestamp }] }

/-- The scan at the front becomes the one that waits: its end is that of its last point, or the
mean when the scan is short. -/
def pushLidar (lidar : Cloud L K) (lidarBegTime : K) (s : SyncState L I K) : SyncState L I K :=
  let offset := (lidar.points.getLast?.elim 0 Prod.snd) / 1000
  let short := lidar.points.length ≤ 1 ∨ offset < 0.5 * s.lidarMeanScantime
  let lidarEndTime := lidarBegTime + if short then s.lidarMeanScantime else offset
  let scanNum := if short then s.scanNum else s.scanNum + 1
  { s with
    meas := { s.meas with lidar, lidarBegTime, lidarEndTime }
    lidarEndTime
    scanNum
    lidarMeanScantime := s.lidarMeanScantime +
      if short then 0 else (offset - s.lidarMeanScantime) / scanNum
    lidarPushed := true }

/-- `sync_packages`. There are never fewer times than scans. -/
def syncPackages (s : SyncState L I K) : SyncState L I K × Bool :=
  match s.lidarBuffer, s.timeBuffer, s.imuBuffer with
  | cloud :: clouds, time :: times, msg :: msgs =>
      let s := if s.lidarPushed then s else s.pushLidar cloud time
      if s.lastTimestampImu < s.lidarEndTime then (s, false)
      else
        let (imu, imuBuffer) := popImu s.lidarEndTime msg.stamp (msg :: msgs)
        ({ s with
            meas := { s.meas with imu }
            imuBuffer
            lidarBuffer := clouds
            timeBuffer := times
            lidarPushed := false }, true)
  | _, _, _ => (s, false)

def step (config : SyncConfig K) (s : SyncState L I K) :
    SyncEvent L I K → SyncState L I K × Option (MeasureGroup L I K)
  | .standardPcl stamp cloud => (s.standardPclCbk stamp cloud, none)
  | .livoxPcl stamp cloud => (s.livoxPclCbk config stamp cloud, none)
  | .imu msg => (s.imuCbk config msg, none)
  | .sync =>
      let (s, ready) := s.syncPackages
      (s, if ready then some s.meas else none)

def run (config : SyncConfig K) :
    SyncState L I K → List (SyncEvent L I K) → SyncState L I K × List (MeasureGroup L I K)
  | s, [] => (s, [])
  | s, event :: events =>
      let (s, package) := s.step config event
      let (s, packages) := s.run config events
      (s, package.toList ++ packages)

def Forward (config : SyncConfig K) (s : SyncState L I K) : SyncEvent L I K → Prop
  | .standardPcl stamp _ | .livoxPcl stamp _ => s.lastTimestampLidar ≤ stamp
  | .imu msg => s.lastTimestampImu ≤ s.imuStamp config msg.stamp
  | .sync => True

def AllForward (config : SyncConfig K) : SyncState L I K → List (SyncEvent L I K) → Prop
  | _, [] => True
  | s, event :: events => s.Forward config event ∧ (s.step config event).1.AllForward config events

instance (config : SyncConfig K) (s : SyncState L I K) (event : SyncEvent L I K) :
    Decidable (s.Forward config event) :=
  match event with
  | .standardPcl _ _ | .livoxPcl _ _ | .imu _ => inferInstanceAs (Decidable (_ ≤ _))
  | .sync => isTrue trivial

instance decidableAllForward (config : SyncConfig K) :
    (s : SyncState L I K) → (events : List (SyncEvent L I K)) →
      Decidable (s.AllForward config events)
  | _, [] => isTrue trivial
  | s, event :: events =>
      have := decidableAllForward config (s.step config event).1 events
      inferInstanceAs (Decidable (_ ∧ _))

end SyncState

def SyncEvent.imuData : SyncEvent L I K → Option I
  | .imu msg => some msg.data
  | _ => none

def SyncEvent.scan : SyncEvent L I K → Option (K × Cloud L K)
  | .standardPcl stamp cloud | .livoxPcl stamp cloud => some (stamp, cloud)
  | _ => none

end

section Loop

theorem popImu_cons (endTime imuTime : K) (msg : Imu I K) (rest : List (Imu I K)) :
    popImu endTime imuTime (msg :: rest) =
      if imuTime < endTime then
        if endTime < msg.stamp then ([], msg :: rest)
        else (msg :: (popImu endTime msg.stamp rest).1, (popImu endTime msg.stamp rest).2)
      else ([], msg :: rest) := rfl

theorem popImu_append (endTime imuTime : K) (msgs : List (Imu I K)) :
    (popImu endTime imuTime msgs).1 ++ (popImu endTime imuTime msgs).2 = msgs := by
  induction msgs generalizing imuTime with
  | nil => rfl
  | cons msg rest ih =>
      rw [popImu_cons]
      split
      · split
        · rfl
        · exact congrArg (msg :: ·) (ih msg.stamp)
      · rfl

theorem popImu_taken (endTime imuTime : K) (msgs : List (Imu I K)) :
    ∀ msg ∈ (popImu endTime imuTime msgs).1, msg.stamp ≤ endTime := by
  induction msgs generalizing imuTime with
  | nil => exact fun _ member => absurd member List.not_mem_nil
  | cons msg rest ih =>
      rw [popImu_cons]
      split
      · split
        · exact fun _ member => absurd member List.not_mem_nil
        · next early => exact List.forall_mem_cons.mpr ⟨not_lt.mp early, ih msg.stamp⟩
      · exact fun _ member => absurd member List.not_mem_nil

theorem popImu_left (endTime : K) {imuTime : K} {msgs : List (Imu I K)}
    (ordered : msgs.Pairwise fun a b => a.stamp ≤ b.stamp)
    (later : ∀ msg ∈ msgs, imuTime ≤ msg.stamp) :
    ∀ msg ∈ (popImu endTime imuTime msgs).2, endTime ≤ msg.stamp := by
  induction msgs generalizing imuTime with
  | nil => exact fun _ member => absurd member List.not_mem_nil
  | cons msg rest ih =>
      obtain ⟨first, others⟩ := List.pairwise_cons.mp ordered
      rw [popImu_cons]
      split
      · split
        · next late =>
            exact List.forall_mem_cons.mpr
              ⟨late.le, fun other member => late.le.trans (first other member)⟩
        · exact ih others first
      · next reached =>
          exact fun other member => (not_lt.mp reached).trans (later other member)

end Loop

namespace SyncState

variable {config : SyncConfig K} [Field K]

structure Sound (s : SyncState L I K) : Prop where
  ordered : s.imuBuffer.Pairwise fun a b => a.stamp ≤ b.stamp
  last : ∀ msg ∈ s.imuBuffer, msg.stamp ≤ s.lastTimestampImu
  paired : s.timeBuffer.length = s.lidarBuffer.length
  /-- The scan that waits is the first, with its time. -/
  waiting : s.lidarPushed = true → s.meas.lidarEndTime = s.lidarEndTime ∧
    ∃ clouds times, s.lidarBuffer = s.meas.lidar :: clouds ∧
      s.timeBuffer = s.meas.lidarBegTime :: times

structure Past (floor : K) (s : SyncState L I K) : Prop where
  buffer : ∀ msg ∈ s.imuBuffer, floor ≤ msg.stamp
  last : floor ≤ s.lastTimestampImu

/-- What an event and its package do: nothing is lost, and time goes on. -/
structure Stepped (s : SyncState L I K) (event : SyncEvent L I K) (after : SyncState L I K)
    (package : Option (MeasureGroup L I K)) : Prop where
  sound : after.Sound
  imu : package.toList.flatMap (fun g => g.imu.map Imu.data) ++ after.imuBuffer.map Imu.data =
    s.imuBuffer.map Imu.data ++ event.imuData.toList
  scans : package.toList.map (fun g => (g.lidarBegTime, g.lidar)) ++
      after.timeBuffer.zip after.lidarBuffer =
    s.timeBuffer.zip s.lidarBuffer ++ event.scan.toList
  ends : ∀ g ∈ package, (∀ msg ∈ g.imu, msg.stamp ≤ g.lidarEndTime) ∧ after.Past g.lidarEndTime
  past : ∀ floor, s.Past floor →
    after.Past floor ∧ ∀ g ∈ package, ∀ msg ∈ g.imu, floor ≤ msg.stamp

variable {s : SyncState L I K}

theorem Stepped.silent {event : SyncEvent L I K} {after : SyncState L I K} (sound : after.Sound)
    (imu : after.imuBuffer.map Imu.data = s.imuBuffer.map Imu.data ++ event.imuData.toList)
    (scans : after.timeBuffer.zip after.lidarBuffer =
      s.timeBuffer.zip s.lidarBuffer ++ event.scan.toList)
    (past : ∀ floor, s.Past floor → after.Past floor) : s.Stepped event after none where
  sound := sound
  imu := imu
  scans := scans
  ends _ member := nomatch member
  past floor before := ⟨past floor before, fun _ member => nomatch member⟩

theorem standardPclCbk_stepped (sound : s.Sound) {stamp : K} (cloud : Cloud L K)
    (forward : s.lastTimestampLidar ≤ stamp) :
    s.Stepped (.standardPcl stamp cloud) (s.standardPclCbk stamp cloud) none := by
  have same : s.lidarLoopBack stamp = s := if_neg (not_lt.mpr forward)
  unfold standardPclCbk
  rw [same]
  refine .silent ⟨sound.ordered, sound.last, ?_, fun pushed => ?_⟩ (List.append_nil _).symm ?_
    fun floor past => ⟨past.buffer, past.last⟩
  · simp only [List.length_append, sound.paired, List.length_singleton]
  · obtain ⟨ends, clouds, times, lidars, begins⟩ := sound.waiting pushed
    refine ⟨ends, clouds ++ [cloud], times ++ [stamp], ?_, ?_⟩
    · exact congrArg (· ++ [cloud]) lidars
    · exact congrArg (· ++ [stamp]) begins
  · exact List.zip_append sound.paired

theorem livoxPclCbk_eq (config : SyncConfig K) (stamp : K) (cloud : Cloud L K)
    (s : SyncState L I K) :
    ∃ timediff flag, s.livoxPclCbk config stamp cloud =
      { s.standardPclCbk stamp cloud with
        timediffLidarWrtImu := timediff, timediffSetFlg := flag } := by
  unfold livoxPclCbk selfSync standardPclCbk
  dsimp only
  split
  · exact ⟨_, _, rfl⟩
  · exact ⟨_, _, rfl⟩

theorem livoxPclCbk_stepped (config : SyncConfig K) (sound : s.Sound) {stamp : K}
    (cloud : Cloud L K) (forward : s.lastTimestampLidar ≤ stamp) :
    s.Stepped (.livoxPcl stamp cloud) (s.livoxPclCbk config stamp cloud) none := by
  obtain ⟨timediff, flag, same⟩ := livoxPclCbk_eq config stamp cloud s
  obtain ⟨after, imu, scans, ends, past⟩ := standardPclCbk_stepped sound cloud forward
  rw [same]
  refine .silent ⟨after.ordered, after.last, after.paired, after.waiting⟩ imu scans
    fun floor before => ?_
  obtain ⟨later, -⟩ := past floor before
  exact ⟨later.buffer, later.last⟩

theorem imuCbk_stepped (sound : s.Sound) {msg : Imu I K}
    (forward : s.lastTimestampImu ≤ s.imuStamp config msg.stamp) :
    s.Stepped (.imu msg) (s.imuCbk config msg) none := by
  unfold imuCbk
  dsimp only
  rw [if_neg (not_lt.mpr forward)]
  have every : ∀ other ∈ s.imuBuffer, other.stamp ≤ s.imuStamp config msg.stamp :=
    fun other member => (sound.last other member).trans forward
  refine .silent ⟨?_, ?_, sound.paired, sound.waiting⟩ List.map_append (List.append_nil _).symm
    fun floor past => ⟨?_, past.last.trans forward⟩
  · refine List.pairwise_append.mpr ⟨sound.ordered, List.pairwise_singleton _ _, ?_⟩
    intro other member last among
    rw [List.mem_singleton.mp among]
    exact every other member
  · refine List.forall_mem_append.mpr ⟨every, ?_⟩
    exact List.forall_mem_singleton.mpr le_rfl
  · refine List.forall_mem_append.mpr ⟨past.buffer, ?_⟩
    exact List.forall_mem_singleton.mpr (past.last.trans forward)

structure Waiting (s after : SyncState L I K) (cloud : Cloud L K) (time : K) : Prop where
  imuBuffer : after.imuBuffer = s.imuBuffer
  lastTimestampImu : after.lastTimestampImu = s.lastTimestampImu
  lidarBuffer : after.lidarBuffer = s.lidarBuffer
  timeBuffer : after.timeBuffer = s.timeBuffer
  lidar : after.meas.lidar = cloud
  lidarBegTime : after.meas.lidarBegTime = time
  lidarEndTime : after.meas.lidarEndTime = after.lidarEndTime

theorem waiting_first (sound : s.Sound) {cloud : Cloud L K} {clouds : List (Cloud L K)} {time : K}
    {times : List K} (lidars : s.lidarBuffer = cloud :: clouds)
    (begins : s.timeBuffer = time :: times) :
    s.Waiting (if s.lidarPushed then s else s.pushLidar cloud time) cloud time := by
  split
  · next pushed =>
      obtain ⟨ends, clouds', times', first, begin⟩ := sound.waiting pushed
      have lidar := (List.cons.inj (first.symm.trans lidars)).1
      have time := (List.cons.inj (begin.symm.trans begins)).1
      exact ⟨rfl, rfl, rfl, rfl, lidar, time, ends⟩
  · exact ⟨rfl, rfl, rfl, rfl, rfl, rfl, rfl⟩

theorem Waiting.stepped {after : SyncState L I K} {cloud : Cloud L K} {clouds : List (Cloud L K)}
    {time : K} {times : List K} (first : s.Waiting after cloud time) (sound : s.Sound)
    (lidars : s.lidarBuffer = cloud :: clouds) (begins : s.timeBuffer = time :: times) :
    s.Stepped .sync after none := by
  refine .silent ⟨?_, ?_, ?_, fun _ => ?_⟩ ?_ ?_ fun floor past => ⟨?_, ?_⟩
  · exact first.imuBuffer ▸ sound.ordered
  · exact first.imuBuffer ▸ first.lastTimestampImu ▸ sound.last
  · exact first.timeBuffer ▸ first.lidarBuffer ▸ sound.paired
  · refine ⟨first.lidarEndTime, clouds, times, ?_, ?_⟩
    · rw [first.lidarBuffer, first.lidar, lidars]
    · rw [first.timeBuffer, first.lidarBegTime, begins]
  · exact (congrArg _ first.imuBuffer).trans (List.append_nil _).symm
  · exact (congrArg₂ _ first.timeBuffer first.lidarBuffer).trans (List.append_nil _).symm
  · exact first.imuBuffer ▸ past.buffer
  · exact first.lastTimestampImu ▸ past.last

theorem Waiting.packed {after : SyncState L I K} {cloud : Cloud L K} {clouds : List (Cloud L K)}
    {time : K} {times : List K} (first : s.Waiting after cloud time) (sound : s.Sound)
    (lidars : s.lidarBuffer = cloud :: clouds) (begins : s.timeBuffer = time :: times)
    (reached : after.lidarEndTime ≤ after.lastTimestampImu) {imu imuBuffer : List (Imu I K)}
    (whole : imu ++ imuBuffer = s.imuBuffer) (taken : ∀ msg ∈ imu, msg.stamp ≤ after.lidarEndTime)
    (left : ∀ msg ∈ imuBuffer, after.lidarEndTime ≤ msg.stamp) :
    s.Stepped .sync
      { after with
        meas := { after.meas with imu }
        imuBuffer
        lidarBuffer := clouds
        timeBuffer := times
        lidarPushed := false }
      (some { after.meas with imu }) := by
  have kept : ∀ msg ∈ imuBuffer, msg ∈ s.imuBuffer := fun msg member =>
    whole ▸ List.mem_append_right imu member
  refine ⟨⟨?_, fun msg member => ?_, ?_, fun pushed => absurd pushed Bool.false_ne_true⟩, ?_, ?_,
    fun g member => ?_, fun floor past => ⟨⟨fun msg member => ?_, ?_⟩, fun g member => ?_⟩⟩
  · have ordered := sound.ordered
    rw [← whole] at ordered
    exact (List.pairwise_append.mp ordered).2.1
  · rw [first.lastTimestampImu]
    exact sound.last msg (kept msg member)
  · have paired := sound.paired
    rw [lidars, begins] at paired
    exact Nat.succ.inj paired
  · rw [← whole, List.map_append]
    exact (congrArg (· ++ _) (List.append_nil _)).trans (List.append_nil _).symm
  · rw [lidars, begins, ← first.lidar, ← first.lidarBegTime]
    exact (List.append_nil _).symm
  · obtain rfl := Option.some.inj member
    refine ⟨first.lidarEndTime ▸ taken, first.lidarEndTime ▸ left, ?_⟩
    rw [first.lidarEndTime]
    exact reached
  · exact past.buffer msg (kept msg member)
  · exact first.lastTimestampImu ▸ past.last
  · obtain rfl := Option.some.inj member
    exact fun msg inside => past.buffer msg (whole ▸ List.mem_append_left imuBuffer inside)

theorem sync_stepped (config : SyncConfig K) (sound : s.Sound) :
    s.Stepped .sync (s.step config .sync).1 (s.step config .sync).2 := by
  unfold step syncPackages
  dsimp only
  split
  · next cloud clouds time times msg msgs lidars begins imus =>
      have first := waiting_first sound lidars begins
      generalize (if s.lidarPushed then s else s.pushLidar cloud time) = after at first ⊢
      split
      · exact first.stepped sound lidars begins
      · next reached =>
          have ordered := sound.ordered
          rw [imus] at ordered
          have earlier : ∀ other ∈ msg :: msgs, msg.stamp ≤ other.stamp :=
            List.forall_mem_cons.mpr ⟨le_rfl, (List.pairwise_cons.mp ordered).1⟩
          exact first.packed sound lidars begins (not_lt.mp reached)
            ((popImu_append _ _ _).trans imus.symm) (popImu_taken _ _ _)
            (popImu_left _ ordered earlier)
  · exact .silent sound (List.append_nil _).symm (List.append_nil _).symm fun _ past => past

theorem step_stepped (sound : s.Sound) {event : SyncEvent L I K}
    (forward : s.Forward config event) :
    s.Stepped event (s.step config event).1 (s.step config event).2 := by
  cases event with
  | standardPcl stamp cloud => exact standardPclCbk_stepped sound cloud forward
  | livoxPcl stamp cloud => exact livoxPclCbk_stepped config sound cloud forward
  | imu msg => exact imuCbk_stepped sound forward
  | sync => exact sync_stepped config sound

structure Packaged (s : SyncState L I K) (events : List (SyncEvent L I K))
    (after : SyncState L I K) (packages : List (MeasureGroup L I K)) : Prop where
  /-- Every IMU message is in one package, or still waits. -/
  imu : packages.flatMap (fun g => g.imu.map Imu.data) ++ after.imuBuffer.map Imu.data =
    s.imuBuffer.map Imu.data ++ events.filterMap SyncEvent.imuData
  /-- So is every scan, with the time of its message. -/
  scans : packages.map (fun g => (g.lidarBegTime, g.lidar)) ++
      after.timeBuffer.zip after.lidarBuffer =
    s.timeBuffer.zip s.lidarBuffer ++ events.filterMap SyncEvent.scan
  /-- No package has a message from after its end. -/
  ends : ∀ g ∈ packages, ∀ msg ∈ g.imu, msg.stamp ≤ g.lidarEndTime
  /-- Nothing from before its end is left for a later package. -/
  later : packages.Pairwise fun g h => ∀ msg ∈ h.imu, g.lidarEndTime ≤ msg.stamp
  waits : ∀ g ∈ packages, ∀ msg ∈ after.imuBuffer, g.lidarEndTime ≤ msg.stamp

theorem run_past (sound : s.Sound) {events : List (SyncEvent L I K)}
    (forward : s.AllForward config events) {floor : K} (past : s.Past floor) :
    (s.run config events).1.Past floor ∧
      ∀ g ∈ (s.run config events).2, ∀ msg ∈ g.imu, floor ≤ msg.stamp := by
  induction events generalizing s with
  | nil => exact ⟨past, fun _ member => absurd member List.not_mem_nil⟩
  | cons event events ih =>
      have stepped := step_stepped sound forward.1
      obtain ⟨after, one⟩ := stepped.past floor past
      obtain ⟨last, rest⟩ := ih stepped.sound forward.2 after
      refine ⟨last, List.forall_mem_append.mpr ⟨fun g member => ?_, rest⟩⟩
      exact one g (Option.mem_toList.mp member)

theorem run_packaged (sound : s.Sound) {events : List (SyncEvent L I K)}
    (forward : s.AllForward config events) :
    s.Packaged events (s.run config events).1 (s.run config events).2 := by
  induction events generalizing s with
  | nil =>
      exact ⟨(List.append_nil _).symm, (List.append_nil _).symm,
        fun _ member => absurd member List.not_mem_nil, .nil,
        fun _ member => absurd member List.not_mem_nil⟩
  | cons event events ih =>
      have stepped := step_stepped sound forward.1
      have rest := ih stepped.sound forward.2
      have whole : s.run config (event :: events) =
          (((s.step config event).1.run config events).1,
            (s.step config event).2.toList ++ ((s.step config event).1.run config events).2) := rfl
      have one : ∀ g ∈ (s.step config event).2.toList,
          (∀ msg ∈ g.imu, msg.stamp ≤ g.lidarEndTime) ∧
            (s.step config event).1.Past g.lidarEndTime :=
        fun g member => stepped.ends g (Option.mem_toList.mp member)
      have beyond : ∀ g ∈ (s.step config event).2.toList, _ := fun g member =>
        run_past stepped.sound forward.2 (one g member).2
      rw [whole]
      refine ⟨?_, ?_, ?_, ?_, ?_⟩
      · rw [List.flatMap_append, List.append_assoc, rest.imu, ← List.append_assoc, stepped.imu,
          List.append_assoc]
        cases here : event.imuData <;> simp [here]
      · rw [List.map_append, List.append_assoc, rest.scans, ← List.append_assoc, stepped.scans,
          List.append_assoc]
        cases here : event.scan <;> simp [here]
      · exact List.forall_mem_append.mpr ⟨fun g member => (one g member).1, rest.ends⟩
      · refine List.pairwise_append.mpr ⟨?_, rest.later, fun g member => (beyond g member).2⟩
        cases (s.step config event).2 with
        | none => exact .nil
        | some g => exact List.pairwise_singleton _ _
      · exact List.forall_mem_append.mpr
          ⟨fun g member => (beyond g member).1.buffer, rest.waits⟩

def oneScan : List (SyncEvent Unit ℕ ℚ) :=
  [.imu ⟨1, 0⟩, .standardPcl 1 ⟨[((), 0), ((), 2000)]⟩, .sync, .imu ⟨2, 1⟩, .imu ⟨3, 2⟩, .sync,
    .imu ⟨4, 3⟩]

/-- Unless time goes back, the packages are the scans in their order, each with the IMU messages
since the one before and up to its end. -/
theorem syncPackages_in_order (config : SyncConfig K) {events : List (SyncEvent L I K)}
    (forward : AllForward config ({} : SyncState L I K) events) :
    Packaged {} events (run config {} events).1 (run config {} events).2 :=
  run_packaged ⟨.nil, fun _ member => absurd member List.not_mem_nil, rfl,
    fun pushed => absurd pushed Bool.false_ne_true⟩ forward

theorem syncPackages_in_order_oneScan :
    Packaged {} oneScan (run ⟨false, 0⟩ {} oneScan).1 (run ⟨false, 0⟩ {} oneScan).2 :=
  syncPackages_in_order ⟨false, 0⟩ (by decide +kernel)

example : (run ⟨false, 0⟩ {} oneScan).2.map (fun g => (g.lidarEndTime, g.imu.map Imu.data)) =
    [(3, [0, 1, 2])] := by decide +kernel

/-- After a step back the next scan has the time of one that was dropped. -/
example : (run (I := ℕ) ⟨false, 0⟩ {} [.imu ⟨1, 0⟩, .standardPcl 5 ⟨[]⟩,
      .standardPcl 2 ⟨[((), 0)]⟩, .imu ⟨9, 1⟩, .sync]).2.map
    (fun g => (g.lidarBegTime, g.lidar.points)) = [((5 : ℚ), [((), 0)])] := by decide +kernel

end SyncState

end RobocupDrone.Odometry
