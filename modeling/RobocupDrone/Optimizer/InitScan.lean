import RobocupDrone.Optimizer.SegmentBounds

/-! The scan of `initControlPoints`: the segments of the control polygon that run through
obstacles. -/

namespace RobocupDrone.Optimizer

open Geometry

structure InitScan where
  inId : ℤ
  outId : ℤ
  sameOccStateTimes : ℕ
  lastOcc : Bool
  gotStart : Bool
  gotEnd : Bool
  gotEndMaybe : Bool
  segmentIds : List (ℤ × ℤ)
  deriving DecidableEq, Repr

def enoughInterval : ℕ := 2

namespace InitScan

def initial : InitScan := ⟨-1, -1, enoughInterval + 1, false, false, false, false, []⟩

variable (order cols i : ℕ) (s : InitScan)

def meet (occ : Bool) : InitScan :=
  if occ && !s.lastOcc then
    if enoughInterval < s.sameOccStateTimes ∨ i = order then
      { s with inId := i - 1, gotStart := true, sameOccStateTimes := 0, gotEndMaybe := false }
    else { s with sameOccStateTimes := 0, gotEndMaybe := false }
  else if !occ && s.lastOcc then
    { s with outId := i, gotEndMaybe := true, sameOccStateTimes := 0 }
  else { s with sameOccStateTimes := s.sameOccStateTimes + 1 }

def settle : InitScan :=
  if s.gotEndMaybe = true ∧ (enoughInterval < s.sameOccStateTimes ∨ (i : ℤ) = cols - order) then
    { s with gotEndMaybe := false, gotEnd := true }
  else s

def close : InitScan :=
  if s.gotStart = true ∧ s.gotEnd = true then
    { s with gotStart := false, gotEnd := false, segmentIds := s.segmentIds ++ [(s.inId, s.outId)] }
  else s

/-- A sample between the control points `i - 1` and `i`. -/
def sample (occ : Bool) : InitScan :=
  close { settle order cols i (meet order i s occ) with lastOcc := occ }

end InitScan

section Polygon

variable {K : Type} [Field K] [LinearOrder K] [FloorSemiring K]

/-- `step_size`; between equal ends it is infinite, which is `none`. -/
def stepSize (sqrt : K → K) (resolution : K) (points : List (Vec3 K)) : Option K :=
  let mean := (col points 0 - col points (points.length - 1)).lengthBy sqrt /
    (((points.length : ℤ) - 1 : ℤ) : K)
  if mean = 0 then none else some (resolution / mean / 1.5)

/-- The values of `a`. -/
def sampleParts : Option K → List K
  | none => [1]
  | some step => (List.range ⌈1 / step⌉₊).map fun k : ℕ => 1 - k * step

def scanSamples (occupied : Vec3 K → Bool) (order : ℕ) (step : Option K) (points : List (Vec3 K)) :
    List (ℕ × Bool) :=
  (List.range' order (checkEnd order points.length + 1 - order).toNat).flatMap fun i =>
    (sampleParts step).map fun a =>
      (i, occupied (a • col points (i - 1) + (1 - a) • col points i))

def scan (order cols : ℕ) (samples : List (ℕ × Bool)) : InitScan :=
  samples.foldl (fun s sample => s.sample order cols sample.1 sample.2) .initial

end Polygon

namespace InitScan

/-- An occupied sample is covered by a segment, or by the one that is not closed yet, or it is in
the last interval. -/
def Covers (order cols : ℕ) (s : InitScan) (i : ℕ) : Prop :=
  (∃ a ∈ s.segmentIds, a.1 < i ∧ (i : ℤ) ≤ a.2) ∨
    (s.gotStart = true ∧ s.inId < i ∧
      (s.gotEndMaybe = true ∨ s.gotEnd = true → (i : ℤ) ≤ s.outId)) ∨ i + order = cols

/-- What holds after the samples up to one in interval `i`. -/
structure Sound (order cols i : ℕ) (past : List (ℕ × Bool)) (s : InitScan) : Prop where
  within : ∀ a ∈ s.segmentIds, (order : ℤ) ≤ a.1 + 1 ∧ a.1 < a.2 ∧ a.2 ≤ i
  ordered : s.segmentIds.Pairwise fun a b => a.1 ≤ b.1 ∧ a.2 ≤ b.1 + 1 ∧ a.2 ≤ b.2
  started : s.gotStart = true → (order : ℤ) ≤ s.inId + 1 ∧ s.inId < i ∧
    ∀ a ∈ s.segmentIds, a.1 ≤ s.inId ∧ a.2 ≤ s.inId + 1
  left : s.gotEndMaybe = true ∨ s.gotEnd = true → s.outId ≤ i ∧
    (s.gotStart = true → s.inId < s.outId) ∧ (s.gotStart = false → s.outId = i ∧ i + order = cols)
  idle : s.gotStart = false → (s.lastOcc = false ∧ s.gotEndMaybe = false ∧ s.gotEnd = false ∧
    enoughInterval < s.sameOccStateTimes) ∨ i + order = cols
  apart : s.lastOcc = true → s.gotEndMaybe = false
  behind : ∀ sample ∈ past, sample.1 ≤ i
  covered : ∀ sample ∈ past, sample.2 = true → Covers order cols s sample.1

/-- No segment is left to be closed, and one that was left a short while ago is known to be. -/
structure Rested (s : InitScan) : Prop where
  closed : s.gotStart = true → s.gotEnd = false
  watched : s.gotStart = true → s.lastOcc = false →
    s.gotEndMaybe = true ∧ s.sameOccStateTimes ≤ enoughInterval

variable {order cols i : ℕ} {past : List (ℕ × Bool)} {s : InitScan}

theorem sound_initial (order cols i : ℕ) : Sound order cols i [] initial where
  within := by simp [initial]
  ordered := by simp [initial]
  started := by simp [initial]
  left := by simp [initial]
  idle := fun _ => .inl ⟨rfl, rfl, rfl, by decide⟩
  apart := by simp [initial]
  behind := by simp
  covered := by simp

theorem Sound.later (sound : Sound order cols i past s) {j : ℕ} (after : i < j)
    (not_last : i + order ≠ cols) : Sound order cols j past s where
  within := fun a member => ⟨(sound.within a member).1, (sound.within a member).2.1,
    (sound.within a member).2.2.trans (by omega)⟩
  ordered := sound.ordered
  started := fun got => ⟨(sound.started got).1, (sound.started got).2.1.trans (by omega),
    (sound.started got).2.2⟩
  left := fun ends => ⟨(sound.left ends).1.trans (by omega), (sound.left ends).2.1,
    fun not_started => absurd ((sound.left ends).2.2 not_started).2 not_last⟩
  idle := fun not_started => .inl ((sound.idle not_started).resolve_right not_last)
  apart := sound.apart
  behind := fun sample member => (sound.behind sample member).trans after.le
  covered := sound.covered

theorem behind_append (behind : ∀ sample ∈ past, sample.1 ≤ i) (occ : Bool) :
    ∀ sample ∈ past ++ [(i, occ)], sample.1 ≤ i := by
  intro sample member
  rcases List.mem_append.mp member with old | new
  · exact behind sample old
  · rw [List.mem_singleton.mp new]

theorem covers_append {w : InitScan} {occ : Bool}
    (old : ∀ sample ∈ past, sample.2 = true → Covers order cols w sample.1)
    (new : occ = true → Covers order cols w i) :
    ∀ sample ∈ past ++ [(i, occ)], sample.2 = true → Covers order cols w sample.1 := by
  intro sample member occupied
  rcases List.mem_append.mp member with before | now
  · exact old sample before occupied
  · rw [List.mem_singleton.mp now] at occupied ⊢
    exact new occupied

/-- A start in an open segment is in the first interval. -/
theorem Sound.first_time (sound : Sound order cols i past s) (rested : Rested s)
    (got : s.gotStart = true) (starts : enoughInterval < s.sameOccStateTimes ∨ i = order)
    (free : s.lastOcc = false) : s.inId = i - 1 := by
  have bounds := sound.started got
  rcases starts with enough | first
  · exact absurd (rested.watched got free).2 (not_le.mpr enough)
  · omega

/-- An end that is kept is one of the last interval. -/
theorem Sound.ended_here (sound : Sound order cols i past s) (rested : Rested s)
    (ended : s.gotEnd = true) : s.gotStart = false ∧ s.outId = i ∧ i + order = cols := by
  have idle : s.gotStart = false := by
    by_contra got
    rw [rested.closed (by simpa using got)] at ended
    cases ended
  exact ⟨idle, (sound.left (.inr ended)).2.2 idle⟩

theorem Sound.last_of_occ (sound : Sound order cols i past s) (occupied : s.lastOcc = true)
    (idle : s.gotStart = false) : i + order = cols := by
  refine (sound.idle idle).resolve_left fun free => ?_
  rw [free.1] at occupied
  cases occupied

/-- In an open segment a sample in front of which it has not been left is covered. -/
theorem Sound.covers (sound : Sound order cols i past s) (rested : Rested s)
    (got : s.gotStart = true) : Covers order cols { s with gotEndMaybe := false } i := by
  refine .inr (.inl ⟨got, (sound.started got).2.1, ?_⟩)
  rintro (maybe | ended)
  · cases maybe
  · exact (sound.ended_here rested ended).2.1.ge

/-- What the first phase of a sample leaves. -/
structure Met (order cols i : ℕ) (past : List (ℕ × Bool)) (occ : Bool) (w : InitScan) : Prop where
  sound : Sound order cols i (past ++ [(i, occ)]) { w with lastOcc := occ }
  watched : w.gotStart = true → occ = false → w.gotEndMaybe = true ∨ w.gotEnd = true
  last : w.gotEnd = true → i + order = cols

-- a new segment, or the one of the first interval again
theorem Sound.starts (sound : Sound order cols i past s) (rested : Rested s) (low : order ≤ i)
    (free : s.lastOcc = false) (starts : enoughInterval < s.sameOccStateTimes ∨ i = order) :
    Met order cols i past true
      { s with inId := i - 1, gotStart := true, sameOccStateTimes := 0, gotEndMaybe := false } := by
  have inside : ∀ a ∈ s.segmentIds, a.1 ≤ i - 1 ∧ a.2 ≤ i - 1 + 1 := fun a member => by
    have bounds := sound.within a member
    omega
  refine ⟨⟨sound.within, sound.ordered, ?_, ?_, ?_, ?_, behind_append sound.behind true,
    covers_append ?_ ?_⟩, ?_, fun ended => (sound.ended_here rested ended).2.2⟩
  · intro _
    exact ⟨by dsimp only; omega, by dsimp only; omega, inside⟩
  · rintro (maybe | ended)
    · cases maybe
    · have last := (sound.ended_here rested ended).2.1
      exact ⟨last.le, fun _ => by dsimp only; omega, fun started => absurd started (by simp)⟩
  · intro started
    cases started
  · exact fun _ => rfl
  · intro sample member occupied
    rcases sound.covered sample member occupied with closed | ⟨got, first, _⟩ | last
    · exact .inl closed
    · refine .inr (.inl ⟨rfl, ?_, ?_⟩)
      · rw [sound.first_time rested got starts free] at first
        exact first
      · rintro (maybe | ended)
        · cases maybe
        · rw [rested.closed got] at ended
          cases ended
    · exact .inr (.inr last)
  · intro _
    refine .inr (.inl ⟨rfl, by dsimp only; omega, ?_⟩)
    rintro (maybe | ended)
    · cases maybe
    · exact (sound.ended_here rested ended).2.1.ge
  · intro _ none
    cases none

-- back into an obstacle before the end of the segment was certain
theorem Sound.resumes (sound : Sound order cols i past s) (rested : Rested s)
    (starts : ¬(enoughInterval < s.sameOccStateTimes ∨ i = order)) :
    Met order cols i past true { s with sameOccStateTimes := 0, gotEndMaybe := false } := by
  have running : s.gotStart = false → i + order = cols := fun idle =>
    (sound.idle idle).resolve_left fun free => starts (.inl free.2.2.2)
  refine ⟨⟨sound.within, sound.ordered, sound.started, ?_, fun idle => .inr (running idle),
    fun _ => rfl, behind_append sound.behind true, covers_append ?_ ?_⟩, ?_,
    fun ended => (sound.ended_here rested ended).2.2⟩
  · rintro (maybe | ended)
    · cases maybe
    · exact sound.left (.inr ended)
  · intro sample member occupied
    rcases sound.covered sample member occupied with closed | ⟨got, first, before⟩ | last
    · exact .inl closed
    · refine .inr (.inl ⟨got, first, ?_⟩)
      rintro (maybe | ended)
      · cases maybe
      · exact before (.inr ended)
    · exact .inr (.inr last)
  · intro _
    by_cases got : s.gotStart = true
    · exact sound.covers rested got
    · exact .inr (.inr (running (by simpa using got)))
  · intro _ none
    cases none

theorem Sound.leaves (sound : Sound order cols i past s) (rested : Rested s)
    (occupied : s.lastOcc = true) :
    Met order cols i past false
      { s with outId := i, gotEndMaybe := true, sameOccStateTimes := 0 } := by
  refine ⟨⟨sound.within, sound.ordered, sound.started, ?_,
    fun idle => .inr (sound.last_of_occ occupied idle), ?_, behind_append sound.behind false,
    covers_append ?_ ?_⟩, fun _ _ => .inl rfl, fun ended => (sound.ended_here rested ended).2.2⟩
  · intro _
    exact ⟨le_rfl, fun got => (sound.started got).2.1,
      fun idle => ⟨rfl, sound.last_of_occ occupied idle⟩⟩
  · intro now
    cases now
  · intro sample member occupied
    rcases sound.covered sample member occupied with closed | ⟨got, first, _⟩ | last
    · exact .inl closed
    · have before : (sample.1 : ℤ) ≤ i := by exact_mod_cast sound.behind sample member
      exact .inr (.inl ⟨got, first, fun _ => before⟩)
    · exact .inr (.inr last)
  · intro now
    cases now

theorem Sound.stays (sound : Sound order cols i past s) (rested : Rested s) :
    Met order cols i past s.lastOcc { s with sameOccStateTimes := s.sameOccStateTimes + 1 } := by
  refine ⟨⟨sound.within, sound.ordered, sound.started, sound.left, ?_, sound.apart,
    behind_append sound.behind s.lastOcc, covers_append sound.covered ?_⟩,
    fun got free => .inl (rested.watched got free).1,
    fun ended => (sound.ended_here rested ended).2.2⟩
  · intro idle
    rcases sound.idle idle with ⟨free, maybe, ended, enough⟩ | last
    · exact .inl ⟨free, maybe, ended, enough.trans (Nat.lt_succ_self _)⟩
    · exact .inr last
  · intro occupied
    by_cases got : s.gotStart = true
    · have covered := sound.covers rested got
      rwa [← sound.apart occupied] at covered
    · exact .inr (.inr (sound.last_of_occ occupied (by simpa using got)))

theorem Sound.meet (sound : Sound order cols i past s) (rested : Rested s) (low : order ≤ i)
    (occ : Bool) : Met order cols i past occ (meet order i s occ) := by
  unfold InitScan.meet
  split_ifs with rise starts fall
  · obtain ⟨rfl, free⟩ := Bool.and_eq_true_iff.mp rise
    exact sound.starts rested low (Bool.not_eq_true' _ ▸ free) starts
  · obtain ⟨rfl, -⟩ := Bool.and_eq_true_iff.mp rise
    exact sound.resumes rested starts
  · obtain ⟨free, occupied⟩ := Bool.and_eq_true_iff.mp fall
    obtain rfl : occ = false := by simpa using free
    exact sound.leaves rested occupied
  · obtain rfl : occ = s.lastOcc := by
      cases occ <;> simp_all
    exact sound.stays rested

theorem Sound.settle (sound : Sound order cols i past s) (low : s.gotStart = true →
      s.lastOcc = false → s.gotEndMaybe = true ∨ s.gotEnd = true)
    (last : s.gotEnd = true → i + order = cols) :
    Sound order cols i past (settle order cols i s) ∧
      ((settle order cols i s).gotStart = true → (settle order cols i s).lastOcc = false →
        (settle order cols i s).gotEnd = true ∨ (settle order cols i s).gotEndMaybe = true ∧
          (settle order cols i s).sameOccStateTimes ≤ enoughInterval) ∧
      ((settle order cols i s).gotEnd = true → (settle order cols i s).gotEndMaybe = false ∧
        ((settle order cols i s).lastOcc = false ∧
          enoughInterval < (settle order cols i s).sameOccStateTimes ∨ i + order = cols)) := by
  have free : s.gotEndMaybe = true → s.lastOcc = false := by
    intro maybe
    by_contra occupied
    rw [sound.apart (by simpa using occupied)] at maybe
    cases maybe
  unfold InitScan.settle
  split_ifs with ends
  · refine ⟨⟨sound.within, sound.ordered, sound.started, fun _ => sound.left (.inl ends.1), ?_,
      fun _ => rfl, sound.behind, ?_⟩, fun _ _ => .inl rfl, fun _ => ⟨rfl, ?_⟩⟩
    · intro idle
      refine .inr ((sound.idle idle).resolve_left fun free => ?_)
      rw [free.2.1] at ends
      cases ends.1
    · intro sample member occupied
      rcases sound.covered sample member occupied with closed | ⟨got, first, before⟩ | last
      · exact .inl closed
      · exact .inr (.inl ⟨got, first, fun _ => before (.inl ends.1)⟩)
      · exact .inr (.inr last)
    · rcases ends.2 with enough | here
      · exact .inl ⟨free ends.1, enough⟩
      · exact .inr (by omega)
  · refine ⟨sound, fun got free => ?_, fun ended => ⟨?_, .inr (last ended)⟩⟩
    · rcases low got free with maybe | ended
      · refine .inr ⟨maybe, ?_⟩
        by_contra enough
        exact ends ⟨maybe, .inl (not_le.mp enough)⟩
      · exact .inl ended
    · by_contra maybe
      have here := last ended
      exact ends ⟨by simpa using maybe, .inr (by omega)⟩

theorem Sound.close (sound : Sound order cols i past s) (low : s.gotStart = true →
      s.lastOcc = false → s.gotEnd = true ∨ s.gotEndMaybe = true ∧
        s.sameOccStateTimes ≤ enoughInterval)
    (ended : s.gotEnd = true → s.gotEndMaybe = false ∧
      (s.lastOcc = false ∧ enoughInterval < s.sameOccStateTimes ∨ i + order = cols)) :
    Sound order cols i past (close s) ∧ Rested (close s) := by
  unfold InitScan.close
  split_ifs with both
  · obtain ⟨start, before, earlier⟩ := sound.started both.1
    obtain ⟨end_bound, behind_start, _⟩ := sound.left (.inr both.2)
    have wide := behind_start both.1
    obtain ⟨settled, resting⟩ := ended both.2
    refine ⟨⟨?_, ?_, fun got => absurd got Bool.false_ne_true, ?_, ?_, sound.apart, sound.behind,
        ?_⟩,
      fun got => absurd got Bool.false_ne_true, fun got => absurd got Bool.false_ne_true⟩
    · intro a member
      rcases List.mem_append.mp member with old | new
      · exact sound.within a old
      · rw [List.mem_singleton.mp new]
        exact ⟨start, wide, end_bound⟩
    · refine List.pairwise_append.mpr ⟨sound.ordered, List.pairwise_singleton _ _, ?_⟩
      intro a old b new
      rw [List.mem_singleton.mp new]
      obtain ⟨first, last⟩ := earlier a old
      exact ⟨first, last, by dsimp only; omega⟩
    · rintro (maybe | again)
      · rw [settled] at maybe
        cases maybe
      · cases again
    · intro _
      rcases resting with ⟨free, enough⟩ | last
      · exact .inl ⟨free, settled, rfl, enough⟩
      · exact .inr last
    · intro sample member occupied
      rcases sound.covered sample member occupied with ⟨a, old, inside⟩ | ⟨_, first, before⟩ | last
      · exact .inl ⟨a, List.mem_append_left _ old, inside⟩
      · exact .inl ⟨(s.inId, s.outId), List.mem_append_right _ (List.mem_singleton_self _), first,
          before (.inr both.2)⟩
      · exact .inr (.inr last)
  · refine ⟨sound, fun got => ?_, fun got free => ?_⟩
    · by_contra ended
      exact both ⟨got, by simpa using ended⟩
    · exact (low got free).resolve_left fun ended => both ⟨got, ended⟩

theorem Sound.sample (sound : Sound order cols i past s) (rested : Rested s) (low : order ≤ i)
    (occ : Bool) :
    Sound order cols i (past ++ [(i, occ)]) (s.sample order cols i occ) ∧
      Rested (s.sample order cols i occ) := by
  obtain ⟨met, watched, last⟩ := sound.meet rested low occ
  have commuted :
      { InitScan.settle order cols i (InitScan.meet order i s occ) with lastOcc := occ } =
        InitScan.settle order cols i { InitScan.meet order i s occ with lastOcc := occ } := by
    unfold InitScan.settle
    split_ifs with ends
    · rfl
    · rfl
  obtain ⟨settled, low, ended⟩ := met.settle watched last
  rw [InitScan.sample, commuted]
  exact settled.close low ended

theorem sound_scan {samples : List (ℕ × Bool)} (first : order ≤ i)
    (rises : samples.Pairwise fun a b => a.1 ≤ b.1)
    (inside : ∀ sample ∈ samples, i ≤ sample.1 ∧ sample.1 + order ≤ cols)
    (sound : Sound order cols i past s) (rested : Rested s) :
    ∃ j, Sound order cols j (past ++ samples)
        (samples.foldl (fun s sample => s.sample order cols sample.1 sample.2) s) ∧
      (j = i ∨ j + order ≤ cols) := by
  induction samples generalizing i past s with
  | nil => exact ⟨i, by simpa using sound, .inl rfl⟩
  | cons head rest ih =>
      obtain ⟨later, rises⟩ := List.pairwise_cons.mp rises
      have here := inside head List.mem_cons_self
      have reached : Sound order cols head.1 past s := by
        rcases here.1.eq_or_lt with same | after
        · rwa [← same]
        · exact sound.later after (by omega)
      obtain ⟨next, rested⟩ := reached.sample rested (first.trans here.1) head.2
      obtain ⟨j, whole, bound⟩ := ih (first.trans here.1) rises
        (fun sample member => ⟨later sample member,
          (inside sample (List.mem_cons_of_mem head member)).2⟩) next rested
      rw [List.append_assoc] at whole
      refine ⟨j, whole, .inr ?_⟩
      rcases bound with rfl | bound
      · exact here.2
      · exact bound

end InitScan

section Polygon

variable {K : Type} [Field K] [LinearOrder K] [FloorSemiring K] {occupied : Vec3 K → Bool}
  {order : ℕ} {step : Option K} {points : List (Vec3 K)}

structure Chained (order n : ℕ) (segments : List (ℤ × ℤ)) : Prop where
  within : ∀ a ∈ segments, (order : ℤ) ≤ a.1 + 1 ∧ a.1 < a.2 ∧ a.2 < n
  ordered : segments.Pairwise fun a b => a.1 ≤ b.1 ∧ a.2 ≤ b.1 + 1 ∧ a.2 ≤ b.2

theorem mem_scanSamples {sample : ℕ × Bool} (enough : 2 * order ≤ points.length)
    (member : sample ∈ scanSamples occupied order step points) :
    order ≤ sample.1 ∧ sample.1 + order ≤ points.length := by
  obtain ⟨i, index, part⟩ := List.mem_flatMap.mp member
  obtain ⟨a, _, rfl⟩ := List.mem_map.mp part
  obtain ⟨low, high⟩ := List.mem_range'_1.mp index
  have third : 0 ≤ (((points.length : ℤ) - order - order).tdiv 3) :=
    Int.tdiv_nonneg (by omega) (by decide)
  unfold checkEnd at high
  dsimp only at high ⊢
  omega

variable (occupied step) in
theorem scan_spec (positive : 0 < order) (enough : 2 * order ≤ points.length) :
    let s := scan order points.length (scanSamples occupied order step points)
    Chained order points.length s.segmentIds ∧
      ∀ sample ∈ scanSamples occupied order step points, sample.2 = true →
        (∃ a ∈ s.segmentIds, a.1 < sample.1 ∧ (sample.1 : ℤ) ≤ a.2) ∨
          (s.gotStart = true ∧ s.inId < sample.1) ∨ sample.1 + order = points.length := by
  have rises : (scanSamples occupied order step points).Pairwise fun a b => a.1 ≤ b.1 := by
    unfold scanSamples
    rw [List.pairwise_flatMap]
    constructor
    · intro i _
      exact List.pairwise_map.mpr (List.pairwise_of_forall fun _ _ => le_rfl)
    · refine List.Pairwise.imp ?_ (List.pairwise_lt_range' 1)
      intro i j before x from_i y from_j
      obtain ⟨_, _, rfl⟩ := List.mem_map.mp from_i
      obtain ⟨_, _, rfl⟩ := List.mem_map.mp from_j
      exact before.le
  obtain ⟨j, sound, bound⟩ := InitScan.sound_scan (i := order) (s := .initial) le_rfl rises
    (fun sample member => mem_scanSamples enough member) (InitScan.sound_initial _ _ _)
    ⟨fun got => absurd got Bool.false_ne_true, fun got => absurd got Bool.false_ne_true⟩
  have last : j < points.length := by omega
  refine ⟨⟨fun a member => ?_, sound.ordered⟩, ?_⟩
  · obtain ⟨low, wide, high⟩ := sound.within a member
    exact ⟨low, wide, by omega⟩
  · intro sample member occupied
    rcases sound.covered sample member occupied with closed | ⟨got, after, _⟩ | here
    · exact .inl closed
    · exact .inr (.inl ⟨got, after⟩)
    · exact .inr (.inr here)

end Polygon

end RobocupDrone.Optimizer
