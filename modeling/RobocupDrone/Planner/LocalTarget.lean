import Mathlib.Tactic.IntervalCases
import RobocupDrone.Library.Ticks
import RobocupDrone.Planner.GlobalTraj

/-! `EGOReplanFSM::getLocalTarget`: the first point of the global trajectory that lies outside the
planning horizon, or the end point. -/

namespace RobocupDrone.Planner.LocalTarget

open Geometry Loop

variable {K : Type}

/-- The members and parameters that `getLocalTarget` only reads. -/
structure Input (K : Type) where
  startPt : Vec3 K
  endPt : Vec3 K
  planningHorizen : K
  maxVel : K
  maxAcc : K

structure State (K : Type) where
  globalData : GlobalTrajData K
  localTargetPt : Vec3 K
  localTargetVel : Vec3 K

def State.setTarget (point : Vec3 K) (progress : K) (s : State K) : State K :=
  { s with
    localTargetPt := point
    globalData := { s.globalData with lastProgressTime := progress } }

@[simp] theorem setTarget_localTargetPt (point : Vec3 K) (progress : K) (s : State K) :
    (s.setTarget point progress).localTargetPt = point := rfl

@[simp] theorem setTarget_lastProgressTime (point : Vec3 K) (progress : K) (s : State K) :
    (s.setTarget point progress).globalData.lastProgressTime = progress := rfl

@[simp] theorem setTarget_globalDuration (point : Vec3 K) (progress : K) (s : State K) :
    (s.setTarget point progress).globalData.globalDuration = s.globalData.globalDuration := rfl

section

variable [Field K] [LinearOrder K]

section Definitions

variable (sqrt : K → K) (getPosition getVelocity : K → Option (Vec3 K)) (inp : Input K)

def Input.tStep : K := inp.planningHorizen / 20 / inp.maxVel

def Input.dist (p : Vec3 K) : K := (p - inp.startPt).lengthBy sqrt

/-- The inner loop: the first point inside the horizon, and the time that the loop leaves with. -/
def cornerLoop (globalDuration : K) : ℕ → K → Option (Option (Vec3 K) × K)
  | 0, _ => none
  | fuel + 1, t =>
      if t < globalDuration then do
        let posTTemp ← getPosition t
        if inp.dist sqrt posTTemp < inp.planningHorizen then some (some posTTemp, t)
        else cornerLoop globalDuration fuel (t + inp.tStep)
      else some (none, t)

/-- The point and the time that a round of the outer loop works on. -/
def examine (lastProgressTime globalDuration : K) (fuel : ℕ) (t : K) : Option (Vec3 K × K) := do
  let posT ← getPosition t
  if t < lastProgressTime + 1 / 100000 ∧ inp.planningHorizen < inp.dist sqrt posT then
    -- the corner case: from a start far off, the path may still come near
    (cornerLoop sqrt getPosition inp globalDuration fuel t).map fun corner =>
      (corner.1.getD posT, corner.2)
  else some (posT, t)

/-- The outer loop: the time that it leaves with, and the target and progress where it breaks. -/
def targetLoop (lastProgressTime globalDuration : K) :
    ℕ → K → K → K → Option (K × Option (Vec3 K × K))
  | 0, _, _, _ => none
  | fuel + 1, t, distMin, distMinT =>
      if t < globalDuration then do
        let (posT, t) ←
          examine sqrt getPosition inp lastProgressTime globalDuration (fuel + 1) t
        let dist := inp.dist sqrt posT
        let (distMin, distMinT) := if dist < distMin then (dist, t) else (distMin, distMinT)
        if inp.planningHorizen ≤ dist then some (t, some (posT, distMinT))
        else targetLoop lastProgressTime globalDuration fuel (t + inp.tStep) distMin distMinT
      else some (t, none)

def settle (t : K) (reached : Option (Vec3 K × K)) (s : State K) : State K :=
  let s := reached.elim s fun target => s.setTarget target.1 target.2
  -- the last global point
  if s.globalData.globalDuration < t then s.setTarget inp.endPt s.globalData.globalDuration else s

/-- `getLocalTarget`, on the evaluations of the global trajectory. -/
def getLocalTargetWith (fuel : ℕ) (s : State K) : Option (State K) := do
  let data := s.globalData
  let (t, reached) ← targetLoop sqrt getPosition inp data.lastProgressTime data.globalDuration fuel
    data.lastProgressTime 9999 0
  let s := settle inp t reached s
  if (inp.endPt - s.localTargetPt).lengthBy sqrt < inp.maxVel * inp.maxVel / (2 * inp.maxAcc) then
    some { s with localTargetVel := 0 }
  else
    (getVelocity t).map fun vel => { s with localTargetVel := vel }

def getLocalTarget (fuel : ℕ) (s : State K) : Option (State K) :=
  getLocalTargetWith sqrt s.globalData.getPosition s.globalData.getVelocity inp fuel s

end Definitions

section Calls

variable {sqrt : K → K} {inp : Input K} {f g f' g' : K → Option (Vec3 K)}

def onlyWithin (globalDuration : K) (f : K → Option (Vec3 K)) (t : K) : Option (Vec3 K) :=
  if 0 ≤ t ∧ t ≤ globalDuration then f t else none

/-- Where `f` returns, `g` returns the same. -/
def Restricts (f g : K → Option (Vec3 K)) : Prop := ∀ t point, f t = some point → g t = some point

theorem onlyWithin_restricts (globalDuration : K) (f : K → Option (Vec3 K)) :
    Restricts (onlyWithin globalDuration f) f := by
  intro t point returned
  rw [onlyWithin] at returned
  split_ifs at returned
  exact returned

theorem onlyWithin_eq {globalDuration t : K} (started : 0 ≤ t) (within : t ≤ globalDuration)
    (f : K → Option (Vec3 K)) : onlyWithin globalDuration f t = f t :=
  if_pos ⟨started, within⟩

theorem cornerLoop_mono (smaller : Restricts f g) {globalDuration t : K} {fuel : ℕ}
    {r : Option (Vec3 K) × K}
    (returned : cornerLoop sqrt f inp globalDuration fuel t = some r) :
    cornerLoop sqrt g inp globalDuration fuel t = some r := by
  induction fuel generalizing t with
  | zero => simp [cornerLoop] at returned
  | succ fuel ih =>
      rw [cornerLoop] at returned ⊢
      split_ifs at returned ⊢ with within
      · simp only [Option.bind_eq_bind, Option.bind_eq_some_iff] at returned ⊢
        obtain ⟨point, here, later⟩ := returned
        refine ⟨point, smaller t point here, ?_⟩
        split_ifs at later ⊢
        · exact later
        · exact ih later
      · exact returned

theorem examine_mono (smaller : Restricts f g) {lastProgressTime globalDuration t : K} {fuel : ℕ}
    {r : Vec3 K × K}
    (returned : examine sqrt f inp lastProgressTime globalDuration fuel t = some r) :
    examine sqrt g inp lastProgressTime globalDuration fuel t = some r := by
  simp only [examine, Option.bind_eq_bind, Option.bind_eq_some_iff] at returned ⊢
  obtain ⟨point, here, later⟩ := returned
  refine ⟨point, smaller t point here, ?_⟩
  split_ifs at later ⊢
  · obtain ⟨corner, found, same⟩ := Option.map_eq_some_iff.mp later
    exact Option.map_eq_some_iff.mpr ⟨corner, cornerLoop_mono smaller found, same⟩
  · exact later

theorem targetLoop_mono (smaller : Restricts f g) {lastProgressTime globalDuration : K} {fuel : ℕ}
    {t distMin distMinT : K} {r : K × Option (Vec3 K × K)}
    (returned : targetLoop sqrt f inp lastProgressTime globalDuration fuel t distMin distMinT =
      some r) :
    targetLoop sqrt g inp lastProgressTime globalDuration fuel t distMin distMinT = some r := by
  induction fuel generalizing t distMin distMinT with
  | zero => simp [targetLoop] at returned
  | succ fuel ih =>
      rw [targetLoop] at returned ⊢
      split_ifs at returned ⊢ with within
      · simp only [Option.bind_eq_bind, Option.bind_eq_some_iff] at returned ⊢
        obtain ⟨examined, here, later⟩ := returned
        refine ⟨examined, examine_mono smaller here, ?_⟩
        by_cases outside : inp.planningHorizen ≤ inp.dist sqrt examined.1
        · rw [if_pos outside] at later ⊢
          exact later
        · rw [if_neg outside] at later ⊢
          exact ih later
      · exact returned

theorem getLocalTargetWith_mono (positions : Restricts f g) (velocities : Restricts f' g')
    {fuel : ℕ} {s after : State K}
    (returned : getLocalTargetWith sqrt f f' inp fuel s = some after) :
    getLocalTargetWith sqrt g g' inp fuel s = some after := by
  simp only [getLocalTargetWith, Option.bind_eq_bind, Option.bind_eq_some_iff] at returned ⊢
  obtain ⟨r, loop, later⟩ := returned
  refine ⟨r, targetLoop_mono positions loop, ?_⟩
  split_ifs at later ⊢
  · exact later
  · obtain ⟨vel, evaluated, same⟩ := Option.map_eq_some_iff.mp later
    exact Option.map_eq_some_iff.mpr ⟨vel, velocities _ _ evaluated, same⟩

end Calls

end

section

variable [Field K]

section Samples

variable {sqrt : K → K} {getPosition : K → Option (Vec3 K)} {inp : Input K}
  {start globalDuration : K} {count : ℕ} {place : ℕ → Vec3 K}

theorem next_time (start : K) (i : ℕ) (step : K) :
    start + (i : K) * step + step = start + ((i + 1 : ℕ) : K) * step := by
  push_cast
  ring

variable [LinearOrder K]

/-- `count` samples from `start` on, at the given places. -/
structure Sampled (getPosition : K → Option (Vec3 K)) (inp : Input K) (start globalDuration : K)
    (count : ℕ) (place : ℕ → Vec3 K) : Prop where
  lasts : Lasts (· < globalDuration) inp.tStep start count
  places : ∀ i < count, getPosition (start + (i : K) * inp.tStep) = some (place i)
  forward : 0 < inp.tStep

/-- From sample `i` on, every run of samples outside the horizon is left by the corner case. -/
def Passes (sqrt : K → K) (inp : Input K) (start : K) (count : ℕ) (place : ℕ → Vec3 K) (i : ℕ) :
    Prop :=
  ∀ k, i ≤ k → k < count → inp.planningHorizen ≤ inp.dist sqrt (place k) →
    (k = 0 ∨ inp.dist sqrt (place (k - 1)) < inp.planningHorizen) →
      start + (k : K) * inp.tStep < start + 1 / 100000 ∧
        inp.planningHorizen < inp.dist sqrt (place k) ∧
        ∃ j, k < j ∧ j < count ∧ inp.dist sqrt (place j) < inp.planningHorizen

theorem cornerLoop_found (sampled : Sampled getPosition inp start globalDuration count place)
    {i j fuel : ℕ} (after : i ≤ j) (inside : j < count)
    (near : inp.dist sqrt (place j) < inp.planningHorizen)
    (far : ∀ k, i ≤ k → k < j → inp.planningHorizen ≤ inp.dist sqrt (place k))
    (enough : j < fuel + i) :
    cornerLoop sqrt getPosition inp globalDuration fuel (start + (i : K) * inp.tStep) =
      some (some (place j), start + (j : K) * inp.tStep) := by
  induction fuel generalizing i with
  | zero => omega
  | succ fuel ih =>
      have within := sampled.lasts.during i (by omega)
      rw [cornerLoop, if_pos within, sampled.places i (by omega), Option.bind_eq_bind,
        Option.bind_some]
      rcases after.eq_or_lt with rfl | before
      · rw [if_pos near]
      · rw [if_neg (not_lt.mpr (far i le_rfl before)), next_time]
        exact ih before (fun k low => far k (by omega)) (by omega)

theorem cornerLoop_none (sampled : Sampled getPosition inp start globalDuration count place)
    {i fuel : ℕ} (inside : i ≤ count)
    (far : ∀ k, i ≤ k → k < count → inp.planningHorizen ≤ inp.dist sqrt (place k))
    (enough : count < fuel + i) :
    cornerLoop sqrt getPosition inp globalDuration fuel (start + (i : K) * inp.tStep) =
      some (none, start + (count : K) * inp.tStep) := by
  induction fuel generalizing i with
  | zero => omega
  | succ fuel ih =>
      rw [cornerLoop]
      rcases inside.eq_or_lt with rfl | before
      · rw [if_neg sampled.lasts.ended]
      · rw [if_pos (sampled.lasts.during i before), sampled.places i before, Option.bind_eq_bind,
          Option.bind_some, if_neg (not_lt.mpr (far i le_rfl before)), next_time]
        exact ih before (fun k low => far k (by omega)) (by omega)

theorem passes_of_near {i : ℕ} (near : inp.dist sqrt (place i) < inp.planningHorizen) :
    Passes sqrt inp start count place i ↔ Passes sqrt inp start count place (i + 1) := by
  constructor
  · exact fun passes k low => passes k (by omega)
  · intro passes k low inside far first
    rcases low.eq_or_lt with rfl | after
    · exact absurd far (not_le.mpr near)
    · exact passes k after inside far first

theorem passes_of_corner {i j : ℕ} (after : i < j) (inside : j < count)
    (early : start + (i : K) * inp.tStep < start + 1 / 100000)
    (far : ∀ k, i ≤ k → k < j → inp.planningHorizen ≤ inp.dist sqrt (place k))
    (beyond : inp.planningHorizen < inp.dist sqrt (place i))
    (near : inp.dist sqrt (place j) < inp.planningHorizen) :
    Passes sqrt inp start count place i ↔ Passes sqrt inp start count place (j + 1) := by
  constructor
  · exact fun passes k low => passes k (by omega)
  · intro passes k low bound outside first
    rcases Nat.lt_or_ge j k with later | within
    · exact passes k later bound outside first
    · rcases low.eq_or_lt with rfl | inner
      · exact ⟨early, beyond, j, after, inside, near⟩
      · rcases first with zero | before
        · omega
        · exact absurd (far (k - 1) (by omega) (by omega)) (not_le.mpr before)

/-- The loop breaks at a sample outside the horizon, with a progress of at least `low`. -/
def Reaches (sqrt : K → K) (inp : Input K) (low start : K) (count : ℕ) (place : ℕ → Vec3 K)
    (r : K × Option (Vec3 K × K)) : Prop :=
  ∃ k t progress, k < count ∧ inp.planningHorizen ≤ inp.dist sqrt (place k) ∧ start ≤ t ∧
    low ≤ progress ∧ r = (t, some (place k, progress))

variable [IsStrictOrderedRing K]

theorem Sampled.start_le (sampled : Sampled getPosition inp start globalDuration count place)
    (i : ℕ) : start ≤ start + (i : K) * inp.tStep :=
  le_add_of_nonneg_right (mul_nonneg (Nat.cast_nonneg i) sampled.forward.le)

theorem examine_cases (sampled : Sampled getPosition inp start globalDuration count place)
    {fuel i : ℕ} (inside : i < count) (enough : count < fuel + i)
    (visited : i = 0 ∨ inp.dist sqrt (place (i - 1)) < inp.planningHorizen) :
    (∃ j, i ≤ j ∧ j < count ∧ inp.dist sqrt (place j) < inp.planningHorizen ∧
      inp.dist sqrt (place j) ≤ inp.dist sqrt (place i) ∧
      (Passes sqrt inp start count place i ↔ Passes sqrt inp start count place (j + 1)) ∧
      examine sqrt getPosition inp start globalDuration fuel (start + (i : K) * inp.tStep) =
        some (place j, start + (j : K) * inp.tStep)) ∨
    ∃ t, start ≤ t ∧ inp.planningHorizen ≤ inp.dist sqrt (place i) ∧
      ¬Passes sqrt inp start count place i ∧
      examine sqrt getPosition inp start globalDuration fuel (start + (i : K) * inp.tStep) =
        some (place i, t) := by
  rw [examine, sampled.places i inside, Option.bind_eq_bind, Option.bind_some]
  by_cases corner : start + (i : K) * inp.tStep < start + 1 / 100000 ∧
      inp.planningHorizen < inp.dist sqrt (place i)
  · rw [if_pos corner]
    by_cases later : ∃ j, i ≤ j ∧ j < count ∧ inp.dist sqrt (place j) < inp.planningHorizen
    · left
      obtain ⟨after, bound, near⟩ := Nat.find_spec later
      have far : ∀ k, i ≤ k → k < Nat.find later →
          inp.planningHorizen ≤ inp.dist sqrt (place k) := by
        intro k low before
        by_contra close
        exact Nat.find_min later before ⟨low, by omega, not_le.mp close⟩
      have apart : i < Nat.find later := by
        rcases after.eq_or_lt with same | before
        · rw [← same] at near
          exact absurd near (not_lt.mpr corner.2.le)
        · exact before
      refine ⟨_, after, bound, near, (near.trans corner.2).le,
        passes_of_corner apart bound corner.1 far corner.2 near, ?_⟩
      rw [cornerLoop_found sampled after bound near far (by omega)]
      rfl
    · right
      have far : ∀ k, i ≤ k → k < count → inp.planningHorizen ≤ inp.dist sqrt (place k) :=
        fun k low bound => not_lt.mp fun near => later ⟨k, low, bound, near⟩
      refine ⟨_, sampled.start_le count, corner.2.le, fun passes => ?_, ?_⟩
      · obtain ⟨j, after, bound, near⟩ := (passes i le_rfl inside corner.2.le visited).2.2
        exact later ⟨j, after.le, bound, near⟩
      · rw [cornerLoop_none sampled inside.le far enough]
        rfl
  · rw [if_neg corner]
    rcases lt_or_ge (inp.dist sqrt (place i)) inp.planningHorizen with near | outside
    · exact Or.inl ⟨i, le_rfl, inside, near, le_rfl, passes_of_near near, rfl⟩
    · refine Or.inr ⟨_, sampled.start_le i, outside, fun passes => corner ?_, rfl⟩
      obtain ⟨early, beyond, -⟩ := passes i le_rfl inside outside visited
      exact ⟨early, beyond⟩

theorem targetLoop_spec (sampled : Sampled getPosition inp start globalDuration count place)
    {fuel i : ℕ} {low distMin distMinT : K} (inside : i ≤ count) (enough : count < fuel + i)
    (visited : i = 0 ∨ inp.dist sqrt (place (i - 1)) < inp.planningHorizen) (below : low ≤ start)
    (fresh : low ≤ distMinT ∨ (i < count → inp.dist sqrt (place i) < distMin)) :
    ∃ r, targetLoop sqrt getPosition inp start globalDuration fuel (start + (i : K) * inp.tStep)
        distMin distMinT = some r ∧
      ((Passes sqrt inp start count place i ∧ r = (start + (count : K) * inp.tStep, none)) ∨
        (¬Passes sqrt inp start count place i ∧ Reaches sqrt inp low start count place r)) := by
  induction fuel generalizing i distMin distMinT with
  | zero => omega
  | succ fuel ih =>
      rw [targetLoop]
      rcases inside.eq_or_lt with rfl | before
      · rw [if_neg sampled.lasts.ended]
        exact ⟨_, rfl, Or.inl ⟨fun k low bound => by omega, rfl⟩⟩
      · rw [if_pos (sampled.lasts.during i before)]
        -- a round keeps the progress or sets one of its own
        have progress : ∀ (p : Vec3 K) (t : K), start ≤ t →
            inp.dist sqrt p ≤ inp.dist sqrt (place i) →
              low ≤ (if inp.dist sqrt p < distMin then (inp.dist sqrt p, t)
                else (distMin, distMinT)).2 := by
          intro p t reached closer
          split_ifs with shorter
          · exact below.trans reached
          · exact fresh.resolve_right fun first => shorter (closer.trans_lt (first before))
        rcases examine_cases sampled before enough visited with
          ⟨j, after, bound, near, closer, same, examined⟩ | ⟨t, reached, outside, fails, examined⟩
        · rw [examined, Option.bind_eq_bind, Option.bind_some]
          dsimp only
          rw [if_neg (not_le.mpr near), next_time]
          obtain ⟨r, ended, outcome⟩ := ih (show j + 1 ≤ count by omega) (by omega) (Or.inr near)
            (Or.inl (progress (place j) _ (sampled.start_le j) closer))
          rw [same]
          exact ⟨r, ended, outcome⟩
        · rw [examined, Option.bind_eq_bind, Option.bind_some]
          dsimp only
          rw [if_pos outside]
          exact ⟨_, rfl, Or.inr ⟨fails, i, t, _, before, outside, reached,
            progress (place i) t reached le_rfl, rfl⟩⟩

end Samples

section Target

variable {sqrt : K → K} {inp : Input K} [LinearOrder K] [IsStrictOrderedRing K]

def samples (getPosition : K → Option (Vec3 K)) (inp : Input K) (start : K) (i : ℕ) : Vec3 K :=
  (getPosition (start + (i : K) * inp.tStep)).getD 0

/-- The end point, or a point of the trajectory from the progress on that is not nearer than the
horizon. -/
def GoodTarget (sqrt : K → K) (inp : Input K) (data : GlobalTrajData K) (point : Vec3 K) : Prop :=
  point = inp.endPt ∨
    ∃ t, data.lastProgressTime ≤ t ∧ t < data.globalDuration ∧ data.getPosition t = some point ∧
      inp.planningHorizen ≤ inp.dist sqrt point

/-- A good target, from a progress that has not decreased. -/
structure Advances (sqrt : K → K) (inp : Input K) (s after : State K) : Prop where
  target : GoodTarget sqrt inp s.globalData after.localTargetPt
  progress : s.globalData.lastProgressTime ≤ after.globalData.lastProgressTime

/-- Whole steps lead from the progress to the end, and the search passes every sample between. -/
def EndsExactly (sqrt : K → K) (inp : Input K) (data : GlobalTrajData K) : Prop :=
  ∃ count : ℕ, data.lastProgressTime + (count : K) * inp.tStep = data.globalDuration ∧
    Passes sqrt inp data.lastProgressTime count
      (samples data.getPosition inp data.lastProgressTime) 0

theorem exists_getPosition {data : GlobalTrajData K} (whole : data.Whole)
    {t : K} (started : 0 ≤ t) (within : t ≤ data.globalDuration) :
    ∃ point, data.getPosition t = some point := by
  rw [whole.getPosition_eq started within]
  apply whole.formed.evaluate
  rw [whole.unspliced] at within
  exact within

theorem Sampled.count_eq {getPosition : K → Option (Vec3 K)} {start globalDuration : K}
    {count n : ℕ} {place : ℕ → Vec3 K}
    (sampled : Sampled getPosition inp start globalDuration count place)
    (ends : start + (n : K) * inp.tStep = globalDuration) : n = count := by
  have forward := sampled.forward
  apply le_antisymm
  · by_contra more
    have late := sampled.lasts.ended
    have steps : (count : K) < n := Nat.cast_lt.mpr (not_le.mp more)
    exact late (by linarith [mul_lt_mul_of_pos_right steps forward])
  · by_contra fewer
    exact (sampled.lasts.during n (not_le.mp fewer)).ne ends

variable [Archimedean K]

theorem exists_sampled {data : GlobalTrajData K} (whole : data.Whole) (forward : 0 < inp.tStep) :
    ∃ count, Sampled data.getPosition inp data.lastProgressTime data.globalDuration count
      (samples data.getPosition inp data.lastProgressTime) := by
  obtain ⟨count, lasts⟩ := exists_lasts forward data.lastProgressTime data.globalDuration
  refine ⟨count, lasts, fun i inside => ?_, forward⟩
  have later : 0 ≤ (i : K) * inp.tStep := mul_nonneg (Nat.cast_nonneg i) forward.le
  have started := whole.started
  obtain ⟨point, evaluated⟩ := exists_getPosition whole (t := data.lastProgressTime + i * inp.tStep)
    (by linarith) (lasts.during i inside).le
  rw [samples, evaluated]
  rfl

end Target

end

variable [LinearOrder K]

section Outcome

variable {sqrt : K → K} {inp : Input K} {s : State K}

theorem settle_beyond {t : K} {reached : Option (Vec3 K × K)}
    (beyond : s.globalData.globalDuration < t) :
    (settle inp t reached s).localTargetPt = inp.endPt := by
  cases reached with
  | none =>
      rw [settle, Option.elim_none, if_pos beyond]
      rfl
  | some target =>
      rw [settle, Option.elim_some, setTarget_globalDuration, if_pos beyond]
      rfl

theorem settle_advances_iff [Field K] [IsStrictOrderedRing K]
    {count : ℕ} (whole : s.globalData.Whole)
    (sampled : Sampled s.globalData.getPosition inp s.globalData.lastProgressTime
      s.globalData.globalDuration count
        (samples s.globalData.getPosition inp s.globalData.lastProgressTime))
    {r : K × Option (Vec3 K × K)}
    (outcome : (Passes sqrt inp s.globalData.lastProgressTime count
          (samples s.globalData.getPosition inp s.globalData.lastProgressTime) 0 ∧
        r = (s.globalData.lastProgressTime + (count : K) * inp.tStep, none)) ∨
      (¬Passes sqrt inp s.globalData.lastProgressTime count
          (samples s.globalData.getPosition inp s.globalData.lastProgressTime) 0 ∧
        Reaches sqrt inp s.globalData.lastProgressTime s.globalData.lastProgressTime count
          (samples s.globalData.getPosition inp s.globalData.lastProgressTime) r)) :
    Advances sqrt inp s (settle inp r.1 r.2 s) ↔
      ¬EndsExactly sqrt inp s.globalData ∨ GoodTarget sqrt inp s.globalData s.localTargetPt := by
  have within := whole.within
  rcases outcome with ⟨passes, rfl⟩ | ⟨fails, k, t, progress, inside, outside, -, later, rfl⟩
  · rcases (not_lt.mp sampled.lasts.ended).eq_or_lt with exactly | beyond
    · have ends : EndsExactly sqrt inp s.globalData := ⟨count, exactly.symm, passes⟩
      have kept : settle inp (s.globalData.lastProgressTime + (count : K) * inp.tStep) none s =
          s := if_neg exactly.not_lt
      rw [kept]
      constructor
      · exact fun advances => Or.inr advances.target
      · exact fun good => ⟨good.resolve_left (not_not_intro ends), le_rfl⟩
    · have ended : settle inp (s.globalData.lastProgressTime + (count : K) * inp.tStep) none s =
          s.setTarget inp.endPt s.globalData.globalDuration := if_pos beyond
      rw [ended]
      refine iff_of_true ⟨Or.inl rfl, within⟩ (Or.inl ?_)
      rintro ⟨n, exactly, -⟩
      rw [sampled.count_eq exactly] at exactly
      exact beyond.ne exactly.symm
  · refine iff_of_true ?_ (Or.inl ?_)
    · have reached := sampled.places k inside
      generalize samples s.globalData.getPosition inp s.globalData.lastProgressTime k = point at *
      rcases lt_or_ge s.globalData.globalDuration t with beyond | short
      · have ended : settle inp t (some (point, progress)) s =
            (s.setTarget point progress).setTarget inp.endPt s.globalData.globalDuration :=
          if_pos beyond
        rw [ended]
        exact ⟨Or.inl rfl, within⟩
      · have kept : settle inp t (some (point, progress)) s = s.setTarget point progress :=
          if_neg (not_lt.mpr short)
        rw [kept]
        exact ⟨Or.inr ⟨_, sampled.start_le k, sampled.lasts.during k inside, reached, outside⟩,
          later⟩
    · rintro ⟨n, exactly, passes⟩
      rw [sampled.count_eq exactly] at passes
      exact fails passes

variable [Field K]

theorem getLocalTargetWith_eq {getPosition getVelocity : K → Option (Vec3 K)} {fuel : ℕ}
    {r : K × Option (Vec3 K × K)}
    (loop : targetLoop sqrt getPosition inp s.globalData.lastProgressTime
      s.globalData.globalDuration fuel s.globalData.lastProgressTime 9999 0 = some r) :
    getLocalTargetWith sqrt getPosition getVelocity inp fuel s =
      if (inp.endPt - (settle inp r.1 r.2 s).localTargetPt).lengthBy sqrt <
          inp.maxVel * inp.maxVel / (2 * inp.maxAcc) then
        some { settle inp r.1 r.2 s with localTargetVel := 0 }
      else
        (getVelocity r.1).map fun vel => { settle inp r.1 r.2 s with localTargetVel := vel } := by
  rw [getLocalTargetWith, loop]
  rfl

theorem advances_settled {getPosition getVelocity : K → Option (Vec3 K)} {fuel : ℕ}
    {r : K × Option (Vec3 K × K)}
    (loop : targetLoop sqrt getPosition inp s.globalData.lastProgressTime
      s.globalData.globalDuration fuel s.globalData.lastProgressTime 9999 0 = some r)
    {after : State K}
    (returned : getLocalTargetWith sqrt getPosition getVelocity inp fuel s = some after) :
    Advances sqrt inp s after ↔ Advances sqrt inp s (settle inp r.1 r.2 s) := by
  have fields : after.localTargetPt = (settle inp r.1 r.2 s).localTargetPt ∧
      after.globalData = (settle inp r.1 r.2 s).globalData := by
    rw [getLocalTargetWith_eq loop] at returned
    split_ifs at returned
    · rw [← Option.some.inj returned]
      exact ⟨rfl, rfl⟩
    · obtain ⟨vel, -, same⟩ := Option.map_eq_some_iff.mp returned
      rw [← same]
      exact ⟨rfl, rfl⟩
  constructor
  · rintro ⟨target, progress⟩
    rw [fields.1] at target
    rw [fields.2] at progress
    exact ⟨target, progress⟩
  · rintro ⟨target, progress⟩
    rw [← fields.1] at target
    rw [← fields.2] at progress
    exact ⟨target, progress⟩

variable [IsStrictOrderedRing K]

theorem getLocalTargetWith_returns (exact : Vec3.IsSqrt sqrt)
    {getPosition getVelocity : K → Option (Vec3 K)} {fuel : ℕ} {r : K × Option (Vec3 K × K)}
    (loop : targetLoop sqrt getPosition inp s.globalData.lastProgressTime
      s.globalData.globalDuration fuel s.globalData.lastProgressTime 9999 0 = some r)
    (stopping : 0 < inp.maxVel * inp.maxVel / (2 * inp.maxAcc))
    (velocity : r.1 ≤ s.globalData.globalDuration → ∃ vel, getVelocity r.1 = some vel) :
    ∃ after, getLocalTargetWith sqrt getPosition getVelocity inp fuel s = some after := by
  rw [getLocalTargetWith_eq loop]
  split_ifs with near
  · exact ⟨_, rfl⟩
  · have before : r.1 ≤ s.globalData.globalDuration := by
      by_contra beyond
      apply near
      rw [settle_beyond (not_le.mp beyond), sub_self, Vec3.lengthBy_zero exact]
      exact stopping
    obtain ⟨vel, evaluated⟩ := velocity before
    rw [evaluated]
    exact ⟨_, rfl⟩

end Outcome

section Runs

variable {sqrt : K → K} {inp : Input K} {s : State K} [Field K] [IsStrictOrderedRing K]

theorem targetLoop_outcome (sqrt : K → K) {getPosition : K → Option (Vec3 K)}
    {low start globalDuration : K} {count fuel : ℕ} {place : ℕ → Vec3 K}
    (sampled : Sampled getPosition inp start globalDuration count place) (enough : count < fuel)
    (below : low ≤ start) (fresh : low ≤ 0 ∨ (0 < count → inp.dist sqrt (place 0) < 9999)) :
    ∃ r, targetLoop sqrt getPosition inp start globalDuration fuel start 9999 0 = some r ∧
      start ≤ r.1 ∧
      ((Passes sqrt inp start count place 0 ∧ r = (start + (count : K) * inp.tStep, none)) ∨
        (¬Passes sqrt inp start count place 0 ∧ Reaches sqrt inp low start count place r)) := by
  obtain ⟨r, loop, outcome⟩ := targetLoop_spec sampled (Nat.zero_le count) (by omega) (Or.inl rfl)
    below fresh
  rw [Nat.cast_zero, zero_mul, add_zero] at loop
  refine ⟨r, loop, ?_, outcome⟩
  rcases outcome with ⟨-, rfl⟩ | ⟨-, k, t, progress, -, -, after, -, rfl⟩
  · exact sampled.start_le count
  · exact after

theorem stopping_pos (forward : 0 < inp.tStep) (positive : 0 < inp.maxAcc) :
    0 < inp.maxVel * inp.maxVel / (2 * inp.maxAcc) := by
  have moving : inp.maxVel ≠ 0 := by
    rintro still
    rw [Input.tStep, still, div_zero] at forward
    exact forward.false
  exact div_pos (mul_self_pos.mpr moving) (mul_pos two_pos positive)

theorem exists_getVelocity {data : GlobalTrajData K} (whole : data.Whole) {t : K}
    (started : 0 ≤ t) (within : t ≤ data.globalDuration) :
    ∃ vel, data.getVelocity t = some vel := by
  rw [whole.getVelocity_eq started within]
  apply whole.formed.evaluateVel
  rw [whole.unspliced] at within
  exact within

theorem getLocalTarget_returns (exact : Vec3.IsSqrt sqrt) (whole : s.globalData.Whole)
    (forward : 0 < inp.tStep) (positive : 0 < inp.maxAcc) {fuel : ℕ}
    {r : K × Option (Vec3 K × K)}
    (loop : targetLoop sqrt s.globalData.getPosition inp s.globalData.lastProgressTime
      s.globalData.globalDuration fuel s.globalData.lastProgressTime 9999 0 = some r)
    (after_start : s.globalData.lastProgressTime ≤ r.1) :
    ∃ after, getLocalTarget sqrt inp fuel s = some after :=
  getLocalTargetWith_returns exact loop (stopping_pos forward positive) fun before =>
    exists_getVelocity whole (whole.started.trans after_start) before

variable [Archimedean K]

theorem exists_settled (whole : s.globalData.Whole) (forward : 0 < inp.tStep)
    (near : ∀ point, s.globalData.getPosition s.globalData.lastProgressTime = some point →
      inp.dist sqrt point < 9999) :
    ∃ bound, ∀ fuel ≥ bound, ∃ r, targetLoop sqrt s.globalData.getPosition inp
        s.globalData.lastProgressTime s.globalData.globalDuration fuel
          s.globalData.lastProgressTime 9999 0 = some r ∧
      s.globalData.lastProgressTime ≤ r.1 ∧
      (Advances sqrt inp s (settle inp r.1 r.2 s) ↔
        ¬EndsExactly sqrt inp s.globalData ∨
          GoodTarget sqrt inp s.globalData s.localTargetPt) := by
  obtain ⟨count, sampled⟩ := exists_sampled whole forward
  refine ⟨count + 1, fun fuel enough => ?_⟩
  have first : 0 < count → inp.dist sqrt
      (samples s.globalData.getPosition inp s.globalData.lastProgressTime 0) < 9999 := by
    intro some_sample
    have place := sampled.places 0 some_sample
    rw [Nat.cast_zero, zero_mul, add_zero] at place
    exact near _ place
  obtain ⟨r, loop, after_start, outcome⟩ :=
    targetLoop_outcome sqrt sampled (show count < fuel by omega) le_rfl (Or.inr first)
  exact ⟨r, loop, after_start, settle_advances_iff whole sampled outcome⟩

/-- `getLocalTarget` picks the end point or a point outside the horizon, unless it steps exactly
onto the end of the trajectory and the old target is neither. -/
theorem getLocalTarget_advances_iff (exact : Vec3.IsSqrt sqrt) (whole : s.globalData.Whole)
    (forward : 0 < inp.tStep)
    (near : ∀ point, s.globalData.getPosition s.globalData.lastProgressTime = some point →
      inp.dist sqrt point < 9999) :
    ∃ bound, ∀ fuel ≥ bound,
      (0 < inp.maxAcc → ∃ after, getLocalTarget sqrt inp fuel s = some after) ∧
      ∀ after, getLocalTarget sqrt inp fuel s = some after →
        (Advances sqrt inp s after ↔ ¬EndsExactly sqrt inp s.globalData ∨
          GoodTarget sqrt inp s.globalData s.localTargetPt) := by
  obtain ⟨bound, settled⟩ := exists_settled whole forward near
  refine ⟨bound, fun fuel enough => ?_⟩
  obtain ⟨r, loop, after_start, advances⟩ := settled fuel enough
  constructor
  · exact fun positive => getLocalTarget_returns exact whole forward positive loop after_start
  · exact fun after returned => (advances_settled loop returned).trans advances

/-- `getLocalTarget` returns also where an evaluation outside the global trajectory would stop it,
and within it the evaluations are those of one of its segments. -/
structure StaysInside (sqrt : K → K) (inp : Input K) (fuel : ℕ) (s : State K) : Prop where
  calls : ∃ after, getLocalTarget sqrt inp fuel s = some after ∧
    getLocalTargetWith sqrt (onlyWithin s.globalData.globalDuration s.globalData.getPosition)
      (onlyWithin s.globalData.globalDuration s.globalData.getVelocity) inp fuel s = some after
  global : ∀ t, 0 ≤ t → t ≤ s.globalData.globalDuration →
    s.globalData.getPosition t = s.globalData.globalTraj.evaluate t ∧
      s.globalData.getVelocity t = s.globalData.globalTraj.evaluateVel t
  search : ∀ t, 0 ≤ t → t ≤ s.globalData.globalDuration → ∃ k r,
    PolynomialTraj.findSegment s.globalData.globalTraj.times t 0 = some (k, r) ∧
      k < s.globalData.globalTraj.times.length

theorem getLocalTarget_staysInside (exact : Vec3.IsSqrt sqrt) (whole : s.globalData.Whole)
    (forward : 0 < inp.tStep) (positive : 0 < inp.maxAcc) :
    ∃ bound, ∀ fuel ≥ bound, StaysInside sqrt inp fuel s := by
  obtain ⟨count, sampled⟩ := exists_sampled whole forward
  have started := whole.started
  refine ⟨count + 1, fun fuel enough => ⟨?_, fun t begun within => ?_, fun t begun within => ?_⟩⟩
  · have inside : Sampled (onlyWithin s.globalData.globalDuration s.globalData.getPosition) inp
        s.globalData.lastProgressTime s.globalData.globalDuration count
          (samples s.globalData.getPosition inp s.globalData.lastProgressTime) := by
      refine ⟨sampled.lasts, fun i before => ?_, forward⟩
      have reached := started.trans (sampled.start_le i)
      rw [onlyWithin_eq reached (sampled.lasts.during i before).le]
      exact sampled.places i before
    obtain ⟨r, loop, after_start, -⟩ := targetLoop_outcome sqrt inside
      (show count < fuel by omega) started (Or.inl le_rfl)
    have velocity : r.1 ≤ s.globalData.globalDuration → ∃ vel,
        onlyWithin s.globalData.globalDuration s.globalData.getVelocity r.1 = some vel := by
      intro before
      rw [onlyWithin_eq (started.trans after_start) before]
      exact exists_getVelocity whole (started.trans after_start) before
    obtain ⟨after, returned⟩ :=
      getLocalTargetWith_returns exact loop (stopping_pos forward positive) velocity
    exact ⟨after, getLocalTargetWith_mono (onlyWithin_restricts _ _) (onlyWithin_restricts _ _)
      returned, returned⟩
  · exact ⟨whole.getPosition_eq begun within, whole.getVelocity_eq begun within⟩
  · rw [whole.unspliced] at within
    obtain ⟨k, r, found, inside⟩ :=
      PolynomialTraj.findSegment_inside whole.formed.nonempty within 0
    rw [Nat.zero_add] at found
    exact ⟨k, r, found, inside⟩

end Runs

noncomputable def shortFlight : PolynomialTraj ℝ :=
  PolynomialTraj.ofCoefficients (fun
    | .x => ![4 / 16875, -1 / 225, 1 / 45, 0, 0, 0]
    | .y => 0
    | .z => ![0, 0, 0, 0, 0, 1]) (15 / 2)

/-- The first call after `setGlobalTraj`, with a target that is left from before. -/
noncomputable def departing : State ℝ := ⟨.setGlobalTraj shortFlight, 0, 0⟩

noncomputable def toShortGoal : Input ℝ where
  startPt := ⟨0, 0, 1⟩
  endPt := ⟨15 / 16, 0, 1⟩
  planningHorizen := 15 / 2
  maxVel := 1 / 2
  maxAcc := 3 / 10

theorem toShortGoal_tStep : toShortGoal.tStep = 3 / 4 := by
  norm_num [Input.tStep, toShortGoal]

theorem shortFlight_wellFormed : shortFlight.WellFormed := by
  rw [shortFlight, PolynomialTraj.ofCoefficients]
  exact PolynomialTraj.ofSolution_wellFormed _ (List.cons_ne_nil _ _)

theorem departing_whole : departing.globalData.Whole where
  formed := shortFlight_wellFormed
  unspliced := rfl
  started := le_rfl
  within := by
    change (0 : ℝ) ≤ [15 / 2].sum
    norm_num

theorem departing_position {t : ℝ} (started : 0 ≤ t) (within : t ≤ 15 / 2) :
    departing.globalData.getPosition t =
      some ⟨1 / 45 * t ^ 3 - 1 / 225 * t ^ 4 + 4 / 16875 * t ^ 5, 0, 1⟩ := by
  have duration : t ≤ departing.globalData.globalDuration := by
    change t ≤ [15 / 2].sum
    rwa [List.sum_singleton]
  have within' : t ≤ 15 / 2 + 1 / 10000 := by linarith
  rw [departing_whole.getPosition_eq started duration]
  change shortFlight.evaluate t = _
  rw [shortFlight, (PolynomialTraj.ofCoefficients_evaluations _ within').1]
  apply congrArg some
  simp [PolynomialTraj.reading, Vec3.ofAxes, Quintic.position_eq, PolynomialTraj.ascending]
  ring

theorem departing_dist {k : ℕ} (inside : k ≤ 10) :
    toShortGoal.dist Real.sqrt (samples departing.globalData.getPosition toShortGoal 0 k) ≤ 1 := by
  have steps : (k : ℝ) ≤ 10 := by exact_mod_cast inside
  have begun : (0 : ℝ) ≤ k := Nat.cast_nonneg k
  have place : samples departing.globalData.getPosition toShortGoal 0 k -
      toShortGoal.startPt = Vec3.along .x (1 / 45 * (3 / 4 * k) ^ 3 - 1 / 225 * (3 / 4 * k) ^ 4 +
        4 / 16875 * (3 / 4 * k) ^ 5 : ℝ) := by
    rw [samples, toShortGoal_tStep, zero_add, mul_comm, departing_position (by linarith)
      (by linarith)]
    apply Vec3.ext_get
    intro axis
    rw [Option.getD_some, Vec3.get_sub, Vec3.get_along]
    cases axis <;> simp [toShortGoal, Vec3.get]
  rw [Input.dist, place, Vec3.lengthBy_along Vec3.isSqrt_sqrt, abs_le]
  interval_cases k <;> norm_num

theorem departing_endsExactly : EndsExactly Real.sqrt toShortGoal departing.globalData := by
  refine ⟨10, ?_, fun k _ inside outside => ?_⟩
  · rw [toShortGoal_tStep]
    change (0 : ℝ) + (10 : ℕ) * (3 / 4) = [15 / 2].sum
    norm_num
  · have near := departing_dist inside.le
    have horizon : toShortGoal.planningHorizen = 15 / 2 := rfl
    change toShortGoal.planningHorizen ≤ toShortGoal.dist Real.sqrt
      (samples departing.globalData.getPosition toShortGoal 0 k) at outside
    linarith

theorem departing_target :
    ¬GoodTarget Real.sqrt toShortGoal departing.globalData departing.localTargetPt := by
  rintro (finish | ⟨t, -, -, -, outside⟩)
  · have height : (0 : ℝ) = 1 := congrArg Vec3.z finish
    exact zero_ne_one height
  · have place : departing.localTargetPt - toShortGoal.startPt = Vec3.along .z (-1 : ℝ) := by
      apply Vec3.ext_get
      intro axis
      rw [Vec3.get_sub, Vec3.get_along, departing, Vec3.get_zero]
      cases axis <;> simp [toShortGoal, Vec3.get]
    rw [Input.dist, place, Vec3.lengthBy_along Vec3.isSqrt_sqrt] at outside
    have horizon : toShortGoal.planningHorizen = 15 / 2 := rfl
    rw [horizon] at outside
    norm_num at outside

theorem departing_near : ∀ point,
    departing.globalData.getPosition departing.globalData.lastProgressTime = some point →
      toShortGoal.dist Real.sqrt point < 9999 := by
  intro point evaluated
  have first := departing_dist (Nat.zero_le 10)
  have start : samples departing.globalData.getPosition toShortGoal 0 0 = point := by
    rw [samples, Nat.cast_zero, zero_mul, add_zero]
    exact congrArg (fun o => Option.getD o 0) evaluated
  rw [start] at first
  linarith

theorem toShortGoal_forward : 0 < toShortGoal.tStep := by
  rw [toShortGoal_tStep]
  norm_num

theorem toShortGoal_maxAcc : 0 < toShortGoal.maxAcc := by
  norm_num [toShortGoal]

/-- Ten steps lead exactly to the end, and the target is still the old one. -/
theorem departing_stale :
    departing.globalData.Whole ∧ 0 < departing.globalData.globalDuration ∧
      0 < toShortGoal.planningHorizen ∧ 0 < toShortGoal.tStep ∧
      (∀ point, departing.globalData.getPosition departing.globalData.lastProgressTime =
        some point → toShortGoal.dist Real.sqrt point < 9999) ∧
      ∃ bound, ∀ fuel ≥ bound, ∃ after, getLocalTarget Real.sqrt toShortGoal fuel departing =
        some after ∧ ¬Advances Real.sqrt toShortGoal departing after := by
  refine ⟨departing_whole, ?_, ?_, toShortGoal_forward, departing_near, ?_⟩
  · change (0 : ℝ) < [15 / 2].sum
    norm_num
  · norm_num [toShortGoal]
  · obtain ⟨bound, settled⟩ := exists_settled departing_whole toShortGoal_forward departing_near
    refine ⟨bound, fun fuel enough => ?_⟩
    obtain ⟨r, loop, after_start, advances⟩ := settled fuel enough
    obtain ⟨after, returned⟩ := getLocalTarget_returns Vec3.isSqrt_sqrt departing_whole
      toShortGoal_forward toShortGoal_maxAcc loop after_start
    refine ⟨after, returned, ?_⟩
    rw [advances_settled loop returned, advances, not_or, not_not]
    exact ⟨departing_endsExactly, departing_target⟩

/-- With the horizon of the launch files: twelve steps and a half to the end. -/
noncomputable def pastShortGoal : Input ℝ := { toShortGoal with planningHorizen := 6 }

theorem pastShortGoal_tStep : pastShortGoal.tStep = 3 / 5 := by
  norm_num [Input.tStep, pastShortGoal, toShortGoal]

theorem pastShortGoal_endsBetween :
    ¬EndsExactly Real.sqrt pastShortGoal departing.globalData := by
  rintro ⟨count, exactly, -⟩
  rw [pastShortGoal_tStep] at exactly
  change (0 : ℝ) + count * (3 / 5) = [15 / 2].sum at exactly
  have halves : (2 * count : ℝ) = 25 := by
    rw [List.sum_singleton] at exactly
    linarith
  have whole : 2 * count = 25 := by exact_mod_cast halves
  omega

theorem getLocalTarget_advances_departing :
    ∃ bound, ∀ fuel ≥ bound, ∃ after,
      getLocalTarget Real.sqrt pastShortGoal fuel departing = some after ∧
        Advances Real.sqrt pastShortGoal departing after := by
  have forward : 0 < pastShortGoal.tStep := by
    rw [pastShortGoal_tStep]
    norm_num
  obtain ⟨bound, advances⟩ := getLocalTarget_advances_iff Vec3.isSqrt_sqrt departing_whole forward
    departing_near
  refine ⟨bound, fun fuel enough => ?_⟩
  obtain ⟨after, returned⟩ := (advances fuel enough).1 toShortGoal_maxAcc
  exact ⟨after, returned,
    ((advances fuel enough).2 after returned).mpr (.inl pastShortGoal_endsBetween)⟩

theorem getLocalTarget_staysInside_departing :
    ∃ bound, ∀ fuel ≥ bound, StaysInside Real.sqrt toShortGoal fuel departing :=
  getLocalTarget_staysInside Vec3.isSqrt_sqrt departing_whole toShortGoal_forward toShortGoal_maxAcc

end RobocupDrone.Planner.LocalTarget
