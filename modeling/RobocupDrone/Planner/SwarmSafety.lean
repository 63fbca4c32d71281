import RobocupDrone.Planner.SwarmBroadcast

/-! Which encounters with other drones `checkCollisionCallback` reports. -/

namespace RobocupDrone.Planner.Swarm

open Geometry
open Controller (Time sec)

variable {cfg : ReplanConfig}

/-- The entries from index `first` on that the loop over `swarm_trajs_buf_` does not skip. -/
def others (cfg : ReplanConfig) : Nat → List OneTrajDataOfSwarm → List OneTrajDataOfSwarm
  | _, [] => []
  | first, agent :: rest =>
      if agent.droneId = first ∧ agent.droneId ≠ cfg.droneId then
        agent :: others cfg (first + 1) rest
      else others cfg (first + 1) rest

/-- At the absolute time `instant` the own position is closer than the clearance to the predicted
position of another drone. -/
def Encounter (cfg : ReplanConfig) (s : SwarmFsm) (instant : ℚ) : Prop :=
  ∃ agent ∈ others cfg 0 s.swarmTrajsBuf, closeAt cfg s.localData agent instant = some true

theorem mem_others_iff {first : Nat} {buf : List OneTrajDataOfSwarm}
    {agent : OneTrajDataOfSwarm} : agent ∈ others cfg first buf ↔
      ∃ i, buf[i]? = some agent ∧ agent.droneId = (first + i : Nat) ∧
        agent.droneId ≠ cfg.droneId := by
  induction buf generalizing first with
  | nil => simp [others]
  | cons head rest ih =>
      have split : (∃ i, (head :: rest)[i]? = some agent ∧ agent.droneId = (first + i : Nat) ∧
          agent.droneId ≠ cfg.droneId) ↔
          (agent = head ∧ head.droneId = first ∧ head.droneId ≠ cfg.droneId) ∨
            agent ∈ others cfg (first + 1) rest := by
        rw [ih]
        constructor
        · rintro ⟨i, inside, present⟩
          cases i with
          | zero =>
              rw [List.getElem?_cons_zero, Option.some.injEq] at inside
              rw [inside]
              exact .inl ⟨rfl, present⟩
          | succ i =>
              rw [List.getElem?_cons_succ] at inside
              exact .inr ⟨i, inside, by omega, present.2⟩
        · rintro (⟨same, present⟩ | ⟨i, inside, present⟩)
          · exact ⟨0, by rw [same]; rfl, same ▸ present⟩
          · exact ⟨i + 1, inside, by omega, present.2⟩
      rw [split, others]
      by_cases present : head.droneId = first ∧ head.droneId ≠ cfg.droneId
      · rw [if_pos present, List.mem_cons, and_iff_left present]
      · rw [if_neg present, or_iff_right fun both => present both.2]

theorem toSec_sub (a b : Time) : toSec (a - b) = toSec a - toSec b := by
  have cast : ((a - b : Int) : ℚ) = (a : ℚ) - (b : ℚ) := Int.cast_sub a b
  change ((a - b : Int) : ℚ) / 1000000000 = (a : ℚ) / 1000000000 - (b : ℚ) / 1000000000
  rw [cast, sub_div]

theorem agentNear_firstClose (now : Time) (own : LocalTrajData) (first : Nat)
    (buf : List OneTrajDataOfSwarm) :
    agentNear cfg now (own.position (toSec (now - own.startTime))) first buf =
      firstClose (fun agent => closeAt cfg own agent (toSec now)) (others cfg first buf) := by
  induction buf generalizing first with
  | nil => rfl
  | cons agent rest ih =>
      rw [agentNear, others]
      by_cases present : agent.droneId = first ∧ agent.droneId ≠ cfg.droneId
      · have kept : ¬(agent.droneId ≠ first ∨ agent.droneId = cfg.droneId) := by tauto
        rw [if_neg kept, if_pos present, firstClose, ih]
        unfold closeAt OneTrajDataOfSwarm.predicted
        rw [toSec_sub]
        cases agent.positionTraj.evaluateDeBoorT (toSec now - toSec agent.startTime) <;> rfl
      · have skipped : agent.droneId ≠ first ∨ agent.droneId = cfg.droneId := by tauto
        rw [if_pos skipped, if_neg present, ih]

theorem firstOcc_reports_iff (occupied : ℚ → Bool) (near : Option Bool) (times : List ℚ) :
    (∃ t, firstOcc occupied near times = some (some t)) ↔ times ≠ [] ∧
      (near = some true ∨ (near = some false ∧ ∃ t ∈ times, occupied t = true)) := by
  induction times with
  | nil => simp [firstOcc]
  | cons head rest ih =>
      cases near with
      | none => simp [firstOcc]
      | some close =>
          cases close with
          | true => simp [firstOcc]
          | false =>
              cases here : occupied head with
              | true => simp [firstOcc, here]
              | false =>
                  simp only [firstOcc, here, Option.bind_eq_bind, Option.bind_some, Bool.or_self,
                    Bool.false_eq_true, if_false]
                  rw [ih]
                  cases rest <;> simp [here]

/-- The times `t` of the loop, on the clock of the own trajectory. -/
def checkedTimes (inp : SafetyTick) (s : SwarmFsm) : List ℚ :=
  sampleTimes (toSec (inp.now - s.localData.startTime)) s.localData.duration

/-- An encounter at a sampled time sets `occ`. -/
def ReportsEncounters (cfg : ReplanConfig) (inp : SafetyTick) (s : SwarmFsm) : Prop :=
  (∃ t ∈ checkedTimes inp s, Encounter cfg s (toSec s.localData.startTime + t)) →
    ∃ t, callbackOcc cfg inp s = some (some t)

/-- A drone is too close at the present moment, and no drone before it stops the loop. -/
def CloseNow (cfg : ReplanConfig) (inp : SafetyTick) (s : SwarmFsm) : Prop :=
  ∃ agent, Reaches (fun agent => closeAt cfg s.localData agent (toSec inp.now))
      (others cfg 0 s.swarmTrajsBuf) agent ∧
    closeAt cfg s.localData agent (toSec inp.now) = some true

def ClearNow (cfg : ReplanConfig) (inp : SafetyTick) (s : SwarmFsm) : Prop :=
  ∀ agent ∈ others cfg 0 s.swarmTrajsBuf,
    closeAt cfg s.localData agent (toSec inp.now) = some false

theorem reported_iff (inp : SafetyTick) (s : SwarmFsm) :
    (∃ t, reported cfg inp s = some (some t)) ↔ checkedTimes inp s ≠ [] ∧
      (CloseNow cfg inp s ∨ (ClearNow cfg inp s ∧
        ∃ t ∈ checkedTimes inp s, inp.inflateOccupancy (s.localData.position t) ≠ 0)) := by
  unfold reported CloseNow ClearNow checkedTimes
  rw [firstOcc_reports_iff, agentNear_firstClose, firstClose_true_iff, firstClose_false_iff]
  simp only [decide_eq_true_eq]

theorem callbackOcc_iff (inp : SafetyTick) (s : SwarmFsm) {t : ℚ} :
    callbackOcc cfg inp s = some (some t) ↔
      ¬SafetyIdle s.toReplanFsm ∧ reported cfg inp s = some (some t) := by
  rw [callbackOcc]
  by_cases idle : SafetyIdle s.toReplanFsm
  · simp [idle]
  · simp [idle]

theorem checkCollisionCallback_of_occ {inp : SafetyTick} {s : SwarmFsm} {t : ℚ}
    (occ : callbackOcc cfg inp s = some (some t)) (planned : UniformBspline ℚ) :
    firstOccupied cfg (inp.observe s.swarmTrajsBuf) s.localData = some t ∧
      checkCollisionCallback cfg inp planned s =
        s.carry cfg planned (.safety (inp.observe s.swarmTrajsBuf)) := by
  obtain ⟨active, scanned⟩ := (callbackOcc_iff inp s).mp occ
  refine ⟨(reported_firstOccupied scanned).symm, ?_⟩
  rw [checkCollisionCallback, if_neg active, scanned]
  rfl

theorem checkTrajectory_clear {inp : SafetyInput} {s : ReplanFsm}
    (clear : firstOccupied cfg inp s.localData = none) : checkTrajectory cfg inp s = (s, []) := by
  rw [checkTrajectory, clear]

theorem checkCollisionCallback_quiet {inp : SafetyTick} {s : SwarmFsm}
    (quiet : callbackOcc cfg inp s = some none) (planned : UniformBspline ℚ) :
    checkCollisionCallback cfg inp planned s = some ({ s with
      toReplanFsm :=
        if SafetyIdle s.toReplanFsm ∨ s.depthOdomTimeout = false then s.toReplanFsm
        else { s.toReplanFsm with enableFailSafe := false }.change .emergencyStop }, []) := by
  rw [callbackOcc] at quiet
  rw [checkCollisionCallback]
  by_cases idle : SafetyIdle s.toReplanFsm
  · rw [if_pos idle, if_pos (.inl idle)]
  · rw [if_neg idle] at quiet
    have nothing := (reported_firstOccupied quiet).symm
    have observed : (Planner.step cfg s.toReplanFsm (.safety (inp.observe s.swarmTrajsBuf))) =
        Planner.checkCollisionCallback cfg (inp.observe s.swarmTrajsBuf) s.toReplanFsm := rfl
    rw [if_neg idle, quiet, Option.bind_eq_bind, Option.bind_some, SwarmFsm.carry, observed,
      Planner.checkCollisionCallback, if_neg idle]
    by_cases lost : s.depthOdomTimeout = true
    · have seen : ¬(SafetyIdle s.toReplanFsm ∨ s.depthOdomTimeout = false) := by simp [idle, lost]
      -- the emergency stop leaves the own trajectory alone
      have stopped : firstOccupied cfg (inp.observe s.swarmTrajsBuf)
          ({ s.toReplanFsm with enableFailSafe := false }.change .emergencyStop).localData = none :=
        nothing
      rw [if_pos lost, if_neg seen, checkTrajectory_clear stopped]
      rfl
    · rw [if_neg lost, if_pos (.inr (Bool.not_eq_true _ ▸ lost)), checkTrajectory_clear nothing]
      rfl

theorem reports_encounters_iff (cfg : ReplanConfig) (inp : SafetyTick) (s : SwarmFsm) :
    ReportsEncounters cfg inp s ↔
      ((∃ t ∈ checkedTimes inp s, Encounter cfg s (toSec s.localData.startTime + t)) →
        ¬SafetyIdle s.toReplanFsm ∧
          (CloseNow cfg inp s ∨ (ClearNow cfg inp s ∧
            ∃ t ∈ checkedTimes inp s, inp.inflateOccupancy (s.localData.position t) ≠ 0))) := by
  unfold ReportsEncounters
  simp only [callbackOcc_iff, exists_and_left]
  rw [reported_iff]
  constructor
  · intro reports encounter
    obtain ⟨active, _, covered⟩ := reports encounter
    exact ⟨active, covered⟩
  · intro covered encounter
    obtain ⟨active, found⟩ := covered encounter
    rcases encounter with ⟨t, sampled, close⟩
    exact ⟨active, List.ne_nil_of_mem sampled, found⟩

theorem ReportsEncounters.agrees {inp : SafetyTick} {s : SwarmFsm}
    (reports : ReportsEncounters cfg inp s) {agent : OneTrajDataOfSwarm}
    (present : agent ∈ others cfg 0 s.swarmTrajsBuf)
    (found : checkCollision cfg s.localData agent = some true)
    (common : ∀ instant ∈ sampleInstants s.localData agent,
      instant - toSec s.localData.startTime ∈ checkedTimes inp s) :
    ∃ t, callbackOcc cfg inp s = some (some t) := by
  unfold checkCollision at found
  split_ifs at found
  · simp at found
  · rcases (firstClose_true_iff _ _).mp found with ⟨instant, reached, close⟩
    have sampled := reaches_mem reached
    refine reports ⟨_, common instant sampled, agent, present, ?_⟩
    rw [add_sub_cancel]
    exact close

def dash : LocalTrajData := ⟨sec 2000, 0.6, fun t => ⟨3 * t, 0, 1⟩⟩

def hovering : OneTrajDataOfSwarm where
  droneId := 1
  duration := 4
  startTime := sec 2000
  startPos := ⟨1.2, 0, 1⟩
  positionTraj := ⟨List.replicate 7 ⟨1.2, 0, 1⟩, 3, 6, 10, [-3, -2, -1, 0, 1, 2, 3, 4, 5, 6, 7], 1⟩

def meeting : SwarmFsm :=
  { parkedSwarm with
    execState := .execTraj
    localData := dash
    swarmTrajsBuf := [blank, hovering] }

def clearSky (now : Time) : SafetyTick := ⟨now, fun _ => 0, failing⟩

theorem future_encounter_unreported :
    ¬∀ (cfg : ReplanConfig) (inp : SafetyTick) (s : SwarmFsm), ReportsEncounters cfg inp s := by
  intro every
  have sampled : (0.3 : ℚ) ∈ checkedTimes (clearSky (sec 2000)) meeting := by decide +kernel
  have close : closeAt typeOneFlight dash hovering (toSec dash.startTime + 0.3) = some true := by
    decide +kernel
  have known : hovering ∈ others typeOneFlight 0 meeting.swarmTrajsBuf :=
    mem_others_iff.mpr ⟨1, rfl, rfl, by decide⟩
  rcases every typeOneFlight (clearSky (sec 2000)) meeting ⟨0.3, sampled, hovering, known, close⟩
    with ⟨t, found⟩
  have missed : callbackOcc typeOneFlight (clearSky (sec 2000)) meeting = some none := by
    decide +kernel
  rw [missed] at found
  simp at found

end RobocupDrone.Planner.Swarm
