import RobocupDrone.Planner.EmergencyStop
import RobocupDrone.Planner.SwarmStep

/-! What `BroadcastBsplineCallback` needs of a message to stay inside its vectors, and what it does
to the buffer of the other drones. -/

namespace RobocupDrone.Planner.Swarm

open Geometry Reactive
open Controller (Time)

variable {cfg : ReplanConfig}

def splineOf (msg : Bspline) : UniformBspline ℚ :=
  ⟨msg.posPts, msg.order, msg.posPts.length - 1, msg.posPts.length - 1 + msg.order + 1, msg.knots,
    msg.knots.getD 1 0 - msg.knots.getD 0 0⟩

def Sized (msg : Bspline) : Prop :=
  0 ≤ msg.order ∧ msg.order < msg.posPts.length ∧ msg.posPts.length < msg.knots.length

/-- The knots that an evaluation at `t` reads are there. -/
def SpanInside (msg : Bspline) (t : ℚ) : Prop :=
  ∀ k, (splineOf msg).spanAt t = some k → 0 < msg.order → k + msg.order < msg.knots.length

theorem evaluates_iff {msg : Bspline} (sized : Sized msg) (t : ℚ) :
    ((splineOf msg).evaluateDeBoorT t).isSome ↔ SpanInside msg t := by
  rcases sized with ⟨nonneg, points, knots⟩
  have degree : (splineOf msg).p = (msg.order.toNat : Int) := (Int.toNat_of_nonneg nonneg).symm
  have last : (splineOf msg).m = (splineOf msg).controlPoints.length + msg.order.toNat := by
    simp only [splineOf]
    omega
  rcases UniformBspline.spanAt_inside degree last
    (show msg.order.toNat < msg.posPts.length by omega) knots t with ⟨k, found, inside⟩
  rw [UniformBspline.evaluateDeBoorT_isSome_iff]
  constructor
  · rintro ⟨span, same, _, reads⟩ k found positive
    rw [same, Option.some.injEq] at found
    simp only [splineOf] at reads
    omega
  · intro reads
    refine ⟨k, found, inside, fun positive => ?_⟩
    simp only [splineOf] at positive ⊢
    have bound := reads k found (by omega)
    omega

theorem storedTraj_splineOf {msg : Bspline} (nonneg : 0 ≤ msg.order)
    (knots : 2 ≤ msg.knots.length) : storedTraj msg = some (splineOf msg) := by
  have second : msg.knots[1]? = some (msg.knots.getD 1 0) := by
    rw [List.getD_eq_getElem?_getD, List.getElem?_eq_getElem (by omega), Option.getD_some]
  have first : msg.knots[0]? = some (msg.knots.getD 0 0) := by
    rw [List.getD_eq_getElem?_getD, List.getElem?_eq_getElem (by omega), Option.getD_some]
  have made := UniformBspline.setKnot_setUniformBspline nonneg msg.posPts
    (msg.knots.getD 1 0 - msg.knots.getD 0 0) msg.knots
  simp only [storedTraj, second, first, Option.bind_eq_bind, Option.bind_some]
  rw [Option.map_eq_bind] at made
  exact made

theorem ceil_cutback (order : Int) : ⌈(order : ℚ) / 2 + 1.5⌉ = order / 2 + 2 := by
  have split := Int.emod_add_mul_ediv order 2
  have parity := Int.emod_two_eq_zero_or_one order
  have cast : (order : ℚ) = (order % 2 : Int) + 2 * (order / 2 : Int) := by
    exact_mod_cast split.symm
  rw [Int.ceil_eq_iff, cast]
  push_cast
  rcases parity with even | odd
  · rw [even]
    constructor <;> linarith
  · rw [odd]
    constructor <;> linarith

theorem floor_cutback {order : Int} (even : order % 2 = 0) :
    ⌊(order : ℚ) / 2 + 1.5⌋ = order / 2 + 1 := by
  have split := Int.emod_add_mul_ediv order 2
  have cast : (order : ℚ) = 2 * (order / 2 : Int) := by
    rw [even, zero_add] at split
    exact_mod_cast split.symm
  rw [Int.floor_eq_iff, cast]
  push_cast
  constructor <;> linarith

theorem entry_isSome_iff {α : Type} (v : List α) (i : Int) :
    (entry v i).isSome ↔ 0 ≤ i ∧ i < v.length := by
  unfold entry
  split_ifs with nonneg
  · rw [isSome_getElem?]
    omega
  · simp [nonneg]

theorem bind_pair_isSome {α β γ : Type} (x : Option α) (y : Option β) (f : α → β → γ) :
    (do let a ← x; let b ← y; some (f a b)).isSome ↔ x.isSome ∧ y.isSome := by
  cases x <;> cases y <;> simp

theorem storedDuration_isSome_iff (msg : Bspline) :
    (storedDuration msg).isSome ↔ -1 ≤ msg.order ∧ msg.order / 2 + 2 ≤ msg.knots.length := by
  unfold storedDuration
  simp only [ceil_cutback]
  split_ifs with odd
  · rw [entry_isSome_iff]
    omega
  · have even : msg.order % 2 = 0 := by omega
    rw [floor_cutback even, bind_pair_isSome, entry_isSome_iff, entry_isSome_iff]
    omega

theorem storedTraj_order {msg : Bspline} {posTraj : UniformBspline ℚ}
    (points : 3 ≤ msg.posPts.length) (order : -1 ≤ msg.order)
    (made : storedTraj msg = some posTraj) : 0 ≤ msg.order := by
  by_contra negative
  have isMinusOne : msg.order = -1 := by omega
  simp only [storedTraj, isMinusOne, Option.bind_eq_bind, Option.bind_eq_some_iff] at made
  rcases made with ⟨second, _, first, _, spline, uniform, _⟩
  rw [UniformBspline.setUniformBspline_minus_one (show 0 < msg.posPts.length by omega)] at uniform
  contradiction

theorem evaluates_sized {msg : Bspline} (nonneg : 0 ≤ msg.order) {t : ℚ}
    (evaluates : ((splineOf msg).evaluateDeBoorT t).isSome) : Sized msg := by
  rw [UniformBspline.evaluateDeBoorT_isSome_iff] at evaluates
  rcases evaluates with ⟨k, span, inside, _⟩
  unfold UniformBspline.spanAt at span
  simp only [Option.bind_eq_bind, Option.bind_eq_some_iff] at span
  rcases span with ⟨low, _, high, last, found⟩
  have above := UniformBspline.knotSpan_bounds _ _ _ found
  have bound := (entry_isSome_iff _ _).mp (Option.isSome_iff_exists.mpr ⟨high, last⟩)
  simp only [splineOf] at inside above bound
  refine ⟨nonneg, ?_, ?_⟩ <;> omega

theorem storeData_isSome_iff {msg : Bspline} (points : 3 ≤ msg.posPts.length) (id : Nat) :
    (storeData id msg).isSome ↔ Sized msg ∧ SpanInside msg 0 := by
  constructor
  · intro stored
    rw [Option.isSome_iff_exists] at stored
    simp only [storeData, Option.bind_eq_bind, Option.bind_eq_some_iff] at stored
    rcases stored with ⟨_, duration, timed, posTraj, made, startPos, evaluated, _⟩
    have order := (storedDuration_isSome_iff msg).mp (by rw [timed]; rfl)
    have nonneg : 0 ≤ msg.order := storedTraj_order points order.1 made
    have knots : 2 ≤ msg.knots.length := by omega
    rw [storedTraj_splineOf nonneg knots, Option.some.injEq] at made
    have evaluates : ((splineOf msg).evaluateDeBoorT 0).isSome := by
      rw [made, evaluated]
      rfl
    have sized := evaluates_sized nonneg evaluates
    exact ⟨sized, (evaluates_iff sized 0).mp evaluates⟩
  · rintro ⟨sized, reads⟩
    have evaluates := (evaluates_iff sized 0).mpr reads
    rcases Option.isSome_iff_exists.mp evaluates with ⟨startPos, evaluated⟩
    rcases sized with ⟨nonneg, enough, knots⟩
    have timed := (storedDuration_isSome_iff msg).mpr (by omega)
    rcases Option.isSome_iff_exists.mp timed with ⟨duration, timed⟩
    simp [storeData, timed, storedTraj_splineOf nonneg (show 2 ≤ msg.knots.length by omega),
      evaluated]

theorem pushBlanks_append (rounds : Nat) (buf : List OneTrajDataOfSwarm) :
    pushBlanks rounds buf = buf ++ List.replicate rounds blank := by
  induction rounds generalizing buf with
  | zero => simp [pushBlanks]
  | succ rounds ih =>
      rw [pushBlanks, ih, List.append_assoc, List.replicate_succ, List.singleton_append]

theorem fillUp_eq_some {id : Nat} {buf filled : List OneTrajDataOfSwarm}
    (done : fillUp id buf = some filled) :
    id < vectorMaxSize ∧ filled = buf ++ List.replicate (id + 1 - buf.length) blank := by
  unfold fillUp at done
  split_ifs at done with full
  · rw [pushBlanks_append, Option.some.injEq] at done
    exact ⟨by omega, done.symm⟩

theorem fillUp_old {id i : Nat} {buf filled : List OneTrajDataOfSwarm}
    (done : fillUp id buf = some filled) (old : i < buf.length) : filled[i]? = buf[i]? := by
  rw [(fillUp_eq_some done).2, List.getElem?_append_left old]

theorem fillUp_new {id i : Nat} {buf filled : List OneTrajDataOfSwarm} {agent : OneTrajDataOfSwarm}
    (done : fillUp id buf = some filled) (new : buf.length ≤ i)
    (present : filled[i]? = some agent) : agent = blank := by
  rw [(fillUp_eq_some done).2, List.getElem?_append_right new] at present
  exact (List.mem_replicate.mp (List.mem_of_getElem? present)).2

theorem storeBroadcast_others {msg : Bspline} {s after : SwarmFsm}
    (done : storeBroadcast cfg msg s = some after) :
    ∃ filled, fillUp (sizeT msg.droneId) s.swarmTrajsBuf = some filled ∧
      ∀ i, i ≠ sizeT msg.droneId → after.swarmTrajsBuf[i]? = filled[i]? := by
  rcases storeBroadcast_cases done with ⟨filled, startPt, grown, _, far | near⟩
  · refine ⟨filled, grown, fun i other => ?_⟩
    rw [far.2, List.getElem?_modify_ne _ _ (Ne.symm other)]
  · rcases near with ⟨_, stored, collision, _, _, same⟩
    refine ⟨filled, grown, fun i other => ?_⟩
    rw [same, List.getElem?_set_ne (Ne.symm other)]

theorem swarmStartPt_isSome_iff (msg : Bspline) :
    (swarmStartPt msg).isSome ↔ 3 ≤ msg.posPts.length := by
  unfold swarmStartPt
  by_cases enough : 3 ≤ msg.posPts.length
  · have first : msg.posPts[0]? = some msg.posPts[0] := List.getElem?_eq_getElem (by omega)
    have second : msg.posPts[1]? = some msg.posPts[1] := List.getElem?_eq_getElem (by omega)
    have third : msg.posPts[2]? = some msg.posPts[2] := List.getElem?_eq_getElem (by omega)
    simp [first, second, third, enough]
  · have missing : msg.posPts[2]? = none := List.getElem?_eq_none (by omega)
    cases first : msg.posPts[0]? with
    | none => simp [enough]
    | some cp0 => cases second : msg.posPts[1]? <;> simp [missing, enough]

def Far (cfg : ReplanConfig) (msg : Bspline) (s : SwarmFsm) : Prop :=
  ∃ startPt, swarmStartPt msg = some startPt ∧ tooFar cfg s.odomPos startPt = true

/-- `checkCollision` reads only knots that are there, up to the first time at which the drones are
close. -/
def CheckInside (cfg : ReplanConfig) (own : LocalTrajData) (msg : Bspline) : Prop :=
  1000000000 ≤ toSec own.startTime →
    ∀ stored, storeData (sizeT msg.droneId) msg = some stored →
      ∀ t, Reaches (closeAt cfg own stored) (sampleInstants own stored) t →
        SpanInside msg (t - toSec msg.startTime)

theorem storeData_fields {id : Nat} {msg : Bspline} {stored : OneTrajDataOfSwarm}
    (storing : storeData id msg = some stored) :
    stored.droneId = id ∧ stored.startTime = msg.startTime ∧
      storedDuration msg = some stored.duration ∧ storedTraj msg = some stored.positionTraj ∧
      stored.positionTraj.evaluateDeBoorT 0 = some stored.startPos := by
  simp only [storeData, Option.bind_eq_bind, Option.bind_eq_some_iff, Option.some.injEq] at storing
  rcases storing with ⟨duration, timed, posTraj, made, startPos, evaluated, same⟩
  rw [← same]
  exact ⟨rfl, rfl, timed, made, evaluated⟩

theorem checkCollision_isSome_iff {msg : Bspline} {stored : OneTrajDataOfSwarm}
    {own : LocalTrajData} (points : 3 ≤ msg.posPts.length)
    (storing : storeData (sizeT msg.droneId) msg = some stored) :
    (checkCollision cfg own stored).isSome ↔ CheckInside cfg own msg := by
  have sized := ((storeData_isSome_iff points (sizeT msg.droneId)).mp (by rw [storing]; rfl)).1
  rcases storeData_fields storing with ⟨_, startTime, _, traj, _⟩
  have known : storedTraj msg = _ :=
    storedTraj_splineOf sized.1 (by have := sized.2; omega)
  rw [known, Option.some.injEq] at traj
  have evaluated : ∀ t, (closeAt cfg own stored t).isSome ↔
      SpanInside msg (t - toSec msg.startTime) := by
    intro t
    rw [← evaluates_iff sized, traj, ← startTime]
    unfold closeAt
    cases stored.positionTraj.evaluateDeBoorT (t - toSec stored.startTime) <;> simp
  unfold checkCollision CheckInside
  split_ifs with idle
  · simp only [Option.isSome_some, true_iff]
    intro started
    exact absurd idle (not_lt.mpr started)
  · simp only [firstClose_isSome_iff, evaluated, not_lt.mp idle, storing, Option.some.injEq,
      forall_true_left, forall_eq']

/-- What the callback promises of a broadcast: it returns, it keeps the entries of the other
drones, and the entries that it adds for them are blank. -/
def HandledSafely (cfg : ReplanConfig) (now : Time) (msg : Bspline) (s : SwarmFsm) : Prop :=
  ∃ after, broadcastBsplineCallback cfg now msg s = some after ∧
    ∀ i : Nat, (i : Int) ≠ msg.droneId →
      (i < s.swarmTrajsBuf.length → after.swarmTrajsBuf[i]? = s.swarmTrajsBuf[i]?) ∧
      (s.swarmTrajsBuf.length ≤ i →
        ∀ agent, after.swarmTrajsBuf[i]? = some agent → agent.droneId = -1)

theorem sizeT_nonneg {i : Int} (nonneg : 0 ≤ i) (int32 : i < 2 ^ 31) : (sizeT i : Int) = i := by
  unfold sizeT
  omega

theorem sizeT_negative {i : Int} (negative : i < 0) (int32 : -2 ^ 31 ≤ i) :
    vectorMaxSize ≤ sizeT i := by
  unfold sizeT vectorMaxSize
  omega

theorem storeBroadcast_returns {msg : Bspline} {s : SwarmFsm}
    (small : sizeT msg.droneId < vectorMaxSize) (points : 3 ≤ msg.posPts.length)
    (outcome : Far cfg msg s ∨
      (Sized msg ∧ SpanInside msg 0 ∧ CheckInside cfg s.localData msg)) :
    ∃ after, storeBroadcast cfg msg s = some after := by
  have grown : ∃ filled, fillUp (sizeT msg.droneId) s.swarmTrajsBuf = some filled := by
    unfold fillUp
    rw [if_neg (by omega)]
    exact ⟨_, rfl⟩
  rcases grown with ⟨filled, grown⟩
  rcases Option.isSome_iff_exists.mp ((swarmStartPt_isSome_iff msg).mpr points) with
    ⟨startPt, read⟩
  simp only [storeBroadcast, grown, read, Option.bind_eq_bind, Option.bind_some]
  by_cases far : tooFar cfg s.odomPos startPt = true
  · rw [if_pos far]
    exact ⟨_, rfl⟩
  rw [if_neg far]
  rcases outcome with ⟨point, same, away⟩ | ⟨sized, start, check⟩
  · rw [read, Option.some.injEq] at same
    rw [same] at far
    contradiction
  · rcases Option.isSome_iff_exists.mp ((storeData_isSome_iff points _).mpr ⟨sized, start⟩) with
      ⟨stored, storing⟩
    rcases Option.isSome_iff_exists.mp ((checkCollision_isSome_iff points storing).mpr check) with
      ⟨collision, checked⟩
    simp only [storing, checked, Option.bind_some]
    cases collision with
    | false => exact ⟨_, rfl⟩
    | true => exact ⟨_, rfl⟩

/-- A stale message is left alone. Otherwise the growth loop ends, and every read is inside, when
the id is not negative, the first three control points are there, and the sender is too far away
or has sent the knots that are read. -/
def StaysInside (cfg : ReplanConfig) (now : Time) (msg : Bspline) (s : SwarmFsm) : Prop :=
  |toSec (now - msg.startTime)| > 0.25 ∨
    (0 ≤ msg.droneId ∧ 3 ≤ msg.posPts.length ∧
      (Far cfg msg s ∨ (Sized msg ∧ SpanInside msg 0 ∧ CheckInside cfg s.localData msg)))

theorem StaysInside.handled {now : Time} {msg : Bspline} {s : SwarmFsm}
    (int32 : msg.droneId < 2 ^ 31) (other : msg.droneId ≠ cfg.droneId)
    (inside : StaysInside cfg now msg s) : HandledSafely cfg now msg s := by
  unfold HandledSafely broadcastBsplineCallback
  rw [if_neg other]
  by_cases late : |toSec (now - msg.startTime)| > 0.25
  · rw [if_pos late]
    refine ⟨s, rfl, fun i _ => ⟨fun _ => rfl, fun new agent present => ?_⟩⟩
    rw [List.getElem?_eq_none new] at present
    contradiction
  rw [if_neg late]
  rcases inside with stale | ⟨nonneg, points, outcome⟩
  · contradiction
  have id := sizeT_nonneg nonneg int32
  have small : sizeT msg.droneId < vectorMaxSize := by
    unfold vectorMaxSize
    omega
  rcases storeBroadcast_returns small points outcome with ⟨after, done⟩
  rcases storeBroadcast_others done with ⟨filled, grown, others⟩
  refine ⟨after, done, fun i different => ?_⟩
  rw [others i (by omega)]
  refine ⟨fillUp_old grown, fun new agent present => ?_⟩
  rw [fillUp_new grown new present]
  rfl

theorem HandledSafely.inside {now : Time} {msg : Bspline} {s : SwarmFsm}
    (int32 : -2 ^ 31 ≤ msg.droneId) (other : msg.droneId ≠ cfg.droneId)
    (handled : HandledSafely cfg now msg s) : StaysInside cfg now msg s := by
  rcases handled with ⟨after, done, _⟩
  unfold broadcastBsplineCallback at done
  rw [if_neg other] at done
  by_cases late : |toSec (now - msg.startTime)| > 0.25
  · exact .inl late
  rw [if_neg late] at done
  rcases storeBroadcast_cases done with ⟨filled, startPt, grown, read, outcome⟩
  have small := (fillUp_eq_some grown).1
  have nonneg : 0 ≤ msg.droneId := by
    by_contra negative
    have large := sizeT_negative (not_le.mp negative) int32
    omega
  have points := (swarmStartPt_isSome_iff msg).mp (by rw [read]; rfl)
  refine .inr ⟨nonneg, points, ?_⟩
  rcases outcome with far | ⟨_, stored, collision, storing, checked, _⟩
  · exact .inl ⟨startPt, read, far.1⟩
  · have enough := (storeData_isSome_iff points (sizeT msg.droneId)).mp (by rw [storing]; rfl)
    have check := (checkCollision_isSome_iff points storing).mp (by rw [checked]; rfl)
    exact .inr ⟨enough.1, enough.2, check⟩

theorem broadcast_handled_iff {now : Time} {msg : Bspline} {s : SwarmFsm}
    (int32 : -2 ^ 31 ≤ msg.droneId ∧ msg.droneId < 2 ^ 31) (other : msg.droneId ≠ cfg.droneId) :
    HandledSafely cfg now msg s ↔ StaysInside cfg now msg s :=
  ⟨HandledSafely.inside int32.1 other, StaysInside.handled int32.2 other⟩

/-- A message with a knot for every span that its control points allow. -/
structure WellFormed (msg : Bspline) : Prop where
  id : 0 ≤ msg.droneId ∧ msg.droneId < 2 ^ 31
  points : 3 ≤ msg.posPts.length
  order : 0 ≤ msg.order ∧ msg.order < msg.posPts.length
  knots : msg.posPts.length + msg.order ≤ msg.knots.length ∧
    msg.posPts.length < msg.knots.length

theorem WellFormed.sized {msg : Bspline} (formed : WellFormed msg) : Sized msg :=
  ⟨formed.order.1, formed.order.2, formed.knots.2⟩

theorem WellFormed.spanInside {msg : Bspline} (formed : WellFormed msg) (t : ℚ) :
    SpanInside msg t := by
  intro k span positive
  have degree : (splineOf msg).p = (msg.order.toNat : Int) :=
    (Int.toNat_of_nonneg formed.order.1).symm
  have last : (splineOf msg).m = (splineOf msg).controlPoints.length + msg.order.toNat := by
    have nonneg := formed.order.1
    simp only [splineOf]
    omega
  have enough : msg.order.toNat < msg.posPts.length := by
    have order := formed.order
    omega
  rcases UniformBspline.spanAt_inside degree last enough formed.knots.2 t with
    ⟨found, same, inside⟩
  rw [same, Option.some.injEq] at span
  simp only [splineOf] at inside
  have room := formed.knots.1
  omega

theorem WellFormed.staysInside {msg : Bspline} (formed : WellFormed msg) (now : Time)
    (s : SwarmFsm) : StaysInside cfg now msg s := by
  refine .inr ⟨formed.id.1, formed.points, .inr ⟨formed.sized, formed.spanInside 0, ?_⟩⟩
  intro _ stored _ t _
  exact formed.spanInside _

theorem WellFormed.handled {msg : Bspline} (formed : WellFormed msg)
    (other : msg.droneId ≠ cfg.droneId) (now : Time) (s : SwarmFsm) :
    HandledSafely cfg now msg s :=
  StaysInside.handled formed.id.2 other (formed.staysInside now s)

def parkedSwarm : SwarmFsm where
  toReplanFsm := parkedReplanner
  trajId := 0
  positionTraj := ⟨[], 0, 0, 0, [], 0⟩
  multiBsplineMsgsBuf := ⟨0, []⟩
  swarmTrajsBuf := []

/-- Drone `id` rests one metre above the origin for four seconds. -/
def resting (id : Int) : Bspline where
  droneId := id
  order := 3
  trajId := 1
  startTime := 0
  knots := [-3, -2, -1, 0, 1, 2, 3, 4, 5, 6, 7]
  posPts := List.replicate 7 ⟨0, 0, 1⟩
  yawPts := []
  yawDt := 0

theorem resting_formed : WellFormed (resting 3) :=
  ⟨by decide, by decide, by decide, by decide⟩

theorem resting_handled : HandledSafely typeOneFlight 0 (resting 3) parkedSwarm :=
  (broadcast_handled_iff (by decide) (by decide)).mpr (resting_formed.staysInside 0 parkedSwarm)

/-- A planner that flies alone has the id minus one. -/
theorem lone_planner_unhandled :
    ¬∀ (cfg : ReplanConfig) (now : Time) (msg : Bspline) (s : SwarmFsm),
      -2 ^ 31 ≤ msg.droneId ∧ msg.droneId < 2 ^ 31 → msg.droneId ≠ cfg.droneId →
        HandledSafely cfg now msg s := by
  intro every
  rcases every typeOneFlight 0 (resting (-1)) parkedSwarm (by decide) (by decide) with
    ⟨after, done, _⟩
  have stopped : (broadcastBsplineCallback typeOneFlight 0 (resting (-1)) parkedSwarm).isNone := by
    decide +kernel
  rw [done] at stopped
  contradiction

end RobocupDrone.Planner.Swarm
