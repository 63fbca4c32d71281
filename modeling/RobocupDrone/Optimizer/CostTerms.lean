import Mathlib.Data.Rat.Floor
import RobocupDrone.Planner.UniformBspline

/-! The cost terms of `bspline_optimizer.cpp` with their gradients. `q` is the matrix of control
points, which every caller also holds in `cps_.points`. `none` stands for an index out of range. -/

namespace RobocupDrone.Optimizer

open Geometry Planner

variable {K : Type} [Field K] [LinearOrder K]

def truncate (x : ℚ) : ℤ := if 0 ≤ x then ⌊x⌋ else ⌈x⌉

def col (q : List (Vec3 K)) (i : ℕ) : Vec3 K := q.getD i 0

/-- `cost` and the columns of `gradient` while a term is added up. -/
structure Accumulator (K : Type) where
  cost : K
  gradient : ℕ → Vec3 K

namespace Accumulator

def addCost (c : K) (s : Accumulator K) : Accumulator K := { s with cost := s.cost + c }

def addCol (i : ℕ) (v : Vec3 K) (s : Accumulator K) : Accumulator K :=
  { s with gradient := Function.update s.gradient i (s.gradient i + v) }

def addEntry (j : Axis) (i : ℕ) (c : K) (s : Accumulator K) : Accumulator K :=
  s.addCol i (Vec3.along j c)

end Accumulator

def jerkStep (q : List (Vec3 K)) (s : Accumulator K) (i : ℕ) : Accumulator K :=
  let jerk := col q (i + 3) - (3 : K) • col q (i + 2) + (3 : K) • col q (i + 1) - col q i
  let tempJ := (2 : K) • jerk
  ((((s.addCost jerk.normSq).addCol (i + 0) (-tempJ)).addCol (i + 1) ((3 : K) • tempJ)).addCol
    (i + 2) ((-3 : K) • tempJ)).addCol (i + 3) tempJ

def accStep (q : List (Vec3 K)) (s : Accumulator K) (i : ℕ) : Accumulator K :=
  let acc := col q (i + 2) - (2 : K) • col q (i + 1) + col q i
  let tempAcc := (2 : K) • acc
  (((s.addCost acc.normSq).addCol (i + 0) tempAcc).addCol (i + 1) ((-2 : K) • tempAcc)).addCol
    (i + 2) tempAcc

def calcSmoothnessCost (q : List (Vec3 K)) (useJerk : Bool) (gradient : ℕ → Vec3 K) :
    Accumulator K :=
  if useJerk then (List.range (q.length - 3)).foldl (jerkStep q) ⟨0, gradient⟩
  else (List.range (q.length - 2)).foldl (accStep q) ⟨0, gradient⟩

def axes : List Axis := [.x, .y, .z]

/-- Coordinate `j` of the velocity `vi`. -/
def velocityEntry (maxVel ts : K) (vi : Vec3 K) (i : ℕ) (s : Accumulator K) (j : Axis) :
    Accumulator K :=
  let tsInv2 := 1 / ts / ts
  if vi.get j > maxVel then
    ((s.addCost ((vi.get j - maxVel) ^ 2 * tsInv2)).addEntry j (i + 0)
      (-2 * (vi.get j - maxVel) / ts * tsInv2)).addEntry j (i + 1)
        (2 * (vi.get j - maxVel) / ts * tsInv2)
  else if vi.get j < -maxVel then
    ((s.addCost ((vi.get j + maxVel) ^ 2 * tsInv2)).addEntry j (i + 0)
      (-2 * (vi.get j + maxVel) / ts * tsInv2)).addEntry j (i + 1)
        (2 * (vi.get j + maxVel) / ts * tsInv2)
  else s

def velocityStep (maxVel ts : K) (q : List (Vec3 K)) (s : Accumulator K) (i : ℕ) :
    Accumulator K :=
  let vi := (col q (i + 1) - col q i) / ts
  axes.foldl (velocityEntry maxVel ts vi i) s

/-- Coordinate `j` of the acceleration `ai`. -/
def accelerationEntry (maxAcc ts : K) (ai : Vec3 K) (i : ℕ) (s : Accumulator K) (j : Axis) :
    Accumulator K :=
  let tsInv2 := 1 / ts / ts
  if ai.get j > maxAcc then
    (((s.addCost ((ai.get j - maxAcc) ^ 2)).addEntry j (i + 0)
      (2 * (ai.get j - maxAcc) * tsInv2)).addEntry j (i + 1)
        (-4 * (ai.get j - maxAcc) * tsInv2)).addEntry j (i + 2) (2 * (ai.get j - maxAcc) * tsInv2)
  else if ai.get j < -maxAcc then
    (((s.addCost ((ai.get j + maxAcc) ^ 2)).addEntry j (i + 0)
      (2 * (ai.get j + maxAcc) * tsInv2)).addEntry j (i + 1)
        (-4 * (ai.get j + maxAcc) * tsInv2)).addEntry j (i + 2) (2 * (ai.get j + maxAcc) * tsInv2)
  else s

def accelerationStep (maxAcc ts : K) (q : List (Vec3 K)) (s : Accumulator K) (i : ℕ) :
    Accumulator K :=
  let ai := (1 / ts / ts) • (col q (i + 2) - (2 : K) • col q (i + 1) + col q i)
  axes.foldl (accelerationEntry maxAcc ts ai i) s

def calcFeasibilityCost (maxVel maxAcc ts : K) (q : List (Vec3 K)) (gradient : ℕ → Vec3 K) :
    Accumulator K :=
  let velocities := (List.range (q.length - 1)).foldl (velocityStep maxVel ts q) ⟨0, gradient⟩
  (List.range (q.length - 2)).foldl (accelerationStep maxAcc ts q) velocities

def calcTerminalCost (localTargetPt : Vec3 K) (q : List (Vec3 K)) (gradient : ℕ → Vec3 K) :
    Option (Accumulator K) :=
  if q.length < 3 then none
  else
    let q3 := col q (q.length - 3)
    let q2 := col q (q.length - 2)
    let q1 := col q (q.length - 1)
    let dq := (1 / 6 : K) • (q3 + (4 : K) • q2 + q1) - localTargetPt
    let s : Accumulator K := ⟨0, gradient⟩
    some ((((s.addCost dq.normSq).addCol (q.length - 3) ((1 / 6 : K) • (2 : K) • dq)).addCol
      (q.length - 2) ((4 / 6 : K) • (2 : K) • dq)).addCol (q.length - 1)
        ((1 / 6 : K) • (2 : K) • dq))

/-- `m * w` for the matrix `m` of `v`. -/
def skewMul (v w : Vec3 K) : Vec3 K :=
  ⟨0 * w.x + -v.z * w.y + v.y * w.z, v.z * w.x + 0 * w.y + -v.x * w.z,
    -v.y * w.x + v.x * w.y + 0 * w.z⟩

def fitnessStep (sqrt : K → K) (refPts q : List (Vec3 K)) (s : Accumulator K) (i : ℕ) :
    Option (Accumulator K) :=
  if q.length ≤ i + 1 then none
  else do
    let reference ← entry refPts ((i : ℤ) - 1)
    let next ← entry refPts (i : ℤ)
    let previous ← entry refPts ((i : ℤ) - 2)
    let a2 : K := 25
    let b2 : K := 1
    let x := (col q (i - 1) + (4 : K) • col q i + col q (i + 1)) / (6 : K) - reference
    let v := (next - previous).normalizedBy sqrt
    let xdotv := x.dot v
    let xcrossv := x.cross v
    let f := xdotv ^ 2 / a2 + xcrossv.lengthBy sqrt ^ 2 / b2
    let dfDx := (2 * xdotv / a2) • v + (2 / b2) • skewMul v xcrossv
    some ((((s.addCost f).addCol (i - 1) (dfDx / (6 : K))).addCol i
      ((4 : K) • dfDx / (6 : K))).addCol (i + 1) (dfDx / (6 : K)))

def calcFitnessCost (sqrt : K → K) (order : ℕ) (refPts q : List (Vec3 K))
    (gradient : ℕ → Vec3 K) : Option (Accumulator K) :=
  (List.range' (order - 1) (q.length + 2 - 2 * order)).foldlM
    (fitnessStep sqrt refPts q) ⟨0, gradient⟩

/-- `base_point[i][j]` with `direction[i][j]`; both vectors grow together. -/
structure Bound (K : Type) where
  basePoint : Vec3 K
  direction : Vec3 K
  deriving DecidableEq

def boundStep (clearance : K) (point : Vec3 K) (i : ℕ) (s : Accumulator K) (bound : Bound K) :
    Accumulator K :=
  let demarcation := clearance
  let a := 3 * demarcation
  let b := -3 * demarcation ^ 2
  let c := demarcation ^ 3
  let dist := (point - bound.basePoint).dot bound.direction
  let distErr := clearance - dist
  let distGrad := bound.direction
  if distErr < 0 then s
  else if distErr < demarcation then
    (s.addCost (distErr ^ 3)).addCol i ((-3 * distErr * distErr) • distGrad)
  else
    (s.addCost (a * distErr * distErr + b * distErr + c)).addCol i
      (-(2 * a * distErr + b) • distGrad)

def distanceCost (clearance : K) (order : ℕ) (bounds : List (List (Bound K))) (q : List (Vec3 K))
    (gradient : ℕ → Vec3 K) : Accumulator K :=
  (List.range' order (q.length - order - order)).foldl
    (fun s i => (bounds.getD i []).foldl (boundStep clearance (col q i) i) s) ⟨0, gradient⟩

/-- The members of an entry of `swarm_trajs_` that the cost reads. -/
structure OneTrajDataOfSwarm (K : Type) where
  droneId : ℤ
  startTime : K
  duration : K
  positionTraj : UniformBspline K

structure SwarmInput (K : Type) where
  order : ℕ
  swarmClearance : K
  bsplineInterval : K
  droneId : ℤ
  tNow : K
  swarmTrajs : List (OneTrajDataOfSwarm K)

/-- The term with `min_ellip_dist_`. -/
structure SwarmAccumulator (K : Type) extends Accumulator K where
  minEllipDist : K

/-- `end_idx` for a matrix of `cols` columns. -/
def swarmEndIdx (order cols : ℕ) : ℤ :=
  truncate (((cols : ℤ) - order : ℤ) - (((cols : ℤ) - 2 * order : ℤ) : ℚ) * 1 / 3)

def glbTime (inp : SwarmInput K) (i : ℕ) : K :=
  inp.tNow + (((inp.order : K) - 1) / 2 + ((i : K) - inp.order + 1)) * inp.bsplineInterval

def ellipDist (sqrt : K → K) (distVec : Vec3 K) : K :=
  let a : K := 2
  let b : K := 1
  let invA2 := 1 / a / a
  let invB2 := 1 / b / b
  sqrt (distVec.z * distVec.z * invA2 + (distVec.x * distVec.x + distVec.y * distVec.y) * invB2)

def Considered (inp : SwarmInput K) (i id : ℕ) (drone : OneTrajDataOfSwarm K) : Prop :=
  ¬(drone.droneId ≠ id ∨ drone.droneId = inp.droneId) ∧
    glbTime inp i < drone.startTime + drone.duration - 0.1

instance (inp : SwarmInput K) (i id : ℕ) (drone : OneTrajDataOfSwarm K) :
    Decidable (Considered inp i id drone) :=
  inferInstanceAs (Decidable (_ ∧ _))

def swarmPrid (inp : SwarmInput K) (i : ℕ) (drone : OneTrajDataOfSwarm K) : Option (Vec3 K) :=
  drone.positionTraj.evaluateDeBoorT (glbTime inp i - drone.startTime)

def ellipStep (sqrt : K → K) (swarmClearance : K) (point swarmPrid : Vec3 K) (i : ℕ)
    (s : SwarmAccumulator K) : SwarmAccumulator K :=
  let clearance := swarmClearance * 2
  let a : K := 2
  let b : K := 1
  let invA2 := 1 / a / a
  let invB2 := 1 / b / b
  let distVec := point - swarmPrid
  let distErr := clearance - ellipDist sqrt distVec
  let distGrad := point - swarmPrid
  let coeff := -2 * (clearance / ellipDist sqrt distVec - 1) * invB2
  let coeffZ := -2 * (clearance / ellipDist sqrt distVec - 1) * invA2
  let added :=
    if distErr < 0 then s.toAccumulator
    else (s.toAccumulator.addCost (distErr ^ 2)).addCol i
      ⟨coeff * distGrad.x, coeff * distGrad.y, coeffZ * distGrad.z⟩
  ⟨added, if s.minEllipDist > distErr then distErr else s.minEllipDist⟩

/-- One round of the inner loop, for the entry `id`. -/
def swarmStep (sqrt : K → K) (inp : SwarmInput K) (q : List (Vec3 K)) (i : ℕ)
    (s : SwarmAccumulator K) (indexed : OneTrajDataOfSwarm K × ℕ) : Option (SwarmAccumulator K) :=
  if Considered inp i indexed.2 indexed.1 then do
    let swarmPrid ← swarmPrid inp i indexed.1
    some (ellipStep sqrt inp.swarmClearance (col q i) swarmPrid i s)
  else some s

def calcSwarmCost (sqrt : K → K) (inp : SwarmInput K) (q : List (Vec3 K))
    (gradient : ℕ → Vec3 K) (minEllipDist : K) : Option (SwarmAccumulator K) :=
  (List.range' inp.order ((swarmEndIdx inp.order q.length).toNat - inp.order)).foldlM
    (fun s i => inp.swarmTrajs.zipIdx.foldlM (swarmStep sqrt inp q i) s)
    ⟨⟨0, gradient⟩, minEllipDist⟩

end RobocupDrone.Optimizer
