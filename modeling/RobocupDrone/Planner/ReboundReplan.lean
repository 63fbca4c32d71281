import RobocupDrone.Library.Ticks
import RobocupDrone.Planner.OneSegment

/-! The initial paths of `reboundReplan`, along a polynomial and from the previous trajectory. -/

namespace RobocupDrone.Planner.ReboundReplan

open Geometry Loop
open UniformBspline (Solver setUniformBspline)

variable {K : Type} [Field K] [LinearOrder K]

/-- The members of `pp_` that the initial paths depend on. -/
structure PlanParameters (K : Type) where
  maxVel : K
  maxAcc : K
  ctrlPtDist : K
  planningHorizen : K

/-- The members of `local_data_` that the initial path reads. -/
structure LocalData (K : Type) where
  positionTraj : UniformBspline K
  velocityTraj : UniformBspline K
  accelerationTraj : UniformBspline K
  duration : K

def updateTrajInfo (positionTraj : UniformBspline K) : Option (LocalData K) := do
  let velocityTraj ← positionTraj.getDerivative
  let accelerationTraj ← velocityTraj.getDerivative
  let duration ← positionTraj.getTimeSum
  some ⟨positionTraj, velocityTraj, accelerationTraj, duration⟩

def emergencyStop (stopPos : Vec3 K) : Option (LocalData K) := do
  updateTrajInfo (← setUniformBspline (List.replicate 6 stopPos) 3 1)

/-- Why there is no initial path: a vector is read outside its elements, a spline or a polynomial
is, the function returns false, or the loops go on. -/
inductive Stop
  | outOfRange
  | noEvaluation
  | returnsFalse
  | outOfFuel
  deriving DecidableEq

def orStop {α : Type} (stop : Stop) : Option α → Except Stop α
  | some a => .ok a
  | none => .error stop

section Vectors

variable {α : Type}

def read (v : List α) (i : ℕ) : Except Stop α := orStop .outOfRange v[i]?

def back (v : List α) : Except Stop α := orStop .outOfRange v.getLast?

def sizeMinusTwo (v : List α) : ℕ := if 2 ≤ v.length then v.length - 2 else 2 ^ 64 + v.length - 2

end Vectors

structure Path (K : Type) where
  pseudoArcLength : List K
  segmentPoint : List (Vec3 K)

structure Filling (K : Type) where
  path : Path K
  accessed : List (Path K)

/-- What `reboundReplan` is called with, and `t_cur`. -/
structure Request (K : Type) where
  startPt : Vec3 K
  startVel : Vec3 K
  startAcc : Vec3 K
  localTargetPt : Vec3 K
  localTargetVel : Vec3 K
  tCur : K

structure InitialPath (K : Type) where
  ts : K
  pointSet : List (Vec3 K)
  startEndDerivatives : List (Vec3 K)
  flagRegenerate : Bool

variable (sqrt : K → K) (solve : Solver K) (pp : PlanParameters K) (data : LocalData K)
  (request : Request K)

/-- `ts` at the start. -/
def initialTs : K :=
  if 1 / 10 < (request.startPt - request.localTargetPt).lengthBy sqrt then
    pp.ctrlPtDist / pp.maxVel * (3 / 2)
  else pp.ctrlPtDist / pp.maxVel * 5

structure Draws (K : Type) where
  horizen : K
  vertical : K
  continousFailuresCount : ℕ

def polynomialTime : K :=
  let dist := (request.startPt - request.localTargetPt).lengthBy sqrt
  if dist < pp.maxVel ^ 2 / pp.maxAcc then sqrt (dist / pp.maxAcc)
  else (dist - pp.maxVel ^ 2 / pp.maxAcc) / pp.maxVel + 2 * pp.maxVel / pp.maxAcc

def randomInsertedPt (draws : Draws K) : Vec3 K :=
  let way := request.startPt - request.localTargetPt
  let horizenDir := (way.cross ⟨0, 0, 1⟩).normalizedBy sqrt
  let verticalDir := (way.cross horizenDir).normalizedBy sqrt
  let spread : K := -(978 / 1000) / (draws.continousFailuresCount + 989 / 1000) + 989 / 1000
  (request.startPt + request.localTargetPt) / (2 : K) +
    ((draws.horizen - 1 / 2) * way.lengthBy sqrt * (8 / 10) * spread) • horizenDir +
    ((draws.vertical - 1 / 2) * way.lengthBy sqrt * (4 / 10) * spread) • verticalDir

def initialPolynomial (inverse : PolynomialTraj.Inverse K) (flagRandomPolyTraj : Bool)
    (draws : Draws K) : Option (PolynomialTraj K) :=
  let time := polynomialTime sqrt pp request
  if flagRandomPolyTraj then
    PolynomialTraj.minSnapTraj inverse
      [request.startPt, randomInsertedPt sqrt request draws, request.localTargetPt]
      request.startVel request.localTargetVel request.startAcc 0 [time / 2, time / 2]
  else some (PolynomialTraj.oneSegmentTrajGen solve request.startPt request.startVel
    request.startAcc request.localTargetPt request.localTargetVel 0 time)

/-- The `for` loop: `flag_too_far`, the time that it leaves with and the points. -/
def sampleSteps (evaluate : K → Option (Vec3 K)) (limit time ts : K) :
    ℕ → K → Vec3 K → List (Vec3 K) → Except Stop (Bool × K × List (Vec3 K))
  | 0, _, _, _ => .error .outOfFuel
  | fuel + 1, t, lastPt, pointSet =>
      if t < time then do
        let pt ← orStop .noEvaluation (evaluate t)
        if limit < (lastPt - pt).lengthBy sqrt then .ok (true, t, pointSet)
        else sampleSteps evaluate limit time ts fuel (t + ts) pt (pointSet ++ [pt])
      else .ok (false, t, pointSet)

/-- The `do` loop, with `fuel` for each of its inner loops: `ts`, the last time and the points. -/
def shrinkSteps (evaluate : K → Option (Vec3 K)) (limit time : K) (fuel : ℕ) :
    ℕ → K → Except Stop (K × K × List (Vec3 K))
  | 0, _ => .error .outOfFuel
  | rounds + 1, ts => do
      let ts := ts / (3 / 2)
      let lastPt ← orStop .noEvaluation (evaluate 0)
      let (flagTooFar, t, pointSet) ← sampleSteps sqrt evaluate limit time ts fuel 0 lastPt []
      if flagTooFar = true ∨ pointSet.length < 7 then
        shrinkSteps evaluate limit time fuel rounds ts
      else .ok (ts, t, pointSet)

def initFromPolynomial (inverse : PolynomialTraj.Inverse K) (flagRandomPolyTraj : Bool)
    (draws : Draws K) (fuel : ℕ) : Except Stop (InitialPath K) := do
  let glTraj ← orStop .noEvaluation
    (initialPolynomial sqrt solve pp request inverse flagRandomPolyTraj draws)
  let (ts, t, pointSet) ← shrinkSteps sqrt glTraj.evaluate (pp.ctrlPtDist * (3 / 2))
    (polynomialTime sqrt pp request) fuel fuel (initialTs sqrt pp request * (3 / 2))
  let startVel ← orStop .noEvaluation (glTraj.evaluateVel 0)
  let startAcc ← orStop .noEvaluation (glTraj.evaluateAcc 0)
  let endAcc ← orStop .noEvaluation (glTraj.evaluateAcc (t - ts))
  .ok ⟨ts, pointSet, [startVel, request.localTargetVel, startAcc, endAcc], false⟩

def Path.pushPoint (point : Vec3 K) (path : Path K) : Path K :=
  { path with segmentPoint := path.segmentPoint ++ [point] }

def Path.pushLength (path : Path K) : Except Stop (Path K) := do
  let last ← back path.segmentPoint
  let previous ← read path.segmentPoint (sizeMinusTwo path.segmentPoint)
  let length ← back path.pseudoArcLength
  .ok { path with
    pseudoArcLength := path.pseudoArcLength ++ [(last - previous).lengthBy sqrt + length] }

def sampleTrajectory (filling : Filling K) (t : K) : Except Stop (Filling K) := do
  let point ← orStop .noEvaluation (data.positionTraj.evaluateDeBoorT t)
  let path := filling.path.pushPoint point
  if request.tCur < t then do
    let path ← path.pushLength sqrt
    .ok ⟨path, filling.accessed ++ [filling.path]⟩
  else .ok { filling with path }

def samplePolynomial (glTraj : PolynomialTraj K) (filling : Filling K) (t : K) :
    Except Stop (Filling K) := do
  if filling.path.pseudoArcLength = [] then .error .returnsFalse
  else do
    let point ← orStop .noEvaluation (glTraj.evaluate t)
    let path ← (filling.path.pushPoint point).pushLength sqrt
    .ok ⟨path, filling.accessed ++ [filling.path]⟩

/-- `poly_time`, from the point that the previous trajectory is left at. -/
def polyTime (point : Vec3 K) : K :=
  (point - request.localTargetPt).lengthBy sqrt / pp.maxVel * 2

def fillFromTrajectory (fuel : ℕ) : Except Stop (Filling K × K) := do
  let ts := initialTs sqrt pp request
  let (times, t) ← orStop .outOfFuel (ticks (· < data.duration + 1 / 1000) ts fuel request.tCur)
  let filling ← times.foldlM (sampleTrajectory sqrt data request) ⟨⟨[0], []⟩, []⟩
  .ok (filling, t - ts)

/-- The second loop, from the state at `t` to the local target. -/
def fillFromPolynomial (fuel : ℕ) (filling : Filling K) (t : K) : Except Stop (Filling K) := do
  let ts := initialTs sqrt pp request
  let point ← orStop .noEvaluation (data.positionTraj.evaluateDeBoorT t)
  let polyTime := polyTime sqrt pp request point
  if ts < polyTime then do
    let vel ← orStop .noEvaluation (data.velocityTraj.evaluateDeBoorT t)
    let acc ← orStop .noEvaluation (data.accelerationTraj.evaluateDeBoorT t)
    let glTraj := PolynomialTraj.oneSegmentTrajGen solve point vel acc request.localTargetPt
      request.localTargetVel 0 polyTime
    let (times, _) ← orStop .outOfFuel (ticks (· < polyTime) ts fuel ts)
    times.foldlM (samplePolynomial sqrt glTraj) filling
  else .ok filling

def fillPath (fuel : ℕ) : Except Stop (Filling K) := do
  let (filling, t) ← fillFromTrajectory sqrt pp data request fuel
  fillFromPolynomial sqrt solve pp data request fuel filling t

section Resampling

variable (path : Path K)

def goesOn (id : ℕ) (sampleLength : K) : Except Stop Bool :=
  if id ≤ sizeMinusTwo path.pseudoArcLength then do
    let length ← back path.pseudoArcLength
    .ok (sampleLength ≤ length)
  else .ok false

def onLeg (id : ℕ) (sampleLength : K) : Except Stop Bool := do
  let low ← read path.pseudoArcLength id
  if low ≤ sampleLength then do
    let high ← read path.pseudoArcLength (id + 1)
    .ok (sampleLength < high)
  else .ok false

def pointOnLeg (id : ℕ) (sampleLength : K) : Except Stop (Vec3 K) := do
  let low ← read path.pseudoArcLength id
  let high ← read path.pseudoArcLength (id + 1)
  let next ← read path.segmentPoint (id + 1)
  let this ← read path.segmentPoint id
  .ok (((sampleLength - low) / (high - low)) • next +
    ((high - sampleLength) / (high - low)) • this)

def sampleLegs (cpsDist : K) : ℕ → ℕ → K → List (Vec3 K) → Except Stop (List (Vec3 K))
  | 0, _, _, _ => .error .outOfFuel
  | fuel + 1, id, sampleLength, pointSet => do
      if ← goesOn path id sampleLength then
        if ← onLeg path id sampleLength then do
          let point ← pointOnLeg path id sampleLength
          sampleLegs cpsDist fuel id (sampleLength + cpsDist) (pointSet ++ [point])
        else sampleLegs cpsDist fuel (id + 1) sampleLength pointSet
      else .ok pointSet

/-- The `do` loop, with `fuel` for each of its inner loops. -/
def resample (localTargetPt : Vec3 K) (fuel : ℕ) : ℕ → K → Except Stop (List (Vec3 K))
  | 0, _ => .error .outOfFuel
  | rounds + 1, cpsDist => do
      let cpsDist := cpsDist / (3 / 2)
      let samples ← sampleLegs path cpsDist fuel 0 0 []
      let pointSet := samples ++ [localTargetPt]
      if pointSet.length < 7 then resample localTargetPt fuel rounds cpsDist else .ok pointSet

end Resampling

def initFromPrevious (fuel : ℕ) : Except Stop (InitialPath K) := do
  let filling ← fillPath sqrt solve pp data request fuel
  let pointSet ← resample filling.path request.localTargetPt fuel fuel (pp.ctrlPtDist * (3 / 2))
  let vel ← orStop .noEvaluation (data.velocityTraj.evaluateDeBoorT request.tCur)
  let acc ← orStop .noEvaluation (data.accelerationTraj.evaluateDeBoorT request.tCur)
  .ok ⟨initialTs sqrt pp request, pointSet, [vel, request.localTargetVel, acc, 0],
    pp.planningHorizen / pp.ctrlPtDist * 3 < pointSet.length⟩

theorem initialTs_pos [IsStrictOrderedRing K] {sqrt : K → K} {pp : PlanParameters K}
    {request : Request K} (spread : 0 < pp.ctrlPtDist) (moving : 0 < pp.maxVel) :
    0 < initialTs sqrt pp request := by
  have quotient := div_pos spread moving
  rw [initialTs]
  split_ifs
  · linarith
  · linarith

end RobocupDrone.Planner.ReboundReplan
