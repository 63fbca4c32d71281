import Mathlib.Analysis.SpecialFunctions.Sqrt
import RobocupDrone.Library.Gradient
import RobocupDrone.Library.Loop
import RobocupDrone.Optimizer.SwarmClearance

/-! The gradients that the cost terms add up are those of their costs. -/

namespace RobocupDrone.Optimizer

open Geometry Planner Gradient Loop

variable {E : Type*} [NormedAddCommGroup E] [NormedSpace ℝ E]

/-- A matrix of `n` control points that moves with a parameter. -/
structure PointsMove (path : E → List (Vec3 ℝ)) (n : ℕ) (D : ℕ → Axis → E →L[ℝ] ℝ) (x : E) :
    Prop where
  length : ∀ s, (path s).length = n
  column : ∀ j < n, VecMoves (fun s => col (path s) j) (D j) x

def Tracks (n : ℕ) (D : ℕ → Axis → E →L[ℝ] ℝ) (x : E) (start : ℕ → Vec3 ℝ)
    (S : E → Accumulator ℝ) : Prop :=
  HasFDerivAt (fun s => (S s).cost) (pairedColumns n ((S x).gradient - start) D) x

theorem gradient_addCol (s : Accumulator ℝ) (i : ℕ) (v : Vec3 ℝ) :
    (s.addCol i v).gradient = s.gradient + Pi.single i v := by
  funext j
  change Function.update s.gradient i (s.gradient i + v) j =
    s.gradient j + (Pi.single i v : ℕ → Vec3 ℝ) j
  by_cases same : j = i
  · subst same
    rw [Function.update_self, Pi.single_eq_same]
  · rw [Function.update_of_ne same, Pi.single_eq_of_ne same, add_zero]

@[simp] theorem gradient_addCost (s : Accumulator ℝ) (c : ℝ) :
    (s.addCost c).gradient = s.gradient := rfl

@[simp] theorem cost_addCost (s : Accumulator ℝ) (c : ℝ) : (s.addCost c).cost = s.cost + c := rfl

@[simp] theorem cost_addCol (s : Accumulator ℝ) (i : ℕ) (v : Vec3 ℝ) :
    (s.addCol i v).cost = s.cost := rfl

@[simp] theorem cost_addEntry (s : Accumulator ℝ) (j : Axis) (i : ℕ) (c : ℝ) :
    (s.addEntry j i c).cost = s.cost := rfl

theorem gradient_addEntry (s : Accumulator ℝ) (j : Axis) (i : ℕ) (c : ℝ) :
    (s.addEntry j i c).gradient = s.gradient + Pi.single i (Vec3.along j c) :=
  gradient_addCol s i _

section Terms

variable {path : E → List (Vec3 ℝ)} {n : ℕ} {D : ℕ → Axis → E →L[ℝ] ℝ} {x : E}
  {start : ℕ → Vec3 ℝ} {S : E → Accumulator ℝ}

theorem tracks_start : Tracks n D x start fun _ => ⟨0, start⟩ := by
  simp only [Tracks, sub_self, pairedColumns_zero]
  exact hasFDerivAt_const 0 x

theorem Tracks.add (tracks : Tracks n D x start S) {next : E → Accumulator ℝ} {c : E → ℝ}
    (cost : ∀ s, (next s).cost = (S s).cost + c s)
    (derivative : HasFDerivAt c (pairedColumns n ((next x).gradient - (S x).gradient) D) x) :
    Tracks n D x start next := by
  have split : (next x).gradient - start =
      ((S x).gradient - start) + ((next x).gradient - (S x).gradient) := by
    abel
  rw [Tracks, split, pairedColumns_add]
  simp only [cost]
  exact HasFDerivAt.add tracks derivative

theorem jerkStep_tracks (moves : PointsMove path n D x) {i : ℕ} (inside : i + 3 < n)
    (tracks : Tracks n D x start S) : Tracks n D x start fun s => jerkStep (path s) (S s) i := by
  have jerk := (((moves.column (i + 3) inside).sub ((moves.column (i + 2) (by omega)).smul 3)).add
    ((moves.column (i + 1) (by omega)).smul 3)).sub (moves.column i (by omega))
  refine tracks.add (fun _ => rfl) (jerk.normSq.congr_fderiv ?_)
  simp only [jerkStep, gradient_addCol, gradient_addCost, add_assoc, add_sub_cancel_left,
    pairedColumns_add, pairedColumns_single inside, pairedColumns_single (show i + 2 < n by omega),
    pairedColumns_single (show i + 1 < n by omega), pairedColumns_single (show i + 0 < n by omega),
    paired, Vec3.get_smul, Vec3.get_neg]
  module

theorem accStep_tracks (moves : PointsMove path n D x) {i : ℕ} (inside : i + 2 < n)
    (tracks : Tracks n D x start S) : Tracks n D x start fun s => accStep (path s) (S s) i := by
  have acc := ((moves.column (i + 2) inside).sub ((moves.column (i + 1) (by omega)).smul 2)).add
    (moves.column i (by omega))
  refine tracks.add (fun _ => rfl) (acc.normSq.congr_fderiv ?_)
  simp only [accStep, gradient_addCol, gradient_addCost, add_assoc, add_sub_cancel_left,
    pairedColumns_add, pairedColumns_single inside, pairedColumns_single (show i + 1 < n by omega),
    pairedColumns_single (show i + 0 < n by omega), paired, Vec3.get_smul]
  module

theorem calcSmoothnessCost_tracks (start : ℕ → Vec3 ℝ) (moves : PointsMove path n D x)
    (useJerk : Bool) :
    Tracks n D x start fun s => calcSmoothnessCost (path s) useJerk start := by
  simp only [calcSmoothnessCost, moves.length]
  split_ifs
  · refine foldl_family (P := Tracks n D x start) tracks_start ?_
    intro i member S tracks
    rw [List.mem_range] at member
    exact jerkStep_tracks moves (by omega) tracks
  · refine foldl_family (P := Tracks n D x start) tracks_start ?_
    intro i member S tracks
    rw [List.mem_range] at member
    exact accStep_tracks moves (by omega) tracks

def excess {K : Type} [Field K] [LinearOrder K] (limit t : K) : K :=
  if t > limit then (t - limit) ^ 2 else if t < -limit then (t + limit) ^ 2 else 0

def excessSlope {K : Type} [Field K] [LinearOrder K] (limit t : K) : K :=
  if t > limit then 2 * (t - limit) else if t < -limit then 2 * (t + limit) else 0

theorem hasDerivAt_excess {limit : ℝ} (nonneg : 0 ≤ limit) (t : ℝ) :
    HasDerivAt (excess limit) (excessSlope limit t) t := by
  have above : HasDerivAt (fun s => (s - limit) ^ 2) (2 * (t - limit)) t := by
    have square := HasDerivAt.fun_pow ((hasDerivAt_id t).sub_const limit) 2
    refine square.congr_deriv ?_
    simp
  have below : HasDerivAt (fun s => (s + limit) ^ 2) (2 * (t + limit)) t := by
    have square := HasDerivAt.fun_pow ((hasDerivAt_id t).add_const limit) 2
    refine square.congr_deriv ?_
    simp
  have lower : HasDerivAt (fun s => if s < -limit then (s + limit) ^ 2 else 0)
      (if t < -limit then 2 * (t + limit) else 0) t := by
    refine hasDerivAt_of_pieces (f := fun s => (s + limit) ^ 2) (g := fun _ => 0) (a := -limit)
      (fun s less => if_pos less) (fun s greater => if_neg greater.le.not_gt) ?_ ?_ ?_ ?_
    · simp
    · simp
    · intro bound
      rcases bound.eq_or_lt with rfl | less
      · refine below.congr_deriv ?_
        simp
      · rwa [if_pos less]
    · intro bound
      rw [if_neg bound.not_gt]
      exact hasDerivAt_const t 0
  refine hasDerivAt_of_pieces (g := fun s => (s - limit) ^ 2) (a := limit) (fun s less =>
    if_neg less.le.not_gt) (fun s greater => if_pos greater) (if_neg (lt_irrefl limit)) ?_ ?_ ?_
  · have inside : ¬(limit < -limit) := by linarith
    simp [excess, inside]
  · intro bound
    rw [excessSlope, if_neg bound.not_gt]
    exact lower
  · intro bound
    rcases bound.eq_or_lt with rfl | greater
    · have inside : ¬(limit < -limit) := by linarith
      refine above.congr_deriv ?_
      simp [excessSlope, inside]
    · rwa [excessSlope, if_pos greater]

@[simp] theorem single_along_zero (i : ℕ) (j : Axis) :
    (Pi.single i (Vec3.along j (0 : ℝ)) : ℕ → Vec3 ℝ) = 0 := by
  rw [show Vec3.along j (0 : ℝ) = 0 from Vec3.ext_get fun axis => by simp, Pi.single_zero]

theorem velocityEntry_eq (maxVel ts : ℝ) (vi : Vec3 ℝ) (i : ℕ) (s : Accumulator ℝ) (j : Axis) :
    (velocityEntry maxVel ts vi i s j).cost = s.cost + excess maxVel (vi.get j) * (1 / ts / ts) ∧
      (velocityEntry maxVel ts vi i s j).gradient - s.gradient =
        Pi.single (i + 0) (Vec3.along j (-(excessSlope maxVel (vi.get j) / ts * (1 / ts / ts)))) +
          Pi.single (i + 1)
            (Vec3.along j (excessSlope maxVel (vi.get j) / ts * (1 / ts / ts))) := by
  unfold velocityEntry excess excessSlope
  split_ifs
  · simp only [cost_addEntry, cost_addCost, gradient_addEntry, gradient_addCost, add_assoc,
      add_sub_cancel_left, true_and]
    congr 3
    ring
  · simp only [cost_addEntry, cost_addCost, gradient_addEntry, gradient_addCost, add_assoc,
      add_sub_cancel_left, true_and]
    congr 3
    ring
  · simp

theorem velocityStep_tracks {maxVel ts : ℝ} (nonneg : 0 ≤ maxVel)
    (moves : PointsMove path n D x) {i : ℕ} (inside : i + 1 < n) (tracks : Tracks n D x start S) :
    Tracks n D x start fun s => velocityStep maxVel ts (path s) (S s) i := by
  have vi := ((moves.column (i + 1) inside).sub (moves.column i (by omega))).div ts
  refine foldl_family (P := Tracks n D x start) tracks ?_
  intro j _ S tracks
  refine tracks.add (fun s => (velocityEntry_eq maxVel ts _ i (S s) j).1) ?_
  rw [(velocityEntry_eq maxVel ts _ i (S x) j).2]
  have limited := (hasDerivAt_excess nonneg _).comp_hasFDerivAt x (vi j)
  refine (limited.mul_const (1 / ts / ts)).congr_fderiv ?_
  simp only [pairedColumns_add, pairedColumns_single inside,
    pairedColumns_single (show i + 0 < n by omega), paired_along, div_eq_mul_inv]
  module

theorem accelerationEntry_eq (maxAcc ts : ℝ) (ai : Vec3 ℝ) (i : ℕ) (s : Accumulator ℝ) (j : Axis) :
    (accelerationEntry maxAcc ts ai i s j).cost = s.cost + excess maxAcc (ai.get j) ∧
      (accelerationEntry maxAcc ts ai i s j).gradient - s.gradient =
        Pi.single (i + 0) (Vec3.along j (excessSlope maxAcc (ai.get j) * (1 / ts / ts))) +
          (Pi.single (i + 1)
            (Vec3.along j (-2 * (excessSlope maxAcc (ai.get j) * (1 / ts / ts)))) +
              Pi.single (i + 2)
                (Vec3.along j (excessSlope maxAcc (ai.get j) * (1 / ts / ts)))) := by
  unfold accelerationEntry excess excessSlope
  split_ifs
  · simp only [cost_addEntry, cost_addCost, gradient_addEntry, gradient_addCost, add_assoc,
      add_sub_cancel_left, true_and]
    congr 4
    ring
  · simp only [cost_addEntry, cost_addCost, gradient_addEntry, gradient_addCost, add_assoc,
      add_sub_cancel_left, true_and]
    congr 4
    ring
  · simp

theorem accelerationStep_tracks {maxAcc ts : ℝ} (nonneg : 0 ≤ maxAcc)
    (moves : PointsMove path n D x) {i : ℕ} (inside : i + 2 < n) (tracks : Tracks n D x start S) :
    Tracks n D x start fun s => accelerationStep maxAcc ts (path s) (S s) i := by
  have ai := (((moves.column (i + 2) inside).sub ((moves.column (i + 1) (by omega)).smul 2)).add
    (moves.column i (by omega))).smul (1 / ts / ts)
  refine foldl_family (P := Tracks n D x start) tracks ?_
  intro j _ S tracks
  refine tracks.add (fun s => (accelerationEntry_eq maxAcc ts _ i (S s) j).1) ?_
  rw [(accelerationEntry_eq maxAcc ts _ i (S x) j).2]
  have limited := (hasDerivAt_excess nonneg _).comp_hasFDerivAt x (ai j)
  refine limited.congr_fderiv ?_
  simp only [pairedColumns_add, pairedColumns_single inside,
    pairedColumns_single (show i + 1 < n by omega), pairedColumns_single (show i + 0 < n by omega),
    paired_along]
  module

theorem calcFeasibilityCost_tracks (start : ℕ → Vec3 ℝ) {maxVel maxAcc : ℝ}
    (velNonneg : 0 ≤ maxVel) (accNonneg : 0 ≤ maxAcc) (ts : ℝ) (moves : PointsMove path n D x) :
    Tracks n D x start fun s => calcFeasibilityCost maxVel maxAcc ts (path s) start := by
  simp only [calcFeasibilityCost, moves.length]
  refine foldl_family (P := Tracks n D x start) ?_ ?_
  · refine foldl_family (P := Tracks n D x start) tracks_start ?_
    intro i member S tracks
    rw [List.mem_range] at member
    exact velocityStep_tracks velNonneg moves (by omega) tracks
  · intro i member S tracks
    rw [List.mem_range] at member
    exact accelerationStep_tracks accNonneg moves (by omega) tracks

theorem calcTerminalCost_tracks (start : ℕ → Vec3 ℝ) (moves : PointsMove path n D x)
    (localTargetPt : Vec3 ℝ)
    (evaluated : (calcTerminalCost localTargetPt (path x) start).isSome) :
    ∃ result, (∀ s, calcTerminalCost localTargetPt (path s) start = some (result s)) ∧
      Tracks n D x start result := by
  have enough : ¬n < 3 := by
    intro few
    rw [calcTerminalCost, moves.length, if_pos few] at evaluated
    contradiction
  have dq := (((moves.column (n - 3) (by omega)).add ((moves.column (n - 2) (by omega)).smul 4)).add
    (moves.column (n - 1) (by omega))).smul (1 / 6) |>.sub_const localTargetPt
  simp only [calcTerminalCost, moves.length, if_neg enough]
  have none_yet : Tracks n D x start fun _ => ⟨0, start⟩ := tracks_start
  refine ⟨_, fun _ => rfl, none_yet.add (fun _ => rfl) ?_⟩
  refine dq.normSq.congr_fderiv ?_
  simp only [gradient_addCol, gradient_addCost, add_assoc, add_sub_cancel_left,
    pairedColumns_add, pairedColumns_single (show n - 3 < n by omega),
    pairedColumns_single (show n - 2 < n by omega), pairedColumns_single (show n - 1 < n by omega),
    paired, Vec3.get_smul]
  module

def penalty {K : Type} [Field K] [LinearOrder K] (clearance e : K) : K :=
  if e < 0 then 0
  else if e < clearance then e ^ 3
  else 3 * clearance * e * e + -3 * clearance ^ 2 * e + clearance ^ 3

def penaltySlope {K : Type} [Field K] [LinearOrder K] (clearance e : K) : K :=
  if e < 0 then 0
  else if e < clearance then 3 * e * e
  else 2 * (3 * clearance) * e + -3 * clearance ^ 2

theorem hasDerivAt_penalty {clearance : ℝ} (nonneg : 0 ≤ clearance) (e : ℝ) :
    HasDerivAt (penalty clearance) (penaltySlope clearance e) e := by
  have cubic : HasDerivAt (fun s => s ^ 3) (3 * e * e) e := by
    refine (hasDerivAt_pow 3 e).congr_deriv ?_
    push_cast
    ring
  have quadratic : HasDerivAt
      (fun s => 3 * clearance * s * s + -3 * clearance ^ 2 * s + clearance ^ 3)
      (2 * (3 * clearance) * e + -3 * clearance ^ 2) e := by
    have here := hasDerivAt_id' e
    have square := HasDerivAt.mul (HasDerivAt.const_mul (3 * clearance) here) here
    have linear := HasDerivAt.const_mul (-3 * clearance ^ 2) here
    have both : HasDerivAt (fun s => 3 * clearance * s * s + -3 * clearance ^ 2 * s)
        (3 * clearance * 1 * e + 3 * clearance * e * 1 + -3 * clearance ^ 2 * 1) e :=
      HasDerivAt.add square linear
    refine HasDerivAt.congr_deriv (both.add_const (clearance ^ 3)) ?_
    ring
  have outer : HasDerivAt (fun s => if s < clearance then s ^ 3
      else 3 * clearance * s * s + -3 * clearance ^ 2 * s + clearance ^ 3)
      (if e < clearance then 3 * e * e else 2 * (3 * clearance) * e + -3 * clearance ^ 2) e := by
    refine hasDerivAt_of_pieces (f := fun s => s ^ 3) (a := clearance)
      (fun s less => if_pos less) (fun s greater => if_neg greater.le.not_gt) ?_
      (if_neg (lt_irrefl clearance)) ?_ ?_
    · rw [if_neg (lt_irrefl clearance)]
      ring
    · intro bound
      rcases bound.eq_or_lt with rfl | less
      · refine cubic.congr_deriv ?_
        rw [if_neg (lt_irrefl e)]
        ring
      · rwa [if_pos less]
    · intro bound
      rwa [if_neg bound.not_gt]
  refine hasDerivAt_of_pieces (f := fun _ => 0) (a := 0) (fun s less => if_pos less)
    (fun s greater => if_neg greater.le.not_gt) ?_ (if_neg (lt_irrefl 0)) ?_ ?_
  · rcases nonneg.eq_or_lt with same | positive
    · simp [penalty, ← same]
    · simp [penalty, positive]
  · intro bound
    refine (hasDerivAt_const e 0).congr_deriv ?_
    rcases bound.eq_or_lt with rfl | less
    · rcases nonneg.eq_or_lt with same | positive
      · simp [penaltySlope, ← same]
      · simp [penaltySlope, positive]
    · rw [penaltySlope, if_pos less]
  · intro bound
    rwa [penaltySlope, if_neg bound.not_gt]

theorem boundStep_eq (clearance : ℝ) (point : Vec3 ℝ) (i : ℕ) (s : Accumulator ℝ)
    (bound : Bound ℝ) :
    (boundStep clearance point i s bound).cost =
        s.cost + penalty clearance (clearance - (point - bound.basePoint).dot bound.direction) ∧
      (boundStep clearance point i s bound).gradient - s.gradient = Pi.single i
        (-penaltySlope clearance (clearance - (point - bound.basePoint).dot bound.direction) •
          bound.direction) := by
  unfold boundStep penalty penaltySlope
  dsimp only
  split_ifs
  · simp
  · simp only [cost_addCol, cost_addCost, gradient_addCol, gradient_addCost, add_sub_cancel_left,
      true_and]
    congr 2
    ring
  · simp only [cost_addCol, cost_addCost, gradient_addCol, gradient_addCost, add_sub_cancel_left,
      true_and]

theorem distanceCost_tracks (start : ℕ → Vec3 ℝ) {clearance : ℝ} (nonneg : 0 ≤ clearance)
    (order : ℕ) (bounds : List (List (Bound ℝ))) (moves : PointsMove path n D x) :
    Tracks n D x start fun s => distanceCost clearance order bounds (path s) start := by
  simp only [distanceCost, moves.length]
  refine foldl_family (P := Tracks n D x start) tracks_start ?_
  intro i member S tracks
  rw [List.mem_range'_1] at member
  have inside : i < n := by omega
  refine foldl_family (P := Tracks n D x start) tracks ?_
  intro bound _ S tracks
  refine tracks.add (fun s => (boundStep_eq clearance _ i (S s) bound).1) ?_
  rw [(boundStep_eq clearance _ i (S x) bound).2]
  have error := (((moves.column i inside).sub_const bound.basePoint).dot bound.direction).const_sub
    clearance
  refine ((hasDerivAt_penalty nonneg _).comp_hasFDerivAt x error).congr_fderiv ?_
  simp only [pairedColumns_single inside, paired, Vec3.get_smul]
  module

theorem skewMul_eq (v w : Vec3 ℝ) : skewMul v w = v.cross w := by
  apply Vec3.ext_get
  intro axis
  cases axis <;> simp only [skewMul, Vec3.cross, Vec3.get] <;> ring

theorem fitnessStep_tracks (moves : PointsMove path n D x) (refPts : List (Vec3 ℝ)) {i : ℕ}
    (tracks : Tracks n D x start S)
    (evaluated : (fitnessStep Real.sqrt refPts (path x) (S x) i).isSome) :
    ∃ next, (∀ s, fitnessStep Real.sqrt refPts (path s) (S s) i = some (next s)) ∧
      Tracks n D x start next := by
  unfold fitnessStep at evaluated ⊢
  simp only [moves.length] at evaluated ⊢
  split_ifs at evaluated ⊢ with outside
  · contradiction
  rcases Option.isSome_iff_exists.mp evaluated with ⟨_, evaluated⟩
  simp only [Option.bind_eq_bind, Option.bind_eq_some_iff] at evaluated
  rcases evaluated with ⟨reference, here, next, after, previous, before, _⟩
  have two : 2 ≤ i := by
    by_contra less
    rw [entry, if_neg (by omega)] at before
    contradiction
  simp only [here, after, before, Option.bind_eq_bind, Option.bind_some]
  refine ⟨_, fun _ => rfl, tracks.add (fun _ => rfl) ?_⟩
  have point := ((((moves.column (i - 1) (by omega)).add ((moves.column i (by omega)).smul 4)).add
    (moves.column (i + 1) (by omega))).div 6).sub_const reference
  have along := HasFDerivAt.pow (point.dot ((next - previous).normalizedBy Real.sqrt)) 2
  have across := (point.cross ((next - previous).normalizedBy Real.sqrt)).normSq
  have cost := (along.mul_const (25 : ℝ)⁻¹).add across
  have squared : ∀ v : Vec3 ℝ, v.lengthBy Real.sqrt ^ 2 / 1 = v.normSq := fun v => by
    rw [Vec3.lengthBy, Real.sq_sqrt v.normSq_nonneg, div_one]
  simp only [squared, div_eq_mul_inv]
  refine cost.congr_fderiv ?_
  rw [paired_smul, paired_crossed]
  simp only [gradient_addCol, gradient_addCost, add_assoc, add_sub_cancel_left,
    pairedColumns_add, pairedColumns_single (show i - 1 < n by omega),
    pairedColumns_single (show i < n by omega), pairedColumns_single (show i + 1 < n by omega),
    skewMul_eq]
  generalize Vec3.normalizedBy Real.sqrt (next - previous) = v
  generalize (col (path x) (i - 1) + ((4 : ℝ) • col (path x) i + col (path x) (i + 1))) / (6 : ℝ) -
    reference = p
  simp only [paired, Vec3.get_add, Vec3.get_smul, Vec3.get_div]
  module

theorem calcFitnessCost_tracks (start : ℕ → Vec3 ℝ) (moves : PointsMove path n D x)
    (order : ℕ) (refPts : List (Vec3 ℝ))
    (evaluated : (calcFitnessCost Real.sqrt order refPts (path x) start).isSome) :
    ∃ result, (∀ s, calcFitnessCost Real.sqrt order refPts (path s) start = some (result s)) ∧
      Tracks n D x start result := by
  simp only [calcFitnessCost, moves.length] at evaluated ⊢
  refine foldlM_family (P := Tracks n D x start) tracks_start ?_ evaluated
  intro i _ S tracks some_here
  exact fitnessStep_tracks moves refPts tracks some_here

def overlap {K : Type} [Field K] [LinearOrder K] (e : K) : K := if e < 0 then 0 else e ^ 2

def overlapSlope {K : Type} [Field K] [LinearOrder K] (e : K) : K := if e < 0 then 0 else 2 * e

theorem hasDerivAt_overlap (e : ℝ) : HasDerivAt overlap (overlapSlope e) e := by
  refine hasDerivAt_of_pieces (f := fun _ => 0) (g := fun s => s ^ 2) (a := 0)
    (fun s less => if_pos less) (fun s greater => if_neg greater.le.not_gt) ?_ ?_ ?_ ?_
  · simp [overlap]
  · simp [overlap]
  · intro bound
    refine (hasDerivAt_const e 0).congr_deriv ?_
    rcases bound.eq_or_lt with rfl | less
    · simp [overlapSlope]
    · rw [overlapSlope, if_pos less]
  · intro bound
    refine (hasDerivAt_pow 2 e).congr_deriv ?_
    rw [overlapSlope, if_neg bound.not_gt]
    simp

theorem hasFDerivAt_ellipDist {v : E → Vec3 ℝ} {V : Axis → E →L[ℝ] ℝ} (moves : VecMoves v V x)
    (apart : ellipDist Real.sqrt (v x) ≠ 0) :
    HasFDerivAt (fun s => ellipDist Real.sqrt (v s))
      ((1 / ellipDist Real.sqrt (v x)) • paired ⟨(v x).x, (v x).y, (v x).z / 4⟩ V) x := by
  have square : HasFDerivAt
      (fun s => (v s).z * (v s).z * (1 / 2 / 2) +
        ((v s).x * (v s).x + (v s).y * (v s).y) * (1 / 1 / 1))
      (paired ⟨2 * (v x).x, 2 * (v x).y, (v x).z / 2⟩ V) x := by
    have flat := (((moves .x).mul (moves .x)).add ((moves .y).mul (moves .y))).mul_const
      (1 / 1 / 1 : ℝ)
    have high := ((moves .z).mul (moves .z)).mul_const (1 / 2 / 2 : ℝ)
    refine (high.add flat).congr_fderiv ?_
    simp only [paired, Vec3.get]
    module
  have positive : (v x).z * (v x).z * (1 / 2 / 2) +
      ((v x).x * (v x).x + (v x).y * (v x).y) * (1 / 1 / 1) ≠ 0 := by
    intro zero
    apply apart
    rw [ellipDist, zero, Real.sqrt_zero]
  refine (square.sqrt positive).congr_fderiv ?_
  simp only [ellipDist, paired, Vec3.get]
  module

theorem ellipStep_cost (swarmClearance : ℝ) (point swarmPrid : Vec3 ℝ) (i : ℕ)
    (s : SwarmAccumulator ℝ) :
    (ellipStep Real.sqrt swarmClearance point swarmPrid i s).cost =
      s.cost + overlap (swarmClearance * 2 - ellipDist Real.sqrt (point - swarmPrid)) := by
  unfold ellipStep overlap
  dsimp only
  split_ifs
  · simp
  · rfl

theorem ellipStep_gradient (swarmClearance : ℝ) {point swarmPrid : Vec3 ℝ} (i : ℕ)
    (s : SwarmAccumulator ℝ) (apart : ellipDist Real.sqrt (point - swarmPrid) ≠ 0) :
    (ellipStep Real.sqrt swarmClearance point swarmPrid i s).gradient - s.gradient =
      Pi.single i
        (-(overlapSlope (swarmClearance * 2 - ellipDist Real.sqrt (point - swarmPrid)) /
          ellipDist Real.sqrt (point - swarmPrid)) •
            ⟨(point - swarmPrid).x, (point - swarmPrid).y, (point - swarmPrid).z / 4⟩) := by
  unfold ellipStep overlapSlope
  dsimp only
  split_ifs
  · simp
  · simp only [gradient_addCol, gradient_addCost, add_sub_cancel_left]
    congr 1
    apply Vec3.ext_get
    intro axis
    rw [Vec3.get_smul]
    cases axis with
    | x =>
        simp only [Vec3.get]
        field_simp
    | y =>
        simp only [Vec3.get]
        field_simp
    | z =>
        simp only [Vec3.get]
        field_simp
        ring

theorem calcSwarmCost_tracks (start : ℕ → Vec3 ℝ) (moves : PointsMove path n D x)
    (inp : SwarmInput ℝ) (least : ℝ)
    (apart : ∀ d, CheckedDistance Real.sqrt inp (path x) d → d ≠ 0)
    (evaluated : (calcSwarmCost Real.sqrt inp (path x) start least).isSome) :
    ∃ result : E → SwarmAccumulator ℝ,
      (∀ s, calcSwarmCost Real.sqrt inp (path s) start least = some (result s)) ∧
        Tracks n D x start fun s => (result s).toAccumulator := by
  simp only [calcSwarmCost, moves.length] at evaluated ⊢
  refine foldlM_family (P := fun S : E → SwarmAccumulator ℝ =>
    Tracks n D x start fun s => (S s).toAccumulator) tracks_start ?_ evaluated
  intro i member S tracks some_row
  rw [List.mem_range'_1] at member
  refine foldlM_family (P := fun S : E → SwarmAccumulator ℝ =>
    Tracks n D x start fun s => (S s).toAccumulator) tracks ?_ some_row
  intro ⟨drone, id⟩ present S tracks some_here
  simp only [swarmStep] at some_here ⊢
  split_ifs at some_here ⊢ with considered
  · rcases Option.isSome_iff_exists.mp some_here with ⟨_, predicted⟩
    rcases Option.bind_eq_some_iff.mp predicted with ⟨prid, predicted, _⟩
    simp only [predicted, Option.bind_eq_bind, Option.bind_some]
    have checked : CheckedDistance Real.sqrt inp (path x)
        (ellipDist Real.sqrt (col (path x) i - prid)) := by
      refine ⟨i, drone, id, prid, member.1, ?_, List.mem_zipIdx_iff_getElem?.mp present, considered,
        predicted, rfl⟩
      rw [moves.length]
      omega
    have inside : i < n := by
      have last := swarmEndIdx_le inp.order n
      omega
    refine ⟨_, fun _ => rfl, tracks.add (fun s => ellipStep_cost _ _ prid i (S s)) ?_⟩
    rw [ellipStep_gradient inp.swarmClearance i (S x) (apart _ checked)]
    have error := (hasFDerivAt_ellipDist ((moves.column i inside).sub_const prid)
      (apart _ checked)).const_sub (inp.swarmClearance * 2)
    refine ((hasDerivAt_overlap _).comp_hasFDerivAt x error).congr_fderiv ?_
    rw [pairedColumns_single inside, paired_smul]
    module
  · exact ⟨S, fun _ => rfl, tracks⟩

end Terms

end RobocupDrone.Optimizer
