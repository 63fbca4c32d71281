import Mathlib.LinearAlgebra.Matrix.ToLinearEquiv
import RobocupDrone.Library.Quintic
import RobocupDrone.Planner.MinSnap

/-! What the closed form of `minSnapTraj` gives its segments. -/

namespace RobocupDrone.Planner.PolynomialTraj

open Geometry Quintic

variable {K : Type}

theorem row_eq {m : ℕ} (row : Fin (6 * m)) :
    (row : ℕ) = 6 * ((row : ℕ) / 6) + (row : ℕ) % 6 ∧ (row : ℕ) / 6 < m ∧ (row : ℕ) % 6 < 6 := by
  have := row.isLt
  omega

section

variable [Field K]

theorem selectionMatrix_apply {m k s : ℕ} (enough : 2 ≤ m) (segment : k < m) (row : s < 6)
    (j : Fin (2 * m + 4 + (2 * m - 2))) :
    (selectionMatrix m ⟨6 * k + s, by omega⟩ j : K) =
      if j = ⟨column m k s, column_lt enough segment⟩ then 1 else 0 := by
  simp only [selectionMatrix, mem_selectionEntries enough segment row, Fin.ext_iff]

theorem selectionMatrix_mulVec {m k s : ℕ} (enough : 2 ≤ m) (segment : k < m) (row : s < 6)
    (v : Fin (2 * m + 4 + (2 * m - 2)) → K) :
    (selectionMatrix m).mulVec v ⟨6 * k + s, by omega⟩ =
      v ⟨column m k s, column_lt enough segment⟩ := by
  simp only [Matrix.mulVec, dotProduct, selectionMatrix_apply enough segment row, ite_mul, one_mul,
    zero_mul, Finset.sum_ite_eq', Finset.mem_univ, if_true]

theorem selectionMatrix_transpose_mulVec {m k s : ℕ} (enough : 2 ≤ m) (segment : k < m)
    (row : s < 6) (fixed : Fixed m k s) (d : Fin (6 * m) → K) :
    (selectionMatrix m).transpose.mulVec d ⟨column m k s, column_lt enough segment⟩ =
      d ⟨6 * k + s, by omega⟩ := by
  rw [Matrix.mulVec, dotProduct, Finset.sum_eq_single (⟨6 * k + s, by omega⟩ : Fin (6 * m))]
  · rw [Matrix.transpose_apply, selectionMatrix_apply enough segment row, if_pos rfl, one_mul]
  · intro other _ apart
    obtain ⟨number, segment', row'⟩ := row_eq other
    have place : other = ⟨6 * ((other : ℕ) / 6) + (other : ℕ) % 6, by omega⟩ := Fin.ext number
    rw [Matrix.transpose_apply, place, selectionMatrix_apply enough segment' row', if_neg, zero_mul]
    intro same
    have columns := column_injective segment segment' row' fixed (Fin.ext_iff.mp same).symm
    apply apart
    rw [Fin.ext_iff, number, columns.1, columns.2]
  · intro absent
    exact absurd (Finset.mem_univ _) absent

/-- The coefficients of segment `k`. -/
def piece {n : ℕ} (p : Fin n → K) (k j : ℕ) : K :=
  if inside : 6 * k + j < n then p ⟨6 * k + j, inside⟩ else 0

theorem segmentRow_eq (time : K) (s j : ℕ) :
    segmentRow time s j =
      (j.descFactorial (s / 2) : K) * (if s % 2 = 0 then 0 else time) ^ (j - s / 2) := by
  rw [segmentRow]
  rcases lt_trichotomy j (s / 2) with below | same | above
  · rw [Nat.descFactorial_of_lt below, Nat.cast_zero, zero_mul, if_neg below.ne,
      if_neg below.not_ge, ite_self]
  · rw [← same, Nat.descFactorial_self, Nat.sub_self, pow_zero, mul_one, pow_zero, mul_one,
      if_pos rfl, if_pos le_rfl, Nat.factorial_zero, Nat.div_one, ite_self]
  · split_ifs
    · omega
    · rw [zero_pow (by omega), mul_zero]
    · rw [Nat.descFactorial_eq_div above.le]
    · omega

theorem block_mulVec {m : ℕ} {M : Matrix (Fin (6 * m)) (Fin (6 * m)) K} (block : ℕ → ℕ → ℕ → K)
    (entries : ∀ i j, M i j =
      if (i : ℕ) / 6 = j / 6 then block (i / 6) (i % 6) (j % 6) else 0)
    {k s : ℕ} (segment : k < m) (row : s < 6) (p : Fin (6 * m) → K) :
    M.mulVec p ⟨6 * k + s, by omega⟩ = ∑ j ∈ Finset.range 6, block k s j * piece p k j := by
  have quotient : (6 * k + s) / 6 = k := by omega
  have remainder : (6 * k + s) % 6 = s := by omega
  have products : ∀ j : Fin (6 * m), M ⟨6 * k + s, by omega⟩ j * p j =
      if (j : ℕ) / 6 = k then block k s (j % 6) * piece p k (j % 6) else 0 := by
    intro j
    simp only [entries, quotient, remainder]
    by_cases same : (j : ℕ) / 6 = k
    · have place : 6 * k + (j : ℕ) % 6 = j := by omega
      simp only [same, if_true, piece, place, j.isLt, dif_pos]
    · rw [if_neg (Ne.symm same), if_neg same, zero_mul]
  have outside : ∀ j ∈ Finset.range (6 * m), j ∉ Finset.Ico (6 * k) (6 * k + 6) →
      (if j / 6 = k then block k s (j % 6) * piece p k (j % 6) else 0) = 0 := by
    intro j _ apart
    rw [Finset.mem_Ico] at apart
    rw [if_neg (by omega)]
  have window : Finset.Ico (6 * k) (6 * k + 6) ⊆ Finset.range (6 * m) := by
    intro j member
    rw [Finset.mem_Ico] at member
    exact Finset.mem_range.mpr (by omega)
  rw [Matrix.mulVec, dotProduct, Finset.sum_congr rfl fun j _ => products j,
    Fin.sum_univ_eq_sum_range (fun j => if j / 6 = k then
      block k s (j % 6) * piece p k (j % 6) else 0) (6 * m),
    ← Finset.sum_subset window outside, Finset.sum_Ico_eq_sum_range, Nat.add_sub_cancel_left]
  refine Finset.sum_congr rfl fun j member => ?_
  have inside := Finset.mem_range.mp member
  rw [if_pos (by omega), show (6 * k + j) % 6 = j by omega]

theorem mappingMatrix_mulVec {time : List K} {k s : ℕ} (segment : k < time.length) (row : s < 6)
    (p : Fin (6 * time.length) → K) :
    (mappingMatrix time).mulVec p ⟨6 * k + s, by omega⟩ =
      derivativeAt (piece p k) (s / 2) (if s % 2 = 0 then 0 else time.getD k 0) := by
  have blocks : (mappingMatrix time).mulVec p ⟨6 * k + s, by omega⟩ =
      ∑ j ∈ Finset.range 6, segmentRow (time.getD k 0) s j * piece p k j :=
    block_mulVec (fun k => segmentRow (time.getD k 0)) (fun _ _ => rfl) segment row p
  rw [blocks]
  simp only [segmentRow_eq, derivativeAt]

noncomputable def exactInverse : Inverse K := fun M => M⁻¹

theorem mappingMatrix_mul_exactInverse [CharZero K] {time : List K} (apart : ∀ t ∈ time, t ≠ 0) :
    mappingMatrix time * exactInverse (mappingMatrix time) = 1 := by
  apply Matrix.mul_nonsing_inv
  rw [isUnit_iff_ne_zero]
  intro singular
  obtain ⟨p, other, vanishes⟩ := Matrix.exists_mulVec_eq_zero_iff.mpr singular
  apply other
  funext row
  obtain ⟨number, segment, inside⟩ := row_eq row
  have nonzero : time.getD ((row : ℕ) / 6) 0 ≠ 0 := by
    rw [List.getD_eq_getElem?_getD, List.getElem?_eq_getElem segment]
    exact apart _ (List.getElem_mem segment)
  have rows : ∀ s < 6, derivativeAt (piece p ((row : ℕ) / 6)) (s / 2)
      (if s % 2 = 0 then 0 else time.getD ((row : ℕ) / 6) 0) = 0 := by
    intro s bound
    rw [← mappingMatrix_mulVec segment bound, vanishes, Pi.zero_apply]
  have coefficient := eq_zero_of_ends nonzero
    (fun i low => by
      have left := rows (2 * i) (by omega)
      rwa [show 2 * i / 2 = i by omega, if_pos (by omega)] at left)
    (fun i low => by
      have right := rows (2 * i + 1) (by omega)
      rwa [show (2 * i + 1) / 2 = i by omega, if_neg (by omega)] at right) inside
  rw [piece, dif_pos (by omega)] at coefficient
  exact (congrArg p (Fin.ext number)).trans coefficient

section ClosedForm

variable {inverse : Inverse K} {time : List K}

theorem mapping_solveAxis (exact : mappingMatrix time * inverse (mappingMatrix time) = 1)
    (d : Fin (6 * time.length) → K) :
    ∃ v, (mappingMatrix time).mulVec (solveAxis inverse time d) =
        (selectionMatrix time.length).mulVec v ∧
      ∀ j, v (Fin.castAdd _ j) =
        (selectionMatrix time.length).transpose.mulVec d (Fin.castAdd _ j) := by
  obtain ⟨dp, closed⟩ : ∃ dp, solveAxis inverse time d =
      (inverse (mappingMatrix time) * selectionMatrix (K := K) time.length).mulVec
        (Fin.append (fun j => (selectionMatrix time.length).transpose.mulVec d (Fin.castAdd _ j))
          dp) := ⟨_, rfl⟩
  refine ⟨_, ?_, fun j => Fin.append_left _ dp j⟩
  rw [closed, Matrix.mulVec_mulVec, ← Matrix.mul_assoc, exact, Matrix.one_mul]

theorem solveAxis_fixed (exact : mappingMatrix time * inverse (mappingMatrix time) = 1)
    (enough : 2 ≤ time.length) {k s : ℕ} (segment : k < time.length) (row : s < 6)
    (fixed : Fixed time.length k s) (d : Fin (6 * time.length) → K) :
    derivativeAt (piece (solveAxis inverse time d) k) (s / 2)
      (if s % 2 = 0 then 0 else time.getD k 0) = d ⟨6 * k + s, by omega⟩ := by
  obtain ⟨v, maps, carries⟩ := mapping_solveAxis exact d
  have carried := carries ⟨column time.length k s, column_lt_of_fixed enough segment fixed⟩
  rw [← mappingMatrix_mulVec segment row, maps, selectionMatrix_mulVec enough segment row]
  exact carried.trans (selectionMatrix_transpose_mulVec enough segment row fixed d)

theorem column_shared {m k i : ℕ} (segment : k + 1 < m) (free : i = 1 ∨ i = 2) :
    column m (k + 1) (2 * i) = column m k (2 * i + 1) := by
  rcases free with rfl | rfl
  all_goals
    simp only [Nat.reduceMul, Nat.reduceAdd, column]
    rw [if_neg (Nat.succ_ne_zero k), if_neg segment.ne, Nat.add_sub_cancel]

/-- The free derivatives are shared by the end of a segment and the start of the next one. -/
theorem solveAxis_joins (exact : mappingMatrix time * inverse (mappingMatrix time) = 1)
    (enough : 2 ≤ time.length) {k i : ℕ} (segment : k + 1 < time.length) (free : i = 1 ∨ i = 2)
    (d : Fin (6 * time.length) → K) :
    derivativeAt (piece (solveAxis inverse time d) (k + 1)) i 0 =
      derivativeAt (piece (solveAxis inverse time d) k) i (time.getD k 0) := by
  obtain ⟨v, maps, -⟩ := mapping_solveAxis exact d
  have even : 2 * i < 6 := by omega
  have odd : 2 * i + 1 < 6 := by omega
  have before : k < time.length := by omega
  have start := mappingMatrix_mulVec segment even (solveAxis inverse time d)
  have finish := mappingMatrix_mulVec before odd (solveAxis inverse time d)
  rw [show 2 * i / 2 = i by omega, if_pos (by omega), maps,
    selectionMatrix_mulVec enough segment even] at start
  rw [show (2 * i + 1) / 2 = i by omega, if_neg (by omega), maps,
    selectionMatrix_mulVec enough before odd] at finish
  rw [← start, ← finish]
  simp only [column_shared segment free]

end ClosedForm

end

section Segments

theorem foldl_addSegment (cx cy cz : ℕ → List K) (t : ℕ → K) (m : ℕ) :
    (List.range m).foldl (fun traj i => addSegment (cx i) (cy i) (cz i) (t i) traj)
      ⟨[], [], [], []⟩ =
      ⟨(List.range m).map t, (List.range m).map cx, (List.range m).map cy,
        (List.range m).map cz⟩ := by
  induction m with
  | zero => rfl
  | succ m ih =>
      rw [List.range_succ, List.foldl_append, ih]
      simp only [List.map_append, List.foldl_cons, List.foldl_nil, addSegment, List.map_cons,
        List.map_nil]

variable [Field K]

/-- The trajectory with the coefficients of `Px`, `Py` and `Pz`. -/
def ofSolution {n : ℕ} (solution : Axis → Fin n → K) (time : List K) : PolynomialTraj K :=
  let segments := List.range time.length
  ⟨time, segments.map (segmentCoefficients (solution .x)),
    segments.map (segmentCoefficients (solution .y)),
    segments.map (segmentCoefficients (solution .z))⟩

theorem map_getD_range (time : List K) :
    (List.range time.length).map (fun i => time.getD i 0) = time := by
  apply List.ext_getElem
  · simp only [List.length_map, List.length_range]
  · intro i _ inside
    rw [List.getElem_map, List.getElem_range, List.getD_eq_getElem?_getD,
      List.getElem?_eq_getElem inside, Option.getD_some]

/-- The derivatives that `minSnapTraj` prescribes along one axis. -/
def prescribed (pos : List (Vec3 K)) (startVel endVel startAcc endAcc : Vec3 K) (m : ℕ)
    (axis : Axis) (i : ℕ) : K :=
  endPointDerivative (fun k => (pos.getD k 0).get axis) (startVel.get axis) (endVel.get axis)
    (startAcc.get axis) (endAcc.get axis) m i

/-- The trajectory that `minSnapTraj` returns. -/
def solved (inverse : Inverse K) (pos : List (Vec3 K)) (startVel endVel startAcc endAcc : Vec3 K)
    (time : List K) : PolynomialTraj K :=
  ofSolution (fun axis => solveAxis inverse time fun i =>
    prescribed pos startVel endVel startAcc endAcc time.length axis i) time

theorem minSnapTraj_eq (inverse : Inverse K) {pos : List (Vec3 K)} {time : List K}
    (startVel endVel startAcc endAcc : Vec3 K) (enough : 2 ≤ time.length)
    (points : time.length + 1 ≤ pos.length) :
    minSnapTraj inverse pos startVel endVel startAcc endAcc time =
      some (solved inverse pos startVel endVel startAcc endAcc time) := by
  have size : ¬(time.length < 2 ∨ pos.length < time.length + 1) := by omega
  rw [minSnapTraj, if_neg size]
  simp only [foldl_addSegment, map_getD_range]
  rfl

/-- An evaluation reads the derivative of order `i`. -/
def Reads (axis : List K → ℕ → K → K) (i : ℕ) : Prop :=
  ∀ {n : ℕ} (p : Fin n → K) (k : ℕ) (t : K),
    axis (segmentCoefficients p k) 6 t = derivativeAt (piece p k) i t

theorem segmentCoefficients_eq {n : ℕ} (p : Fin n → K) (k : ℕ) :
    segmentCoefficients p k =
      [piece p k 5, piece p k 4, piece p k 3, piece p k 2, piece p k 1, piece p k 0] := rfl

theorem axisPosition_reads : Reads (axisPosition (K := K)) 0 := by
  intro n p k t
  simp [axisPosition, segmentCoefficients_eq, List.range_succ, position_eq]
  ring

theorem axisVelocity_reads : Reads (axisVelocity (K := K)) 1 := by
  intro n p k t
  simp [axisVelocity, segmentCoefficients_eq, List.range_succ, velocity_eq]
  ring

theorem axisAcceleration_reads : Reads (axisAcceleration (K := K)) 2 := by
  intro n p k t
  simp [axisAcceleration, segmentCoefficients_eq, List.range_succ, acceleration_eq]
  ring

theorem evaluateSegment_ofSolution {axis : List K → ℕ → K → K} {i low n k : ℕ}
    (reads : Reads axis i) (bound : low ≤ 6) (solution : Axis → Fin n → K) {time : List K}
    (segment : k < time.length) (t : K) :
    (ofSolution solution time).evaluateSegment axis low k t =
      some (Vec3.ofAxes fun j => derivativeAt (piece (solution j) k) i t) := by
  have size : ¬(6 < low ∨ 6 < 6 ∨ 6 < 6) := by omega
  simp only [evaluateSegment, ofSolution, List.getElem?_map, List.getElem?_range segment,
    Option.map_some, Option.bind_eq_bind, Option.bind_some]
  rw [show (segmentCoefficients (solution .x) k).length = 6 from rfl,
    show (segmentCoefficients (solution .y) k).length = 6 from rfl,
    show (segmentCoefficients (solution .z) k).length = 6 from rfl, if_neg size, reads, reads,
    reads]
  rfl

end Segments

end RobocupDrone.Planner.PolynomialTraj
