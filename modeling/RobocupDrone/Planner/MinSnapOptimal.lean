import RobocupDrone.Planner.MinSnapJoins

/-! The free derivatives of `minSnapTraj`: with them jerk and snap go on continuously from one
segment to the next. -/

namespace RobocupDrone.Planner.PolynomialTraj

open Geometry Quintic

variable {K : Type}

section Form

variable {time : List K} [Field K]

/-- An entry of `Q` in the block of a segment. -/
def snapEntry (time : K) (i j : ℕ) : K :=
  if 3 ≤ i ∧ 3 ≤ j then
    ((i * (i - 1) * (i - 2) * j * (j - 1) * (j - 2) / (i + j - 5) : ℕ) : K) * time ^ (i + j - 5)
  else 0

theorem row_lt {m k s : ℕ} (segment : k < m) (row : s < 6) : 6 * k + s < 6 * m := by omega

theorem snapMatrix_mulVec {k s : ℕ} (segment : k < time.length) (row : s < 6)
    (p : Fin (6 * time.length) → K) :
    (snapMatrix time).mulVec p ⟨6 * k + s, row_lt segment row⟩ =
      ∑ j ∈ Finset.range 6, snapEntry (time.getD k 0) s j * piece p k j := by
  apply block_mulVec (fun k => snapEntry (time.getD k 0)) _ segment row p
  intro i j
  simp only [snapMatrix, snapEntry]
  by_cases same : (i : ℕ) / 6 = j / 6
  · simp only [same, true_and, if_true]
  · simp only [same, false_and, if_false]

theorem sum_rows (f : ℕ → K) (m : ℕ) :
    ∑ i ∈ Finset.range (6 * m), f i =
      ∑ k ∈ Finset.range m, ∑ s ∈ Finset.range 6, f (6 * k + s) := by
  induction m with
  | zero => rfl
  | succ m ih =>
      rw [Nat.mul_succ, Finset.sum_range_add, ih]
      exact (Finset.sum_range_succ _ m).symm

theorem dotProduct_snapMatrix (p q : Fin (6 * time.length) → K) :
    dotProduct p ((snapMatrix time).mulVec q) =
      ∑ k ∈ Finset.range time.length, jerkForm (time.getD k 0) (piece p k) (piece q k) := by
  have terms : ∀ i : Fin (6 * time.length), p i * (snapMatrix time).mulVec q i =
      piece p (i / 6) (i % 6) *
        ∑ j ∈ Finset.range 6, snapEntry (time.getD (i / 6) 0) (i % 6) j * piece q (i / 6) j := by
    intro i
    obtain ⟨number, segment, row⟩ := row_eq i
    have place : i = ⟨6 * ((i : ℕ) / 6) + (i : ℕ) % 6, by omega⟩ := Fin.ext number
    have entry : piece p ((i : ℕ) / 6) ((i : ℕ) % 6) = p i := by
      rw [piece, dif_pos (by omega)]
      exact congrArg p place.symm
    rw [entry, ← snapMatrix_mulVec segment row q]
    exact congrArg (fun j => p i * (snapMatrix time).mulVec q j) place
  rw [dotProduct, Finset.sum_congr rfl fun i _ => terms i,
    Fin.sum_univ_eq_sum_range (fun i => piece p (i / 6) (i % 6) *
      ∑ j ∈ Finset.range 6, snapEntry (time.getD (i / 6) 0) (i % 6) j * piece q (i / 6) j),
    sum_rows]
  refine Finset.sum_congr rfl fun k _ => ?_
  have quotient : ∀ s < 6, (6 * k + s) / 6 = k := by omega
  have remainder : ∀ s < 6, (6 * k + s) % 6 = s := by omega
  have block : ∀ s ∈ Finset.range 6, piece p ((6 * k + s) / 6) ((6 * k + s) % 6) *
      ∑ j ∈ Finset.range 6, snapEntry (time.getD ((6 * k + s) / 6) 0) ((6 * k + s) % 6) j *
        piece q ((6 * k + s) / 6) j =
      piece p k s *
        ∑ j ∈ Finset.range 6, snapEntry (time.getD k 0) s j * piece q k j := by
    intro s member
    have inside := Finset.mem_range.mp member
    rw [quotient s inside, remainder s inside]
  rw [Finset.sum_congr rfl block]
  simp only [Finset.sum_range_succ, Finset.sum_range_zero, snapEntry, jerkForm, Nat.reduceLeDiff,
    and_true, and_false, if_true, if_false, Nat.reduceMul, Nat.reduceSub, Nat.reduceAdd,
    Nat.reduceDiv, Nat.cast_ofNat, pow_one, zero_mul, mul_zero, zero_add, add_zero]
  ring

end Form

section Coefficients

variable {time : List K} [Field K]

/-- The coefficients for the derivatives `v`, fixed and free. -/
noncomputable def coefficients (time : List K)
    (v : Fin (2 * time.length + 4 + (2 * time.length - 2)) → K) : Fin (6 * time.length) → K :=
  (exactInverse (mappingMatrix time) * selectionMatrix (K := K) time.length).mulVec v

noncomputable def costMatrix (time : List K) :
    Matrix (Fin (2 * time.length + 4 + (2 * time.length - 2)))
      (Fin (2 * time.length + 4 + (2 * time.length - 2))) K :=
  let ct : Matrix (Fin (6 * time.length)) _ K := selectionMatrix time.length
  ct.transpose * exactInverse (mappingMatrix time).transpose * snapMatrix time *
    exactInverse (mappingMatrix time) * ct

theorem exactInverse_transpose {n : ℕ} (M : Matrix (Fin n) (Fin n) K) :
    exactInverse M.transpose = (exactInverse M).transpose :=
  (Matrix.transpose_nonsing_inv M).symm

theorem costMatrix_eq : costMatrix time =
    (exactInverse (mappingMatrix time) * selectionMatrix (K := K) time.length).transpose *
      snapMatrix time *
        (exactInverse (mappingMatrix time) * selectionMatrix (K := K) time.length) := by
  simp only [costMatrix, Matrix.transpose_mul, exactInverse_transpose, Matrix.mul_assoc]

theorem dotProduct_costMatrix
    (v w : Fin (2 * time.length + 4 + (2 * time.length - 2)) → K) :
    dotProduct v ((costMatrix time).mulVec w) =
      ∑ k ∈ Finset.range time.length, jerkForm (time.getD k 0) (piece (coefficients time v) k)
        (piece (coefficients time w) k) := by
  rw [← dotProduct_snapMatrix, costMatrix_eq, coefficients, coefficients, ← Matrix.mulVec_mulVec,
    ← Matrix.mulVec_mulVec, Matrix.dotProduct_mulVec, Matrix.vecMul_transpose]

theorem costMatrix_symmetric (time : List K) : (costMatrix time).transpose = costMatrix time := by
  have symmetric : (snapMatrix time).transpose = snapMatrix time := by
    ext i j
    simp only [Matrix.transpose_apply, snapMatrix]
    have product : ∀ a b : ℕ, a * (a - 1) * (a - 2) * b * (b - 1) * (b - 2) =
        b * (b - 1) * (b - 2) * a * (a - 1) * (a - 2) := by
      intro a b
      ring
    by_cases same : (i : ℕ) / 6 = j / 6 ∧ 3 ≤ (i : ℕ) % 6 ∧ 3 ≤ (j : ℕ) % 6
    · rw [if_pos ⟨same.1.symm, same.2.2, same.2.1⟩, if_pos same, same.1,
        Nat.add_comm ((j : ℕ) % 6), product]
    · rw [if_neg same, if_neg fun other => same ⟨other.1.symm, other.2.2, other.2.1⟩]
  simp only [costMatrix_eq, Matrix.transpose_mul, Matrix.transpose_transpose, symmetric,
    Matrix.mul_assoc]

theorem costMatrix_single (f : Fin (2 * time.length + 4 + (2 * time.length - 2)))
    (v : Fin (2 * time.length + 4 + (2 * time.length - 2)) → K) :
    (costMatrix time).mulVec v f = ∑ k ∈ Finset.range time.length, jerkForm (time.getD k 0)
      (piece (coefficients time (Pi.single f 1)) k) (piece (coefficients time v) k) := by
  rw [← dotProduct_costMatrix, single_one_dotProduct]

variable [CharZero K]

theorem derivativeAt_coefficients (apart : ∀ t ∈ time, t ≠ 0) (enough : 2 ≤ time.length) {k s : ℕ}
    (segment : k < time.length) (row : s < 6)
    (v : Fin (2 * time.length + 4 + (2 * time.length - 2)) → K) :
    derivativeAt (piece (coefficients time v) k) (s / 2)
      (if s % 2 = 0 then 0 else time.getD k 0) =
        v ⟨column time.length k s, column_lt enough segment⟩ := by
  rw [← mappingMatrix_mulVec segment row, coefficients, Matrix.mulVec_mulVec, ← Matrix.mul_assoc,
    mappingMatrix_mul_exactInverse apart, Matrix.one_mul, selectionMatrix_mulVec enough segment row]

/-- Only the end of a segment and the start of the next one have a free velocity or a free
acceleration in common. -/
theorem column_eq_free {m k l s a : ℕ} (segment : k < m) (inner : l + 1 < m) (row : s < 6)
    (free : a = 3 ∨ a = 5) :
    column m k s = column m l a ↔ k = l ∧ s = a ∨ k = l + 1 ∧ s + 1 = a := by
  have place : column m l a = 2 * m + 4 + 2 * l + (a - 3) / 2 := by
    rcases free with rfl | rfl
    · rw [column, if_neg inner.ne]
      rfl
    · simp only [column, if_neg inner.ne]
  rw [place]
  constructor
  · intro same
    obtain rfl | rfl | rfl | rfl | rfl | rfl := row_cases row
    all_goals
      simp only [column] at same
      try split_ifs at same
      all_goals omega
  · rintro (⟨rfl, rfl⟩ | ⟨rfl, pair⟩)
    · exact place
    · obtain ⟨rfl, rfl⟩ | ⟨rfl, rfl⟩ : s = 2 ∧ a = 3 ∨ s = 4 ∧ a = 5 := by omega
      · rw [column, if_neg (Nat.succ_ne_zero l), Nat.add_sub_cancel]
        rfl
      · simp only [column, if_neg (Nat.succ_ne_zero l), Nat.add_sub_cancel]

theorem jerkForm_coefficients (apart : ∀ t ∈ time, t ≠ 0) (enough : 2 ≤ time.length) {k : ℕ}
    (segment : k < time.length) (v : Fin (2 * time.length + 4 + (2 * time.length - 2)) → K)
    (c : ℕ → K) :
    jerkForm (time.getD k 0) (piece (coefficients time v) k) c =
      v ⟨column time.length k 5, column_lt enough segment⟩ * derivativeAt c 3 (time.getD k 0) -
          v ⟨column time.length k 3, column_lt enough segment⟩ * derivativeAt c 4 (time.getD k 0) +
          v ⟨column time.length k 1, column_lt enough segment⟩ * derivativeAt c 5 (time.getD k 0) -
        (v ⟨column time.length k 4, column_lt enough segment⟩ * derivativeAt c 3 0 -
          v ⟨column time.length k 2, column_lt enough segment⟩ * derivativeAt c 4 0 +
          v ⟨column time.length k 0, column_lt enough segment⟩ * derivativeAt c 5 0) := by
  rw [jerkForm_eq, ← derivativeAt_coefficients apart enough segment (show 5 < 6 by omega) v,
    ← derivativeAt_coefficients apart enough segment (show 4 < 6 by omega) v,
    ← derivativeAt_coefficients apart enough segment (show 3 < 6 by omega) v,
    ← derivativeAt_coefficients apart enough segment (show 2 < 6 by omega) v,
    ← derivativeAt_coefficients apart enough segment (show 1 < 6 by omega) v,
    ← derivativeAt_coefficients apart enough segment (show 0 < 6 by omega) v]
  rfl

theorem costMatrix_velocity (apart : ∀ t ∈ time, t ≠ 0) (enough : 2 ≤ time.length) {l : ℕ}
    (inner : l + 1 < time.length)
    (v : Fin (2 * time.length + 4 + (2 * time.length - 2)) → K) :
    (costMatrix time).mulVec v
        ⟨column time.length l 3, column_lt enough (Nat.lt_of_succ_lt inner)⟩ =
      derivativeAt (piece (coefficients time v) (l + 1)) 4 0 -
        derivativeAt (piece (coefficients time v) l) 4 (time.getD l 0) := by
  have terms : ∀ k ∈ Finset.range time.length,
      jerkForm (time.getD k 0) (piece (coefficients time (Pi.single
          ⟨column time.length l 3, column_lt enough (Nat.lt_of_succ_lt inner)⟩ 1)) k)
          (piece (coefficients time v) k) =
        (if k = l + 1 then derivativeAt (piece (coefficients time v) k) 4 0 else 0) -
          if k = l then derivativeAt (piece (coefficients time v) k) 4 (time.getD k 0) else 0 := by
    intro k member
    have segment := Finset.mem_range.mp member
    rw [jerkForm_coefficients apart enough segment]
    simp only [Pi.single_apply, Fin.ext_iff, column_eq_free segment inner _ (.inl rfl),
      Nat.reduceLT, Nat.reduceAdd, Nat.reduceEqDiff, and_true, and_false, or_false, false_or,
      if_false, zero_mul, ite_mul, one_mul]
    ring
  rw [costMatrix_single, Finset.sum_congr rfl terms, Finset.sum_sub_distrib,
    Finset.sum_ite_eq', Finset.sum_ite_eq', if_pos (Finset.mem_range.mpr inner),
    if_pos (Finset.mem_range.mpr (Nat.lt_of_succ_lt inner))]

theorem costMatrix_acceleration (apart : ∀ t ∈ time, t ≠ 0) (enough : 2 ≤ time.length) {l : ℕ}
    (inner : l + 1 < time.length)
    (v : Fin (2 * time.length + 4 + (2 * time.length - 2)) → K) :
    (costMatrix time).mulVec v
        ⟨column time.length l 5, column_lt enough (Nat.lt_of_succ_lt inner)⟩ =
      derivativeAt (piece (coefficients time v) l) 3 (time.getD l 0) -
        derivativeAt (piece (coefficients time v) (l + 1)) 3 0 := by
  have terms : ∀ k ∈ Finset.range time.length,
      jerkForm (time.getD k 0) (piece (coefficients time (Pi.single
          ⟨column time.length l 5, column_lt enough (Nat.lt_of_succ_lt inner)⟩ 1)) k)
          (piece (coefficients time v) k) =
        (if k = l then derivativeAt (piece (coefficients time v) k) 3 (time.getD k 0) else 0) -
          if k = l + 1 then derivativeAt (piece (coefficients time v) k) 3 0 else 0 := by
    intro k member
    have segment := Finset.mem_range.mp member
    rw [jerkForm_coefficients apart enough segment]
    simp only [Pi.single_apply, Fin.ext_iff, column_eq_free segment inner _ (.inr rfl),
      Nat.reduceLT, Nat.reduceAdd, Nat.reduceEqDiff, and_true, and_false, or_false, false_or,
      if_false, zero_mul, ite_mul, one_mul]
    ring
  rw [costMatrix_single, Finset.sum_congr rfl terms, Finset.sum_sub_distrib,
    Finset.sum_ite_eq', Finset.sum_ite_eq', if_pos (Finset.mem_range.mpr inner),
    if_pos (Finset.mem_range.mpr (Nat.lt_of_succ_lt inner))]

end Coefficients

section Free

variable {time : List K}

theorem free_column {m : ℕ} (enough : 2 ≤ m) (j : Fin (2 * m - 2)) :
    ∃ l, ∃ inner : l + 1 < m,
      Fin.natAdd (2 * m + 4) j = ⟨column m l 3, column_lt enough (Nat.lt_of_succ_lt inner)⟩ ∨
      Fin.natAdd (2 * m + 4) j = ⟨column m l 5, column_lt enough (Nat.lt_of_succ_lt inner)⟩ := by
  have bound := j.isLt
  have inner : (j : ℕ) / 2 + 1 < m := by omega
  refine ⟨(j : ℕ) / 2, inner, ?_⟩
  simp only [Fin.ext_iff, Fin.val_natAdd, column, if_neg inner.ne]
  omega

variable [Field K]

noncomputable def freeBlock (time : List K) :
    Matrix (Fin (2 * time.length - 2)) (Fin (2 * time.length - 2)) K :=
  (costMatrix time).submatrix (Fin.natAdd (2 * time.length + 4)) (Fin.natAdd (2 * time.length + 4))

theorem costMatrix_append (u : Fin (2 * time.length + 4) → K)
    (v : Fin (2 * time.length - 2) → K) (j : Fin (2 * time.length - 2)) :
    (costMatrix time).mulVec (Fin.append u v) (Fin.natAdd (2 * time.length + 4) j) =
      ((costMatrix time).submatrix (Fin.castAdd (2 * time.length - 2))
          (Fin.natAdd (2 * time.length + 4))).transpose.mulVec u j +
        (freeBlock time).mulVec v j := by
  rw [Matrix.mulVec, dotProduct, Fin.sum_univ_add]
  simp only [Fin.append_left, Fin.append_right]
  refine congrArg₂ (· + ·) (Finset.sum_congr rfl fun i _ => ?_) rfl
  have entry := congrFun (congrFun (costMatrix_symmetric time)
    (Fin.natAdd (2 * time.length + 4) j)) (Fin.castAdd (2 * time.length - 2) i)
  exact congrArg (fun r => r * u i) entry.symm

theorem dotProduct_append (v : Fin (2 * time.length - 2) → K) :
    dotProduct (Fin.append 0 v) ((costMatrix time).mulVec (Fin.append 0 v)) =
      dotProduct v ((freeBlock time).mulVec v) := by
  rw [dotProduct, Fin.sum_univ_add]
  simp only [Fin.append_left, Fin.append_right, Pi.zero_apply, zero_mul, Finset.sum_const_zero,
    zero_add, costMatrix_append, Matrix.mulVec_zero]
  rfl

theorem append_fixed (enough : 2 ≤ time.length) (v : Fin (2 * time.length - 2) → K) {k i : ℕ}
    (segment : k < time.length) (fixed : Fixed time.length k i) :
    (Fin.append 0 v : _ → K) ⟨column time.length k i, column_lt enough segment⟩ = 0 :=
  Fin.append_left (0 : Fin (2 * time.length + 4) → K) v
    ⟨column time.length k i, column_lt_of_fixed enough segment fixed⟩

variable [LinearOrder K] [IsStrictOrderedRing K]

theorem starts_at_rest (forward : ∀ t ∈ time, 0 < t) (enough : 2 ≤ time.length)
    (v : Fin (2 * time.length - 2) → K)
    (smooth : ∀ k < time.length, piece (coefficients time (Fin.append 0 v)) k 3 = 0 ∧
      piece (coefficients time (Fin.append 0 v)) k 4 = 0 ∧
        piece (coefficients time (Fin.append 0 v)) k 5 = 0)
    {k : ℕ} (segment : k < time.length) {i : ℕ} (low : i < 3) :
    derivativeAt (piece (coefficients time (Fin.append 0 v)) k) i 0 = 0 := by
  have apart : ∀ t ∈ time, t ≠ 0 := fun t member => (forward t member).ne'
  have start : ∀ {k i : ℕ} (segment : k < time.length) (low : i < 3),
      derivativeAt (piece (coefficients time (Fin.append 0 v)) k) i 0 =
        (Fin.append 0 v : _ → K) ⟨column time.length k (2 * i), column_lt enough segment⟩ := by
    intro k i segment low
    have value := derivativeAt_coefficients apart enough segment (show 2 * i < 6 by omega)
      (Fin.append 0 v)
    rwa [show 2 * i / 2 = i by omega, if_pos (by omega)] at value
  induction k generalizing i with
  | zero =>
      have fixed : Fixed time.length 0 (2 * i) := by
        obtain rfl | rfl | rfl : i = 0 ∨ i = 1 ∨ i = 2 := by omega
        · exact .inl rfl
        · exact .inr (.inr (.inl ⟨rfl, .inl rfl⟩))
        · exact .inr (.inr (.inl ⟨rfl, .inr rfl⟩))
      rw [start segment low, append_fixed enough v segment fixed]
  | succ k ih =>
      rcases Nat.eq_zero_or_pos i with rfl | free
      · rw [start segment low, append_fixed enough v segment (.inl rfl)]
      · have before : k < time.length := Nat.lt_of_succ_lt segment
        have finish := derivativeAt_coefficients apart enough before
          (show 2 * i + 1 < 6 by omega) (Fin.append 0 v)
        rw [show (2 * i + 1) / 2 = i by omega,
          derivativeAt_of_rest (smooth k before) (fun i low => ih before low) low] at finish
        have shared := column_shared segment (show i = 1 ∨ i = 2 by omega)
        rw [start segment low, finish]
        simp only [shared]

theorem freeBlock_det (forward : ∀ t ∈ time, 0 < t) (enough : 2 ≤ time.length) :
    (freeBlock time).det ≠ 0 := by
  intro singular
  obtain ⟨v, other, vanishes⟩ := Matrix.exists_mulVec_eq_zero_iff.mpr singular
  apply other
  have apart : ∀ t ∈ time, t ≠ 0 := fun t member => (forward t member).ne'
  have cost : dotProduct (Fin.append 0 v) ((costMatrix time).mulVec (Fin.append 0 v)) = 0 := by
    rw [dotProduct_append, vanishes, dotProduct_zero]
  have duration : ∀ k ∈ Finset.range time.length, 0 < time.getD k 0 := by
    intro k member
    have segment := Finset.mem_range.mp member
    rw [List.getD_eq_getElem?_getD, List.getElem?_eq_getElem segment]
    exact forward _ (List.getElem_mem segment)
  rw [dotProduct_costMatrix, Finset.sum_eq_zero_iff_of_nonneg fun k member =>
    jerkForm_self_nonneg (duration k member) _] at cost
  have smooth := fun k (segment : k < time.length) =>
    eq_zero_of_jerkForm_self (duration k (Finset.mem_range.mpr segment))
      (cost k (Finset.mem_range.mpr segment))
  have rest := fun {k : ℕ} (segment : k < time.length) {i : ℕ} (low : i < 3) (t : K) =>
    derivativeAt_of_rest (smooth k segment)
      (fun i low => starts_at_rest forward enough v smooth segment low) low t
  funext j
  obtain ⟨l, inner, free | free⟩ := free_column enough j
  · have value := derivativeAt_coefficients apart enough (Nat.lt_of_succ_lt inner)
      (show 3 < 6 by omega) (Fin.append 0 v)
    rw [← free, Fin.append_right] at value
    exact value.symm.trans (rest (Nat.lt_of_succ_lt inner) (show 1 < 3 by omega) _)
  · have value := derivativeAt_coefficients apart enough (Nat.lt_of_succ_lt inner)
      (show 5 < 6 by omega) (Fin.append 0 v)
    rw [← free, Fin.append_right] at value
    exact value.symm.trans (rest (Nat.lt_of_succ_lt inner) (show 2 < 3 by omega) _)

theorem solveAxis_stationary (forward : ∀ t ∈ time, 0 < t) (enough : 2 ≤ time.length)
    (d : Fin (6 * time.length) → K) :
    ∃ v, solveAxis exactInverse time d = coefficients time v ∧
      ∀ j, (costMatrix time).mulVec v (Fin.natAdd (2 * time.length + 4) j) = 0 := by
  let df : Fin (2 * time.length + 4) → K := fun i =>
    (selectionMatrix time.length).transpose.mulVec d (Fin.castAdd (2 * time.length - 2) i)
  let rfp := (costMatrix time).submatrix (Fin.castAdd (2 * time.length - 2))
    (Fin.natAdd (2 * time.length + 4))
  let dp := (-(exactInverse (freeBlock time) * rfp.transpose)).mulVec df
  refine ⟨Fin.append df dp, rfl, fun j => ?_⟩
  have inverts : freeBlock time * exactInverse (freeBlock time) = 1 :=
    Matrix.mul_nonsing_inv _ (isUnit_iff_ne_zero.mpr (freeBlock_det forward enough))
  have free : (freeBlock time).mulVec dp = -rfp.transpose.mulVec df := by
    rw [Matrix.mulVec_mulVec, Matrix.mul_neg, ← Matrix.mul_assoc, inverts, Matrix.one_mul,
      Matrix.neg_mulVec]
  rw [costMatrix_append, free]
  exact add_neg_cancel _

theorem solveAxis_smooth (forward : ∀ t ∈ time, 0 < t) (enough : 2 ≤ time.length) {l i : ℕ}
    (inner : l + 1 < time.length) (order : i = 3 ∨ i = 4) (d : Fin (6 * time.length) → K) :
    derivativeAt (piece (solveAxis exactInverse time d) (l + 1)) i 0 =
      derivativeAt (piece (solveAxis exactInverse time d) l) i (time.getD l 0) := by
  have apart : ∀ t ∈ time, t ≠ 0 := fun t member => (forward t member).ne'
  obtain ⟨v, closed, stationary⟩ := solveAxis_stationary forward enough d
  rw [closed]
  rcases order with rfl | rfl
  · have place : Fin.natAdd (2 * time.length + 4) ⟨2 * l + 1, by omega⟩ =
        (⟨column time.length l 5, column_lt enough (Nat.lt_of_succ_lt inner)⟩ :
          Fin (2 * time.length + 4 + (2 * time.length - 2))) := by
      simp only [Fin.ext_iff, Fin.val_natAdd, column, if_neg inner.ne]
      omega
    have balance := stationary ⟨2 * l + 1, by omega⟩
    rw [place, costMatrix_acceleration apart enough inner] at balance
    exact (sub_eq_zero.mp balance).symm
  · have place : Fin.natAdd (2 * time.length + 4) ⟨2 * l, by omega⟩ =
        (⟨column time.length l 3, column_lt enough (Nat.lt_of_succ_lt inner)⟩ :
          Fin (2 * time.length + 4 + (2 * time.length - 2))) := by
      simp only [Fin.ext_iff, Fin.val_natAdd, column, if_neg inner.ne]
    have balance := stationary ⟨2 * l, by omega⟩
    rw [place, costMatrix_velocity apart enough inner] at balance
    exact sub_eq_zero.mp balance

end Free

end RobocupDrone.Planner.PolynomialTraj
