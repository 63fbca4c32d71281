import RobocupDrone.Library.QuasiNewton
import RobocupDrone.Optimizer.LineSearch

/-! The memory of the solver: the ring of the last pairs, and the direction that its two loops make
of them. -/

namespace RobocupDrone.Optimizer

open QuasiNewton

section Ring

variable {m j : ℕ}

/-- The slot in front of `j`. -/
def back (m j : ℕ) : ℕ := (j + m - 1) % m

/-- The slot behind `j`. -/
def forth (m j : ℕ) : ℕ := (j + 1) % m

theorem back_eq (inside : j < m) : back m j = if j = 0 then m - 1 else j - 1 := by
  unfold back
  split_ifs with first
  · rw [first, Nat.zero_add]
    exact Nat.mod_eq_of_lt (by omega)
  · rw [show j + m - 1 = j - 1 + m by omega, Nat.add_mod_right]
    exact Nat.mod_eq_of_lt (by omega)

theorem back_lt (inside : j < m) : back m j < m := Nat.mod_lt _ (Nat.zero_lt_of_lt inside)

theorem forth_lt (inside : j < m) : forth m j < m := Nat.mod_lt _ (Nat.zero_lt_of_lt inside)

theorem forth_eq (inside : j < m) : forth m j = if j + 1 = m then 0 else j + 1 := by
  unfold forth
  split_ifs with last
  · rw [last, Nat.mod_self]
  · exact Nat.mod_eq_of_lt (by omega)

theorem forth_back (inside : j < m) : forth m (back m j) = j := by
  rw [forth_eq (back_lt inside), back_eq inside]
  split_ifs <;> omega

theorem back_forth (inside : j < m) : back m (forth m j) = j := by
  rw [back_eq (forth_lt inside), forth_eq inside]
  by_cases last : j + 1 = m
  · rw [if_pos last, if_pos rfl]
    omega
  · rw [if_neg last, if_neg (Nat.succ_ne_zero j)]
    rfl

theorem back_iterate (inside : j < m) {i : ℕ} (short : i ≤ m) :
    (back m)^[i] j = if i ≤ j then j - i else j + m - i := by
  induction i with
  | zero => rfl
  | succ i ih =>
      have before := ih (Nat.le_of_succ_le short)
      have slot : (back m)^[i] j < m := by
        rw [before]
        split_ifs <;> omega
      rw [Function.iterate_succ_apply', back_eq slot, before]
      split_ifs <;> omega

theorem back_iterate_lt (inside : j < m) {i : ℕ} (short : i ≤ m) : (back m)^[i] j < m := by
  rw [back_iterate inside short]
  split_ifs <;> omega

theorem back_iterate_ne (inside : j < m) {i : ℕ} (short : i + 1 < m) :
    (back m)^[i + 1] j ≠ j := by
  rw [back_iterate inside short.le]
  split_ifs <;> omega

theorem forth_back_iterate (inside : j < m) {i : ℕ} (short : i ≤ m) :
    (forth m)^[i] ((back m)^[i] j) = j := by
  induction i with
  | zero => rfl
  | succ i ih =>
      have slot := back_iterate_lt inside (Nat.le_of_succ_le short)
      rw [Function.iterate_succ_apply, Function.iterate_succ_apply', forth_back slot]
      exact ih (Nat.le_of_succ_le short)

end Ring

section Pairs

variable {K : Type} {n m : ℕ}

/-- The pairs in the last `bound` slots in front of `j`, the newest first. -/
def stored (m : ℕ) (lm : ℕ → IterationData K n) (bound j : ℕ) : List (Pair (Fin n → K)) :=
  (List.range bound).map fun i => ⟨(lm ((back m)^[i + 1] j)).s, (lm ((back m)^[i + 1] j)).y⟩

theorem stored_succ (lm : ℕ → IterationData K n) (bound j : ℕ) :
    stored m lm (bound + 1) j =
      ⟨(lm (back m j)).s, (lm (back m j)).y⟩ :: stored m lm bound (back m j) := by
  rw [stored, List.range_succ_eq_map, List.map_cons, List.map_map]
  rfl

theorem stored_take (lm : ℕ → IterationData K n) {few bound : ℕ} (fewer : few ≤ bound) (j : ℕ) :
    (stored m lm bound j).take few = stored m lm few j := by
  rw [stored, stored, ← List.map_take, List.take_range, min_eq_left fewer]

def SamePairs (lm other : ℕ → IterationData K n) : Prop :=
  ∀ i, (lm i).s = (other i).s ∧ (lm i).y = (other i).y ∧ (lm i).ys = (other i).ys

theorem SamePairs.stored {lm other : ℕ → IterationData K n} (same : SamePairs lm other)
    (bound j : ℕ) : stored m lm bound j = stored m other bound j := by
  apply List.map_congr_left
  intro i _
  rw [(same _).1, (same _).2.1]

theorem samePairs_alpha (lm : ℕ → IterationData K n) (j : ℕ) (alpha : K) :
    SamePairs (Function.update lm j { lm j with alpha }) lm := by
  intro i
  by_cases here : i = j
  · subst here
    rw [Function.update_self]
    exact ⟨rfl, rfl, rfl⟩
  · rw [Function.update_of_ne here]
    exact ⟨rfl, rfl, rfl⟩

theorem stored_write {lm : ℕ → IterationData K n} {slot : ℕ} (inside : slot < m)
    {pairs : List (Pair (Fin n → K))}
    (memory : stored m lm (min m pairs.length) slot = pairs.take m) (data : IterationData K n) :
    stored m (Function.update lm slot data) (min m (pairs.length + 1)) (forth m slot) =
      (⟨data.s, data.y⟩ :: pairs).take m := by
  obtain ⟨rest, rfl⟩ : ∃ rest, m = rest + 1 := ⟨m - 1, by omega⟩
  have older : stored (rest + 1) (Function.update lm slot data) (min rest pairs.length) slot =
      pairs.take rest := by
    have untouched : stored (rest + 1) (Function.update lm slot data) (min rest pairs.length) slot =
        stored (rest + 1) lm (min rest pairs.length) slot := by
      apply List.map_congr_left
      intro i member
      have short : i < min rest pairs.length := List.mem_range.mp member
      rw [Function.update_of_ne (back_iterate_ne inside (by omega))]
    rw [untouched, ← stored_take lm (show min rest pairs.length ≤ min (rest + 1) pairs.length by
      omega), memory, List.take_take, List.take_eq_take_iff]
    omega
  rw [Nat.add_min_add_right, stored_succ, back_forth inside, Function.update_self, older,
    List.take_succ_cons]

end Pairs

variable {K : Type} [Field K] {n m : ℕ}

def dotForm : LinearMap.BilinForm K (Fin n → K) :=
  LinearMap.mk₂ K vecdot
    (fun x y z => by simp only [vecdot, Pi.add_apply, add_mul, Finset.sum_add_distrib])
    (fun c x y => by simp only [vecdot, Pi.smul_apply, smul_eq_mul, mul_assoc, Finset.mul_sum])
    (fun x y z => by simp only [vecdot, Pi.add_apply, mul_add, Finset.sum_add_distrib])
    (fun c x y => by
      simp only [vecdot, Pi.smul_apply, smul_eq_mul, Finset.mul_sum]
      exact Finset.sum_congr rfl fun i _ => mul_left_comm (x i) c (y i))

@[simp] theorem dotForm_apply (x y : Fin n → K) : dotForm x y = vecdot x y := rfl

def Weighed (m : ℕ) (lm : ℕ → IterationData K n) (bound j : ℕ) : Prop :=
  ∀ i < bound, (lm ((back m)^[i + 1] j)).ys =
    vecdot (lm ((back m)^[i + 1] j)).y (lm ((back m)^[i + 1] j)).s

theorem SamePairs.weighed {lm other : ℕ → IterationData K n} (same : SamePairs lm other)
    {bound j : ℕ} (weighed : Weighed m other bound j) : Weighed m lm bound j := by
  intro i short
  rw [(same _).1, (same _).2.1, (same _).2.2]
  exact weighed i short

theorem inwards_slot (bound j : ℕ) (lm : ℕ → IterationData K n) (d : Fin n → K) :
    (inwards m bound j lm d).1 = (back m)^[bound] j := by
  induction bound generalizing j lm d with
  | zero => rfl
  | succ bound ih =>
      rw [inwards, ih]
      rfl

theorem inwards_samePairs (bound j : ℕ) (lm : ℕ → IterationData K n) (d : Fin n → K) :
    SamePairs (inwards m bound j lm d).2.1 lm := by
  induction bound generalizing j lm d with
  | zero => exact fun _ => ⟨rfl, rfl, rfl⟩
  | succ bound ih =>
      rw [inwards]
      intro i
      obtain ⟨sameS, sameY, sameYs⟩ := ih _ _ _ i
      obtain ⟨s, y, ys⟩ := samePairs_alpha lm ((j + m - 1) % m) _ i
      exact ⟨sameS.trans s, sameY.trans y, sameYs.trans ys⟩

theorem inwards_elsewhere {bound j i : ℕ} (lm : ℕ → IterationData K n) (d : Fin n → K)
    (apart : ∀ t < bound, (back m)^[t + 1] j ≠ i) : (inwards m bound j lm d).2.1 i = lm i := by
  induction bound generalizing j lm d with
  | zero => rfl
  | succ bound ih =>
      have later : ∀ t < bound, (back m)^[t + 1] (back m j) ≠ i := fun t short =>
        apart (t + 1) (Nat.succ_lt_succ short)
      have first : i ≠ (j + m - 1) % m := (apart 0 (Nat.zero_lt_succ bound)).symm
      rw [inwards]
      refine (ih _ _ later).trans ?_
      rw [Function.update_of_ne first]

theorem outwards_succ (bound j : ℕ) (lm : ℕ → IterationData K n) (d : Fin n → K) :
    outwards m (bound + 1) j lm d =
      let slot := lm ((forth m)^[bound] j)
      let inner := outwards m bound j lm d
      vecadd inner slot.s (slot.alpha - vecdot slot.y inner / slot.ys) := by
  induction bound generalizing j d with
  | zero => rfl
  | succ bound ih =>
      rw [outwards, ih]
      rfl

theorem loops_eq {bound j : ℕ} (inside : j < m) (short : bound ≤ m)
    {lm : ℕ → IterationData K n} (weighed : Weighed m lm bound j) (c : K) (d : Fin n → K) :
    outwards m bound (inwards m bound j lm d).1 (inwards m bound j lm d).2.1
        (vecscale (inwards m bound j lm d).2.2 c) =
      twoPass dotForm c (stored m lm bound j) d := by
  induction bound generalizing j lm d with
  | zero =>
      funext i
      exact mul_comm (d i) c
  | succ bound ih =>
      set slot := back m j with named
      set alpha := vecdot (lm slot).s d / (lm slot).ys with factor
      set marked := Function.update lm slot { lm slot with alpha } with marks
      have same : SamePairs marked lm := samePairs_alpha lm slot alpha
      have slot_inside : slot < m := back_lt inside
      have started : inwards m (bound + 1) j lm d =
          inwards m bound slot marked (vecadd d (lm slot).y (-alpha)) := rfl
      have rest : Weighed m marked bound slot :=
        same.weighed fun i below => weighed (i + 1) (Nat.succ_lt_succ below)
      have inner := ih slot_inside (Nat.le_of_succ_le short) rest
        (vecadd d (lm slot).y (-alpha))
      rw [started, outwards_succ, inwards_slot,
        forth_back_iterate slot_inside (Nat.le_of_succ_le short),
        inwards_elsewhere _ _ fun t below => back_iterate_ne slot_inside (by omega)]
      rw [inwards_slot] at inner
      dsimp only
      rw [inner, same.stored, stored_succ, twoPass]
      have own : marked slot = { lm slot with alpha } := Function.update_self _ _ _
      have divisor : (lm slot).ys = vecdot (lm slot).y (lm slot).s :=
        weighed 0 (Nat.zero_lt_succ bound)
      have less : vecadd d (lm slot).y (-alpha) = d - alpha • (lm slot).y := by
        funext i
        simp only [vecadd, Pi.sub_apply, Pi.smul_apply, smul_eq_mul]
        ring
      rw [own, less]
      dsimp only [dotForm_apply]
      rw [← named, ← divisor, ← factor]
      rfl

theorem weighed_write {lm : ℕ → IterationData K n} {slot count : ℕ} (inside : slot < m)
    (weighed : Weighed m lm (min m count) slot) {data : IterationData K n}
    (weight : data.ys = vecdot data.y data.s) :
    Weighed m (Function.update lm slot data) (min m (count + 1)) (forth m slot) := by
  intro i short
  cases i with
  | zero =>
      rw [Function.iterate_succ_apply, Function.iterate_zero_apply, back_forth inside,
        Function.update_self]
      exact weight
  | succ i =>
      rw [Function.iterate_succ_apply, back_forth inside,
        Function.update_of_ne (back_iterate_ne inside (by omega))]
      exact weighed i (by omega)

theorem nextDirection_eq {bound slot : ℕ} (inside : slot < m) (short : bound ≤ m)
    {lm : ℕ → IterationData K n} (weighed : Weighed m lm bound slot) (scale : K) (g : Fin n → K) :
    (nextDirection m bound slot lm scale g).1 =
        -inverseHessian dotForm scale (stored m lm bound slot) g ∧
      SamePairs (nextDirection m bound slot lm scale g).2 lm := by
  refine ⟨?_, inwards_samePairs bound slot lm (vecncpy g)⟩
  have product := loops_eq inside short weighed scale (vecncpy g)
  rw [twoPass_eq, show vecncpy g = -g from rfl, map_neg] at product
  exact product

end RobocupDrone.Optimizer
