import RobocupDrone.Library.Quintic
import RobocupDrone.Planner.ReboundReplan

/-! The steps along a polynomial that shrink until the points are close together. -/

namespace RobocupDrone.Planner.ReboundReplan

open Geometry Loop

section Loops

variable {K : Type} {sqrt : K → K} {evaluate : K → Option (Vec3 K)} {f : K → Vec3 K}
  {limit time ts t : K} {count fuel : ℕ}
variable [Field K] [LinearOrder K]

def Near (sqrt : K → K) (limit : K) (a b : Vec3 K) : Prop := (a - b).lengthBy sqrt ≤ limit

theorem sampleSteps_returned {lastPt : Vec3 K} {pointSet points : List (Vec3 K)} {last : K}
    (evaluates : ∀ s < time, evaluate s = some (f s))
    (returned : sampleSteps sqrt evaluate limit time ts fuel t lastPt pointSet =
      .ok (false, last, points)) :
    ∃ count, Lasts (· < time) ts t count ∧ last = t + count * ts ∧
      points = pointSet ++ (instants t ts count).map f ∧
      (lastPt :: (instants t ts count).map f).IsChain (Near sqrt limit) := by
  induction fuel generalizing t lastPt pointSet with
  | zero => cases returned
  | succ fuel ih =>
      rw [sampleSteps] at returned
      split_ifs at returned with going
      · rw [evaluates t going] at returned
        simp only [orStop, bind, Except.bind] at returned
        split_ifs at returned with far
        · cases returned
        · obtain ⟨count, lasts, ended, sampled, chain⟩ := ih returned
          refine ⟨count + 1, lasts.cons going, ?_, ?_, ?_⟩
          · rw [ended, Nat.cast_succ]
            ring
          · rw [sampled, instants_succ, List.map_cons, List.append_assoc, List.singleton_append]
          · rw [instants_succ, List.map_cons]
            exact chain.cons_cons (not_lt.mp far)
      · cases returned
        refine ⟨0, ⟨fun k none => absurd none (Nat.not_lt_zero k), ?_⟩, ?_, ?_, ?_⟩
        · rwa [Nat.cast_zero, zero_mul, add_zero]
        · rw [Nat.cast_zero, zero_mul, add_zero]
        · rw [instants_zero, List.map_nil, List.append_nil]
        · exact List.isChain_singleton lastPt

theorem sampleSteps_ends (sqrt : K → K) (limit : K) (lastPt : Vec3 K)
    (evaluates : ∀ s < time, evaluate s = some (f s))
    (lasts : Lasts (· < time) ts t count) (enough : count < fuel)
    (pointSet : List (Vec3 K)) :
    ∃ flagTooFar last points, sampleSteps sqrt evaluate limit time ts fuel t lastPt pointSet =
        .ok (flagTooFar, last, points) ∧
      ((lastPt :: (instants t ts count).map f).IsChain (Near sqrt limit) →
        flagTooFar = false ∧ points = pointSet ++ (instants t ts count).map f) := by
  induction count generalizing t fuel lastPt pointSet with
  | zero =>
      obtain ⟨fuel, rfl⟩ := Nat.exists_eq_succ_of_ne_zero (Nat.ne_of_gt enough)
      have ended := lasts.ended
      rw [Nat.cast_zero, zero_mul, add_zero] at ended
      refine ⟨false, t, pointSet, ?_, fun _ => ⟨rfl, ?_⟩⟩
      · rw [sampleSteps, if_neg ended]
      · rw [instants_zero, List.map_nil, List.append_nil]
  | succ count ih =>
      obtain ⟨fuel, rfl⟩ := Nat.exists_eq_succ_of_ne_zero (Nat.ne_of_gt (Nat.zero_lt_of_lt enough))
      have going := lasts.during 0 (Nat.succ_pos count)
      rw [Nat.cast_zero, zero_mul, add_zero] at going
      rw [sampleSteps, if_pos going, evaluates t going, instants_succ, List.map_cons]
      simp only [orStop, bind, Except.bind]
      split_ifs with far
      · exact ⟨true, t, pointSet, rfl, fun chain =>
          absurd (List.isChain_cons_cons.mp chain).1 (not_le.mpr far)⟩
      · obtain ⟨flagTooFar, last, points, ended, close⟩ :=
          ih (f t) lasts.tail (show count < fuel by omega) (pointSet ++ [f t])
        refine ⟨flagTooFar, last, points, ended, fun chain => ?_⟩
        obtain ⟨near, all⟩ := close (List.isChain_cons_cons.mp chain).2
        exact ⟨near, by rw [all, List.append_assoc, List.singleton_append]⟩

theorem sampleSteps_stops (sqrt : K → K) (limit ts : K)
    (evaluates : ∀ s < time, evaluate s = some (f s)) (fuel : ℕ) (t : K) (lastPt : Vec3 K)
    (pointSet : List (Vec3 K)) :
    (∃ result, sampleSteps sqrt evaluate limit time ts fuel t lastPt pointSet = .ok result) ∨
      sampleSteps sqrt evaluate limit time ts fuel t lastPt pointSet = .error .outOfFuel := by
  induction fuel generalizing t lastPt pointSet with
  | zero => exact .inr rfl
  | succ fuel ih =>
      rw [sampleSteps]
      split_ifs with going
      · rw [evaluates t going]
        simp only [orStop, bind, Except.bind]
        split_ifs
        · exact .inl ⟨_, rfl⟩
        · exact ih (t + ts) (f t) (pointSet ++ [f t])
      · exact .inl ⟨_, rfl⟩

theorem shrinkSteps_stops (sqrt : K → K) (limit : K)
    (evaluates : ∀ s < time, evaluate s = some (f s)) (lasting : 0 < time) (fuel rounds : ℕ)
    (start : K) :
    (∃ result, shrinkSteps sqrt evaluate limit time fuel rounds start = .ok result) ∨
      shrinkSteps sqrt evaluate limit time fuel rounds start = .error .outOfFuel := by
  induction rounds generalizing start with
  | zero => exact .inr rfl
  | succ rounds ih =>
      rw [shrinkSteps, evaluates 0 lasting]
      simp only [orStop, bind, Except.bind]
      rcases sampleSteps_stops sqrt limit (start / (3 / 2)) evaluates fuel 0 (f 0) [] with
        ⟨⟨flagTooFar, last, points⟩, ended⟩ | ended
      · rw [ended]
        dsimp only
        split_ifs
        · exact ih (start / (3 / 2))
        · exact .inl ⟨_, rfl⟩
      · rw [ended]
        exact .inr rfl

/-- What the `do` loop leaves: the points at the steps `ts`, close together. -/
structure Stepped (sqrt : K → K) (f : K → Vec3 K) (limit time ts last : K)
    (points : List (Vec3 K)) : Prop where
  positive : 0 < ts
  near : points.IsChain (Near sqrt limit)
  enough : 7 ≤ points.length
  sampled : ∃ count, Lasts (· < time) ts 0 count ∧ last = count * ts ∧
    points = (instants 0 ts count).map f

theorem Stepped.last_before {last : K} {points : List (Vec3 K)}
    (stepped : Stepped sqrt f limit time ts last points) : last - ts < time := by
  obtain ⟨-, -, enough, count, lasts, rfl, rfl⟩ := stepped
  rw [List.length_map, length_instants] at enough
  obtain ⟨count, rfl⟩ : ∃ rest, count = rest + 1 := ⟨count - 1, by omega⟩
  have going := lasts.during count (Nat.lt_succ_self count)
  rwa [Nat.cast_succ, add_mul, one_mul, add_sub_cancel_right, ← zero_add ((count : K) * ts)]

theorem shrinkSteps_succ (sqrt : K → K) (limit : K)
    (evaluates : ∀ s < time, evaluate s = some (f s)) (lasting : 0 < time) {start : K}
    (lasts : Lasts (· < time) (start / (3 / 2)) 0 count) (enough : count < fuel)
    (rounds : ℕ) : ∃ flagTooFar last points,
      shrinkSteps sqrt evaluate limit time fuel (rounds + 1) start =
        (if flagTooFar = true ∨ points.length < 7 then
          shrinkSteps sqrt evaluate limit time fuel rounds (start / (3 / 2))
        else .ok (start / (3 / 2), last, points)) ∧
      ((f 0 :: (instants 0 (start / (3 / 2)) count).map f).IsChain (Near sqrt limit) →
        flagTooFar = false ∧ points.length = count) := by
  obtain ⟨flagTooFar, last, points, ended, close⟩ :=
    sampleSteps_ends sqrt limit (f 0) evaluates lasts enough []
  refine ⟨flagTooFar, last, points, ?_, fun chain => ?_⟩
  · rw [shrinkSteps, evaluates 0 lasting]
    simp only [orStop, bind, Except.bind, ended]
  · obtain ⟨near, all⟩ := close chain
    refine ⟨near, ?_⟩
    rw [all, List.nil_append, List.length_map, length_instants]

variable [IsStrictOrderedRing K]

theorem shrinkSteps_returned {rounds : ℕ} {start last : K} {points : List (Vec3 K)}
    (evaluates : ∀ s < time, evaluate s = some (f s)) (positive : 0 < start)
    (returned : shrinkSteps sqrt evaluate limit time fuel rounds start = .ok (ts, last, points)) :
    Stepped sqrt f limit time ts last points ∧ ts ≤ start / (3 / 2) := by
  induction rounds generalizing start with
  | zero => cases returned
  | succ rounds ih =>
      have finer : 0 < start / (3 / 2) := div_pos positive (by norm_num)
      rw [shrinkSteps] at returned
      cases first : evaluate 0 with
      | none =>
          rw [first] at returned
          cases returned
      | some lastPt =>
          rw [first] at returned
          simp only [orStop, bind, Except.bind] at returned
          cases round : sampleSteps sqrt evaluate limit time (start / (3 / 2)) fuel 0 lastPt [] with
          | error stop =>
              rw [round] at returned
              cases returned
          | ok result =>
              obtain ⟨flagTooFar, t, pointSet⟩ := result
              rw [round] at returned
              dsimp only at returned
              split_ifs at returned with again
              · obtain ⟨stepped, smaller⟩ := ih finer returned
                refine ⟨stepped, smaller.trans ?_⟩
                exact div_le_self finer.le (by norm_num)
              · cases returned
                rw [not_or, not_lt, Bool.not_eq_true] at again
                rw [again.1] at round
                obtain ⟨count, lasts, ended, sampled, chain⟩ := sampleSteps_returned evaluates round
                rw [List.nil_append] at sampled
                rw [zero_add] at ended
                refine ⟨⟨finer, ?_, again.2, count, lasts, ended, sampled⟩, le_rfl⟩
                rw [sampled]
                exact chain.tail

def Steady (sqrt : K → K) (f : K → Vec3 K) (limit time : K) : Prop :=
  ∃ h > 0, ∀ s t, 0 ≤ s → s ≤ t → t < time → t - s < h → Near sqrt limit (f s) (f t)

/-- A step below the size at which the points are near, and below a seventh of the time, is the
last. -/
theorem shrinkSteps_last (exact : Vec3.IsSqrt sqrt)
    (evaluates : ∀ s < time, evaluate s = some (f s)) (lasting : 0 < time) (reach : 0 < limit)
    {h : K} (steady : ∀ s t, 0 ≤ s → s ≤ t → t < time → t - s < h → Near sqrt limit (f s) (f t))
    {start : K} (positive : 0 < start / (3 / 2)) (short : start / (3 / 2) < h)
    (brief : start / (3 / 2) < time / 7)
    (lasts : Lasts (· < time) (start / (3 / 2)) 0 count) (enough : count < fuel) (rounds : ℕ) :
    ∃ result, shrinkSteps sqrt evaluate limit time fuel (rounds + 1) start = .ok result := by
  have seven : 7 ≤ count := by
    by_contra few
    have steps : (count : K) ≤ 6 := by exact_mod_cast (show count ≤ 6 by omega)
    have ended := not_lt.mp lasts.ended
    have way := mul_le_mul_of_nonneg_right steps positive.le
    linarith
  obtain ⟨flagTooFar, last, points, ended, close⟩ :=
    shrinkSteps_succ sqrt limit evaluates lasting lasts enough rounds
  have chain : (f 0 :: (instants 0 (start / (3 / 2)) count).map f).IsChain (Near sqrt limit) := by
    obtain ⟨count, rfl⟩ : ∃ rest, count = rest + 1 := ⟨count - 1, by omega⟩
    have still : Near sqrt limit (f 0) (f 0) := by
      rw [Near, sub_self, Vec3.lengthBy_zero exact]
      exact reach.le
    have close : ((instants 0 (start / (3 / 2)) (count + 1)).map f).IsChain (Near sqrt limit) := by
      rw [List.isChain_map, isChain_instants_iff]
      intro k before
      have going := lasts.during (k + 1) before
      have reached := mul_nonneg (Nat.cast_nonneg (α := K) k) positive.le
      apply steady _ _ _ _ going
      · rw [Nat.cast_succ]
        linarith
      · linarith
      · rw [Nat.cast_succ]
        linarith
    rw [instants_succ, List.map_cons] at close ⊢
    exact close.cons_cons still
  obtain ⟨near, size⟩ := close chain
  rw [ended, if_neg (by rw [near, size]; simp; omega)]
  exact ⟨_, rfl⟩

theorem shrinkSteps_ends [Archimedean K] (exact : Vec3.IsSqrt sqrt)
    (evaluates : ∀ s < time, evaluate s = some (f s)) (lasting : 0 < time) (reach : 0 < limit)
    {h : K} (steady : ∀ s t, 0 ≤ s → s ≤ t → t < time → t - s < h → Near sqrt limit (f s) (f t))
    {r : ℕ} {start : K} (positive : 0 < start)
    (small : start / (3 / 2) < (3 / 2) ^ r * min h (time / 7)) :
    ∃ bound, ∀ fuel ≥ bound, ∀ rounds ≥ bound, ∃ result,
      shrinkSteps sqrt evaluate limit time fuel rounds start = .ok result := by
  induction r generalizing start with
  | zero =>
      have finer : 0 < start / (3 / 2) := div_pos positive (by norm_num)
      obtain ⟨count, lasts⟩ := exists_lasts finer 0 time
      rw [pow_zero, one_mul, lt_min_iff] at small
      refine ⟨count + 1, fun fuel large rounds more => ?_⟩
      obtain ⟨rounds, rfl⟩ : ∃ rest, rounds = rest + 1 := ⟨rounds - 1, by omega⟩
      exact shrinkSteps_last exact evaluates lasting reach steady finer small.1 small.2 lasts
        (by omega) rounds
  | succ r ih =>
      have finer : 0 < start / (3 / 2) := div_pos positive (by norm_num)
      obtain ⟨count, lasts⟩ := exists_lasts finer 0 time
      have smaller : start / (3 / 2) / (3 / 2) < (3 / 2) ^ r * min h (time / 7) := by
        rw [pow_succ] at small
        linarith
      obtain ⟨bound, later⟩ := ih finer smaller
      refine ⟨bound + count + 1, fun fuel large rounds more => ?_⟩
      obtain ⟨rounds, rfl⟩ : ∃ rest, rounds = rest + 1 := ⟨rounds - 1, by omega⟩
      obtain ⟨flagTooFar, last, points, ended, -⟩ :=
        shrinkSteps_succ sqrt limit evaluates lasting lasts (show count < fuel by omega) rounds
      rw [ended]
      split_ifs
      · exact later fuel (by omega) rounds (by omega)
      · exact ⟨_, rfl⟩

end Loops

section Curves

def curve {K : Type} [Field K] (c : Axis → ℕ → K) (s : K) : Vec3 K :=
  Vec3.ofAxes fun axis => Quintic.derivativeAt (c axis) 0 s

theorem exists_coordinate_close (c : ℕ → ℝ) (bound : ℝ) {ε : ℝ} (positive : 0 < ε) :
    ∃ h > 0, ∀ s ∈ Set.Icc 0 bound, ∀ t ∈ Set.Icc 0 bound, |s - t| < h →
      |Quintic.derivativeAt c 0 s - Quintic.derivativeAt c 0 t| < ε := by
  have fast : 0 < |Quintic.speedBound bound c| + 1 := by positivity
  refine ⟨ε / (|Quintic.speedBound bound c| + 1), div_pos positive fast,
    fun s inside t within near => ?_⟩
  have first : |s| ≤ bound := by rw [abs_of_nonneg inside.1]; exact inside.2
  have second : |t| ≤ bound := by rw [abs_of_nonneg within.1]; exact within.2
  calc |Quintic.derivativeAt c 0 s - Quintic.derivativeAt c 0 t|
      ≤ Quintic.speedBound bound c * |s - t| := Quintic.abs_position_sub_le c first second
    _ ≤ (|Quintic.speedBound bound c| + 1) * |s - t| := by
        gcongr
        exact (le_abs_self _).trans (le_add_of_nonneg_right zero_le_one)
    _ < ε := by
        rw [mul_comm]
        exact (lt_div_iff₀ fast).mp near

theorem exists_curve_close (c : Axis → ℕ → ℝ) (bound : ℝ) {ε : ℝ} (positive : 0 < ε) :
    ∃ h > 0, ∀ s ∈ Set.Icc 0 bound, ∀ t ∈ Set.Icc 0 bound, |s - t| < h →
      (curve c s - curve c t).lengthBy Real.sqrt ≤ ε := by
  have third : 0 < ε / 3 := by positivity
  choose h later close using fun axis => exists_coordinate_close (c axis) bound third
  refine ⟨min (h .x) (min (h .y) (h .z)), lt_min (later .x) (lt_min (later .y) (later .z)),
    fun s inside t within near => ?_⟩
  rw [lt_min_iff, lt_min_iff] at near
  have on_x := close .x s inside t within near.1
  have on_y := close .y s inside t within near.2.1
  have on_z := close .z s inside t within near.2.2
  have sum := Vec3.lengthBy_le_sum Vec3.isSqrt_sqrt (curve c s - curve c t)
  simp only [Vec3.get_sub, curve, Vec3.get_ofAxes] at sum
  rw [curve, curve]
  linarith

variable {limit time : ℝ}

theorem steady_curve (c : Axis → ℕ → ℝ) (reach : 0 < limit) :
    Steady Real.sqrt (curve c) limit time := by
  obtain ⟨h, later, close⟩ := exists_curve_close c time reach
  refine ⟨h, later, fun s t started order before near => ?_⟩
  apply close s ⟨started, (order.trans_lt before).le⟩ t ⟨started.trans order, before.le⟩
  rwa [abs_sub_comm, abs_of_nonneg (sub_nonneg.mpr order)]

/-- Along one curve up to `tail` past its end, and along the next from there. -/
noncomputable def switched (c d : Axis → ℕ → ℝ) (half tail s : ℝ) : Vec3 ℝ :=
  if s ≤ half + tail then curve c s else curve d (s - half)

theorem steady_pair (c d : Axis → ℕ → ℝ) {half tail : ℝ} (lasting : 0 < half) (forward : 0 < tail)
    (short : (curve c (half + tail) - curve d tail).lengthBy Real.sqrt < limit) :
    Steady Real.sqrt (switched c d half tail) limit time := by
  let gap := (curve c (half + tail) - curve d tail).lengthBy Real.sqrt
  have nonneg : 0 ≤ gap := Vec3.lengthBy_nonneg Vec3.isSqrt_sqrt _
  have slack : 0 < (limit - gap) / 2 := half_pos (sub_pos.mpr short)
  obtain ⟨h, later, close⟩ := exists_curve_close c (max time (half + tail)) slack
  obtain ⟨h', later', close'⟩ := exists_curve_close d (max time (half + tail)) slack
  refine ⟨min h h', lt_min later later', fun s t started order before near => ?_⟩
  rw [lt_min_iff] at near
  have within : time ≤ max time (half + tail) := le_max_left _ _
  have turn : half + tail ≤ max time (half + tail) := le_max_right _ _
  rw [Near, switched, switched]
  rcases le_or_gt t (half + tail) with early | late
  · rw [if_pos (order.trans early), if_pos early]
    have bound := close s ⟨started, by linarith⟩ t ⟨by linarith, by linarith⟩
      (by rw [abs_sub_comm, abs_of_nonneg (by linarith)]; exact near.1)
    linarith
  · rw [if_neg (not_le.mpr late)]
    rcases le_or_gt s (half + tail) with crossing | after
    · -- the step from one curve to the other lies between the two points
      rw [if_pos crossing]
      have first := close s ⟨started, by linarith⟩ (half + tail) ⟨by linarith, turn⟩
        (by rw [abs_sub_comm, abs_of_nonneg (by linarith)]; linarith)
      have last := close' tail ⟨forward.le, by linarith⟩ (t - half) ⟨by linarith, by linarith⟩
        (by rw [abs_sub_comm, abs_of_nonneg (by linarith)]; linarith)
      calc (curve c s - curve d (t - half)).lengthBy Real.sqrt
          = (curve c s - curve c (half + tail) + ((curve c (half + tail) - curve d tail) +
              (curve d tail - curve d (t - half)))).lengthBy Real.sqrt := by
            congr 1
            abel
        _ ≤ (curve c s - curve c (half + tail)).lengthBy Real.sqrt +
              ((curve c (half + tail) - curve d tail) +
                (curve d tail - curve d (t - half))).lengthBy Real.sqrt :=
            Vec3.lengthBy_add_le Vec3.isSqrt_sqrt _ _
        _ ≤ (curve c s - curve c (half + tail)).lengthBy Real.sqrt +
              (gap + (curve d tail - curve d (t - half)).lengthBy Real.sqrt) := by
            gcongr
            exact Vec3.lengthBy_add_le Vec3.isSqrt_sqrt _ _
        _ ≤ (limit - gap) / 2 + (gap + (limit - gap) / 2) := by gcongr
        _ = limit := by ring
    · rw [if_neg (not_le.mpr after)]
      have bound := close' (s - half) ⟨by linarith, by linarith⟩ (t - half)
        ⟨by linarith, by linarith⟩
        (by rw [sub_sub_sub_cancel_right, abs_sub_comm, abs_of_nonneg (by linarith)]; exact near.2)
      linarith

/-- The last step before `turn` and the first after it. -/
theorem exists_crossing {ts turn : ℝ} (positive : 0 < ts) (nonneg : 0 ≤ turn) :
    ∃ k : ℕ, k * ts ≤ turn ∧ turn < (k + 1 : ℕ) * ts := by
  refine ⟨⌊turn / ts⌋₊, (le_div_iff₀ positive).mp (Nat.floor_le (by positivity)), ?_⟩
  rw [Nat.cast_succ]
  exact (div_lt_iff₀ positive).mp (Nat.lt_floor_add_one _)

theorem abs_jump_le (f g : ℝ → ℝ) (turn a b tail : ℝ) :
    |f turn - g tail| ≤ |f turn - f a| + |f a - g b| + |g b - g tail| :=
  calc |f turn - g tail|
      ≤ |f turn - f a| + |f a - g tail| := abs_sub_le _ _ _
    _ ≤ |f turn - f a| + (|f a - g b| + |g b - g tail|) := by
        gcongr
        exact abs_sub_le _ _ _
    _ = |f turn - f a| + |f a - g b| + |g b - g tail| := (add_assoc _ _ _).symm

/-- The speeds are below `v`, and the step between the curves is longer than the points may be
apart. -/
theorem not_stepped_pair {c d : Axis → ℕ → ℝ} {half tail v ts last : ℝ}
    {points : List (Vec3 ℝ)} (axis : Axis) (lasting : 0 < half) (forward : 0 < tail)
    (within : half + tail + ts < time) (first_slow : Quintic.speedBound time (c axis) ≤ v)
    (second_slow : Quintic.speedBound time (d axis) ≤ v)
    (jump : limit + v * ts < |Quintic.derivativeAt (c axis) 0 (half + tail) -
      Quintic.derivativeAt (d axis) 0 tail|) :
    ¬Stepped Real.sqrt (switched c d half tail) limit time ts last points := by
  rintro ⟨positive, near, -, count, lasts, -, rfl⟩
  -- the last time on the first curve and the first on the second
  obtain ⟨k, before, after⟩ := exists_crossing positive (show 0 ≤ half + tail by linarith)
  have next : ((k + 1 : ℕ) : ℝ) * ts = k * ts + ts := by
    rw [Nat.cast_succ]
    ring
  have inner : k + 1 < count := by
    have ended := not_lt.mp lasts.ended
    have steps : ((k + 1 : ℕ) : ℝ) < count := by
      apply lt_of_mul_lt_mul_right _ positive.le
      linarith
    exact_mod_cast steps
  have started : 0 ≤ (k : ℝ) * ts := by positivity
  have pair := isChain_instants_iff.mp (List.isChain_map _ |>.mp near) k inner
  rw [zero_add, zero_add, switched, if_pos before, switched, if_neg (not_le.mpr after)] at pair
  have step := (Vec3.abs_get_le_lengthBy Vec3.isSqrt_sqrt _ axis).trans pair
  simp only [Vec3.get_sub, curve, Vec3.get_ofAxes] at step
  have inside : ∀ s : ℝ, 0 ≤ s → s ≤ time → |s| ≤ time := fun s nonneg below => by
    rwa [abs_of_nonneg nonneg]
  have first := (Quintic.abs_position_sub_le (c axis) (inside (half + tail) (by linarith)
    (by linarith)) (inside (k * ts) started (by linarith))).trans
      (mul_le_mul_of_nonneg_right first_slow (abs_nonneg _))
  have second := (Quintic.abs_position_sub_le (d axis) (inside ((k + 1 : ℕ) * ts - half)
    (by linarith) (by linarith)) (inside tail forward.le (by linarith))).trans
      (mul_le_mul_of_nonneg_right second_slow (abs_nonneg _))
  rw [abs_of_nonneg (show 0 ≤ half + tail - k * ts by linarith)] at first
  rw [abs_of_nonneg (show 0 ≤ ((k + 1 : ℕ) : ℝ) * ts - half - tail by linarith)] at second
  have way : v * (half + tail - k * ts) + v * (((k + 1 : ℕ) : ℝ) * ts - half - tail) = v * ts := by
    rw [next]
    ring
  have total := abs_jump_le (Quintic.derivativeAt (c axis) 0) (Quintic.derivativeAt (d axis) 0)
    (half + tail) (k * ts) ((k + 1 : ℕ) * ts - half) tail
  linarith

end Curves

end RobocupDrone.Planner.ReboundReplan
