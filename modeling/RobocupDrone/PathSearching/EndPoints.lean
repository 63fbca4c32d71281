import RobocupDrone.PathSearching.GridIndex

/-! `ConvertToIndexAndAdjustStartEndPoints`: the cells of the end points, moved out of obstacles. -/

namespace RobocupDrone.PathSearching

open Geometry

variable {K : Type*} [Field K] [LinearOrder K]

namespace Grid

variable {sqrt : K → K} {grid : Grid K} {occupied : Vec3 K → Bool} {other pt : Vec3 K}
variable {startPt endPt : Vec3 K} {startIdx endIdx : Vec3 ℤ}

section

variable [FloorRing K]

section Loops

variable (sqrt : K → K) (grid : Grid K) (occupied : Vec3 K → Bool)

/-- The loop that moves a point away from the other end point until its cell is free. Without a cell
in the pool it returns false, the inner `none`. -/
def moveAway (other : Vec3 K) : ℕ → Vec3 K → Option (Option (Vec3 K × Vec3 ℤ))
  | 0, _ => none
  | fuel + 1, pt =>
      let moved := grid.stepSize • (pt - other).normalizedBy sqrt + pt
      match grid.coord2Index moved with
      | none => some none
      | some idx =>
          if occupied (grid.index2Coord idx) then moveAway other fuel moved
          else some (some (moved, idx))

def adjust (fuel : ℕ) (other pt : Vec3 K) (idx : Vec3 ℤ) : Option (Option (Vec3 K × Vec3 ℤ)) :=
  if occupied (grid.index2Coord idx) then grid.moveAway sqrt occupied other fuel pt
  else some (some (pt, idx))

/-- The indices of the start and the end; the inner `none` stands for a return of false. -/
def convertToIndexAndAdjustStartEndPoints (fuel : ℕ) (startPt endPt : Vec3 K) :
    Option (Option (Vec3 ℤ × Vec3 ℤ)) :=
  match grid.coord2Index startPt, grid.coord2Index endPt with
  | some startIdx, some endIdx =>
      match grid.adjust sqrt occupied fuel endPt startPt startIdx with
      | none => none
      | some none => some none
      | some (some start) =>
          (grid.adjust sqrt occupied fuel start.1 endPt endIdx).map
            (Option.map fun finish => (start.2, finish.2))
  | _, _ => some none

/-- The point after `n` rounds of the loop. -/
def away (other pt : Vec3 K) (n : ℕ) : Vec3 K :=
  pt + ((n : K) * grid.stepSize) • (pt - other).normalizedBy sqrt

/-- The cells of the first rounds are occupied; round `n` ends the loop, outside the pool or at a
free cell of it. -/
def EndsAt (other pt : Vec3 K) (n : ℕ) (ended : Option (Vec3 K × Vec3 ℤ)) : Prop :=
  (∀ k, 0 < k → k < n → ∃ idx, grid.coord2Index (grid.away sqrt other pt k) = some idx ∧
    occupied (grid.index2Coord idx) = true) ∧
  match ended with
  | none => grid.coord2Index (grid.away sqrt other pt n) = none
  | some (moved, idx) => moved = grid.away sqrt other pt n ∧ grid.coord2Index moved = some idx ∧
      occupied (grid.index2Coord idx) = false

/-- What the two loops end with: free cells of the pool, or a point that left it. -/
def Adjusted (startPt endPt : Vec3 K) : Option (Vec3 ℤ × Vec3 ℤ) → Prop
  | some (startIdx, endIdx) =>
      (grid.InPool startIdx ∧ occupied (grid.index2Coord startIdx) = false) ∧
        grid.InPool endIdx ∧ occupied (grid.index2Coord endIdx) = false
  | none => (∃ n > 0, grid.EndsAt sqrt occupied endPt startPt n none) ∨
      ∃ n > 0, grid.EndsAt sqrt occupied startPt endPt n none

end Loops

theorem coord2Index_inPool {idx : Vec3 ℤ} (accepted : grid.coord2Index pt = some idx) :
    grid.InPool idx :=
  (grid.coord2Index_eq_some.mp accepted).1

theorem moveAway_cell {fuel : ℕ} {moved : Vec3 K} {cell : Vec3 ℤ}
    (ended : grid.moveAway sqrt occupied other fuel pt = some (some (moved, cell))) :
    grid.InPool cell ∧ occupied (grid.index2Coord cell) = false := by
  induction fuel generalizing pt with
  | zero => contradiction
  | succ fuel ih =>
      rw [moveAway] at ended
      split at ended
      next => exact absurd (Option.some.inj ended) (by simp)
      next idx accepted =>
        split at ended
        next => exact ih ended
        next free =>
          obtain ⟨rfl, rfl⟩ := Prod.mk.inj (Option.some.inj (Option.some.inj ended))
          exact ⟨coord2Index_inPool accepted, Bool.eq_false_iff.mpr free⟩

theorem adjust_cell {fuel : ℕ} {idx cell : Vec3 ℤ} {moved : Vec3 K}
    (accepted : grid.coord2Index pt = some idx)
    (ended : grid.adjust sqrt occupied fuel other pt idx = some (some (moved, cell))) :
    grid.InPool cell ∧ occupied (grid.index2Coord cell) = false := by
  rw [adjust] at ended
  split at ended
  next => exact moveAway_cell ended
  next free =>
    obtain ⟨rfl, rfl⟩ := Prod.mk.inj (Option.some.inj (Option.some.inj ended))
    exact ⟨coord2Index_inPool accepted, Bool.eq_false_iff.mpr free⟩

theorem convert_cells {fuel : ℕ} {startPt endPt : Vec3 K} {startIdx endIdx : Vec3 ℤ}
    (converted : grid.convertToIndexAndAdjustStartEndPoints sqrt occupied fuel startPt endPt =
      some (some (startIdx, endIdx))) :
    (grid.InPool startIdx ∧ occupied (grid.index2Coord startIdx) = false) ∧
      grid.InPool endIdx ∧ occupied (grid.index2Coord endIdx) = false := by
  rw [convertToIndexAndAdjustStartEndPoints] at converted
  split at converted
  next first last start_in end_in =>
    split at converted
    next => contradiction
    next => exact absurd (Option.some.inj converted) (by simp)
    next start moved =>
      obtain ⟨finish, finished, cells⟩ := Option.map_eq_some_iff.mp converted
      obtain ⟨⟨place, cell⟩, rfl, same⟩ := Option.map_eq_some_iff.mp cells
      obtain ⟨rfl, rfl⟩ := Prod.mk.inj same
      exact ⟨adjust_cell start_in moved, adjust_cell end_in finished⟩
  next => exact absurd (Option.some.inj converted) (by simp)

theorem moveAway_mono {fuel more : ℕ} {ended : Option (Vec3 K × Vec3 ℤ)}
    (result : grid.moveAway sqrt occupied other fuel pt = some ended) (enough : fuel ≤ more) :
    grid.moveAway sqrt occupied other more pt = some ended := by
  induction fuel generalizing more pt with
  | zero => contradiction
  | succ fuel ih =>
      obtain ⟨more, rfl⟩ := Nat.exists_eq_add_of_le' (Nat.one_le_of_lt enough)
      rw [moveAway] at result ⊢
      split at result
      next => exact result
      next idx accepted =>
        split at result
        next inside =>
          simp only [inside, if_true]
          exact ih result (Nat.le_of_add_le_add_right enough)
        next free => rwa [if_neg free]

theorem adjust_mono {fuel more : ℕ} {idx : Vec3 ℤ} {ended : Option (Vec3 K × Vec3 ℤ)}
    (result : grid.adjust sqrt occupied fuel other pt idx = some ended) (enough : fuel ≤ more) :
    grid.adjust sqrt occupied more other pt idx = some ended := by
  rw [adjust] at result ⊢
  split at result
  next inside =>
    rw [if_pos inside]
    exact moveAway_mono result enough
  next free => rwa [if_neg free]

theorem convert_mono {fuel more : ℕ} {startPt endPt : Vec3 K}
    {ended : Option (Vec3 ℤ × Vec3 ℤ)}
    (result : grid.convertToIndexAndAdjustStartEndPoints sqrt occupied fuel startPt endPt =
      some ended) (enough : fuel ≤ more) :
    grid.convertToIndexAndAdjustStartEndPoints sqrt occupied more startPt endPt = some ended := by
  rw [convertToIndexAndAdjustStartEndPoints] at result ⊢
  split at result
  next first last start_in end_in =>
    split at result
    next => contradiction
    next refused => rwa [adjust_mono refused enough]
    next start moved =>
      obtain ⟨finish, finished, cells⟩ := Option.map_eq_some_iff.mp result
      simp only [adjust_mono moved enough, adjust_mono finished enough, Option.map_some, cells]
  next => exact result

theorem convert_eq (start_in : grid.coord2Index startPt = some startIdx)
    (end_in : grid.coord2Index endPt = some endIdx) (fuel : ℕ) :
    grid.convertToIndexAndAdjustStartEndPoints sqrt occupied fuel startPt endPt =
      match grid.adjust sqrt occupied fuel endPt startPt startIdx with
      | none => none
      | some none => some none
      | some (some start) =>
          (grid.adjust sqrt occupied fuel start.1 endPt endIdx).map
            (Option.map fun finish => (start.2, finish.2)) := by
  rw [convertToIndexAndAdjustStartEndPoints, start_in, end_in]

end

section

variable [FloorRing K] [IsStrictOrderedRing K]

theorem moveAway_stuck {idx : Vec3 ℤ} (accepted : grid.coord2Index pt = some idx)
    (inside : occupied (grid.index2Coord idx) = true) (fuel : ℕ) :
    grid.moveAway sqrt occupied pt fuel pt = none := by
  induction fuel with
  | zero => rfl
  | succ fuel ih =>
      have still : grid.stepSize • (pt - pt).normalizedBy sqrt + pt = pt := by
        rw [sub_self, Vec3.normalizedBy_zero, smul_zero, zero_add]
      rw [moveAway, still, accepted]
      simp only [inside, if_true]
      exact ih

theorem away_scaled (exact : Vec3.IsSqrt sqrt) (positive : 0 < grid.stepSize) (apart : pt ≠ other)
    (n : ℕ) : ∃ c : K, 0 < c ∧ grid.away sqrt other pt n - other = c • (pt - other) := by
  have nonzero : pt - other ≠ 0 := sub_ne_zero.mpr apart
  have length := Vec3.lengthBy_pos exact nonzero
  refine ⟨1 + (n : K) * grid.stepSize * ((pt - other).lengthBy sqrt)⁻¹, by positivity, ?_⟩
  rw [away, Vec3.normalizedBy_eq nonzero, smul_smul, add_smul, one_smul]
  abel

theorem away_ne (exact : Vec3.IsSqrt sqrt) (positive : 0 < grid.stepSize) (apart : pt ≠ other)
    (n : ℕ) : grid.away sqrt other pt n ≠ other := by
  obtain ⟨c, forward, scaled⟩ := away_scaled exact positive apart n
  rw [← sub_ne_zero, scaled]
  exact smul_ne_zero forward.ne' (sub_ne_zero.mpr apart)

theorem away_succ (exact : Vec3.IsSqrt sqrt) (positive : 0 < grid.stepSize) (apart : pt ≠ other)
    (n : ℕ) : grid.stepSize • (grid.away sqrt other pt n - other).normalizedBy sqrt +
      grid.away sqrt other pt n = grid.away sqrt other pt (n + 1) := by
  obtain ⟨c, forward, scaled⟩ := away_scaled exact positive apart n
  rw [scaled, Vec3.normalizedBy_smul exact forward (sub_ne_zero.mpr apart), away, away,
    Nat.cast_succ, add_mul, one_mul, add_smul]
  abel

theorem away_from_moved (exact : Vec3.IsSqrt sqrt) (positive : 0 < grid.stepSize) (n k : ℕ) :
    grid.away sqrt (grid.away sqrt other pt n) other k = grid.away sqrt pt other k := by
  by_cases apart : pt = other
  · have still : grid.away sqrt other pt n = pt := by
      rw [away, apart, sub_self, Vec3.normalizedBy_zero, smul_zero, add_zero]
    rw [still]
  · obtain ⟨c, forward, scaled⟩ := away_scaled exact positive apart n
    have reversed : other - grid.away sqrt other pt n = c • (other - pt) := by
      rw [← neg_sub, scaled, ← smul_neg, neg_sub]
    rw [away, reversed, Vec3.normalizedBy_smul exact forward (sub_ne_zero.mpr (Ne.symm apart)),
      away]

theorem endsAt_from_moved (exact : Vec3.IsSqrt sqrt) (positive : 0 < grid.stepSize) {n k : ℕ}
    (ends : grid.EndsAt sqrt occupied (grid.away sqrt other pt n) other k none) :
    grid.EndsAt sqrt occupied pt other k none := by
  rw [EndsAt] at ends ⊢
  simp only [away_from_moved exact positive] at ends
  exact ends

theorem castInt_close (x : K) : (castInt x : K) - 1 < x ∧ x < castInt x + 1 := by
  rw [castInt]
  split
  · exact ⟨by linarith [Int.floor_le x], Int.lt_floor_add_one x⟩
  · exact ⟨by linarith [Int.ceil_lt_add_one x], by linarith [Int.le_ceil x]⟩

theorem offset_bounded {idx : Vec3 ℤ} (accepted : grid.coord2Index pt = some idx) (axis : Axis) :
    |grid.offset pt axis| ≤
      |(grid.centerIdx.get axis : K)| + |(grid.poolSize.get axis : K)| + 2 := by
  obtain ⟨inside, cells⟩ := grid.coord2Index_eq_some.mp accepted
  have cell : ((castInt (grid.offset pt axis + 0.5) : ℤ) : K) =
      idx.get axis - grid.centerIdx.get axis := by
    rw [cells axis]
    push_cast
    ring
  have close := castInt_close (grid.offset pt axis + 0.5)
  have not_below : (0 : K) ≤ idx.get axis := by
    have range := inside axis
    exact_mod_cast not_lt.mp fun below => range (.inl below)
  have not_above : (idx.get axis : K) ≤ grid.poolSize.get axis := by
    have range := inside axis
    exact_mod_cast (not_le.mp fun above => range (.inr above)).le
  have middle := abs_le.mp (le_refl |(grid.centerIdx.get axis : K)|)
  have size := le_abs_self (grid.poolSize.get axis : K)
  have size_nonneg := abs_nonneg (grid.poolSize.get axis : K)
  rw [cell] at close
  rw [abs_le]
  constructor <;> linarith

theorem moveAway_of_endsAt (exact : Vec3.IsSqrt sqrt) (positive : 0 < grid.stepSize)
    (apart : pt ≠ other) {n : ℕ} {ended : Option (Vec3 K × Vec3 ℤ)}
    (ends : grid.EndsAt sqrt occupied other pt n ended) {fuel m : ℕ} (before : m < n)
    (enough : n ≤ fuel + m) :
    grid.moveAway sqrt occupied other fuel (grid.away sqrt other pt m) = some ended := by
  induction fuel generalizing m with
  | zero => omega
  | succ fuel ih =>
      rw [moveAway, away_succ exact positive apart]
      rcases Nat.lt_or_eq_of_le (Nat.succ_le_of_lt before) with inner | last
      · obtain ⟨idx, accepted, inside⟩ := ends.1 (m + 1) (Nat.succ_pos m) inner
        simp only [accepted, inside, if_true]
        exact ih inner (by omega)
      · obtain ⟨_, finish⟩ := ends
        rw [← last] at finish
        rcases ended with _ | ⟨moved, idx⟩
        · simp only [Nat.succ_eq_add_one] at finish
          rw [finish]
        · obtain ⟨rfl, accepted, free⟩ := finish
          simp only [Nat.succ_eq_add_one] at accepted
          simp [accepted, free]

end

theorem away_zero (sqrt : K → K) (grid : Grid K) (other pt : Vec3 K) :
    grid.away sqrt other pt 0 = pt := by
  rw [away, Nat.cast_zero, zero_mul, zero_smul, add_zero]

theorem offset_away (nonzero : grid.stepSize ≠ 0) (n : ℕ) (axis : Axis) :
    grid.offset (grid.away sqrt other pt n) axis =
      grid.offset pt axis + n * ((pt - other).normalizedBy sqrt).get axis := by
  rw [offset, offset, away, Vec3.get_add, Vec3.get_smul, invStepSize]
  field_simp
  ring

variable [FloorRing K] [IsStrictOrderedRing K]

theorem away_leaves (exact : Vec3.IsSqrt sqrt) (positive : 0 < grid.stepSize) (apart : pt ≠ other) :
    ∃ n > 0, grid.coord2Index (grid.away sqrt other pt n) = none := by
  have nonzero : pt - other ≠ 0 := sub_ne_zero.mpr apart
  have direction : (pt - other).normalizedBy sqrt ≠ 0 := by
    rw [Vec3.normalizedBy_eq nonzero]
    exact smul_ne_zero (inv_ne_zero (Vec3.lengthBy_pos exact nonzero).ne') nonzero
  obtain ⟨axis, moves⟩ := Vec3.exists_get_ne direction
  rw [Vec3.get_zero] at moves
  have speed := abs_pos.mpr moves
  obtain ⟨n, far⟩ := exists_nat_gt
    ((|(grid.centerIdx.get axis : K)| + |(grid.poolSize.get axis : K)| + 2 +
      |grid.offset pt axis|) / |((pt - other).normalizedBy sqrt).get axis|)
  rw [div_lt_iff₀ speed] at far
  have center := abs_nonneg (grid.centerIdx.get axis : K)
  have size := abs_nonneg (grid.poolSize.get axis : K)
  have before := abs_nonneg (grid.offset pt axis)
  refine ⟨n, Nat.pos_of_ne_zero fun zero => ?_, ?_⟩
  · rw [zero, Nat.cast_zero, zero_mul] at far
    linarith
  rcases outcome : grid.coord2Index (grid.away sqrt other pt n) with _ | idx
  · rfl
  have bounded := offset_bounded outcome axis
  have moved : |(n : K) * ((pt - other).normalizedBy sqrt).get axis| =
      n * |((pt - other).normalizedBy sqrt).get axis| := by
    rw [abs_mul, Nat.abs_cast]
  have apart_again := abs_sub_abs_le_abs_add ((n : K) * ((pt - other).normalizedBy sqrt).get axis)
    (grid.offset pt axis)
  rw [offset_away positive.ne', add_comm] at bounded
  linarith

theorem exists_endsAt (exact : Vec3.IsSqrt sqrt) (positive : 0 < grid.stepSize) (apart : pt ≠ other)
    (occupied : Vec3 K → Bool) : ∃ n > 0, ∃ ended, grid.EndsAt sqrt occupied other pt n ended := by
  classical
  have stops : ∃ n > 0, ∀ idx, grid.coord2Index (grid.away sqrt other pt n) = some idx →
      occupied (grid.index2Coord idx) = false := by
    obtain ⟨n, later, outside⟩ := away_leaves exact positive apart
    refine ⟨n, later, fun idx accepted => ?_⟩
    rw [outside] at accepted
    contradiction
  obtain ⟨later, free⟩ := Nat.find_spec stops
  have earlier : ∀ k, 0 < k → k < Nat.find stops →
      ∃ idx, grid.coord2Index (grid.away sqrt other pt k) = some idx ∧
        occupied (grid.index2Coord idx) = true := by
    intro k positive before
    have goes_on := Nat.find_min stops before
    push Not at goes_on
    obtain ⟨idx, accepted, inside⟩ := goes_on positive
    exact ⟨idx, accepted, Bool.ne_false_iff.mp inside⟩
  refine ⟨Nat.find stops, later, ?_⟩
  rcases outcome : grid.coord2Index (grid.away sqrt other pt (Nat.find stops)) with _ | idx
  · exact ⟨none, earlier, outcome⟩
  · exact ⟨some (_, idx), earlier, rfl, outcome, free idx outcome⟩

def Settled (sqrt : K → K) (grid : Grid K) (occupied : Vec3 K → Bool) (other pt : Vec3 K) :
    Option (Vec3 K × Vec3 ℤ) → Prop
  | none => ∃ n > 0, grid.EndsAt sqrt occupied other pt n none
  | some (moved, idx) => (∃ n, moved = grid.away sqrt other pt n) ∧ grid.InPool idx ∧
      occupied (grid.index2Coord idx) = false

theorem adjust_settles (exact : Vec3.IsSqrt sqrt) (positive : 0 < grid.stepSize) {idx : Vec3 ℤ}
    (accepted : grid.coord2Index pt = some idx)
    (escapes : occupied (grid.index2Coord idx) = true → pt ≠ other) :
    ∃ bound settled, grid.Settled sqrt occupied other pt settled ∧
      ∀ fuel ≥ bound, grid.adjust sqrt occupied fuel other pt idx = some settled := by
  rcases inside : occupied (grid.index2Coord idx) with _ | _
  · refine ⟨0, some (pt, idx), ⟨⟨0, (away_zero sqrt grid other pt).symm⟩,
      coord2Index_inPool accepted, inside⟩, fun fuel _ => ?_⟩
    rw [adjust, inside, if_neg Bool.false_ne_true]
  · have apart := escapes inside
    obtain ⟨n, later, ended, ends⟩ := exists_endsAt exact positive apart occupied
    refine ⟨n, ended, ?_, fun fuel enough => ?_⟩
    · rcases ended with _ | ⟨moved, cell⟩
      · exact ⟨n, later, ends⟩
      · obtain ⟨place, cell_in, free⟩ := ends.2
        exact ⟨⟨n, place⟩, coord2Index_inPool cell_in, free⟩
    · have result := moveAway_of_endsAt exact positive apart ends later enough
      rw [away_zero] at result
      rw [adjust, inside, if_pos rfl, result]

theorem loops_end (exact : Vec3.IsSqrt sqrt) (positive : 0 < grid.stepSize)
    (start_in : grid.coord2Index startPt = some startIdx)
    (end_in : grid.coord2Index endPt = some endIdx)
    (escapes : startPt ≠ endPt ∨ occupied (grid.index2Coord startIdx) = false) :
    ∃ fuel result, grid.convertToIndexAndAdjustStartEndPoints sqrt occupied fuel startPt endPt =
      some result ∧ grid.Adjusted sqrt occupied startPt endPt result := by
  have start_escapes : occupied (grid.index2Coord startIdx) = true → startPt ≠ endPt := by
    intro inside
    rcases escapes with apart | free
    · exact apart
    · rw [inside] at free
      contradiction
  obtain ⟨first, start, settled, starts⟩ := adjust_settles exact positive start_in start_escapes
  rcases start with _ | ⟨moved, cell⟩
  · refine ⟨first, none, ?_, .inl settled⟩
    rw [convert_eq start_in end_in, starts first le_rfl]
  obtain ⟨⟨n, rfl⟩, cell_in, cell_free⟩ := settled
  have end_escapes : occupied (grid.index2Coord endIdx) = true →
      endPt ≠ grid.away sqrt endPt startPt n := by
    intro inside
    by_cases same : startPt = endPt
    · rw [same, end_in, Option.some.injEq] at start_in
      rw [start_in] at inside
      exact absurd same (start_escapes inside)
    · exact (away_ne exact positive same n).symm
  obtain ⟨second, finish, settled, finishes⟩ := adjust_settles exact positive end_in end_escapes
  refine ⟨max first second, finish.map fun finish => (cell, finish.2), ?_, ?_⟩
  · rw [convert_eq start_in end_in, starts _ (le_max_left _ _)]
    simp only [finishes _ (le_max_right _ _), Option.map_some]
  rcases finish with _ | ⟨moved_end, end_cell⟩
  · obtain ⟨k, later, ends⟩ := settled
    exact .inr ⟨k, later, endsAt_from_moved exact positive ends⟩
  · exact ⟨⟨cell_in, cell_free⟩, settled.2⟩

/-- Both loops end exactly when the end points differ or the start cell is free. -/
theorem loops_end_iff (exact : Vec3.IsSqrt sqrt) (positive : 0 < grid.stepSize)
    (start_in : grid.coord2Index startPt = some startIdx)
    (end_in : grid.coord2Index endPt = some endIdx) :
    (∃ fuel result, grid.convertToIndexAndAdjustStartEndPoints sqrt occupied fuel startPt endPt =
      some result ∧ grid.Adjusted sqrt occupied startPt endPt result) ↔
    startPt ≠ endPt ∨ occupied (grid.index2Coord startIdx) = false := by
  constructor
  · intro ⟨fuel, result, returned, _⟩
    by_contra caught
    push Not at caught
    obtain ⟨same, inside⟩ := caught
    rw [convert_eq start_in end_in, adjust, if_pos (Bool.ne_false_iff.mp inside), ← same,
      moveAway_stuck start_in (Bool.ne_false_iff.mp inside)] at returned
    contradiction
  · exact loops_end exact positive start_in end_in

noncomputable def meterGridReal : Grid ℝ := ⟨⟨3, 3, 3⟩, 1, 0⟩

theorem meterGridReal_cell (i : Vec3 ℤ) (inside : meterGridReal.InPool i)
    (later : ∀ axis, meterGridReal.centerIdx.get axis ≤ i.get axis) :
    meterGridReal.coord2Index (meterGridReal.index2Coord i) = some i :=
  (meterGridReal.roundTrip_iff one_ne_zero inside).mpr later

/-- Everywhere an obstacle: the end points leave the pool, and the loops end. -/
theorem loops_end_iff_meters :
    ∃ fuel result, meterGridReal.convertToIndexAndAdjustStartEndPoints Real.sqrt (fun _ => true)
      fuel (meterGridReal.index2Coord ⟨1, 1, 1⟩) (meterGridReal.index2Coord ⟨2, 1, 1⟩) =
        some result ∧
      meterGridReal.Adjusted Real.sqrt (fun _ => true) (meterGridReal.index2Coord ⟨1, 1, 1⟩)
        (meterGridReal.index2Coord ⟨2, 1, 1⟩) result := by
  have first := meterGridReal_cell ⟨1, 1, 1⟩ (by decide) (by decide)
  have second := meterGridReal_cell ⟨2, 1, 1⟩ (by decide) (by decide)
  refine (loops_end_iff Vec3.isSqrt_sqrt one_pos first second).mpr (.inl fun same => ?_)
  rw [same, second, Option.some.injEq] at first
  exact absurd first (by decide)

/-- Start and end at one occupied point: both are accepted, and the first loop goes on for ever. -/
theorem same_point_endless :
    meterGridReal.coord2Index (meterGridReal.index2Coord ⟨1, 1, 1⟩) = some ⟨1, 1, 1⟩ ∧
      ∀ fuel, meterGridReal.convertToIndexAndAdjustStartEndPoints Real.sqrt (fun _ => true) fuel
        (meterGridReal.index2Coord ⟨1, 1, 1⟩) (meterGridReal.index2Coord ⟨1, 1, 1⟩) = none := by
  have accepted := meterGridReal_cell ⟨1, 1, 1⟩ (by decide) (by decide)
  refine ⟨accepted, fun fuel => ?_⟩
  rw [convert_eq accepted accepted, adjust, if_pos rfl, moveAway_stuck accepted rfl]

end Grid

end RobocupDrone.PathSearching
