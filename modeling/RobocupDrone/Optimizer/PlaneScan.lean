import Mathlib.Algebra.Order.Floor.Semiring
import Mathlib.Data.List.GetD
import Mathlib.Tactic.Linarith
import RobocupDrone.Library.Loop
import RobocupDrone.Optimizer.CollisionSegments

/-! Steps 1 and 2 of `initControlPoints` and of `check_collision_and_rebound`: for every control
point inside a segment the path is searched for the plane through the point, and a base point and a
direction come from where the path meets it. -/

namespace RobocupDrone.Optimizer

open Geometry Loop

variable {K : Type} [Field K]

section

variable [LinearOrder K]

/-- A search of `path` for the plane through `point` with the normal `ctrl_pts_law`. -/
structure PlaneScan (K : Type) where
  path : List (Vec3 K)
  point : Vec3 K
  law : Vec3 K
  deriving DecidableEq

/-- What the program reads where nothing says what it reads: entries outside of a path, and the
`intersection_point` of a control point before it is set. -/
structure Unspecified (K : Type) where
  entry : ℤ → Vec3 K
  vector : ℕ → Vec3 K

namespace PlaneScan

variable (other : Unspecified K) (scan : PlaneScan K)

def entry : ℤ → Vec3 K
  | .ofNat k => scan.path.getD k (other.entry k)
  | .negSucc k => other.entry (.negSucc k)

def val (index : ℤ) : K := (scan.entry other index - scan.point).dot scan.law

def intersection (index last : ℤ) : Vec3 K :=
  let here := scan.entry other index
  let before := scan.entry other last
  here + (scan.law.dot (scan.point - here) / scan.law.dot (here - before)) • (here - before)

def Crosses (val lastVal : K) : Prop := val * lastVal ≤ 0 ∧ (|val| > 0 ∨ |lastVal| > 0)

instance (val lastVal : K) : Decidable (Crosses val lastVal) := inferInstanceAs (Decidable (_ ∧ _))

/-- The `while` loop at `Astar_id`: the indices that it reads, and the intersection. `last_val`
keeps the value of the first entry. -/
def rounds (lastVal : K) : ℕ → ℤ → K → List ℤ × Option (Vec3 K)
  | 0, _, _ => ([], none)
  | fuel + 1, index, val =>
      if 0 ≤ index ∧ index < scan.path.length then
        let next := if 0 ≤ val then index - 1 else index + 1
        if Crosses (scan.val other next) lastVal then
          ([next, next, index], some (scan.intersection other next index))
        else
          let later := rounds lastVal fuel next (scan.val other next)
          (next :: later.1, later.2)
      else ([], none)

def middle : ℕ := scan.path.length / 2

def search : List ℤ × Option (Vec3 K) :=
  let val := scan.val other scan.middle
  let found := scan.rounds other val (scan.path.length + 1) scan.middle val
  (scan.middle :: found.1, found.2)

end PlaneScan

/-- What step 2 reads and records, in order. -/
inductive ScanEvent (K : Type)
  | read (scan : PlaneScan K) (index : ℤ)
  | record (scan : PlaneScan K) (j : ℕ) (intersection : Option (Vec3 K)) (bound : Bound K)
  deriving DecidableEq

structure AssignState (K : Type) where
  gotIntersectionId : ℤ
  flagTemp : List Bool
  bounds : List (List (Bound K))
  events : List (ScanEvent K)

namespace AssignState

def readAll (scan : PlaneScan K) (indices : List ℤ) (s : AssignState K) : AssignState K :=
  { s with events := s.events ++ indices.map (ScanEvent.read scan) }

def pushBound (scan : PlaneScan K) (j : ℕ) (intersection : Option (Vec3 K)) (bound : Bound K)
    (s : AssignState K) : AssignState K :=
  { s with
    bounds := s.bounds.modify j (· ++ [bound])
    events := s.events ++ [ScanEvent.record scan j intersection bound] }

def clearFlags (segment : ℕ × ℕ) (s : AssignState K) : AssignState K :=
  let indices := List.range' segment.1 (segment.2 + 1 - segment.1)
  { s with flagTemp := indices.foldl (fun flags j => flags.set j false) s.flagTemp }

end AssignState

def pointScan (inp : CollisionInput K) (path : List (Vec3 K)) (j : ℕ) : PlaneScan K :=
  ⟨path, col inp.points j, col inp.points (j + 1) - col inp.points (j - 1)⟩

def middleScan (inp : CollisionInput K) (path : List (Vec3 K)) (first : ℕ) : PlaneScan K :=
  ⟨path, (col inp.points (first + 1) + col inp.points first) / (2 : K),
    col inp.points (first + 1) - col inp.points first⟩

section Assign

variable [FloorSemiring K] (sqrt : K → K) (other : Unspecified K) (inp : CollisionInput K)

/-- The loop over `a`: from the intersection towards the control point, up to an obstacle. -/
def obstacleEdge (point intersection : Vec3 K) (length : K) : Option (Vec3 K) :=
  let place : K → Vec3 K := fun a => (a / length) • intersection + (1 - a / length) • point
  (List.range (⌊length / inp.resolution⌋₊ + 1)).findSome? fun k : ℕ =>
    let a := length - k * inp.resolution
    if inp.occupied (place a) then some (place (a + inp.resolution))
    else if a < inp.resolution then some (place a)
    else none

/-- Step 2 for control point `j`. -/
def assignPoint (path : List (Vec3 K)) (s : AssignState K) (j : ℕ) : AssignState K :=
  let scan := pointScan inp path j
  let found := scan.search other
  let got : ℤ := if found.2.isSome then j else s.gotIntersectionId
  let s := { s.readAll scan found.1 with gotIntersectionId := got }
  if 0 ≤ got then
    let intersection := found.2.getD (other.vector j)
    let length := (intersection - scan.point).lengthBy sqrt
    if 1 / 100000 < length then
      let s := { s with flagTemp := s.flagTemp.set j true }
      match obstacleEdge inp scan.point intersection length with
      | none => s
      | some basePoint =>
          s.pushBound scan j found.2 ⟨basePoint, (intersection - scan.point).normalizedBy sqrt⟩
    else { s with gotIntersectionId := -1 }
  else s

def assignPoints (segment : ℕ × ℕ) (path : List (Vec3 K)) (s : AssignState K) : AssignState K :=
  (List.range' (segment.1 + 1) (segment.2 - (segment.1 + 1))).foldl
    (assignPoint sqrt other inp path) { s with gotIntersectionId := -1 }

def assignMiddle (first : ℕ) (path : List (Vec3 K)) (s : AssignState K) : AssignState K :=
  let scan := middleScan inp path first
  let found := scan.search other
  let s := s.readAll scan found.1
  match found.2 with
  | none => s
  | some intersection =>
      if 1 / 100 < (intersection - scan.point).lengthBy sqrt then
        { s with
          gotIntersectionId := first
          flagTemp := s.flagTemp.set first true }.pushBound scan first found.2
            ⟨col inp.points first, (intersection - scan.point).normalizedBy sqrt⟩
      else s

/-- A segment with what the functions know about it. -/
structure SegmentPath (K : Type) where
  segment : ℕ × ℕ
  adjusted : ℕ × ℕ
  path : List (Vec3 K)

namespace InitControlPoints

def assignSegment (s : AssignState K) (work : SegmentPath K) : AssignState K :=
  let s := assignPoints sqrt other inp work.segment work.path (s.clearFlags work.adjusted)
  if work.segment.2 = work.segment.1 + 1 then
    assignMiddle sqrt other inp work.segment.1 work.path s
  else s

def assignSegments (segments : List (SegmentPath K)) (s : AssignState K) : AssignState K :=
  segments.foldl (assignSegment sqrt other inp) s

end InitControlPoints

namespace CheckCollisionAndRebound

def assignSegment (s : AssignState K) (work : SegmentPath K) : AssignState K :=
  assignPoints sqrt other inp work.adjusted work.path (s.clearFlags work.adjusted)

def assignSegments (segments : List (SegmentPath K)) (s : AssignState K) : AssignState K :=
  segments.foldl (assignSegment sqrt other inp) s

end CheckCollisionAndRebound

end Assign

end

namespace PlaneScan

variable (scan : PlaneScan K)

section

variable [LinearOrder K]

/-- The value of the entry `k`. -/
def side (k : ℕ) : K := (col scan.path k - scan.point).dot scan.law

/-- The entries on one side of the middle one reach the other side of the plane. -/
def ChangesSign : Prop :=
  (0 < scan.side scan.middle ∧ ∃ k < scan.middle, scan.side k ≤ 0) ∨
    (scan.side scan.middle = 0 ∧ ∃ k < scan.middle, scan.side k ≠ 0) ∨
      (scan.side scan.middle < 0 ∧
        ∃ k, scan.middle < k ∧ k < scan.path.length ∧ 0 ≤ scan.side k)

def IsIntersection (place : Vec3 K) : Prop :=
  ∃ (k l : ℕ) (t : K), k < scan.path.length ∧ l < scan.path.length ∧ (k = l + 1 ∨ l = k + 1) ∧
    (0 ≤ t ∧ t ≤ 1) ∧ place = col scan.path k + t • (col scan.path l - col scan.path k) ∧
      (place - scan.point).dot scan.law = 0

def InRange (index : ℤ) : Prop := 0 ≤ index ∧ index < scan.path.length

def Succeeds (found : List ℤ × Option (Vec3 K)) : Prop :=
  (∀ index ∈ found.1, scan.InRange index) ∧
    ∃ place, found.2 = some place ∧ scan.IsIntersection place

end

variable {scan} {other : Unspecified K}

theorem entry_natCast {k : ℕ} (inside : k < scan.path.length) :
    scan.entry other k = col scan.path k := by
  change scan.path.getD k (other.entry k) = scan.path.getD k 0
  rw [List.getD_eq_getElem _ _ inside, List.getD_eq_getElem _ _ inside]

theorem val_natCast {k : ℕ} (inside : k < scan.path.length) :
    scan.val other k = scan.side k := by
  rw [val, entry_natCast inside, side]

section Ordered

variable {v w lastVal : K} [LinearOrder K]

theorem rounds_cons {fuel k l : ℕ} (k_inside : k < scan.path.length)
    (next : (if 0 ≤ scan.side k then (k : ℤ) - 1 else (k : ℤ) + 1) = l)
    (l_inside : l < scan.path.length) :
    scan.rounds other lastVal (fuel + 1) k (scan.side k) =
      if Crosses (scan.side l) lastVal then
        ([(l : ℤ), (l : ℤ), (k : ℤ)], some (scan.intersection other l k))
      else
        let later := scan.rounds other lastVal fuel l (scan.side l)
        ((l : ℤ) :: later.1, later.2) := by
  rw [rounds, if_pos ⟨by omega, by omega⟩]
  simp only [next, val_natCast l_inside]

variable (scan lastVal) in
/-- The rounds succeed when one of the entries ahead is across the plane, and otherwise read what
is not in the path. -/
def Decided (ahead : ℕ → Prop) (found : List ℤ × Option (Vec3 K)) : Prop :=
  (∃ l, ahead l ∧ Crosses (scan.side l) lastVal) ∧ scan.Succeeds found ∨
    (∀ l, ahead l → ¬Crosses (scan.side l) lastVal) ∧ ∃ index ∈ found.1, ¬scan.InRange index

theorem decided_leaving {fuel k : ℕ} {ahead : ℕ → Prop} (k_inside : k < scan.path.length)
    (out : ¬scan.InRange (if 0 ≤ scan.side k then (k : ℤ) - 1 else (k : ℤ) + 1))
    (none_ahead : ∀ i, ¬ahead i) :
    scan.Decided lastVal ahead (scan.rounds other lastVal (fuel + 1) k (scan.side k)) := by
  refine .inr ⟨fun i further => absurd further (none_ahead i), _, ?_, out⟩
  rw [rounds, if_pos ⟨by omega, by omega⟩]
  dsimp only
  split_ifs <;> simp

theorem search_of_decided {ahead : ℕ → Prop} (inside : scan.middle < scan.path.length)
    (changes : scan.ChangesSign ↔
      ∃ k, ahead k ∧ Crosses (scan.side k) (scan.side scan.middle))
    (decided : scan.Decided (scan.side scan.middle) ahead
      (scan.rounds other (scan.side scan.middle) (scan.path.length + 1) scan.middle
        (scan.side scan.middle))) :
    scan.ChangesSign ∧ scan.Succeeds (scan.search other) ∨
      ¬scan.ChangesSign ∧ ∃ index ∈ (scan.search other).1, ¬scan.InRange index := by
  rw [search, val_natCast inside]
  rcases decided with ⟨crosses, reads, found⟩ | ⟨none_crosses, index, read, out⟩
  · refine .inl ⟨changes.mpr crosses, ?_, found⟩
    intro index member
    rcases List.mem_cons.mp member with rfl | member
    · exact ⟨by omega, by omega⟩
    · exact reads index member
  · refine .inr ⟨fun crosses => ?_, index, List.mem_cons_of_mem _ read, out⟩
    rcases changes.mp crosses with ⟨k, further, across⟩
    exact none_crosses k further across

variable [IsStrictOrderedRing K]

theorem crosses_of_pos (positive : 0 < lastVal) : Crosses v lastVal ↔ v ≤ 0 := by
  constructor
  · rintro ⟨product, _⟩
    exact nonpos_of_mul_nonpos_left product positive
  · intro below
    exact ⟨mul_nonpos_of_nonpos_of_nonneg below positive.le, .inr (abs_pos.mpr positive.ne')⟩

theorem crosses_zero : Crosses v 0 ↔ v ≠ 0 := by
  simp [Crosses]

theorem crosses_of_neg (negative : lastVal < 0) : Crosses v lastVal ↔ 0 ≤ v := by
  constructor
  · rintro ⟨product, _⟩
    exact nonneg_of_mul_nonpos_left product negative
  · intro above
    exact ⟨mul_nonpos_of_nonneg_of_nonpos above negative.le, .inr (abs_pos.mpr negative.ne)⟩

theorem not_crosses_self : ¬Crosses v v := by
  rcases lt_trichotomy v 0 with negative | rfl | positive
  · rw [crosses_of_neg negative]
    exact not_le.mpr negative
  · simp [crosses_zero]
  · rw [crosses_of_pos positive]
    exact not_le.mpr positive

theorem Crosses.of_same (crosses : Crosses v lastVal) (same : ¬Crosses w lastVal) :
    Crosses v w := by
  rcases lt_trichotomy lastVal 0 with negative | rfl | positive
  · rw [crosses_of_neg negative] at crosses same
    exact (crosses_of_neg (not_le.mp same)).mpr crosses
  · rw [crosses_zero, not_not] at same
    rw [same]
    exact crosses
  · rw [crosses_of_pos positive] at crosses same
    exact (crosses_of_pos (not_le.mp same)).mpr crosses

theorem Crosses.ratio (crosses : Crosses v w) : v - w ≠ 0 ∧ 0 ≤ v / (v - w) ∧ v / (v - w) ≤ 1 := by
  rcases lt_trichotomy w 0 with negative | rfl | positive
  · rw [crosses_of_neg negative] at crosses
    have apart : 0 < v - w := by linarith
    exact ⟨apart.ne', div_nonneg crosses apart.le, (div_le_one apart).mpr (by linarith)⟩
  · rw [crosses_zero] at crosses
    rw [sub_zero, div_self crosses]
    exact ⟨crosses, zero_le_one, le_rfl⟩
  · rw [crosses_of_pos positive] at crosses
    have apart : v - w < 0 := by linarith
    exact ⟨apart.ne, div_nonneg_of_nonpos crosses apart.le,
      (div_le_one_of_neg apart).mpr (by linarith)⟩

theorem intersection_of_crosses {k l : ℕ} (k_inside : k < scan.path.length)
    (l_inside : l < scan.path.length) (neighbours : k = l + 1 ∨ l = k + 1)
    (crosses : Crosses (scan.side k) (scan.side l)) :
    scan.IsIntersection (scan.intersection other k l) := by
  rcases crosses.ratio with ⟨apart, nonneg, at_most⟩
  have along : scan.side k - scan.side l =
      (col scan.path k - col scan.path l).dot scan.law := by
    simp only [side, Vec3.sub_dot]
    ring
  have toward : scan.law.dot (scan.point - col scan.path k) /
      scan.law.dot (col scan.path k - col scan.path l) =
        -scan.side k / (scan.side k - scan.side l) := by
    have away : (scan.point - col scan.path k).dot scan.law = -scan.side k := by
      simp only [side, Vec3.sub_dot]
      ring
    rw [Vec3.dot_comm, Vec3.dot_comm scan.law, away, along]
  refine ⟨k, l, scan.side k / (scan.side k - scan.side l), k_inside, l_inside, neighbours,
    ⟨nonneg, at_most⟩, ?_, ?_⟩
  · rw [intersection, entry_natCast k_inside, entry_natCast l_inside, toward]
    rw [neg_div, neg_smul, ← smul_neg, neg_sub]
  · rw [intersection, entry_natCast k_inside, entry_natCast l_inside, toward]
    rw [add_sub_right_comm, Vec3.add_dot, Vec3.smul_dot, ← along, div_mul_cancel₀ _ apart]
    exact add_neg_cancel _

theorem nonneg_of_same (nonneg : 0 ≤ lastVal) (same : ¬Crosses v lastVal) : 0 ≤ v := by
  rcases nonneg.eq_or_lt with rfl | positive
  · rw [crosses_zero, not_not] at same
    exact same.ge
  · rw [crosses_of_pos positive] at same
    exact (not_le.mp same).le

theorem neg_of_same (negative : lastVal < 0) (same : ¬Crosses v lastVal) : v < 0 := by
  rw [crosses_of_neg negative] at same
  exact not_le.mp same

theorem decided_cons {fuel k l : ℕ} {ahead : ℕ → Prop} (later : ℕ → Prop)
    (k_inside : k < scan.path.length) (same : ¬Crosses (scan.side k) lastVal)
    (next : (if 0 ≤ scan.side k then (k : ℤ) - 1 else (k : ℤ) + 1) = l)
    (l_inside : l < scan.path.length) (neighbours : l = k + 1 ∨ k = l + 1)
    (split : ∀ i, ahead i ↔ i = l ∨ later i)
    (rest : ¬Crosses (scan.side l) lastVal →
      scan.Decided lastVal later (scan.rounds other lastVal fuel l (scan.side l))) :
    scan.Decided lastVal ahead (scan.rounds other lastVal (fuel + 1) k (scan.side k)) := by
  have k_read : scan.InRange k := ⟨by omega, by omega⟩
  have l_read : scan.InRange l := ⟨by omega, by omega⟩
  rw [rounds_cons k_inside next l_inside]
  split_ifs with crosses
  · refine .inl ⟨⟨l, (split l).mpr (.inl rfl), crosses⟩, ?_, _, rfl,
      intersection_of_crosses l_inside k_inside neighbours (crosses.of_same same)⟩
    simp [k_read, l_read]
  · rcases rest crosses with
      ⟨⟨i, further, found⟩, reads, place, intersects⟩ | ⟨none, index, read, out⟩
    · refine .inl ⟨⟨i, (split i).mpr (.inr further), found⟩, ?_, place, intersects⟩
      intro index member
      rcases List.mem_cons.mp member with rfl | member
      · exact l_read
      · exact reads index member
    · refine .inr ⟨fun i further => ?_, index, List.mem_cons_of_mem _ read, out⟩
      rcases (split i).mp further with rfl | further
      · exact crosses
      · exact none i further

theorem decided_down {fuel k : ℕ} (k_inside : k < scan.path.length) (enough : k < fuel)
    (nonneg : 0 ≤ lastVal) (same : ¬Crosses (scan.side k) lastVal) :
    scan.Decided lastVal (· < k) (scan.rounds other lastVal fuel k (scan.side k)) := by
  obtain ⟨fuel, rfl⟩ := Nat.exists_eq_add_of_lt enough
  have down := nonneg_of_same nonneg same
  induction k with
  | zero =>
      refine decided_leaving k_inside ?_ Nat.not_lt_zero
      rw [if_pos down]
      intro inside
      have bound := inside.1
      omega
  | succ k ih =>
      refine decided_cons (l := k) (· < k) k_inside same ?_ (by omega) (.inr rfl)
        (fun i => Nat.lt_succ_iff_lt_or_eq.trans or_comm) ?_
      · rw [if_pos down]
        omega
      · intro still
        have shape : k + 1 + fuel = k + fuel + 1 := by omega
        rw [shape]
        exact ih (by omega) still (by omega) (nonneg_of_same nonneg still)

theorem decided_up {fuel k : ℕ} (k_inside : k < scan.path.length)
    (enough : scan.path.length ≤ k + fuel)
    (negative : lastVal < 0) (same : ¬Crosses (scan.side k) lastVal) :
    scan.Decided lastVal (fun l => k < l ∧ l < scan.path.length)
      (scan.rounds other lastVal fuel k (scan.side k)) := by
  have up : ¬0 ≤ scan.side k := not_le.mpr (neg_of_same negative same)
  induction fuel generalizing k with
  | zero => omega
  | succ fuel ih =>
      by_cases more : k + 1 < scan.path.length
      · refine decided_cons (l := k + 1) (fun l => k + 1 < l ∧ l < scan.path.length) k_inside same
          ?_ more (.inl rfl) ?_ ?_
        · rw [if_neg up, Nat.cast_succ]
        · intro i
          omega
        · intro still
          exact ih more (by omega) still (not_le.mpr (neg_of_same negative still))
      · refine decided_leaving k_inside ?_ fun i bounds => by omega
        rw [if_neg up]
        intro inside
        have bound := inside.2
        omega

theorem changesSign_iff_down (nonneg : 0 ≤ scan.side scan.middle) :
    scan.ChangesSign ↔
      ∃ k < scan.middle, Crosses (scan.side k) (scan.side scan.middle) := by
  rw [ChangesSign]
  rcases nonneg.eq_or_lt with zero | positive
  · simp [← zero, crosses_zero]
  · simp [crosses_of_pos positive, positive, positive.ne', positive.not_gt]

theorem changesSign_iff_up (negative : scan.side scan.middle < 0) :
    scan.ChangesSign ↔ ∃ k, (scan.middle < k ∧ k < scan.path.length) ∧
      Crosses (scan.side k) (scan.side scan.middle) := by
  rw [ChangesSign]
  simp [crosses_of_neg negative, negative, negative.ne, negative.not_gt, and_assoc]

theorem search_decided (scan : PlaneScan K) (other : Unspecified K) :
    scan.ChangesSign ∧ scan.Succeeds (scan.search other) ∨
      ¬scan.ChangesSign ∧ ∃ index ∈ (scan.search other).1, ¬scan.InRange index := by
  by_cases inside : scan.middle < scan.path.length
  · rcases le_or_gt 0 (scan.side scan.middle) with nonneg | negative
    · exact search_of_decided inside (changesSign_iff_down nonneg)
        (decided_down inside (by omega) nonneg not_crosses_self)
    · exact search_of_decided inside (changesSign_iff_up negative)
        (decided_up inside (by omega) negative not_crosses_self)
  · have empty : scan.path.length = 0 := by
      rw [middle] at inside
      omega
    have start : scan.middle = 0 := by rw [middle, empty]
    refine .inr ⟨?_, scan.middle, List.mem_cons_self, fun inside' => ?_⟩
    · rw [ChangesSign, start, empty]
      rintro (⟨_, k, below, _⟩ | ⟨_, k, below, _⟩ | ⟨_, k, _, below, _⟩) <;>
        exact Nat.not_lt_zero k below
    · have bound := inside'.2
      omega

end Ordered

end PlaneScan

section Runs

variable {sqrt : K → K} {other : Unspecified K} {inp : CollisionInput K} [LinearOrder K]
variable (s : AssignState K) (path : List (Vec3 K))

/-- A search for the control point `j`: through it, or through the middle of its segment. -/
def OwnScan (inp : CollisionInput K) (scan : PlaneScan K) (j : ℕ) : Prop :=
  scan = pointScan inp scan.path j ∨ scan = middleScan inp scan.path j

/-- A read is in the path. What is recorded comes from an intersection that was found in the own
search of the control point. -/
def ScanEvent.Sound (sqrt : K → K) (inp : CollisionInput K) : ScanEvent K → Prop
  | .read scan index => scan.InRange index
  | .record scan j intersection bound => OwnScan inp scan j ∧ ∃ place, intersection = some place ∧
      scan.IsIntersection place ∧ bound.direction = (place - scan.point).normalizedBy sqrt ∧
        (bound.basePoint = col inp.points j ∨
          ∃ t : K, bound.basePoint = t • place + (1 - t) • scan.point)

def AssignState.Sound (sqrt : K → K) (inp : CollisionInput K) (s : AssignState K) : Prop :=
  ∀ event ∈ s.events, event.Sound sqrt inp

namespace AssignState

variable {s : AssignState K}

theorem sound_readAll {scan : PlaneScan K} {indices : List ℤ} :
    (s.readAll scan indices).Sound sqrt inp ↔
      s.Sound sqrt inp ∧ ∀ index ∈ indices, scan.InRange index := by
  simp only [Sound, readAll, List.forall_mem_append, List.forall_mem_map, ScanEvent.Sound]

end AssignState

/-- The search is read, and at most one bound follows, in the direction of what it has found. -/
theorem assignMiddle_events (first : ℕ) (scan : PlaneScan K)
    (own : scan = middleScan inp path first) (found : List ℤ × Option (Vec3 K))
    (searched : scan.search other = found) :
    (assignMiddle sqrt other inp first path s).events = (s.readAll scan found.1).events ∨
      ∃ place, found.2 = some place ∧
        (assignMiddle sqrt other inp first path s).events = (s.readAll scan found.1).events ++
          [.record scan first found.2
            ⟨col inp.points first, (place - scan.point).normalizedBy sqrt⟩] := by
  rw [assignMiddle, ← own, searched]
  cases here : found.2 with
  | none => exact .inl rfl
  | some place =>
      dsimp only
      split_ifs
      · exact .inr ⟨place, rfl, rfl⟩
      · exact .inl rfl

/-- `cps_` before the segments, and nothing read or recorded. -/
def AssignState.start (flagTemp : List Bool) (bounds : List (List (Bound K))) : AssignState K :=
  ⟨-1, flagTemp, bounds, []⟩

theorem AssignState.start_sound (flagTemp : List Bool) (bounds : List (List (Bound K))) :
    (AssignState.start flagTemp bounds).Sound sqrt inp := by
  intro event member
  contradiction

section

variable [FloorSemiring K]

theorem obstacleEdge_between {point intersection base : Vec3 K} {length : K}
    (found : obstacleEdge inp point intersection length = some base) :
    ∃ t : K, base = t • intersection + (1 - t) • point := by
  rw [obstacleEdge] at found
  rcases List.exists_of_findSome?_eq_some found with ⟨k, _, here⟩
  dsimp only at here
  split_ifs at here
  · exact ⟨_, (Option.some.inj here).symm⟩
  · exact ⟨_, (Option.some.inj here).symm⟩

theorem assignPoint_events (j : ℕ) (scan : PlaneScan K) (own : scan = pointScan inp path j)
    (found : List ℤ × Option (Vec3 K)) (searched : scan.search other = found) :
    (assignPoint sqrt other inp path s j).events = (s.readAll scan found.1).events ∨
      ∃ (place base : Vec3 K) (t : K), found.2.getD (other.vector j) = place ∧
        base = t • place + (1 - t) • scan.point ∧
          (assignPoint sqrt other inp path s j).events = (s.readAll scan found.1).events ++
            [.record scan j found.2 ⟨base, (place - scan.point).normalizedBy sqrt⟩] := by
  rw [assignPoint, ← own, searched]
  dsimp only
  generalize (if found.2.isSome then (j : ℤ) else s.gotIntersectionId) = got
  split_ifs
  · cases edge : obstacleEdge inp _ _ _ with
    | none => exact .inl rfl
    | some base =>
        rcases obstacleEdge_between edge with ⟨t, between⟩
        exact .inr ⟨_, base, t, rfl, between, rfl⟩
  · exact .inl rfl
  · exact .inl rfl

end

variable [IsStrictOrderedRing K]

/-- A step that reads a search, and then records at most something that is sound when the search
finds an intersection, is sound exactly when it does. -/
theorem sound_iff_of_search {after : AssignState K} {scan : PlaneScan K}
    (other : Unspecified K) (shape : after.events = (s.readAll scan (scan.search other).1).events ∨
      ∃ event, after.events = (s.readAll scan (scan.search other).1).events ++ [event] ∧
        ∀ place, (scan.search other).2 = some place → scan.IsIntersection place →
          event.Sound sqrt inp) :
    after.Sound sqrt inp ↔ s.Sound sqrt inp ∧ scan.ChangesSign := by
  have kept : after.Sound sqrt inp → (s.readAll scan (scan.search other).1).Sound sqrt inp := by
    intro sound event member
    rcases shape with same | ⟨_, longer, _⟩
    · exact sound event (same ▸ member)
    · exact sound event (longer ▸ List.mem_append_left _ member)
  rcases PlaneScan.search_decided scan other with
    ⟨changes, in_range, place, found, intersects⟩ | ⟨stays, index, read, out⟩
  · constructor
    · exact fun sound => ⟨(AssignState.sound_readAll.mp (kept sound)).1, changes⟩
    · rintro ⟨sound, _⟩
      have all_read : (s.readAll scan (scan.search other).1).Sound sqrt inp :=
        AssignState.sound_readAll.mpr ⟨sound, in_range⟩
      rcases shape with same | ⟨event, longer, recorded⟩
      · rwa [AssignState.Sound, same]
      · rw [AssignState.Sound, longer, List.forall_mem_append, List.forall_mem_singleton]
        exact ⟨all_read, recorded place found intersects⟩
  · constructor
    · exact fun sound => absurd ((AssignState.sound_readAll.mp (kept sound)).2 index read) out
    · exact fun both => absurd both.2 stays

theorem assignMiddle_sound_iff (first : ℕ) :
    (assignMiddle sqrt other inp first path s).Sound sqrt inp ↔
      s.Sound sqrt inp ∧ (middleScan inp path first).ChangesSign := by
  apply sound_iff_of_search s other
  rcases assignMiddle_events s path first _ rfl _ rfl with same | ⟨place, found, longer⟩
  · exact .inl same
  · refine .inr ⟨_, longer, fun place' found' intersects => ?_⟩
    rw [found, Option.some.injEq] at found'
    rw [← found'] at intersects
    exact ⟨.inr rfl, place, found, intersects, rfl, .inl rfl⟩

variable [FloorSemiring K]

theorem assignPoint_sound_iff (j : ℕ) :
    (assignPoint sqrt other inp path s j).Sound sqrt inp ↔
      s.Sound sqrt inp ∧ (pointScan inp path j).ChangesSign := by
  apply sound_iff_of_search s other
  rcases assignPoint_events s path j _ rfl _ rfl with
    same | ⟨place, base, t, found, between, longer⟩
  · exact .inl same
  · refine .inr ⟨_, longer, fun place' found' intersects => ?_⟩
    rw [found', Option.getD_some] at found
    rw [← found] at between ⊢
    exact ⟨.inl rfl, place', found', intersects, rfl, .inr ⟨t, between⟩⟩

theorem assignPoints_sound_iff (segment : ℕ × ℕ) :
    (assignPoints sqrt other inp segment path s).Sound sqrt inp ↔ s.Sound sqrt inp ∧
      ∀ j, segment.1 < j → j < segment.2 → (pointScan inp path j).ChangesSign := by
  rw [assignPoints, foldl_iff fun s j _ => assignPoint_sound_iff s path j]
  refine and_congr Iff.rfl ?_
  constructor
  · intro each j after before
    exact each j (List.mem_range'_1.mpr (by omega))
  · intro each j member
    rw [List.mem_range'_1] at member
    exact each j (by omega) (by omega)

/-- The searches that step 2 of `initControlPoints` makes for a segment all change their side. -/
structure InitControlPoints.Scannable (inp : CollisionInput K) (work : SegmentPath K) : Prop where
  points : ∀ j, work.segment.1 < j → j < work.segment.2 → (pointScan inp work.path j).ChangesSign
  middle : work.segment.2 = work.segment.1 + 1 →
    (middleScan inp work.path work.segment.1).ChangesSign

theorem InitControlPoints.assignSegment_sound_iff (work : SegmentPath K) :
    (assignSegment sqrt other inp s work).Sound sqrt inp ↔
      s.Sound sqrt inp ∧ Scannable inp work := by
  rw [assignSegment]
  split_ifs with short
  · rw [assignMiddle_sound_iff, assignPoints_sound_iff]
    exact ⟨fun ⟨⟨sound, each⟩, changes⟩ => ⟨sound, each, fun _ => changes⟩,
      fun ⟨sound, each⟩ => ⟨⟨sound, each.points⟩, each.middle short⟩⟩
  · rw [assignPoints_sound_iff]
    exact ⟨fun ⟨sound, each⟩ => ⟨sound, each, fun same => absurd same short⟩,
      fun ⟨sound, each⟩ => ⟨sound, each.points⟩⟩

theorem CheckCollisionAndRebound.assignSegment_sound_iff (work : SegmentPath K) :
    (assignSegment sqrt other inp s work).Sound sqrt inp ↔ s.Sound sqrt inp ∧
      ∀ j, work.adjusted.1 < j → j < work.adjusted.2 → (pointScan inp work.path j).ChangesSign :=
  assignPoints_sound_iff (s.clearFlags work.adjusted) work.path work.adjusted

/-- Both functions stay in the paths, and record only what the own search has found, exactly when
every path that is searched changes its side of the plane where the search goes. -/
theorem plane_scans_sound_iff (sqrt : K → K) (other : Unspecified K) (inp : CollisionInput K)
    (segments : List (SegmentPath K)) (flagTemp : List Bool) (bounds : List (List (Bound K))) :
    ((InitControlPoints.assignSegments sqrt other inp segments
        (.start flagTemp bounds)).Sound sqrt inp ↔
      ∀ work ∈ segments, InitControlPoints.Scannable inp work) ∧
    ((CheckCollisionAndRebound.assignSegments sqrt other inp segments
        (.start flagTemp bounds)).Sound sqrt inp ↔
      ∀ work ∈ segments, ∀ j, work.adjusted.1 < j → j < work.adjusted.2 →
        (pointScan inp work.path j).ChangesSign) := by
  have clean : (AssignState.start flagTemp bounds).Sound sqrt inp :=
    AssignState.start_sound flagTemp bounds
  constructor
  · rw [InitControlPoints.assignSegments,
      foldl_iff fun s work _ => InitControlPoints.assignSegment_sound_iff s work]
    exact ⟨fun both => both.2, fun each => ⟨clean, each⟩⟩
  · rw [CheckCollisionAndRebound.assignSegments,
      foldl_iff fun s work _ => CheckCollisionAndRebound.assignSegment_sound_iff s work]
    exact ⟨fun both => both.2, fun each => ⟨clean, each⟩⟩

end Runs

/-- Zeros in front of and behind a path, and the vector of the control point before. -/
def zeros : Unspecified ℚ := ⟨fun _ => 0, fun _ => ⟨0, 0, 1⟩⟩

/-- Control points, those in obstacles among them, and a metre to a voxel edge of a tenth. -/
def mapOf (points blocked : List (Vec3 ℚ)) : CollisionInput ℚ :=
  ⟨fun place => decide (place ∈ blocked), 1 / 10, 3, points, []⟩

def fresh : AssignState ℚ := .start (List.replicate 8 false) (List.replicate 8 [])

def straightRow : CollisionInput ℚ :=
  mapOf ((List.range 8).map fun i : ℕ => ⟨i, 0, 1⟩) [⟨3, 0, 1⟩]

def wayAround : SegmentPath ℚ :=
  ⟨(2, 4), (2, 4), [⟨2, 0, 1⟩, ⟨2, 1, 1⟩, ⟨3, 1, 1⟩, ⟨4, 1, 1⟩, ⟨4, 0, 1⟩]⟩

theorem plane_scans_wayAround :
    (InitControlPoints.assignSegments squareRoot zeros straightRow [wayAround] fresh).Sound
        squareRoot straightRow ∧
      (CheckCollisionAndRebound.assignSegments squareRoot zeros straightRow [wayAround] fresh).Sound
        squareRoot straightRow := by
  have changes : ∀ j, 2 < j → j < 4 → (pointScan straightRow wayAround.path j).ChangesSign := by
    intro j after before
    obtain rfl : j = 3 := by omega
    exact .inr (.inl ⟨by decide +kernel, 0, by decide, by decide +kernel⟩)
  rcases plane_scans_sound_iff squareRoot zeros straightRow [wayAround]
    (List.replicate 8 false) (List.replicate 8 []) with ⟨init, check⟩
  rw [fresh, init, check, List.forall_mem_singleton, List.forall_mem_singleton]
  exact ⟨⟨changes, fun short => absurd short (by decide)⟩, changes⟩

/-- A row that turns back: the second point in an obstacle lies beyond both ends of its segment. -/
def sharpTurn : CollisionInput ℚ :=
  mapOf [⟨-2, 0, 1⟩, ⟨-1, 0, 1⟩, ⟨0, 0, 1⟩, ⟨1 / 2, 1, 1⟩, ⟨3, 0, 1⟩, ⟨1, 0, 1⟩, ⟨2, -1, 1⟩,
    ⟨3, -1, 1⟩] [⟨1 / 2, 1, 1⟩, ⟨3, 0, 1⟩]

def shortcut : SegmentPath ℚ :=
  ⟨(2, 5), (2, 5), (List.range 11).map fun k : ℕ => ⟨k / 10, 0, 1⟩⟩

/-- The search for the fourth control point leaves the path, finds nothing, and yet a bound is
recorded for it. -/
theorem sharpTurn_unsound :
    checkSegments sharpTurn = some [(2, 5)] ∧
    (let scan := pointScan sharpTurn shortcut.path 4
     let check :=
       CheckCollisionAndRebound.assignSegments squareRoot zeros sharpTurn [shortcut] fresh
     .read scan 11 ∈ check.events ∧ ¬scan.InRange 11 ∧
       .record scan 4 none ⟨⟨29 / 10, 0, 1⟩, ⟨-1, 0, 0⟩⟩ ∈ check.events ∧
         ¬check.Sound squareRoot sharpTurn) ∧
    ¬(InitControlPoints.assignSegments squareRoot zeros sharpTurn [shortcut] fresh).Sound
      squareRoot sharpTurn := by
  have out : ¬(pointScan sharpTurn shortcut.path 4).InRange 11 := fun inside =>
    absurd inside.2 (by decide)
  have check_reads : .read (pointScan sharpTurn shortcut.path 4) 11 ∈
      (CheckCollisionAndRebound.assignSegments squareRoot zeros sharpTurn [shortcut]
        fresh).events := by
    decide +kernel
  have init_reads : .read (pointScan sharpTurn shortcut.path 4) 11 ∈
      (InitControlPoints.assignSegments squareRoot zeros sharpTurn [shortcut] fresh).events := by
    decide +kernel
  refine ⟨by decide +kernel, ⟨check_reads, out, by decide +kernel, fun sound => ?_⟩,
    fun sound => ?_⟩
  · exact out (sound _ check_reads)
  · exact out (sound _ init_reads)

end RobocupDrone.Optimizer
