import RobocupDrone.Optimizer.CombinedCost
import RobocupDrone.Optimizer.InitScan

/-! `initControlPoints` and `check_collision_and_rebound`: what they leave of the control points,
and what they add to them. -/

namespace RobocupDrone.Optimizer

open Geometry

section Functions

variable {K : Type}

/-- `cps_` with its flags. -/
structure FlaggedPoints (K : Type) extends ControlPoints K where
  flagTemp : List Bool

/-- The map, the search for a path between two points, and what nothing sets. -/
structure Surroundings (K : Type) where
  occupied : Vec3 K → Bool
  resolution : K
  findPath : Vec3 K → Vec3 K → Option (List (Vec3 K))
  unspecified : Unspecified K

def indexPair (a : ℤ × ℤ) : ℕ × ℕ := (a.1.toNat, a.2.toNat)

def segmentPaths (segments : List (ℤ × ℤ)) (paths : List (List (Vec3 K))) : List (SegmentPath K) :=
  (segments.zip ((avoidOverlap segments).zip paths)).map fun work =>
    ⟨indexPair work.1, indexPair work.2.1, work.2.2⟩

/-- `resize` and the assignments of the first call. -/
def FlaggedPoints.first (clearance : K) (points : List (Vec3 K)) : FlaggedPoints K where
  clearance
  points
  bounds := List.replicate points.length []
  flagTemp := List.replicate points.length false

def FlaggedPoints.input (cps : FlaggedPoints K) (w : Surroundings K) (order : ℕ) :
    CollisionInput K :=
  ⟨w.occupied, w.resolution, order, cps.points, cps.bounds⟩

/-- What an assignment leaves in `cps_`. -/
def FlaggedPoints.filled (cps : FlaggedPoints K) (s : AssignState K) : FlaggedPoints K :=
  { cps with bounds := s.bounds, flagTemp := s.flagTemp }

variable [Field K] [LinearOrder K] [FloorSemiring K]

/-- `initControlPoints(cps_.points, false)`, and the first call after `FlaggedPoints.first`: the
control points and the returned segments. -/
def initControlPoints (sqrt : K → K) (w : Surroundings K) (order : ℕ) (cps : FlaggedPoints K) :
    Option (FlaggedPoints K × List (ℕ × ℕ)) :=
  let step := stepSize sqrt w.resolution cps.points
  let segments := (scan order cps.points.length
    (scanSamples w.occupied order step cps.points)).segmentIds
  match segments.mapM fun a => w.findPath (col cps.points a.1.toNat) (col cps.points a.2.toNat) with
  | none => some (cps, [])
  | some paths =>
      (fillSegments (InitControlPoints.assignSegment sqrt w.unspecified (cps.input w order))
        (segmentPaths segments paths) (.start cps.flagTemp cps.bounds)).map fun r =>
          (cps.filled r.1, r.2)

/-- The control points and `force_stop_type_`; with an order of zero the first index is negative,
which is `none`. -/
def checkCollisionAndRebound (sqrt : K → K) (w : Surroundings K) (order : ℕ)
    (cps : FlaggedPoints K) : Option (FlaggedPoints K × ForceStop) :=
  if order = 0 then none
  else
    match checkSegments (cps.input w order) with
    | none => some (cps, .stopForError)
    | some [] => some (cps, .dontStop)
    | some segments =>
        -- a segment without a path is erased
        let found := segments.filterMap fun a =>
          (w.findPath (col cps.points a.1) (col cps.points a.2)).map fun path => (a, path)
        (fillSegments
          (CheckCollisionAndRebound.assignSegment sqrt w.unspecified (cps.input w order))
          (segmentPaths (ids (found.map Prod.fst)) (found.map Prod.snd))
          (.start cps.flagTemp cps.bounds)).map fun r => (cps.filled r.1, .stopForRebound)

end Functions

section Overlap

variable {previous segment : ℤ × ℤ} {rest : List (ℤ × ℤ)}

theorem truncate_between {v : ℚ} {k : ℤ} (nonneg : 0 ≤ v) (low : k ≤ v) (high : v < k + 1) :
    truncate v = k := by
  rw [truncate, if_pos nonneg, Int.floor_eq_iff]
  exact ⟨low, high⟩

theorem avoidOverlapFrom_close (positive : 1 ≤ previous.2) (nonneg : 0 ≤ segment.1)
    (close : previous.2 ≤ segment.1 + 1) :
    avoidOverlapFrom previous (segment :: rest) = previous :: avoidOverlapFrom segment rest ∧
        previous.2 < segment.1 ∨
      avoidOverlapFrom previous (segment :: rest) = (previous.1, previous.2 - 1) ::
        avoidOverlapFrom (segment.1 + 1, segment.2) rest ∧ segment.1 ≤ previous.2 := by
  rw [avoidOverlapFrom]
  split_ifs with overlap
  · right
    have positive' : (1 : ℚ) ≤ previous.2 := by exact_mod_cast positive
    have nonneg' : (0 : ℚ) ≤ segment.1 := by exact_mod_cast nonneg
    have close' : (previous.2 : ℚ) ≤ segment.1 + 1 := by exact_mod_cast close
    have overlap' : (segment.1 : ℚ) ≤ previous.2 := by exact_mod_cast overlap
    have below : truncate (((previous.2 + segment.1 : ℤ) : ℚ) / 2 - 0.1) = previous.2 - 1 := by
      apply truncate_between
      · push_cast
        linarith
      · push_cast
        linarith
      · push_cast
        linarith
    have above : truncate (((previous.2 + segment.1 : ℤ) : ℚ) / 2 + 1.1) = segment.1 + 1 := by
      apply truncate_between
      · push_cast
        linarith
      · push_cast
        linarith
      · push_cast
        linarith
    exact ⟨by simp only [below, above], overlap⟩
  · exact .inl ⟨rfl, not_le.mp overlap⟩

structure Behind (previous : ℤ × ℤ) (rest : List (ℤ × ℤ)) : Prop where
  positive : 1 ≤ previous.2
  later : ∀ a ∈ rest, 0 ≤ a.1 ∧ 1 ≤ a.2 ∧ previous.2 ≤ a.1 + 1 ∧ previous.2 ≤ a.2
  ordered : rest.Pairwise fun a b => a.1 ≤ b.1 ∧ a.2 ≤ b.1 + 1 ∧ a.2 ≤ b.2

theorem Behind.tail (behind : Behind previous (segment :: rest)) (first : ℤ) :
    Behind (first, segment.2) rest := by
  obtain ⟨after, ordered⟩ := List.pairwise_cons.mp behind.ordered
  refine ⟨(behind.later segment List.mem_cons_self).2.1, fun a member => ?_, ordered⟩
  obtain ⟨nonneg, positive, _⟩ := behind.later a (List.mem_cons_of_mem segment member)
  exact ⟨nonneg, positive, (after a member).2⟩

theorem Behind.step (behind : Behind previous (segment :: rest)) :
    avoidOverlapFrom previous (segment :: rest) =
          previous :: avoidOverlapFrom (segment.1, segment.2) rest ∧
        previous.2 < segment.1 ∨
      avoidOverlapFrom previous (segment :: rest) = (previous.1, previous.2 - 1) ::
        avoidOverlapFrom (segment.1 + 1, segment.2) rest ∧ segment.1 ≤ previous.2 := by
  obtain ⟨nonneg, _, close, _⟩ := behind.later segment List.mem_cons_self
  exact avoidOverlapFrom_close behind.positive nonneg close

theorem Behind.low (behind : Behind previous rest) {L : ℤ} (first : L ≤ previous.1)
    (last : L ≤ previous.2 + 1) (others : ∀ a ∈ rest, L ≤ a.1 + 1) :
    ∀ b ∈ avoidOverlapFrom previous rest, L ≤ b.1 := by
  induction rest generalizing previous with
  | nil =>
      intro b member
      rw [List.mem_singleton.mp member]
      exact first
  | cons segment rest ih =>
      have farther := (behind.later segment List.mem_cons_self).2.2.2
      have here := others segment List.mem_cons_self
      have others' : ∀ a ∈ rest, L ≤ a.1 + 1 := fun a member =>
        others a (List.mem_cons_of_mem segment member)
      intro b member
      rcases behind.step with ⟨shape, apart⟩ | ⟨shape, _⟩
      · rw [shape] at member
        rcases List.mem_cons.mp member with rfl | member
        · exact first
        · exact ih (behind.tail segment.1) (by dsimp only; omega) (by dsimp only; omega) others' b
            member
      · rw [shape] at member
        rcases List.mem_cons.mp member with rfl | member
        · exact first
        · exact ih (behind.tail (segment.1 + 1)) here (by dsimp only; omega) others' b member

theorem Behind.high (behind : Behind previous rest) {n : ℤ} (last : previous.2 < n)
    (others : ∀ a ∈ rest, a.2 < n) : ∀ b ∈ avoidOverlapFrom previous rest, 0 ≤ b.2 ∧ b.2 < n := by
  have positive := behind.positive
  induction rest generalizing previous with
  | nil =>
      intro b member
      rw [List.mem_singleton.mp member]
      exact ⟨by omega, last⟩
  | cons segment rest ih =>
      have here := others segment List.mem_cons_self
      have others' : ∀ a ∈ rest, a.2 < n := fun a member =>
        others a (List.mem_cons_of_mem segment member)
      intro b member
      rcases behind.step with ⟨shape, _⟩ | ⟨shape, _⟩
      · rw [shape] at member
        rcases List.mem_cons.mp member with rfl | member
        · exact ⟨by omega, last⟩
        · exact ih (behind.tail segment.1) here others' (behind.tail segment.1).positive b member
      · rw [shape] at member
        rcases List.mem_cons.mp member with rfl | member
        · exact ⟨by dsimp only; omega, by dsimp only; omega⟩
        · exact ih (behind.tail (segment.1 + 1)) here others' (behind.tail _).positive b member

theorem Behind.apart (behind : Behind previous rest) :
    (avoidOverlapFrom previous rest).Pairwise fun a b => a.2 < b.1 := by
  induction rest generalizing previous with
  | nil => exact List.pairwise_singleton _ _
  | cons segment rest ih =>
      obtain ⟨_, _, close, farther⟩ := behind.later segment List.mem_cons_self
      have ordered := (List.pairwise_cons.mp behind.ordered).1
      rcases behind.step with ⟨shape, apart⟩ | ⟨shape, overlap⟩
      · rw [shape, List.pairwise_cons]
        refine ⟨fun b member => ?_, ih (behind.tail segment.1)⟩
        refine Int.add_one_le_iff.mp ((behind.tail segment.1).low (L := previous.2 + 1) ?_ ?_ ?_ b
          member)
        · exact apart
        · dsimp only
          omega
        · intro a later
          have starts := (ordered a later).1
          omega
      · rw [shape, List.pairwise_cons]
        refine ⟨fun b member => ?_, ih (behind.tail (segment.1 + 1))⟩
        have first := (behind.tail (segment.1 + 1)).low (L := previous.2) close
          (by dsimp only; omega) (fun a later => by
            have starts := (ordered a later).1
            omega) b member
        dsimp only
        omega

theorem Chained.behind {order n : ℕ} (chained : Chained order n (previous :: rest))
    (positive : 0 < order) : Behind previous rest := by
  obtain ⟨after, ordered⟩ := List.pairwise_cons.mp chained.ordered
  have here := chained.within previous List.mem_cons_self
  refine ⟨by omega, fun a member => ?_, ordered⟩
  have bounds := chained.within a (List.mem_cons_of_mem previous member)
  exact ⟨by omega, by omega, (after a member).2⟩

theorem avoidOverlap_chained {order n : ℕ} (positive : 0 < order) {segments : List (ℤ × ℤ)}
    (chained : Chained order n segments) :
    (∀ b ∈ avoidOverlap segments, (order : ℤ) ≤ b.1 + 1 ∧ 0 ≤ b.2 ∧ b.2 < n) ∧
      (avoidOverlap segments).Pairwise fun a b => a.2 < b.1 := by
  cases segments with
  | nil => exact ⟨fun b member => absurd member List.not_mem_nil, .nil⟩
  | cons previous rest =>
      have here := chained.within previous List.mem_cons_self
      have behind := chained.behind positive
      refine ⟨fun b member => ⟨?_, ?_⟩, behind.apart⟩
      · have first := behind.low (L := order - 1) (by omega) (by omega) (fun a later => by
          have bounds := (chained.within a (List.mem_cons_of_mem previous later)).1
          omega) b member
        omega
      · exact behind.high here.2.2 (fun a later =>
          (chained.within a (List.mem_cons_of_mem previous later)).2.2) b member

end Overlap

section Runs

variable {K : Type}
variable {sqrt : K → K} {w : Surroundings K} {order : ℕ} {cps : FlaggedPoints K}

/-- Every control point has a list of bounds, and whatever is marked has a bound. -/
structure FlaggedPoints.Consistent (cps : FlaggedPoints K) : Prop where
  lengths : cps.bounds.length = cps.points.length
  marked : ∀ j, cps.flagTemp.getD j false = true → HasBound cps.bounds j

/-- The control points stay, with their bounds in front of new ones. -/
structure FlaggedPoints.Extends (before after : FlaggedPoints K) : Prop where
  clearance : after.clearance = before.clearance
  points : after.points = before.points
  grows : Grows before.bounds after.bounds

theorem FlaggedPoints.Extends.refl (cps : FlaggedPoints K) : cps.Extends cps :=
  ⟨rfl, rfl, Grows.refl _⟩

theorem FlaggedPoints.consistent_first (clearance : K) (points : List (Vec3 K)) :
    (FlaggedPoints.first clearance points).Consistent := by
  refine ⟨List.length_replicate, fun j marked => ?_⟩
  have unmarked : (List.replicate points.length false).getD j false = false := by
    rw [List.getD_eq_getElem?_getD, List.getElem?_replicate]
    split_ifs
    · rfl
    · rfl
  change (List.replicate points.length false).getD j false = true at marked
  rw [unmarked] at marked
  cases marked

theorem FlaggedPoints.Consistent.served {cps : FlaggedPoints K} (consistent : cps.Consistent) :
    (AssignState.start cps.flagTemp cps.bounds).Served :=
  ⟨consistent.marked, fun found => absurd found (show ¬(0 : ℤ) ≤ -1 by decide)⟩

theorem middle_sublists {α β γ : Type*} (a : List α) (b : List β) (c : List γ) :
    (a.zip (b.zip c)).map (fun work => work.2.1) <+: b := by
  induction a generalizing b c with
  | nil => exact List.nil_prefix
  | cons x a ih =>
      cases b with
      | nil => exact List.nil_prefix
      | cons y b =>
          cases c with
          | nil => exact List.nil_prefix
          | cons z c =>
              rw [List.zip_cons_cons, List.zip_cons_cons, List.map_cons]
              exact (List.cons_prefix_cons).mpr ⟨rfl, ih b c⟩

theorem paired_sublist {α β : Type*} (f : α → Option β) (l : List α) :
    ((l.filterMap fun a => (f a).map fun b => (a, b)).map Prod.fst).Sublist l := by
  induction l with
  | nil => exact .slnil
  | cons a rest ih =>
      rw [List.filterMap_cons]
      cases f a with
      | none => exact ih.cons a
      | some b => exact ih.cons_cons a

theorem segmentPaths_spec {order n : ℕ} (positive : 0 < order) {segments : List (ℤ × ℤ)}
    (chained : Chained order n segments) (paths : List (List (Vec3 K))) :
    (∀ work ∈ segmentPaths segments paths, WithinPoints n work ∧ order ≤ work.adjusted.1 + 1) ∧
      ((segmentPaths segments paths).map SegmentPath.adjusted).Pairwise fun a b => a.2 < b.1 := by
  obtain ⟨within, apart⟩ := avoidOverlap_chained positive chained
  constructor
  · intro work member
    obtain ⟨⟨a, b, path⟩, present, rfl⟩ := List.mem_map.mp member
    obtain ⟨first, rest⟩ := List.of_mem_zip present
    have outer := chained.within a first
    have inner := within b (List.of_mem_zip rest).1
    refine ⟨⟨?_, ?_, ?_⟩, ?_⟩
    · dsimp only [indexPair]
      omega
    · dsimp only [indexPair]
      omega
    · dsimp only [indexPair]
      omega
    · dsimp only [indexPair]
      omega
  · have shape : (segmentPaths segments paths).map SegmentPath.adjusted =
        ((segments.zip ((avoidOverlap segments).zip paths)).map fun work => work.2.1).map
          indexPair := by
      rw [segmentPaths, List.map_map, List.map_map]
      rfl
    rw [shape, List.pairwise_map]
    refine (List.Pairwise.sublist (middle_sublists segments _ paths).sublist
      (List.Pairwise.and_mem.mp apart)).imp ?_
    rintro a b ⟨first, second, before⟩
    have low := within a first
    have high := within b second
    dsimp only [indexPair]
    omega

section

variable [Field K] [LinearOrder K] [IsStrictOrderedRing K] [FloorSemiring K]

variable (sqrt) in
theorem initControlPoints_spec (resolution : 0 < w.resolution) (positive : 0 < order)
    (enough : 2 * order ≤ cps.points.length) (consistent : cps.Consistent) :
    ∃ after segments, initControlPoints sqrt w order cps = some (after, segments) ∧
      cps.Extends after ∧ after.Consistent ∧ segments.Pairwise (fun a b => a.2 < b.1) ∧
        ∀ segment ∈ segments, order ≤ segment.1 + 1 ∧ segment.2 < after.points.length ∧
          ∀ j, segment.1 ≤ j → j ≤ segment.2 → HasBound after.bounds j := by
  have chained := (scan_spec w.occupied (stepSize sqrt w.resolution cps.points) positive enough).1
  unfold initControlPoints
  dsimp only
  generalize (scan order cps.points.length (scanSamples w.occupied order
    (stepSize sqrt w.resolution cps.points) cps.points)).segmentIds = found at chained ⊢
  split
  · exact ⟨cps, [], rfl, .refl cps, consistent, .nil,
      fun _ member => absurd member List.not_mem_nil⟩
  · rename_i paths searched
    obtain ⟨within, apart⟩ := segmentPaths_spec positive chained paths
    have inside : ∀ work ∈ segmentPaths found paths, WithinPoints cps.bounds.length work := by
      intro work member
      rw [consistent.lengths]
      exact (within work member).1
    obtain ⟨s, segments, filled, served, grows, sub, covered⟩ := fillSegments_spec
      (serves_init sqrt w.unspecified (cps.input w order) resolution) consistent.served inside
    refine ⟨cps.filled s, segments, by rw [filled, Option.map_some], ⟨rfl, rfl, grows⟩,
      ⟨grows.length_eq.symm.trans consistent.lengths, served.marked⟩, apart.sublist sub, ?_⟩
    intro segment member
    obtain ⟨work, present, same⟩ := List.mem_map.mp (sub.subset member)
    obtain ⟨inside, low⟩ := within work present
    rw [← same]
    refine ⟨low, inside.2.2, ?_⟩
    rw [same]
    exact covered segment member

end

section

variable [Field K] [LinearOrder K] [FloorSemiring K]

theorem collectSegments_lt {fuel i : ℕ} {occ hit : ℕ → Bool} {size : ℕ} {iEnd : ℤ}
    {segments : List (ℕ × ℕ)} (last : iEnd < size)
    (collected : collectSegments occ hit size iEnd fuel i = some segments) :
    ∀ segment ∈ segments, segment.2 < size := by
  induction fuel generalizing i segments with
  | zero =>
      rw [collectSegments, Option.some.injEq] at collected
      simp [← collected]
  | succ fuel ih =>
      rw [collectSegments] at collected
      split_ifs at collected with ended collides
      · rw [Option.some.injEq] at collected
        simp [← collected]
      · simp only [Option.bind_eq_bind, Option.bind_eq_some_iff, Option.some.injEq] at collected
        obtain ⟨out, found, later, rest, same⟩ := collected
        obtain ⟨_, high, _⟩ := freeFrom_spec found
        intro segment member
        rw [← same] at member
        rcases List.mem_cons.mp member with rfl | member
        · dsimp only
          omega
        · exact ih rest segment member
      · exact ih collected

end

variable [Field K] [LinearOrder K]

theorem chained_of_check {inp : CollisionInput K} (enough : 2 ≤ inp.order)
    (fits : 2 * inp.order ≤ inp.points.length) {segments kept : List (ℕ × ℕ)}
    (collected : checkSegments inp = some segments) (sub : kept.Sublist segments) :
    Chained 1 inp.points.length (ids kept) := by
  have spread := spread_of_collected enough collected sub
  have bounded : ∀ segment ∈ segments, segment.2 < inp.points.length := by
    rw [checkSegments, if_neg (by omega)] at collected
    refine collectSegments_lt ?_ collected
    have third : 0 ≤ (((inp.points.length : ℤ) - inp.order - inp.order).tdiv 3) :=
      Int.tdiv_nonneg (by omega) (by decide)
    unfold checkEnd
    dsimp only
    omega
  refine ⟨fun a member => ?_, ?_⟩
  · obtain ⟨wide, positive⟩ := spread.wide a member
    obtain ⟨segment, present, rfl⟩ := List.mem_map.mp member
    have high := bounded segment (sub.subset present)
    dsimp only at wide ⊢
    omega
  · refine (List.Pairwise.and_mem.mp spread.pairwise).imp ?_
    rintro a b ⟨first, second, follows, far⟩
    have wide := (spread.wide a first).1
    omega

variable [IsStrictOrderedRing K] [FloorSemiring K]

variable (sqrt) in
theorem checkCollisionAndRebound_spec (resolution : 0 < w.resolution) (enough : 2 ≤ order)
    (fits : 2 * order ≤ cps.points.length) (consistent : cps.Consistent) :
    ∃ after stop, checkCollisionAndRebound sqrt w order cps = some (after, stop) ∧
      cps.Extends after ∧ after.Consistent := by
  unfold checkCollisionAndRebound
  rw [if_neg (by omega)]
  split
  · exact ⟨cps, .stopForError, rfl, .refl cps, consistent⟩
  · exact ⟨cps, .dontStop, rfl, .refl cps, consistent⟩
  · rename_i segments _ collected
    dsimp only
    set found := segments.filterMap fun a =>
      (w.findPath (col cps.points a.1) (col cps.points a.2)).map fun path => (a, path) with paths
    have sub : (found.map Prod.fst).Sublist segments := paired_sublist _ segments
    have chained : Chained 1 cps.points.length (ids (found.map Prod.fst)) :=
      chained_of_check enough fits collected sub
    obtain ⟨within, _⟩ := segmentPaths_spec Nat.one_pos chained (found.map Prod.snd)
    have inside : ∀ work ∈ segmentPaths (ids (found.map Prod.fst)) (found.map Prod.snd),
        WithinPoints cps.bounds.length work := by
      intro work member
      rw [consistent.lengths]
      exact (within work member).1
    obtain ⟨s, _, filled, served, grows, _⟩ := fillSegments_spec
      (serves_check sqrt w.unspecified (cps.input w order) resolution) consistent.served inside
    exact ⟨cps.filled s, .stopForRebound, by rw [filled, Option.map_some], ⟨rfl, rfl, grows⟩,
      ⟨grows.length_eq.symm.trans consistent.lengths, served.marked⟩⟩

end Runs

/-- A wall across the way of sixteen control points, and a path around it. -/
def wallAhead : Surroundings ℚ where
  occupied p := decide (1.9 ≤ p.x ∧ p.x ≤ 2.7 ∧ |p.y| ≤ 0.5)
  resolution := 0.1
  findPath a b := some [a, ⟨(a.x + b.x) / 2, 0.8, 1⟩, b]
  unspecified := zeros

def towardsWall : List (Vec3 ℚ) := (List.range 16).map fun i => ⟨0.4 * i, 0, 1⟩

end RobocupDrone.Optimizer
