import RobocupDrone.Optimizer.InitControlPoints

/-! Which samples of the scan of `initControlPoints` lie in the segments that it returns: between
the scan and the return lie the searches for paths, the overlap step and the directions. -/

namespace RobocupDrone.Optimizer

open Geometry

/-- What the overlap step leaves of a segment: all but an end that a neighbour overlaps. -/
structure Trimmed (scanned adjusted : ℤ × ℤ) : Prop where
  first : scanned.1 ≤ adjusted.1 ∧ adjusted.1 ≤ scanned.1 + 1
  last : scanned.2 - 1 ≤ adjusted.2 ∧ adjusted.2 ≤ scanned.2

theorem Behind.trimmed {previous : ℤ × ℤ} {rest : List (ℤ × ℤ)} (behind : Behind previous rest)
    {first : ℤ} (low : first ≤ previous.1) (high : previous.1 ≤ first + 1) :
    List.Forall₂ Trimmed ((first, previous.2) :: rest) (avoidOverlapFrom previous rest) := by
  induction rest generalizing previous first with
  | nil => exact .cons ⟨⟨low, high⟩, by dsimp only; omega, le_rfl⟩ .nil
  | cons segment rest ih =>
      rcases behind.step with ⟨shape, _⟩ | ⟨shape, _⟩
      · rw [shape]
        refine .cons ⟨⟨low, high⟩, by dsimp only; omega, le_rfl⟩ ?_
        exact ih (behind.tail segment.1) le_rfl (by dsimp only; omega)
      · rw [shape]
        refine .cons ⟨⟨low, high⟩, le_rfl, by dsimp only; omega⟩ ?_
        exact ih (behind.tail (segment.1 + 1)) (by dsimp only; omega) le_rfl

theorem avoidOverlap_trimmed {order n : ℕ} (positive : 0 < order) {segments : List (ℤ × ℤ)}
    (chained : Chained order n segments) :
    List.Forall₂ Trimmed segments (avoidOverlap segments) := by
  cases segments with
  | nil => exact .nil
  | cons previous rest =>
      exact (chained.behind positive).trimmed le_rfl (by omega)

section Kept

variable {K : Type}

theorem copyBound_got {neighbour j : ℕ} {s next : AssignState K}
    (copied : copyBound neighbour s j = some next) :
    next.gotIntersectionId = s.gotIntersectionId := by
  unfold copyBound at copied
  split_ifs at copied
  · cases copied
    rfl
  · obtain ⟨bound, _, rfl⟩ := Option.map_eq_some_iff.mp copied
    rfl

theorem copyBounds_got {adjusted : ℕ × ℕ} {s next : AssignState K}
    (copied : copyBounds adjusted s = some next) :
    next.gotIntersectionId = s.gotIntersectionId := by
  have loop : ∀ {f : AssignState K → ℕ → Option (AssignState K)},
      (∀ s j next, f s j = some next → next.gotIntersectionId = s.gotIntersectionId) →
        ∀ {l : List ℕ} {s next : AssignState K}, l.foldlM f s = some next →
          next.gotIntersectionId = s.gotIntersectionId := by
    intro f keeps l s next ended
    refine Loop.foldlM_induct (I := fun _ r => r.gotIntersectionId = s.gotIntersectionId) ended
      rfl ?_
    intro _ j before after _ same stepped
    exact (keeps before j after stepped).trans same
  unfold copyBounds at copied
  split_ifs at copied
  · obtain ⟨middle, up, down⟩ := Option.bind_eq_some_iff.mp copied
    exact (loop (fun _ _ _ => copyBound_got) down).trans (loop (fun _ _ _ => copyBound_got) up)
  · cases copied
    rfl

theorem fillSegments_keeps {assign : AssignState K → SegmentPath K → AssignState K}
    {got : SegmentPath K → ℤ} (decides : ∀ s work, (assign s work).gotIntersectionId = got work)
    {works : List (SegmentPath K)} {s after : AssignState K} {segments : List (ℕ × ℕ)}
    (filled : fillSegments assign works s = some (after, segments)) :
    segments = (works.filter fun work => decide (0 ≤ got work)).map SegmentPath.adjusted := by
  refine Loop.foldlM_induct (I := fun past r =>
    r.2 = (past.filter fun work => decide (0 ≤ got work)).map SegmentPath.adjusted) filled rfl ?_
  intro past work r next _ kept stepped
  obtain ⟨copied, step, rfl⟩ := Option.map_eq_some_iff.mp stepped
  dsimp only
  rw [copyBounds_got step, decides, kept, List.filter_append, List.map_append]
  by_cases found : 0 ≤ got work
  · rw [if_pos found, List.filter_singleton, decide_eq_true found]
    rfl
  · rw [if_neg found, List.filter_singleton, decide_eq_false found]
    exact (List.append_nil _).symm

variable [Field K] [LinearOrder K] (sqrt : K → K) (other : Unspecified K) (inp : CollisionInput K)

theorem assignMiddle_got (first : ℕ) (path : List (Vec3 K)) {s t : AssignState K}
    (same : s.gotIntersectionId = t.gotIntersectionId) :
    (assignMiddle sqrt other inp first path s).gotIntersectionId =
      (assignMiddle sqrt other inp first path t).gotIntersectionId := by
  unfold assignMiddle
  dsimp only
  split
  · exact same
  · split_ifs
    · rfl
    · exact same

variable [FloorSemiring K]

theorem assignPoint_got (path : List (Vec3 K)) {s t : AssignState K}
    (same : s.gotIntersectionId = t.gotIntersectionId) (j : ℕ) :
    (assignPoint sqrt other inp path s j).gotIntersectionId =
      (assignPoint sqrt other inp path t j).gotIntersectionId := by
  unfold assignPoint
  dsimp only
  rw [same]
  generalize (if ((pointScan inp path j).search other).2.isSome = true then (j : ℤ)
    else t.gotIntersectionId) = got
  split_ifs
  · cases obstacleEdge inp (pointScan inp path j).point _ _ with
    | none => rfl
    | some basePoint => rfl
  · rfl
  · rfl

theorem assignPoints_got (segment : ℕ × ℕ) (path : List (Vec3 K)) (s t : AssignState K) :
    (assignPoints sqrt other inp segment path s).gotIntersectionId =
      (assignPoints sqrt other inp segment path t).gotIntersectionId := by
  unfold assignPoints
  generalize List.range' (segment.1 + 1) (segment.2 - (segment.1 + 1)) = l
  have loop : ∀ {s t : AssignState K}, s.gotIntersectionId = t.gotIntersectionId →
      (l.foldl (assignPoint sqrt other inp path) s).gotIntersectionId =
        (l.foldl (assignPoint sqrt other inp path) t).gotIntersectionId := by
    induction l with
    | nil => exact id
    | cons j rest ih => exact fun same => ih (assignPoint_got sqrt other inp path same j)
  exact loop rfl

def HasDirection (segment : ℕ × ℕ) (path : List (Vec3 K)) : Prop :=
  0 ≤ (InitControlPoints.assignSegment sqrt other inp (.start [] [])
    ⟨segment, segment, path⟩).gotIntersectionId

instance (segment : ℕ × ℕ) (path : List (Vec3 K)) :
    Decidable (HasDirection sqrt other inp segment path) := inferInstanceAs (Decidable (_ ≤ _))

theorem assignSegment_got (s : AssignState K) (work : SegmentPath K) :
    (InitControlPoints.assignSegment sqrt other inp s work).gotIntersectionId =
      (InitControlPoints.assignSegment sqrt other inp (.start [] [])
        ⟨work.segment, work.segment, work.path⟩).gotIntersectionId := by
  unfold InitControlPoints.assignSegment
  dsimp only
  split_ifs
  · exact assignMiddle_got sqrt other inp _ _ (assignPoints_got sqrt other inp _ _ _ _)
  · exact assignPoints_got sqrt other inp _ _ _ _

end Kept

section Coverage

variable {K : Type}

theorem zip_trimmed {segments adjusted : List (ℤ × ℤ)} {paths : List (List (Vec3 K))}
    {find : ℤ × ℤ → Option (List (Vec3 K))} (trimmed : List.Forall₂ Trimmed segments adjusted)
    (searched : segments.mapM find = some paths) {a : ℤ × ℤ} (member : a ∈ segments) :
    ∃ b path, (a, b, path) ∈ segments.zip (adjusted.zip paths) ∧ Trimmed a b ∧
      find a = some path := by
  induction trimmed generalizing paths with
  | nil => cases member
  | @cons first adjusted _ _ here _ ih =>
      rw [List.mapM_cons] at searched
      obtain ⟨path, found, others⟩ := Option.bind_eq_some_iff.mp searched
      obtain ⟨rest, later, same⟩ := Option.bind_eq_some_iff.mp others
      cases same
      rcases List.mem_cons.mp member with rfl | member
      · exact ⟨adjusted, path, List.mem_cons_self, here, found⟩
      · obtain ⟨b, path, among, near, found⟩ := ih later member
        exact ⟨b, path, List.mem_cons_of_mem _ among, near, found⟩

theorem exists_of_mapM_none {α β : Type*} {f : α → Option β} {l : List α} (none : l.mapM f = none) :
    ∃ a ∈ l, f a = .none := by
  induction l with
  | nil => cases none
  | cons a rest ih =>
      rw [List.mapM_cons] at none
      cases here : f a with
      | none => exact ⟨a, List.mem_cons_self, here⟩
      | some b =>
          rw [here] at none
          cases later : rest.mapM f with
          | none =>
              obtain ⟨c, member, fails⟩ := ih later
              exact ⟨c, List.mem_cons_of_mem a member, fails⟩
          | some rest =>
              rw [later] at none
              cases none

variable [Field K] [LinearOrder K] [FloorSemiring K]

/-- What becomes of a segment of the scan: it is returned, or one of the searches fails and nothing
is, or no direction is found for it. -/
inductive Fate (sqrt : K → K) (w : Surroundings K) (order : ℕ) (cps : FlaggedPoints K)
    (scanned : List (ℤ × ℤ)) (segments : List (ℕ × ℕ)) (a : ℤ × ℤ) : Prop
  | returned {b : ℤ × ℤ} (trimmed : Trimmed a b) (member : indexPair b ∈ segments)
  | no_path {c : ℤ × ℤ} (member : c ∈ scanned)
      (fails : w.findPath (col cps.points c.1.toNat) (col cps.points c.2.toNat) = none)
      (nothing : segments = [])
  | no_direction {path : List (Vec3 K)}
      (found : w.findPath (col cps.points a.1.toNat) (col cps.points a.2.toNat) = some path)
      (missing : ¬HasDirection sqrt w.unspecified (cps.input w order) (indexPair a) path)

theorem initControlPoints_fate {sqrt : K → K} {w : Surroundings K} {order : ℕ}
    (positive : 0 < order) {cps after : FlaggedPoints K} {segments : List (ℕ × ℕ)}
    (fits : 2 * order ≤ cps.points.length)
    (init : initControlPoints sqrt w order cps = some (after, segments)) :
    let scanned := (scan order cps.points.length
      (scanSamples w.occupied order (stepSize sqrt w.resolution cps.points) cps.points)).segmentIds
    ∀ a ∈ scanned, Fate sqrt w order cps scanned segments a := by
  have chained := (scan_spec w.occupied (stepSize sqrt w.resolution cps.points) positive fits).1
  unfold initControlPoints at init
  dsimp only at init ⊢
  generalize (scan order cps.points.length (scanSamples w.occupied order
    (stepSize sqrt w.resolution cps.points) cps.points)).segmentIds = scanned at chained init ⊢
  intro a member
  split at init
  · rename_i failed
    obtain ⟨c, among, fails⟩ := exists_of_mapM_none failed
    exact .no_path among fails (congrArg Prod.snd (Option.some.inj init)).symm
  · rename_i paths searched
    obtain ⟨⟨s, kept⟩, filled, same⟩ := Option.map_eq_some_iff.mp init
    cases same
    have returned := fillSegments_keeps (assignSegment_got sqrt w.unspecified (cps.input w order))
      filled
    obtain ⟨b, path, among, trimmed, found⟩ :=
      zip_trimmed (avoidOverlap_trimmed positive chained) searched member
    by_cases direction :
        HasDirection sqrt w.unspecified (cps.input w order) (indexPair a) path
    · refine .returned trimmed ?_
      dsimp only
      rw [returned]
      refine List.mem_map.mpr ⟨⟨indexPair a, indexPair b, path⟩, List.mem_filter.mpr ⟨?_, ?_⟩, rfl⟩
      · exact List.mem_map.mpr ⟨(a, b, path), among, rfl⟩
      · exact decide_eq_true direction
    · exact .no_direction found direction

variable [IsStrictOrderedRing K] {w : Surroundings K} {order : ℕ}

def wallSamples : List (ℕ × Bool) :=
  scanSamples wallAhead.occupied 3 (stepSize squareRoot wallAhead.resolution towardsWall)
    towardsWall

end Coverage

end RobocupDrone.Optimizer
