import Mathlib.Data.List.Forall2
import RobocupDrone.Optimizer.PlaneScan

/-! Step 3 of `initControlPoints` and of `check_collision_and_rebound`: the control points of a
segment that got no bound of their own get that of a neighbour. -/

namespace RobocupDrone.Optimizer

open Geometry

section Copies

variable {K : Type}

/-- A copy of the last bound of a neighbour for control point `j`, unless it got its own; `none` is
the `back` of an empty list. -/
def copyBound (neighbour : ℕ) (s : AssignState K) (j : ℕ) : Option (AssignState K) :=
  if s.flagTemp.getD j false then some s
  else (s.bounds.getD neighbour []).getLast?.map fun bound =>
    { s with bounds := s.bounds.modify j (· ++ [bound]) }

def copyBounds (adjusted : ℕ × ℕ) (s : AssignState K) : Option (AssignState K) :=
  if 0 ≤ s.gotIntersectionId then do
    let got := s.gotIntersectionId.toNat
    let s ← (List.range' (got + 1) (adjusted.2 - got)).foldlM (fun s j => copyBound (j - 1) s j) s
    (List.range' adjusted.1 (got - adjusted.1)).reverse.foldlM (fun s j => copyBound (j + 1) s j) s
  else some s

/-- A segment: the steps 1 and 2 of the function, and step 3. The second component collects the
segments with an intersection. -/
def fillSegment (assign : AssignState K → SegmentPath K → AssignState K)
    (r : AssignState K × List (ℕ × ℕ)) (work : SegmentPath K) :
    Option (AssignState K × List (ℕ × ℕ)) :=
  let s := assign r.1 work
  (copyBounds work.adjusted s).map fun s =>
    (s, if 0 ≤ s.gotIntersectionId then r.2 ++ [work.adjusted] else r.2)

def fillSegments (assign : AssignState K → SegmentPath K → AssignState K)
    (works : List (SegmentPath K)) (s : AssignState K) : Option (AssignState K × List (ℕ × ℕ)) :=
  works.foldlM (fillSegment assign) (s, [])

end Copies

section Grows

variable {K : Type}

def Grows (before after : List (List (Bound K))) : Prop := List.Forall₂ (· <+: ·) before after

theorem Grows.refl (bounds : List (List (Bound K))) : Grows bounds bounds :=
  List.forall₂_same.mpr fun _ _ => List.prefix_rfl

theorem Grows.trans {a b c : List (List (Bound K))} (first : Grows a b) (second : Grows b c) :
    Grows a c := by
  induction first generalizing c with
  | nil =>
      cases second
      exact .nil
  | cons here _ ih =>
      cases second with
      | cons there rest => exact .cons (here.trans there) (ih rest)

theorem grows_push (bounds : List (List (Bound K))) (j : ℕ) (bound : Bound K) :
    Grows bounds (bounds.modify j (· ++ [bound])) := by
  induction bounds generalizing j with
  | nil =>
      rw [List.modify_nil]
      exact .nil
  | cons head rest ih =>
      cases j with
      | zero => exact .cons (List.prefix_append _ _) (Grows.refl rest)
      | succ j => exact .cons List.prefix_rfl (ih j)

/-- Control point `j` has a bound. -/
def HasBound (bounds : List (List (Bound K))) (j : ℕ) : Prop := bounds.getD j [] ≠ []

theorem HasBound.mono {before after : List (List (Bound K))} {j : ℕ} (has : HasBound before j)
    (grows : Grows before after) : HasBound after j := by
  induction grows generalizing j with
  | nil => exact has
  | @cons old new _ _ here _ ih =>
      cases j with
      | zero =>
          intro empty
          have nothing : new = [] := empty
          rw [nothing, List.prefix_nil] at here
          exact has here
      | succ j => exact ih has

theorem hasBound_push {bounds : List (List (Bound K))} {j : ℕ} (inside : j < bounds.length)
    (bound : Bound K) : HasBound (bounds.modify j (· ++ [bound])) j := by
  rw [HasBound, List.getD_eq_getElem _ _ (by rwa [List.length_modify]), List.getElem_modify_eq]
  exact List.append_ne_nil_of_right_ne_nil _ (List.cons_ne_nil _ _)

end Grows

section Served

variable {K : Type}

/-- Whatever is marked has a bound, the point of the last intersection too. -/
structure AssignState.Served (s : AssignState K) : Prop where
  marked : ∀ j, s.flagTemp.getD j false = true → HasBound s.bounds j
  got : 0 ≤ s.gotIntersectionId → HasBound s.bounds s.gotIntersectionId.toNat

theorem copyBound_spec {neighbour j : ℕ} {s : AssignState K} (served : s.Served)
    (has : HasBound s.bounds neighbour) (inside : j < s.bounds.length) :
    ∃ next, copyBound neighbour s j = some next ∧ next.Served ∧ HasBound next.bounds j ∧
      Grows s.bounds next.bounds ∧ next.gotIntersectionId = s.gotIntersectionId := by
  unfold copyBound
  split_ifs with marked
  · exact ⟨s, rfl, served, served.marked j marked, Grows.refl _, rfl⟩
  · obtain ⟨bound, last⟩ := Option.isSome_iff_exists.mp (List.getLast?_isSome.mpr has)
    rw [last, Option.map_some]
    have grows := grows_push s.bounds j bound
    exact ⟨_, rfl, ⟨fun i flag => (served.marked i flag).mono grows,
      fun positive => (served.got positive).mono grows⟩, hasBound_push inside bound, grows, rfl⟩

theorem copyUp_spec {first n : ℕ} {s : AssignState K} (served : s.Served)
    (has : HasBound s.bounds first) (inside : first + n < s.bounds.length) :
    ∃ next, (List.range' (first + 1) n).foldlM (fun s j => copyBound (j - 1) s j) s = some next ∧
      next.Served ∧ (∀ j, first ≤ j → j ≤ first + n → HasBound next.bounds j) ∧
        Grows s.bounds next.bounds ∧ next.gotIntersectionId = s.gotIntersectionId := by
  induction n generalizing first s with
  | zero =>
      refine ⟨s, rfl, served, ?_, Grows.refl _, rfl⟩
      intro j low high
      rwa [show j = first by omega]
  | succ n ih =>
      obtain ⟨next, copied, kept, here, grows, same⟩ :=
        copyBound_spec served has (show first + 1 < s.bounds.length by omega)
      have long : first + 1 + n < next.bounds.length := by
        rw [← grows.length_eq]
        omega
      obtain ⟨last, rest, kept', all, grows', same'⟩ := ih kept here long
      refine ⟨last, ?_, kept', ?_, grows.trans grows', same'.trans same⟩
      · rw [List.range'_succ, List.foldlM_cons, Nat.add_sub_cancel, copied]
        exact rest
      · intro j low high
        rcases low.eq_or_lt with rfl | above
        · exact (has.mono grows).mono grows'
        · exact all j above (by omega)

theorem copyDown_spec (first n : ℕ) {s : AssignState K} (served : s.Served)
    (has : HasBound s.bounds (first + n)) (inside : first + n < s.bounds.length) :
    ∃ next, (List.range' first n).reverse.foldlM (fun s j => copyBound (j + 1) s j) s = some next ∧
      next.Served ∧ (∀ j, first ≤ j → j ≤ first + n → HasBound next.bounds j) ∧
        Grows s.bounds next.bounds ∧ next.gotIntersectionId = s.gotIntersectionId := by
  induction n generalizing s with
  | zero =>
      refine ⟨s, rfl, served, ?_, Grows.refl _, rfl⟩
      intro j low high
      rwa [show j = first by omega]
  | succ n ih =>
      obtain ⟨next, copied, kept, here, grows, same⟩ :=
        copyBound_spec served has (show first + n < s.bounds.length by omega)
      have long : first + n < next.bounds.length := by
        rw [← grows.length_eq]
        omega
      obtain ⟨last, rest, kept', all, grows', same'⟩ := ih kept here long
      refine ⟨last, ?_, kept', ?_, grows.trans grows', same'.trans same⟩
      · have first_copy : copyBound (first + n + 1) s (first + n) = some next := copied
        rw [List.range'_concat, List.reverse_append, List.reverse_singleton, List.singleton_append,
          List.foldlM_cons, Nat.one_mul, first_copy]
        exact rest
      · intro j low high
        rcases high.eq_or_lt with rfl | below
        · exact (has.mono grows).mono grows'
        · exact all j low (by omega)

theorem copyBounds_spec {adjusted : ℕ × ℕ} {s : AssignState K} (served : s.Served)
    (inside : adjusted.2 < s.bounds.length) :
    ∃ next, copyBounds adjusted s = some next ∧ next.Served ∧ Grows s.bounds next.bounds ∧
      (0 ≤ s.gotIntersectionId → ∀ j, adjusted.1 ≤ j → j ≤ adjusted.2 → HasBound next.bounds j) ∧
        next.gotIntersectionId = s.gotIntersectionId := by
  unfold copyBounds
  split_ifs with found
  · set got := s.gotIntersectionId.toNat with index
    have has : HasBound s.bounds got := served.got found
    have got_inside : got < s.bounds.length := by
      by_contra beyond
      exact has (List.getD_eq_default _ _ (not_lt.mp beyond))
    obtain ⟨up, rising, kept, above, grows, same⟩ :=
      copyUp_spec (n := adjusted.2 - got) served has (by omega)
    by_cases inner : adjusted.1 ≤ got
    · have top : adjusted.1 + (got - adjusted.1) = got := by omega
      obtain ⟨down, falling, kept', below, grows', same'⟩ :=
        copyDown_spec adjusted.1 (got - adjusted.1) kept
          (by rw [top]; exact has.mono grows) (by rw [← grows.length_eq]; omega)
      refine ⟨down, ?_, kept', grows.trans grows', ?_, same'.trans same⟩
      · simp only [Option.bind_eq_bind, rising, Option.bind_some]
        exact falling
      · intro _ j low high
        rcases le_total j got with down_to | up_to
        · exact below j low (by omega)
        · exact (above j up_to (by omega)).mono grows'
    · have nothing : got - adjusted.1 = 0 := by omega
      refine ⟨up, ?_, kept, grows, ?_, same⟩
      · simp only [Option.bind_eq_bind, rising, Option.bind_some, nothing]
        rfl
      · intro _ j low high
        exact above j (by omega) (by omega)
  · exact ⟨s, rfl, served, Grows.refl _, fun positive => absurd positive found, rfl⟩

theorem getD_clear {indices : List ℕ} {flags : List Bool} {j : ℕ}
    (marked : (indices.foldl (fun flags i => flags.set i false) flags).getD j false = true) :
    flags.getD j false = true := by
  induction indices generalizing flags with
  | nil => exact marked
  | cons i rest ih =>
      have set := ih marked
      rw [List.getD_eq_getElem?_getD, List.getElem?_set] at set
      split_ifs at set with here inside
      · contradiction
      · contradiction
      · rwa [List.getD_eq_getElem?_getD]

theorem served_clearFlags {s : AssignState K} (served : s.Served) (segment : ℕ × ℕ) :
    (s.clearFlags segment).Served :=
  ⟨fun j marked => served.marked j (getD_clear marked), served.got⟩

theorem served_readAll {s : AssignState K} (served : s.Served) (scan : PlaneScan K)
    (indices : List ℤ) : (s.readAll scan indices).Served := ⟨served.marked, served.got⟩

theorem served_reset {s : AssignState K} (served : s.Served) :
    ({ s with gotIntersectionId := -1 } : AssignState K).Served :=
  ⟨served.marked, fun found => absurd found (show ¬(0 : ℤ) ≤ -1 by decide)⟩

theorem served_push {s : AssignState K} (served : s.Served) {j : ℕ} (inside : j < s.bounds.length)
    (scan : PlaneScan K) (intersection : Option (Vec3 K)) (bound : Bound K) {got : ℤ}
    (known : got = j ∨ got = s.gotIntersectionId) :
    (({ s with
        flagTemp := s.flagTemp.set j true
        gotIntersectionId := got } : AssignState K).pushBound
          scan j intersection bound).Served := by
  have grows := grows_push s.bounds j bound
  constructor
  · intro i marked
    change (s.flagTemp.set j true).getD i false = true at marked
    rcases eq_or_ne j i with rfl | apart
    · exact hasBound_push inside bound
    · rw [List.getD_eq_getElem?_getD, List.getElem?_set_ne apart,
        ← List.getD_eq_getElem?_getD] at marked
      exact (served.marked i marked).mono grows
  · intro found
    rcases known with rfl | rfl
    · exact hasBound_push inside bound
    · exact (served.got found).mono grows

end Served

section Assign

variable {K : Type} {sqrt : K → K} {other : Unspecified K} {inp : CollisionInput K}
  {s : AssignState K} {path : List (Vec3 K)}

def WithinPoints (n : ℕ) (work : SegmentPath K) : Prop :=
  work.segment.1 < work.segment.2 ∧ work.segment.2 < n ∧ work.adjusted.2 < n

def Serves (assign : AssignState K → SegmentPath K → AssignState K) : Prop :=
  ∀ (s : AssignState K) (work : SegmentPath K), s.Served → WithinPoints s.bounds.length work →
    (assign s work).Served ∧ Grows s.bounds (assign s work).bounds

/-- No list of bounds is read before something is in it; bounds are only added, and every point of
a segment with an intersection has one. -/
theorem fillSegments_spec {assign : AssignState K → SegmentPath K → AssignState K}
    (serves : Serves assign) {works : List (SegmentPath K)} {s : AssignState K} (served : s.Served)
    (within : ∀ work ∈ works, WithinPoints s.bounds.length work) :
    ∃ after segments, fillSegments assign works s = some (after, segments) ∧ after.Served ∧
      Grows s.bounds after.bounds ∧ segments.Sublist (works.map SegmentPath.adjusted) ∧
        ∀ segment ∈ segments, ∀ j, segment.1 ≤ j → j ≤ segment.2 → HasBound after.bounds j := by
  have loop : ∀ (works : List (SegmentPath K)) (s : AssignState K) (kept : List (ℕ × ℕ)), s.Served →
      (∀ work ∈ works, WithinPoints s.bounds.length work) →
      ∃ after segments,
        works.foldlM (fillSegment assign) (s, kept) = some (after, kept ++ segments) ∧
        after.Served ∧ Grows s.bounds after.bounds ∧
          segments.Sublist (works.map SegmentPath.adjusted) ∧
            ∀ segment ∈ segments, ∀ j, segment.1 ≤ j → j ≤ segment.2 →
              HasBound after.bounds j := by
    intro works
    induction works with
    | nil =>
        intro s kept served _
        exact ⟨s, [], by simp, served, Grows.refl _, .slnil, by simp⟩
    | cons work rest ih =>
        intro s kept served within
        have here := within work List.mem_cons_self
        obtain ⟨assigned, grows⟩ := serves s work served here
        obtain ⟨copied, step, served', grows', covered, same⟩ := copyBounds_spec assigned
          (show work.adjusted.2 < _ by rw [← grows.length_eq]; exact here.2.2)
        have rest_within : ∀ other ∈ rest, WithinPoints copied.bounds.length other := by
          intro other member
          rw [← grows'.length_eq, ← grows.length_eq]
          exact within other (List.mem_cons_of_mem work member)
        by_cases found : 0 ≤ (assign s work).gotIntersectionId
        · obtain ⟨after, segments, later, kept_served, grows'', sub, all⟩ :=
            ih copied (kept ++ [work.adjusted]) served' rest_within
          refine ⟨after, work.adjusted :: segments, ?_, kept_served,
            (grows.trans grows').trans grows'', sub.cons_cons _, ?_⟩
          · rw [List.foldlM_cons, fillSegment]
            simp only [step, Option.map_some, same, if_pos found, Option.bind_eq_bind,
              Option.bind_some]
            rw [later, List.append_assoc, List.singleton_append]
          · intro segment member j low high
            rcases List.mem_cons.mp member with rfl | member
            · exact (covered found j low high).mono grows''
            · exact all segment member j low high
        · obtain ⟨after, segments, later, kept_served, grows'', sub, all⟩ :=
            ih copied kept served' rest_within
          refine ⟨after, segments, ?_, kept_served, (grows.trans grows').trans grows'',
            sub.cons _, all⟩
          rw [List.foldlM_cons, fillSegment]
          simp only [step, Option.map_some, same, if_neg found, Option.bind_eq_bind,
            Option.bind_some]
          exact later
  exact loop works s [] served within

section

variable [Field K] [LinearOrder K] [IsStrictOrderedRing K] [FloorSemiring K]

theorem isSome_obstacleEdge (resolution : 0 < inp.resolution) (point intersection : Vec3 K)
    (length : K) : (obstacleEdge inp point intersection length).isSome := by
  unfold obstacleEdge
  dsimp only
  rw [List.findSome?_isSome_iff]
  refine ⟨⌊length / inp.resolution⌋₊, List.mem_range.mpr (Nat.lt_succ_self _), ?_⟩
  have near : length - ⌊length / inp.resolution⌋₊ * inp.resolution < inp.resolution := by
    have above := Nat.lt_floor_add_one (length / inp.resolution)
    rw [div_lt_iff₀ resolution] at above
    linarith
  split_ifs
  · rfl
  · rfl

variable (sqrt other path) in
theorem assignPoint_served (resolution : 0 < inp.resolution) (served : s.Served) {j : ℕ}
    (inside : j < s.bounds.length) :
    (assignPoint sqrt other inp path s j).Served ∧
      Grows s.bounds (assignPoint sqrt other inp path s j).bounds := by
  unfold assignPoint
  dsimp only
  set scan := pointScan inp path j
  set found := scan.search other
  set got : ℤ := if found.2.isSome then j else s.gotIntersectionId with last
  have known : got = j ∨ got = s.gotIntersectionId := by
    rw [last]
    split_ifs
    · exact .inl rfl
    · exact .inr rfl
  split_ifs with positive long
  · obtain ⟨base, edge⟩ := Option.isSome_iff_exists.mp (isSome_obstacleEdge resolution scan.point
      (found.2.getD (other.vector j)) ((found.2.getD (other.vector j) - scan.point).lengthBy sqrt))
    rw [edge]
    exact ⟨served_push (served_readAll served scan found.1) inside scan found.2 _ known,
      grows_push _ _ _⟩
  · exact ⟨served_reset (served_readAll served scan found.1), Grows.refl _⟩
  · exact ⟨⟨served.marked, fun found => absurd found positive⟩, Grows.refl _⟩

variable (sqrt other path) in
theorem assignPoints_served (resolution : 0 < inp.resolution) (served : s.Served) {segment : ℕ × ℕ}
    (inside : segment.2 ≤ s.bounds.length) :
    (assignPoints sqrt other inp segment path s).Served ∧
      Grows s.bounds (assignPoints sqrt other inp segment path s).bounds := by
  unfold assignPoints
  have points : ∀ (indices : List ℕ) (w : AssignState K), w.Served →
      (∀ j ∈ indices, j < w.bounds.length) →
      (indices.foldl (assignPoint sqrt other inp path) w).Served ∧
        Grows w.bounds (indices.foldl (assignPoint sqrt other inp path) w).bounds := by
    intro indices
    induction indices with
    | nil => exact fun w served _ => ⟨served, Grows.refl _⟩
    | cons j rest ih =>
        intro w served within
        obtain ⟨here, grows⟩ := assignPoint_served sqrt other path resolution served
          (within j List.mem_cons_self)
        obtain ⟨later, grows'⟩ := ih _ here fun i member => by
          rw [← grows.length_eq]
          exact within i (List.mem_cons_of_mem j member)
        exact ⟨later, grows.trans grows'⟩
  apply points
  · exact served_reset served
  · intro j member
    have bounds := List.mem_range'_1.mp member
    dsimp only
    omega

variable (sqrt other inp) in
theorem serves_check (resolution : 0 < inp.resolution) :
    Serves (CheckCollisionAndRebound.assignSegment sqrt other inp) := by
  intro s work served within
  exact assignPoints_served sqrt other work.path resolution
    (served_clearFlags served work.adjusted) within.2.2.le

end

variable [Field K] [LinearOrder K]

variable (sqrt other inp path) in
theorem assignMiddle_served (served : s.Served) {first : ℕ} (inside : first < s.bounds.length) :
    (assignMiddle sqrt other inp first path s).Served ∧
      Grows s.bounds (assignMiddle sqrt other inp first path s).bounds := by
  unfold assignMiddle
  dsimp only
  cases ((middleScan inp path first).search other).2 with
  | none => exact ⟨served_readAll served _ _, Grows.refl _⟩
  | some intersection =>
      dsimp only
      split_ifs
      · exact ⟨served_push (served_readAll served _ _) inside _ _ _ (.inl rfl), grows_push _ _ _⟩
      · exact ⟨served_readAll served _ _, Grows.refl _⟩

variable [IsStrictOrderedRing K] [FloorSemiring K]

variable (sqrt other inp) in
theorem serves_init (resolution : 0 < inp.resolution) :
    Serves (InitControlPoints.assignSegment sqrt other inp) := by
  intro s work served within
  obtain ⟨first, grows⟩ := assignPoints_served sqrt other work.path resolution
    (served_clearFlags served work.adjusted) within.2.1.le
  unfold InitControlPoints.assignSegment
  dsimp only
  split_ifs
  · obtain ⟨second, grows'⟩ := assignMiddle_served sqrt other inp work.path first
      (show work.segment.1 < _ by
        rw [← grows.length_eq]
        exact within.1.trans within.2.1)
    exact ⟨second, grows.trans grows'⟩
  · exact ⟨first, grows⟩

end Assign

end RobocupDrone.Optimizer
