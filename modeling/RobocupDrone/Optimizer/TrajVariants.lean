import RobocupDrone.Optimizer.DistinctiveTrajs

/-! The trajectories that `distinctiveTrajs` assembles: one for every choice of sides. -/

namespace RobocupDrone.Optimizer

open Geometry

section Samples

variable {K : Type} {cps : ControlPoints K} {rich : List (RichInfo K)}

/-- The segments are apart and in order, and their control points are those of `cps`. -/
structure Arranged (cps : ControlPoints K) (rich : List (RichInfo K)) : Prop where
  ordered : rich.Pairwise fun a b => a.ids.2 < b.ids.1
  nonempty : ∀ r ∈ rich, r.ids.1 ≤ r.ids.2
  first : ∀ r ∈ rich, cps.segment r.ids = some r.first
  second : ∀ r ∈ rich, r.second.points = r.first.points

structure Chooses (cps : ControlPoints K) (rich : List (RichInfo K)) (selection : List ℤ) (j : ℕ)
    (bounds : List (Bound K)) : Prop where
  inside : ∀ i seg, rich[i]? = some seg → seg.ids.1 ≤ j → j ≤ seg.ids.2 →
    bounds = if selection.getD i 0 = 0 then cps.bounds.getD j []
      else seg.second.bounds.getD (j - seg.ids.1) []
  outside : (∀ seg ∈ rich, j < seg.ids.1 ∨ seg.ids.2 < j) → bounds = cps.bounds.getD j []

theorem length_segment {r : RichInfo K} (taken : cps.segment r.ids = some r.first) :
    r.first.points.length = r.ids.2 + 1 - r.ids.1 ∧ r.ids.2 < cps.points.length := by
  unfold ControlPoints.segment at taken
  split_ifs at taken with inside
  rw [Option.some.injEq] at taken
  refine ⟨?_, inside⟩
  rw [← taken, List.length_take, List.length_drop]
  omega

theorem Arranged.ahead (arranged : Arranged cps rich) {i k : ℕ} {seg other : RichInfo K}
    (here : rich[i]? = some seg) (there : rich[k]? = some other) (before : i < k) :
    seg.ids.2 < other.ids.1 := by
  obtain ⟨inside, rfl⟩ := List.getElem?_eq_some_iff.mp here
  obtain ⟨inside', rfl⟩ := List.getElem?_eq_some_iff.mp there
  exact List.pairwise_iff_getElem.mp arranged.ordered i k inside inside' before

theorem Arranged.beyond (arranged : Arranged cps rich) {i k : ℕ} {seg other : RichInfo K}
    (current : rich[k]? = some seg) (present : rich[i]? = some other) (later : k < i) :
    seg.ids.2 < other.ids.1 ∧ other.ids.1 ≤ other.ids.2 :=
  ⟨arranged.ahead current present later,
    arranged.nonempty other (List.mem_of_getElem? present)⟩

variable (cps) in
theorem segments_taken {l : List (ℕ × ℕ)} (inside : ∀ ids ∈ l, ids.2 < cps.points.length) :
    ∃ firsts, (l.mapM fun ids => (cps.segment ids).map fun first => (ids, first)) = some firsts ∧
      firsts.map Prod.fst = l ∧ ∀ p ∈ firsts, cps.segment p.1 = some p.2 := by
  induction l with
  | nil => exact ⟨[], rfl, rfl, fun p member => absurd member List.not_mem_nil⟩
  | cons ids rest ih =>
      obtain ⟨firsts, taken, same, each⟩ := ih fun a member =>
        inside a (List.mem_cons_of_mem _ member)
      obtain ⟨first, here⟩ : ∃ first, cps.segment ids = some first :=
        ⟨_, if_pos (inside ids List.mem_cons_self)⟩
      refine ⟨(ids, first) :: firsts, ?_, ?_, ?_⟩
      · rw [List.mapM_cons, here, taken]
        rfl
      · rw [List.map_cons, same]
      · intro p member
        rcases List.mem_cons.mp member with rfl | member
        · exact here
        · exact each p member

structure Assembled (cps : ControlPoints K) (rich : List (RichInfo K)) (selection : List ℤ) (j : ℕ)
    (s : Assembly K) : Prop where
  points : s.points = cps.points.take j
  length : s.bounds.length = j
  passed : ∀ i seg, rich[i]? = some seg → (i < s.segId → seg.ids.2 < j) ∧
    (s.segId ≤ i → j ≤ seg.ids.2)
  offset : ∀ seg, rich[s.segId]? = some seg → s.cpOfSegId = j - seg.ids.1
  chosen : ∀ k < j, Chooses cps rich selection k (s.bounds.getD k [])

section Passed

variable {selection : List ℤ} {j : ℕ} {s : Assembly K} {seg : RichInfo K}

/-- A segment around the control point is the current one. -/
theorem Assembled.only (arranged : Arranged cps rich) (before : Assembled cps rich selection j s)
    (current : rich[s.segId]? = some seg) {i : ℕ} {other : RichInfo K}
    (present : rich[i]? = some other) (low : other.ids.1 ≤ j) (high : j ≤ other.ids.2) :
    i = s.segId ∧ other = seg := by
  rcases lt_trichotomy i s.segId with earlier | same | later
  · have ended := (before.passed i other present).1 earlier
    omega
  · rw [same, current, Option.some.injEq] at present
    exact ⟨same, present.symm⟩
  · have ahead := (before.passed s.segId seg current).2 le_rfl
    have apart := arranged.beyond current present later
    omega

theorem Assembled.passed_same (arranged : Arranged cps rich)
    (before : Assembled cps rich selection j s) (current : rich[s.segId]? = some seg)
    (goes_on : j ≠ seg.ids.2) (i : ℕ) (other : RichInfo K) (present : rich[i]? = some other) :
    (i < s.segId → other.ids.2 < j + 1) ∧ (s.segId ≤ i → j + 1 ≤ other.ids.2) := by
  have ahead := (before.passed s.segId seg current).2 le_rfl
  constructor
  · intro earlier
    have ended := (before.passed i other present).1 earlier
    omega
  · intro later
    rcases Nat.lt_or_eq_of_le later with later | rfl
    · have apart := arranged.beyond current present later
      omega
    · rw [current, Option.some.injEq] at present
      rw [← present]
      omega

theorem Assembled.passed_next (arranged : Arranged cps rich)
    (before : Assembled cps rich selection j s) (current : rich[s.segId]? = some seg)
    (last : j = seg.ids.2) (i : ℕ) (other : RichInfo K) (present : rich[i]? = some other) :
    (i < s.segId + 1 → other.ids.2 < j + 1) ∧ (s.segId + 1 ≤ i → j + 1 ≤ other.ids.2) := by
  constructor
  · intro earlier
    rcases Nat.lt_or_eq_of_le (Nat.lt_succ_iff.mp earlier) with earlier | rfl
    · have ended := (before.passed i other present).1 earlier
      omega
    · rw [current, Option.some.injEq] at present
      rw [← present]
      omega
  · intro later
    have apart := arranged.beyond current present later
    omega

end Passed

variable [Field K]

theorem segment_read {r : RichInfo K} (taken : cps.segment r.ids = some r.first) {j : ℕ}
    (low : r.ids.1 ≤ j) (high : j ≤ r.ids.2) :
    j < cps.points.length ∧ col r.first.points (j - r.ids.1) = col cps.points j ∧
      r.first.bounds.getD (j - r.ids.1) [] = cps.bounds.getD j [] := by
  unfold ControlPoints.segment at taken
  split_ifs at taken with inside
  rw [Option.some.injEq] at taken
  have place : r.ids.1 + (j - r.ids.1) = j := by omega
  refine ⟨by omega, ?_, ?_⟩
  · rw [← taken, col, col, List.getD_eq_getElem?_getD, List.getElem?_take_of_lt (by omega),
      List.getElem?_drop, place, List.getD_eq_getElem?_getD]
  · rw [← taken, List.getD_eq_getElem?_getD, List.getElem?_take_of_lt (by omega),
      List.getElem?_drop, place, List.getD_eq_getElem?_getD]

theorem take_next {s : Assembly K} {source : ControlPoints K} {j i : ℕ} {selection : List ℤ}
    (before : Assembled cps rich selection j s) (inside : j < cps.points.length)
    (same : col source.points i = col cps.points j)
    (chosen : Chooses cps rich selection j (source.bounds.getD i [])) :
    (s.take source i).points = cps.points.take (j + 1) ∧
      (s.take source i).bounds.length = j + 1 ∧
        ∀ k < j + 1, Chooses cps rich selection k ((s.take source i).bounds.getD k []) := by
  have length := before.length
  refine ⟨?_, ?_, fun k bound => ?_⟩
  · rw [Assembly.take, before.points, same, col, List.getD_eq_getElem _ _ inside,
      List.take_succ_eq_append_getElem inside]
  · rw [Assembly.take, List.length_append, length]
    rfl
  · rw [Assembly.take, List.getD_eq_getElem?_getD]
    rcases Nat.lt_or_eq_of_le (Nat.lt_succ_iff.mp bound) with early | rfl
    · rw [List.getElem?_append_left (by omega), ← List.getD_eq_getElem?_getD]
      exact before.chosen k early
    · rw [List.getElem?_append_right (by omega), length, Nat.sub_self]
      exact chosen

section Step

variable {selection : List ℤ} {j : ℕ} {s : Assembly K} {seg : RichInfo K}

theorem Assembled.take_behind (before : Assembled cps rich selection j s)
    (inside : j < cps.points.length) (current : rich[s.segId]? = none) :
    Assembled cps rich selection (j + 1) (s.take cps j) := by
  have past : ∀ i seg, rich[i]? = some seg → i < s.segId := by
    intro i seg present
    have short := List.getElem?_eq_none_iff.mp current
    have here := (List.getElem?_eq_some_iff.mp present).1
    omega
  have plain : Chooses cps rich selection j (cps.bounds.getD j []) := by
    refine ⟨fun i seg present low high => ?_, fun _ => rfl⟩
    have ended := (before.passed i seg present).1 (past i seg present)
    omega
  obtain ⟨points, length, chosen⟩ := take_next before inside rfl plain
  refine ⟨points, length, fun i seg present => ⟨fun earlier => ?_, fun later => ?_⟩,
    fun seg present => ?_, chosen⟩
  · have ended := (before.passed i seg present).1 earlier
    omega
  · exact absurd later (not_le.mpr (past i seg present))
  · exact absurd (past _ seg present) (lt_irrefl _)

theorem Assembled.take_between (arranged : Arranged cps rich)
    (before : Assembled cps rich selection j s) (inside : j < cps.points.length)
    (current : rich[s.segId]? = some seg) (outside : j < seg.ids.1 ∨ seg.ids.2 < j) :
    Assembled cps rich selection (j + 1) (s.take cps j) := by
  have wide := arranged.nonempty seg (List.mem_of_getElem? current)
  have ahead := (before.passed s.segId seg current).2 le_rfl
  have plain : Chooses cps rich selection j (cps.bounds.getD j []) := by
    refine ⟨fun i other present low high => ?_, fun _ => rfl⟩
    obtain ⟨_, rfl⟩ := before.only arranged current present low high
    omega
  obtain ⟨points, length, chosen⟩ := take_next before inside rfl plain
  have passed := before.passed_same arranged current (by omega)
  refine ⟨points, length, passed, fun other present => ?_, chosen⟩
  have same : rich[s.segId]? = some other := present
  have offset := before.offset other same
  rw [current, Option.some.injEq] at same
  rw [← same] at offset ⊢
  change s.cpOfSegId = j + 1 - seg.ids.1
  omega

/-- Within a segment the control point is the same, and the bounds are those of the side chosen. -/
theorem Assembled.source_within (arranged : Arranged cps rich)
    (before : Assembled cps rich selection j s) (current : rich[s.segId]? = some seg)
    (low : seg.ids.1 ≤ j) (high : j ≤ seg.ids.2) {source : ControlPoints K}
    (side : source = if selection.getD s.segId 0 = 0 then seg.first else seg.second) :
    col source.points s.cpOfSegId = col cps.points j ∧
      Chooses cps rich selection j (source.bounds.getD s.cpOfSegId []) := by
  have member := List.mem_of_getElem? current
  have offset := before.offset seg current
  obtain ⟨_, column, bounds⟩ := segment_read (arranged.first seg member) low high
  rw [← offset] at column bounds
  refine ⟨?_, fun i other present low' high' => ?_, fun nowhere => ?_⟩
  · rw [side]
    split_ifs
    · exact column
    · rw [arranged.second seg member]
      exact column
  · obtain ⟨rfl, rfl⟩ := before.only arranged current present low' high'
    rw [side]
    split_ifs
    · exact bounds
    · rw [offset]
  · have outside := nowhere seg member
    omega

theorem assembleStep_spec (arranged : Arranged cps rich) (inside : j < cps.points.length)
    (before : Assembled cps rich selection j s) :
    ∃ next, assembleStep cps rich selection s j = some next ∧
      Assembled cps rich selection (j + 1) next := by
  unfold assembleStep
  cases current : rich[s.segId]? with
  | none => exact ⟨_, rfl, before.take_behind inside current⟩
  | some seg =>
      have member := List.mem_of_getElem? current
      have offset := before.offset seg current
      dsimp only
      by_cases outside : j < seg.ids.1 ∨ seg.ids.2 < j
      · rw [if_pos outside]
        exact ⟨_, rfl, before.take_between arranged inside current outside⟩
      · rw [if_neg outside]
        obtain ⟨low, high⟩ : seg.ids.1 ≤ j ∧ j ≤ seg.ids.2 := by omega
        have filled : ¬(selection.getD s.segId 0 ≠ 0 ∧ seg.second.points.length = 0) := by
          rintro ⟨_, empty⟩
          rw [arranged.second seg member, (length_segment (arranged.first seg member)).1] at empty
          omega
        rw [if_neg filled]
        set source := if selection.getD s.segId 0 = 0 then seg.first else seg.second with side
        obtain ⟨same_column, choice⟩ := before.source_within arranged current low high side
        obtain ⟨points, length, chosen⟩ := take_next before inside same_column choice
        split_ifs with last
        · have passed := before.passed_next arranged current last
          refine ⟨_, rfl, points, length, passed, fun other present => ?_, chosen⟩
          have apart := arranged.beyond current present (Nat.lt_succ_self _)
          change 0 = j + 1 - other.ids.1
          omega
        · have passed := before.passed_same arranged current last
          refine ⟨_, rfl, points, length, passed, fun other present => ?_, chosen⟩
          have same : rich[s.segId]? = some other := present
          rw [current, Option.some.injEq] at same
          rw [← same]
          change s.cpOfSegId + 1 = j + 1 - seg.ids.1
          omega

end Step

theorem assemble_spec (arranged : Arranged cps rich) (selection : List ℤ) :
    ∃ s, assemble cps rich selection = some ⟨⟨cps.clearance, cps.points, s⟩,
        List.replicate cps.points.length false⟩ ∧ s.length = cps.points.length ∧
      ∀ j < cps.points.length, Chooses cps rich selection j (s.getD j []) := by
  have loop : ∀ n ≤ cps.points.length, ∃ s,
      (List.range n).foldlM (assembleStep cps rich selection) ⟨0, 0, [], []⟩ = some s ∧
        Assembled cps rich selection n s := by
    intro n
    induction n with
    | zero =>
        intro _
        refine ⟨_, rfl, rfl, rfl, fun i seg _ => ⟨fun low => absurd low (Nat.not_lt_zero i),
            fun _ => Nat.zero_le _⟩,
          fun seg _ => (Nat.zero_sub _).symm, fun k low => absurd low (by omega)⟩
    | succ n ih =>
        intro inside
        obtain ⟨s, ran, before⟩ := ih (by omega)
        obtain ⟨next, stepped, after⟩ := assembleStep_spec arranged (by omega) before
        refine ⟨next, ?_, after⟩
        rw [List.range_succ, List.foldlM_append, ran, Option.bind_eq_bind, Option.bind_some,
          List.foldlM_cons, stepped]
        rfl
  obtain ⟨s, ran, assembled⟩ := loop cps.points.length le_rfl
  refine ⟨s.bounds, ?_, assembled.length, assembled.chosen⟩
  rw [assemble, ran, Option.map_some, assembled.points, List.take_length]

/-- Trajectory `k`: the bounds of segment `i` are the opposite ones where bit `i` of `k` is set. -/
structure Variant (cps : ControlPoints K) (rich : List (RichInfo K)) (k : ℕ)
    (traj : FlaggedPoints K) : Prop where
  clearance : traj.clearance = cps.clearance
  points : traj.points = cps.points
  length : traj.bounds.length = cps.points.length
  unmarked : traj.flagTemp = List.replicate cps.points.length false
  inside : ∀ i seg, rich[i]? = some seg → ∀ j, seg.ids.1 ≤ j → j ≤ seg.ids.2 →
    traj.bounds.getD j [] = if k.testBit i then seg.second.bounds.getD (j - seg.ids.1) []
      else cps.bounds.getD j []
  outside : ∀ j < cps.points.length, (∀ seg ∈ rich, j < seg.ids.1 ∨ seg.ids.2 < j) →
    traj.bounds.getD j [] = cps.bounds.getD j []

theorem variant_spec (arranged : Arranged cps rich) (k : ℕ) : ∃ traj,
    assemble cps rich (Odometer.digits varis rich.length k) = some traj ∧
      Variant cps rich k traj := by
  obtain ⟨bounds, made, length, chosen⟩ := assemble_spec arranged
    (Odometer.digits varis rich.length k)
  refine ⟨_, made, rfl, rfl, length, rfl, fun i seg present j low high => ?_,
    fun j inside nowhere => (chosen j inside).outside nowhere⟩
  have member := List.mem_of_getElem? present
  obtain ⟨inside, _⟩ := segment_read (arranged.first seg member) low high
  have place := (List.getElem?_eq_some_iff.mp present).1
  have digit : (Odometer.digits varis rich.length k).getD i 0 = ((k / 2 ^ i % 2 : ℕ) : ℤ) := by
    rw [List.getD_eq_getElem?_getD, Odometer.getElem?_digits place]
    rfl
  rw [(chosen j inside).inside i seg present low high, digit, Nat.testBit_eq_decide_div_mod_eq]
  by_cases set : k / 2 ^ i % 2 = 1
  · rw [if_neg (by omega), if_pos (by simp [set])]
  · rw [if_pos (by omega), if_neg (by simp [set])]

theorem segment_hasBound {ids : ℕ × ℕ} {first : ControlPoints K}
    (taken : cps.segment ids = some first)
    (covered : ∀ j, ids.1 ≤ j → j ≤ ids.2 → HasBound cps.bounds j) :
    ∀ j < first.points.length, HasBound first.bounds j := by
  intro j inside
  rw [(length_segment (r := ⟨ids, first, first⟩) taken).1] at inside
  dsimp only at inside
  obtain ⟨_, _, read⟩ := segment_read (r := ⟨ids, first, first⟩) taken
    (j := ids.1 + j) (by dsimp only; omega) (by dsimp only; omega)
  dsimp only at read
  rw [Nat.add_sub_cancel_left] at read
  rw [HasBound, read]
  exact covered _ (by omega) (by omega)

theorem arranged_of_turned {w : Surroundings K}
    (apart : (rich.map RichInfo.ids).Pairwise fun a b => a.2 < b.1)
    (taken : ∀ r ∈ rich, cps.segment r.ids = some r.first)
    (opposed : ∀ r ∈ rich, ∃ start stop, Opposed w r.first r.second start stop) :
    Arranged cps rich := by
  refine ⟨List.pairwise_map.mp apart, fun r member => ?_, taken, fun r member => ?_⟩
  · obtain ⟨start, stop, opposes⟩ := opposed r member
    have long := opposes.inside.1
    rw [(length_segment (taken r member)).1] at long
    omega
  · obtain ⟨start, stop, opposes⟩ := opposed r member
    exact opposes.kept.points

theorem assemble_all (arranged : Arranged cps rich) (some_left : 0 < rich.length) :
    ∃ selections trajs, Odometer.count varis (varis ^ rich.length)
        (Odometer.ready (rich.length - 1)) = some selections ∧
      selections.filterMap (assemble cps rich) = trajs ∧ trajs.length = 2 ^ rich.length ∧
        ∀ k traj, trajs[k]? = some traj → Variant cps rich k traj := by
  obtain ⟨places, long⟩ : ∃ places, rich.length = places + 1 := ⟨rich.length - 1, by omega⟩
  choose traj made variant using variant_spec arranged
  have counted := Odometer.count_ready (show 0 < varis by decide) (le_refl (varis ^ (places + 1)))
  rw [long, Nat.add_sub_cancel]
  refine ⟨_, (List.range (varis ^ (places + 1))).map traj, counted, ?_, ?_, fun k t present => ?_⟩
  · rw [List.filterMap_map, ← List.filterMap_eq_map]
    refine List.filterMap_congr fun k _ => ?_
    have this_one := made k
    rw [long] at this_one
    exact this_one
  · rw [List.length_map, List.length_range]
    rfl
  · rw [List.getElem?_map, Option.map_eq_some_iff] at present
    obtain ⟨k', within, rfl⟩ := present
    obtain ⟨_, rfl⟩ := List.getElem?_eq_some_iff.mp within
    rw [List.getElem_range]
    exact variant k

end Samples

section Variants

variable {K : Type} [Field K] [LinearOrder K] [FloorSemiring K]

def Among (cps : FlaggedPoints K) (segments : List (ℕ × ℕ)) (ids : ℕ × ℕ)
    (first : ControlPoints K) : Prop :=
  ids ∈ segments.take segUpbound ∧ cps.segment ids = some first

/-- What `distinctiveTrajs` makes of `cps_`: nothing if a control point has a wrong number of base
points, `cps_` itself if every segment is erased, or a trajectory for every choice of sides of the
segments that are not. -/
inductive Variants (sqrt : K → K) (w : Surroundings K) (cps : FlaggedPoints K)
    (segments : List (ℕ × ℕ)) : List (FlaggedPoints K) → Prop
  | wrong {ids : ℕ × ℕ} {first : ControlPoints K} (among : Among cps segments ids first)
      (wrong : WrongNumber sqrt w (5 * ctrlPtDist sqrt cps.points) first) :
      Variants sqrt w cps segments []
  | one (erased : ∀ ids first, Among cps segments ids first →
      Erased sqrt w (5 * ctrlPtDist sqrt cps.points) first) : Variants sqrt w cps segments [cps]
  | all {rich : List (RichInfo K)} {trajs : List (FlaggedPoints K)}
      (kept : (rich.map RichInfo.ids).Sublist (segments.take segUpbound))
      (erased : ∀ ids first, Among cps segments ids first → ids ∉ rich.map RichInfo.ids →
        Erased sqrt w (5 * ctrlPtDist sqrt cps.points) first)
      (arranged : Arranged cps.toControlPoints rich) (some_left : 0 < rich.length)
      (turned : ∀ r ∈ rich, ∃ start stop, TurnsAt sqrt w r.first start stop ∧
        Opposed w r.first r.second start stop)
      (length : trajs.length = 2 ^ rich.length)
      (variants : ∀ k traj, trajs[k]? = some traj → Variant cps.toControlPoints rich k traj) :
      Variants sqrt w cps segments trajs

theorem distinctiveTrajs_variants (sqrt : K → K) (w : Surroundings K) {cps : FlaggedPoints K}
    {segments : List (ℕ × ℕ)} (apart : segments.Pairwise fun a b => a.2 < b.1)
    (covered : ∀ segment ∈ segments, segment.2 < cps.points.length ∧
      ∀ j, segment.1 ≤ j → j ≤ segment.2 → HasBound cps.bounds j) :
    ∃ trajs, distinctiveTrajs sqrt w cps segments = some trajs ∧
      Variants sqrt w cps segments trajs := by
  unfold distinctiveTrajs
  split_ifs with none
  · refine ⟨_, rfl, .one fun ids first among => ?_⟩
    rw [Among, List.length_eq_zero_iff.mp none] at among
    exact absurd among.1 List.not_mem_nil
  · obtain ⟨firsts, taken, same, each⟩ := segments_taken cps.toControlPoints
      fun ids (member : ids ∈ segments.take segUpbound) =>
        (covered ids (List.mem_of_mem_take member)).1
    rw [taken, Option.bind_eq_bind, Option.bind_some]
    have known : ∀ p ∈ firsts, p.1 ∈ segments.take segUpbound := fun p member =>
      same ▸ List.mem_map_of_mem member
    have has : ∀ p ∈ firsts, ∀ j < p.2.points.length, HasBound p.2.bounds j := fun p member =>
      segment_hasBound (each p member) (covered p.1 (List.mem_of_mem_take (known p member))).2
    have first_of : ∀ ids first, Among cps segments ids first → (ids, first) ∈ firsts := by
      rintro ids first ⟨among, cut⟩
      rw [← same] at among
      obtain ⟨p, member, rfl⟩ := List.mem_map.mp among
      have its := each p member
      rw [cut, Option.some.injEq] at its
      rwa [its]
    have outcome := richInfoSegs_spec sqrt w (5 * ctrlPtDist sqrt cps.points) has
    cases done : richInfoSegs sqrt w (5 * ctrlPtDist sqrt cps.points) firsts with
    | error fault =>
        rw [done] at outcome
        cases fault with
        | outOfRange => exact outcome.elim
        | erased => exact outcome.elim
        | wrongNumber =>
            obtain ⟨p, member, wrong⟩ := outcome
            exact ⟨_, rfl, .wrong ⟨known p member, each p member⟩ wrong⟩
    | ok rich =>
        rw [done] at outcome
        obtain ⟨sub, turned, others⟩ := outcome
        dsimp only
        split_ifs with nothing
        · refine ⟨_, rfl, .one fun ids first among => ?_⟩
          rw [List.length_eq_zero_iff.mp nothing] at others
          exact (others _ (first_of ids first among)).resolve_left List.not_mem_nil
        · have ids_sub : (rich.map RichInfo.ids).Sublist (segments.take segUpbound) := by
            have mapped := sub.map Prod.fst
            rwa [List.map_map, same] at mapped
          have arranged : Arranged cps.toControlPoints rich := by
            refine arranged_of_turned (w := w)
              (apart.sublist (ids_sub.trans (List.take_sublist _ _)))
              (fun r member => each (r.ids, r.first) (sub.subset (List.mem_map_of_mem member)))
              fun r member => ?_
            obtain ⟨start, stop, _, opposed⟩ := turned r member
            exact ⟨start, stop, opposed⟩
          obtain ⟨selections, trajs, counted, assembled, length, variants⟩ :=
            assemble_all arranged (show 0 < rich.length by omega)
          rw [counted, Option.bind_eq_bind, Option.bind_some, assembled]
          refine ⟨_, rfl, .all ids_sub (fun ids first among absent => ?_) arranged (by omega) turned
            length variants⟩
          refine (others _ (first_of ids first among)).resolve_left fun member => absent ?_
          obtain ⟨r, present, here⟩ := List.mem_map.mp member
          rw [← show r.ids = ids from congrArg Prod.fst here]
          exact List.mem_map_of_mem present

theorem Variants.mem {sqrt : K → K} {w : Surroundings K} {cps : FlaggedPoints K}
    {segments : List (ℕ × ℕ)} {trajs : List (FlaggedPoints K)}
    (variants : Variants sqrt w cps segments trajs) (consistent : cps.Consistent) :
    ∀ traj ∈ trajs, traj.points = cps.points ∧ traj.clearance = cps.clearance ∧
      traj.Consistent := by
  intro traj member
  cases variants with
  | wrong => cases member
  | one =>
      rw [List.mem_singleton.mp member]
      exact ⟨rfl, rfl, consistent⟩
  | all _ _ _ _ _ _ each =>
      obtain ⟨k, present⟩ := List.mem_iff_getElem?.mp member
      have variant := each k traj present
      refine ⟨variant.points, variant.clearance, ?_, fun j marked => ?_⟩
      · rw [variant.length, variant.points]
      · rw [variant.unmarked, List.getD_eq_getElem?_getD, List.getElem?_replicate] at marked
        split_ifs at marked
        · cases marked
        · cases marked

/-- On the segments of a first call no list is read out of range, and the trajectories are one for
every choice of sides of the segments that can be turned around. -/
theorem distinctiveTrajs_of_first [IsStrictOrderedRing K] (sqrt : K → K) {w : Surroundings K}
    (resolution : 0 < w.resolution) {order : ℕ} (positive : 0 < order) (clearance : K)
    {points : List (Vec3 K)} (fits : 2 * order ≤ points.length) :
    ∃ cps segments trajs,
      initControlPoints sqrt w order (.first clearance points) = some (cps, segments) ∧
        cps.points = points ∧ distinctiveTrajs sqrt w cps segments = some trajs ∧
          Variants sqrt w cps segments trajs := by
  obtain ⟨cps, segments, init, extends_to, kept, apart, covered⟩ := initControlPoints_spec sqrt
    resolution positive fits (FlaggedPoints.consistent_first clearance points)
  obtain ⟨trajs, made, variants⟩ := distinctiveTrajs_variants sqrt w apart
    fun segment member => (covered segment member).2
  exact ⟨cps, segments, trajs, init, extends_to.points, made, variants⟩

/-- The one segment can be turned around. -/
theorem distinctiveTrajs_of_first_wallAhead : ∃ cps trajs,
    initControlPoints squareRoot wallAhead 3 (.first 0.5 towardsWall) = some (cps, [(4, 7)]) ∧
      distinctiveTrajs squareRoot wallAhead cps [(4, 7)] = some trajs ∧ trajs.length = 2 ∧
        Variants squareRoot wallAhead cps [(4, 7)] trajs := by
  obtain ⟨cps, segments, trajs, init, _, made, variants⟩ := distinctiveTrajs_of_first squareRoot
    (show 0 < wallAhead.resolution by norm_num [wallAhead]) (show 0 < 3 by decide) 0.5
    (show 2 * 3 ≤ towardsWall.length by decide)
  have found : (initControlPoints squareRoot wallAhead 3 (.first 0.5 towardsWall)).map
      (fun r => (r.2, (distinctiveTrajs squareRoot wallAhead r.1 r.2).map List.length)) =
        some ([(4, 7)], some 2) := by decide +kernel
  rw [init, Option.map_some, Option.some.injEq, made, Option.map_some, Prod.mk.injEq,
    Option.some.injEq] at found
  obtain ⟨rfl, two⟩ := found
  exact ⟨cps, trajs, init, made, two, variants⟩

end Variants

end RobocupDrone.Optimizer
