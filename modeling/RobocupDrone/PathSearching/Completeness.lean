import Mathlib.Data.Finset.Card
import Mathlib.Data.Int.Interval
import Mathlib.Logic.Relation
import RobocupDrone.PathSearching.FoundPaths

/-! The search, without its time limit, finds the end whenever it can be reached. -/

namespace RobocupDrone.PathSearching

open Geometry

variable {K : Type*}

noncomputable def Grid.cells (grid : Grid K) : Finset (Vec3 ℤ) :=
  (Finset.Ico 0 grid.poolSize.x ×ˢ Finset.Ico 0 grid.poolSize.y ×ˢ
    Finset.Ico 0 grid.poolSize.z).image fun idx => ⟨idx.1, idx.2.1, idx.2.2⟩

theorem Grid.mem_cells {grid : Grid K} {idx : Vec3 ℤ} : idx ∈ grid.cells ↔ grid.InPool idx := by
  rw [cells, Finset.mem_image]
  constructor
  · rintro ⟨⟨x, y, z⟩, inside, rfl⟩
    simp only [Finset.mem_product, Finset.mem_Ico] at inside
    intro axis
    cases axis <;> simp only [Vec3.get] <;> omega
  · intro inside
    have on_x := inside .x
    have on_y := inside .y
    have on_z := inside .z
    simp only [Vec3.get] at on_x on_y on_z
    refine ⟨(idx.x, idx.y, idx.z), ?_, rfl⟩
    simp only [Finset.mem_product, Finset.mem_Ico]
    omega

namespace Query

variable {q : Query K} {p next : NodePool K} {startIdx n current d : Vec3 ℤ} [Field K]

theorem mem_offsets {d : Vec3 ℤ} (nonzero : d ≠ 0) (near : ∀ axis, |d.get axis| ≤ 1) :
    d ∈ offsets := by
  have on_x := abs_le.mp (near .x)
  have on_y := abs_le.mp (near .y)
  have on_z := abs_le.mp (near .z)
  obtain ⟨x, y, z⟩ := d
  have choices : ∀ c : ℤ, -1 ≤ c ∧ c ≤ 1 → c ∈ [-1, 0, 1] := by
    intro c bounds
    simp only [List.mem_cons, List.not_mem_nil]
    omega
  rw [offsets, List.mem_filter, decide_eq_true_eq]
  refine ⟨?_, nonzero⟩
  exact List.mem_flatMap.mpr ⟨x, choices x on_x, List.mem_flatMap.mpr ⟨y, choices y on_y,
    List.mem_map.mpr ⟨z, choices z on_z, rfl⟩⟩⟩

theorem Sound.inPool (sound : q.Sound p startIdx) (start_in : q.grid.InPool startIdx)
    (discovered : q.Discovered p n) : q.grid.InPool n := by
  rcases sound.settled n discovered with queued | closed
  · rcases sound.reached n ⟨discovered, queued⟩ with ⟨rfl, _⟩ | ⟨before, _, _, move⟩
    · exact start_in
    · exact move.inner.inPool
  · obtain ⟨path, trail⟩ := sound.trail n ⟨discovered, closed⟩
    exact trail.inPool start_in n (List.mem_of_mem_head? trail.head)

/-- The neighbours of closed nodes are discovered, and the end is never closed. -/
structure Exhaustive (q : Query K) (p : NodePool K) : Prop where
  neighbours : ∀ m n, q.Closed p m → q.Move m n → q.Discovered p n
  end_open : ¬q.Closed p q.endIdx

theorem closed_of_reachable (sound : q.Sound p startIdx) (exhaustive : q.Exhaustive p)
    (empty : p.openSet = []) (way : Relation.ReflTransGen q.Move startIdx n) : q.Closed p n := by
  have all_closed : ∀ m, q.Discovered p m → q.Closed p m := by
    intro m discovered
    refine ⟨discovered, (sound.settled m discovered).resolve_left fun queued => ?_⟩
    have member := (sound.queue m).mpr ⟨discovered, queued⟩
    rw [empty] at member
    exact List.not_mem_nil member
  induction way with
  | refl => exact all_closed startIdx sound.start_seen
  | tail earlier move ih => exact all_closed _ (exhaustive.neighbours _ _ ih move)

theorem Trail.reachable {path : List (Vec3 ℤ)} (trail : q.Trail p startIdx n path) :
    Relation.ReflTransGen q.Move startIdx n := by
  induction trail with
  | start => exact .refl
  | step closed from_before move new earlier ih => exact ih.tail move

theorem Trail.length_le {path : List (Vec3 ℤ)} (trail : q.Trail p startIdx n path)
    (start_in : q.grid.InPool startIdx) : path.length ≤ q.grid.cells.card := by
  rw [← List.toFinset_card_of_nodup trail.nodup]
  apply Finset.card_le_card
  intro m member
  exact Grid.mem_cells.mpr (trail.inPool start_in m (List.mem_toFinset.mp member))

variable [LinearOrder K]

theorem visit_discovers (sound : q.Sound p startIdx) (closed : q.Closed p current)
    (member : d ∈ offsets) (move : q.Move current (current + d)) :
    q.Discovered (q.visitNeighbor current p d) (current + d) := by
  have kept := (visit_sound sound closed member).2
  have visit : q.Visit current d p (q.visitNeighbor current p d) :=
    visit_cases (sound.own current closed.1)
  generalize q.visitNeighbor current p d = next at visit kept ⊢
  cases visit with
  | outside outer => exact absurd move.inner outer
  | seen inner known =>
      refine ⟨?_, move.free⟩
      rw [NodePool.nodes_set_same, seenNode]
  | discover inner free fresh =>
      refine ⟨?_, move.free⟩
      rw [NodePool.nodes_push, NodePool.nodes_set_same, reachedNode, seenNode]
  | improve inner free known => exact kept.discovered _ ⟨known, free⟩

theorem visits_discover {steps : List (Vec3 ℤ)} (sound : q.Sound p startIdx)
    (closed : q.Closed p current) (inside : steps ⊆ offsets) (member : d ∈ steps)
    (move : q.Move current (current + d)) :
    q.Discovered (steps.foldl (q.visitNeighbor current) p) (current + d) := by
  induction steps generalizing p with
  | nil => exact absurd member List.not_mem_nil
  | cons first rest ih =>
      rw [List.cons_subset] at inside
      obtain ⟨kept, grows⟩ := visit_sound sound closed inside.1
      have still_closed := (grows.closed current).mpr closed
      rcases List.mem_cons.mp member with rfl | later
      · have here := visit_discovers sound closed inside.1 move
        exact (visits_sound kept still_closed inside.2).2.discovered _ here
      · exact ih kept still_closed inside.2 later

theorem expand_discovers {rest : List (Vec3 ℤ)} (sound : q.Sound p startIdx)
    (queue : p.openSet = current :: rest) (move : q.Move current n) :
    q.Discovered (q.expand current p.pop) n := by
  have start := sound_closing sound queue
  have closed : q.Closed (closing current p) current :=
    (closed_closing (sound.open_of_queue queue)).mpr (.inl rfl)
  have way : current + (n - current) = n := add_sub_cancel current n
  by_cases same : n = current
  · rw [same]
    exact (visits_sound start closed (List.Subset.refl offsets)).2.discovered _ closed.1
  · have member : n - current ∈ offsets := by
      apply mem_offsets (sub_ne_zero.mpr same)
      intro axis
      rw [Vec3.get_sub]
      exact move.near axis
    rw [← way] at move ⊢
    exact visits_discover start closed (List.Subset.refl offsets) member move

theorem expand_closed {rest : List (Vec3 ℤ)} (sound : q.Sound p startIdx)
    (queue : p.openSet = current :: rest) :
    q.Closed (q.expand current p.pop) n ↔ n = current ∨ q.Closed p n :=
  ((expand_sound sound queue).2.closed n).trans (closed_closing (sound.open_of_queue queue))

theorem expand_exhaustive {rest : List (Vec3 ℤ)} (sound : q.Sound p startIdx)
    (exhaustive : q.Exhaustive p) (queue : p.openSet = current :: rest)
    (elsewhere : (p.nodes current).index ≠ (p.nodes q.endIdx).index) :
    q.Exhaustive (q.expand current p.pop) where
  neighbours m n closed move := by
    rcases (expand_closed sound queue).mp closed with rfl | earlier
    · exact expand_discovers sound queue move
    · have before := exhaustive.neighbours m n earlier move
      exact (expand_sound sound queue).2.discovered n (discovered_closing.mpr before)
  end_open closed := by
    rcases (expand_closed sound queue).mp closed with same | earlier
    · rw [same] at elsewhere
      exact elsewhere rfl
    · exact exhaustive.end_open earlier

theorem exhaustive_putStart (stale : ∀ n, (p.nodes n).rounds < q.round) :
    q.Exhaustive (q.putStart startIdx p) := by
  have none_closed : ∀ n, ¬q.Closed (q.putStart startIdx p) n := by
    intro n closed
    have state := closed.2
    rw [discovered_putStart stale closed.1, nodes_putStart_start] at state
    contradiction
  exact ⟨fun m n closed => absurd closed (none_closed m), none_closed q.endIdx⟩

noncomputable def remaining (q : Query K) (p : NodePool K) : Finset (Vec3 ℤ) :=
  q.grid.cells.filter fun n => ¬q.Closed p n

theorem expand_remaining {rest : List (Vec3 ℤ)} (sound : q.Sound p startIdx)
    (start_in : q.grid.InPool startIdx) (queue : p.openSet = current :: rest) :
    (q.remaining (q.expand current p.pop)).card < (q.remaining p).card := by
  have queued := sound.open_of_queue queue
  apply Finset.card_lt_card
  rw [Finset.ssubset_iff_of_subset]
  · refine ⟨current, ?_, ?_⟩
    · rw [remaining, Finset.mem_filter, Grid.mem_cells]
      exact ⟨sound.inPool start_in queued.1, queued.not_closed⟩
    · rw [remaining, Finset.mem_filter, not_and, not_not]
      exact fun _ => (expand_closed sound queue).mpr (.inl rfl)
  · intro n
    rw [remaining, remaining, Finset.mem_filter, Finset.mem_filter, expand_closed sound queue,
      not_or]
    exact fun member => ⟨member.1, member.2.2⟩

theorem searchLoop_ends (start_in : q.grid.InPool startIdx) {fuel numIter : ℕ}
    (sound : q.Sound p startIdx) (enough : (q.remaining p).card < fuel) :
    ∃ found last, q.searchLoop (fun _ => false) fuel numIter p = some (found, last) := by
  induction fuel generalizing numIter p with
  | zero => omega
  | succ fuel ih =>
      rw [searchLoop]
      split
      next => exact ⟨none, p, rfl⟩
      next current rest queue =>
        split
        next => exact ⟨some current, p.pop, rfl⟩
        next =>
          have fewer := expand_remaining sound start_in queue
          simp only [Bool.false_eq_true, if_false]
          exact ih (expand_sound sound queue).1 (by omega)

theorem searchLoop_finds {fuel : ℕ} {found : Option (Vec3 ℤ)} {last : NodePool K}
    (stale : ∀ n, (p.nodes n).rounds < q.round) (free : q.blocked startIdx = false)
    (way : Relation.ReflTransGen q.Move startIdx q.endIdx)
    (ended : q.searchLoop (fun _ => false) fuel 0 (q.putStart startIdx p) = some (found, last)) :
    ∃ current, found = some current := by
  have round : ∀ p current rest, q.Sound p startIdx ∧ q.Exhaustive p →
      p.openSet = current :: rest → (p.nodes current).index ≠ (p.nodes q.endIdx).index →
      q.Sound (q.expand current p.pop) startIdx ∧ q.Exhaustive (q.expand current p.pop) := by
    rintro p current rest ⟨sound, exhaustive⟩ queue elsewhere
    exact ⟨(expand_sound sound queue).1, expand_exhaustive sound exhaustive queue elsewhere⟩
  have ends := searchLoop_induct round ⟨sound_putStart stale free, exhaustive_putStart stale⟩ ended
  cases ends with
  | searched kept empty =>
      exact absurd (closed_of_reachable kept.1 kept.2 empty way) kept.2.end_open
  | tooLate kept timeout => contradiction
  | arrived => exact ⟨_, rfl⟩

end Query

namespace AStar

open Grid

variable {sqrt : K → K} {occupied : Vec3 K → Bool} {a : AStar K} {fuel : ℕ} {stepSize : K}
  {startPt endPt : Vec3 K} {startIdx endIdx : Vec3 ℤ}
variable [Field K] [LinearOrder K] [FloorRing K]

/-- Without a time limit a search finds the end exactly when the moves of the expansion reach it. -/
theorem search_complete (reachable : Reachable sqrt a)
    (converted : (a.setGrid stepSize startPt endPt).convertToIndexAndAdjustStartEndPoints sqrt
      occupied fuel startPt endPt = some (some (startIdx, endIdx))) :
    (∃ bound, ∀ fuel ≥ bound, ∃ next, a.astarSearch sqrt occupied (fun _ => false) fuel stepSize
      startPt endPt = some (true, next)) ↔
    Relation.ReflTransGen (query sqrt occupied a stepSize startPt endPt endIdx).Move startIdx
      endIdx := by
  have stale := stale_of_reachable reachable
  constructor
  · rintro ⟨bound, finds⟩
    obtain ⟨next, returned⟩ := finds bound le_rfl
    cases astarSearch_returns returned with
    | found converted_again ended retrieved =>
        have once := Grid.convert_mono converted (le_max_left fuel bound)
        rw [Grid.convert_mono converted_again (le_max_right fuel bound)] at once
        obtain ⟨rfl, rfl⟩ := Prod.mk.inj (Option.some.inj (Option.some.inj once))
        obtain ⟨_, path, trail, _⟩ := Query.arrived_trail (stale.loop converted_again ended)
        exact trail.reachable
  · intro way
    have start_in := (Grid.convert_cells converted).1.1
    have free : (query sqrt occupied a stepSize startPt endPt endIdx).blocked startIdx = false :=
      (Grid.convert_cells converted).1.2
    generalize same : query sqrt occupied a stepSize startPt endPt endIdx = q at way free
    have start_here : q.grid.InPool startIdx := by rwa [← same]
    have rounds_lt : ∀ n, (a.pool.nodes n).rounds < q.round := by
      rw [← same]
      exact stale.lt
    have arrives : Relation.ReflTransGen q.Move startIdx q.endIdx := by
      have end_eq : q.endIdx = endIdx := by rw [← same, query]
      rwa [end_eq]
    refine ⟨max fuel (max ((q.remaining (q.putStart startIdx a.pool)).card + 1) q.grid.cells.card),
      fun more enough => ?_⟩
    rw [ge_iff_le, max_le_iff, max_le_iff] at enough
    have ends : ∃ found last, q.searchLoop (fun _ => false) more 0 (q.putStart startIdx a.pool) =
        some (found, last) :=
      Query.searchLoop_ends start_here (Query.sound_putStart rounds_lt free) enough.2.1
    obtain ⟨found, last, ended⟩ := ends
    obtain ⟨current, rfl⟩ := Query.searchLoop_finds rounds_lt free arrives ended
    obtain ⟨_, path, trail, _, retrieved⟩ :=
      Query.arrived_trail (Query.searchLoop_sound rounds_lt free ended)
    have short := (trail.length_le start_here).trans enough.2.2
    rw [astarSearch, Grid.convert_mono converted enough.1]
    simp only [same, ended, retrieved more short, Option.map_some]
    exact ⟨_, rfl⟩

theorem search_complete_level : ∃ bound, ∀ fuel ≥ bound, ∃ next,
    levelOnce.astarSearch doubleRoot levelOccupied (fun _ => false) fuel 1 ⟨3 / 2, -1 / 2, 0⟩
      ⟨-3 / 2, 1 / 2, 0⟩ = some (true, next) := by
  have converted : (levelOnce.setGrid 1 ⟨3 / 2, -1 / 2, 0⟩
      ⟨-3 / 2, 1 / 2, 0⟩).convertToIndexAndAdjustStartEndPoints doubleRoot levelOccupied 1
      ⟨3 / 2, -1 / 2, 0⟩ ⟨-3 / 2, 1 / 2, 0⟩ = some (some (⟨5, 2, 1⟩, ⟨2, 3, 1⟩)) := by
    decide +kernel
  refine (search_complete levelOnce_reachable converted).mpr ?_
  refine .head (b := ⟨4, 2, 1⟩) ?_ (.head (b := ⟨3, 2, 1⟩) ?_ (.single ?_))
  · exact ⟨by decide, by decide +kernel, by decide +kernel⟩
  · exact ⟨by decide, by decide +kernel, by decide +kernel⟩
  · exact ⟨by decide, by decide +kernel, by decide +kernel⟩

/-- A step between free cells of the pool, on its border too. -/
structure PoolStep (q : Query K) (m n : Vec3 ℤ) : Prop where
  near : ∀ axis, |n.get axis - m.get axis| ≤ 1
  inside : q.grid.InPool n
  free : q.blocked n = false

/-- On an empty map an end cell at the border is accepted and next to the start, yet not found. -/
theorem border_cell_missed :
    ((initGridMap meterGrid fun _ => 0).setGrid 1 ⟨-1 / 2, 0, 0⟩
        ⟨1 / 2, 0, 0⟩).convertToIndexAndAdjustStartEndPoints doubleRoot (fun _ => false) 1
        ⟨-1 / 2, 0, 0⟩ ⟨1 / 2, 0, 0⟩ = some (some (⟨1, 1, 1⟩, ⟨2, 1, 1⟩)) ∧
      Relation.ReflTransGen (PoolStep (query doubleRoot (fun _ => false)
        (initGridMap meterGrid fun _ => 0) 1 ⟨-1 / 2, 0, 0⟩ ⟨1 / 2, 0, 0⟩ ⟨2, 1, 1⟩))
        ⟨1, 1, 1⟩ ⟨2, 1, 1⟩ ∧
      ((initGridMap meterGrid fun _ => 0).astarSearch doubleRoot (fun _ => false)
        (fun _ => false) 3 1 ⟨-1 / 2, 0, 0⟩ ⟨1 / 2, 0, 0⟩).map Prod.fst = some false := by
  refine ⟨by decide +kernel, .single ⟨by decide, ?_, rfl⟩, by decide +kernel⟩
  intro axis
  cases axis <;> decide

end AStar

end RobocupDrone.PathSearching
