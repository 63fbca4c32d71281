import RobocupDrone.PathSearching.SearchInvariant

/-! The path that a search finds. -/

namespace RobocupDrone.PathSearching

open Geometry

variable {K : Type*}

theorem retrievePath_congr {nodes others : Vec3 ℤ → GridNode K}
    (same : ∀ n, (nodes n).cameFrom = (others n).cameFrom) (fuel : ℕ) (current : Vec3 ℤ) :
    retrievePath nodes fuel current = retrievePath others fuel current := by
  induction fuel generalizing current with
  | zero => rfl
  | succ fuel ih =>
      rw [retrievePath, retrievePath, same]
      rcases (others current).cameFrom with _ | before
      · rfl
      · simp only [ih]

theorem retrievePath_mono {nodes : Vec3 ℤ → GridNode K} {fuel more : ℕ} {current : Vec3 ℤ}
    {path : List (Vec3 ℤ)} (ended : retrievePath nodes fuel current = some path)
    (enough : fuel ≤ more) : retrievePath nodes more current = some path := by
  induction fuel generalizing more current path with
  | zero => contradiction
  | succ fuel ih =>
      obtain ⟨more, rfl⟩ := Nat.exists_eq_add_of_le' (Nat.one_le_of_lt enough)
      rw [retrievePath] at ended ⊢
      rcases link : (nodes current).cameFrom with _ | before
      · rwa [link] at ended
      · rw [link] at ended
        obtain ⟨rest, earlier, rfl⟩ := Option.map_eq_some_iff.mp ended
        simp only [ih earlier (Nat.le_of_add_le_add_right enough), Option.map_some]

namespace Query

variable {q : Query K} {p : NodePool K} {startIdx n current : Vec3 ℤ} {path : List (Vec3 ℤ)}

theorem Inner.inPool {idx : Vec3 ℤ} (inner : q.Inner idx) : q.grid.InPool idx := by
  intro axis
  have range := inner axis
  omega

variable [Field K]

/-- A walk over free cells of the pool from the start to the end that visits no cell twice. -/
structure IsPath (q : Query K) (startIdx : Vec3 ℤ) (cells : List (Vec3 ℤ)) : Prop where
  first : cells.head? = some startIdx
  last : cells.getLast? = some q.endIdx
  distinct : cells.Nodup
  steps : cells.IsChain fun m n => ∀ axis, |n.get axis - m.get axis| ≤ 1
  inside : ∀ n ∈ cells, q.grid.InPool n
  free : ∀ n ∈ cells, q.blocked n = false

theorem Trail.head (trail : q.Trail p startIdx n path) : path.head? = some n := by
  cases trail with
  | start => rfl
  | step => rfl

theorem Trail.last (trail : q.Trail p startIdx n path) : path.getLast? = some startIdx := by
  induction trail with
  | start => rfl
  | step closed from_before move new earlier ih => rw [List.getLast?_cons, ih, Option.getD_some]

theorem Trail.nodup (trail : q.Trail p startIdx n path) : path.Nodup := by
  induction trail with
  | start => exact List.nodup_singleton _
  | step closed from_before move new earlier ih => exact List.nodup_cons.mpr ⟨new, ih⟩

theorem Trail.isChain (trail : q.Trail p startIdx n path) :
    path.IsChain fun later earlier => q.Move earlier later := by
  induction trail with
  | start => exact List.isChain_singleton _
  | step closed from_before move new earlier ih =>
      rw [List.isChain_cons]
      refine ⟨fun m first => ?_, ih⟩
      rw [earlier.head, Option.mem_some_iff] at first
      rwa [← first]

theorem Trail.inPool (trail : q.Trail p startIdx n path) (start_in : q.grid.InPool startIdx) :
    ∀ m ∈ path, q.grid.InPool m := by
  induction trail with
  | start =>
      intro m member
      rw [List.mem_singleton.mp member]
      exact start_in
  | step closed from_before move new earlier ih =>
      intro m member
      rcases List.mem_cons.mp member with rfl | older
      · exact move.inner.inPool
      · exact ih m older

theorem Trail.isPath (trail : q.Trail p startIdx q.endIdx path)
    (start_in : q.grid.InPool startIdx) : q.IsPath startIdx path.reverse where
  first := by
    rw [List.head?_reverse]
    exact trail.last
  last := by
    rw [List.getLast?_reverse]
    exact trail.head
  distinct := List.nodup_reverse.mpr trail.nodup
  steps := by
    rw [List.isChain_reverse]
    exact trail.isChain.imp fun _ _ move => move.near
  inside n member := trail.inPool start_in n (List.mem_reverse.mp member)
  free n member := (trail.closed n (List.mem_reverse.mp member)).1.2

theorem Trail.retrieved (trail : q.Trail p startIdx n path) {fuel : ℕ}
    (enough : path.length ≤ fuel) : retrievePath p.nodes fuel n = some path := by
  induction trail generalizing fuel with
  | start closed first =>
      obtain ⟨fuel, rfl⟩ := Nat.exists_eq_add_of_le' enough
      rw [List.length_singleton, retrievePath, first]
  | step closed from_before move new earlier ih =>
      rw [List.length_cons] at enough
      obtain ⟨fuel, rfl⟩ := Nat.exists_eq_add_of_le' (Nat.one_le_of_lt enough)
      rw [retrievePath, from_before]
      simp only [ih (Nat.le_of_add_le_add_right enough), Option.map_some]

theorem Sound.first_is_end {rest : List (Vec3 ℤ)} (sound : q.Sound p startIdx)
    (queue : p.openSet = current :: rest)
    (at_end : (p.nodes current).index = (p.nodes q.endIdx).index) : current = q.endIdx := by
  rw [sound.own current (sound.open_of_queue queue).1, sound.end_own] at at_end
  exact at_end

variable [LinearOrder K]

theorem searchLoop_sound {late : ℕ → Bool} {fuel : ℕ} (stale : ∀ n, (p.nodes n).rounds < q.round)
    (free : q.blocked startIdx = false) {found : Option (Vec3 ℤ)} {last : NodePool K}
    (ended : q.searchLoop late fuel 0 (q.putStart startIdx p) = some (found, last)) :
    q.Ends (fun p => q.Sound p startIdx ∧ q.Bounded p) late found last := by
  apply searchLoop_induct _ ⟨sound_putStart stale free, bounded_putStart stale⟩ ended
  rintro p current rest ⟨sound, bounded⟩ queue _
  exact ⟨(expand_sound sound queue).1, expand_bounded sound bounded queue⟩

theorem arrived_trail {late : ℕ → Bool} {last : NodePool K}
    (ends : q.Ends (fun p => q.Sound p startIdx ∧ q.Bounded p) late (some current) last) :
    ∃ p path, q.Trail p startIdx q.endIdx path ∧ (∀ n ∈ path, (last.nodes n).index = n) ∧
      ∀ fuel ≥ path.length, retrievePath last.nodes fuel current = some path := by
  cases ends with
  | @arrived before _ rest kept queue at_end =>
      obtain ⟨sound, _⟩ := kept
      have same := sound.first_is_end queue at_end
      have queued := sound.open_of_queue queue
      obtain ⟨path, trail⟩ := (sound_closing sound queue).trail current
        ((closed_closing queued).mpr (.inl rfl))
      refine ⟨closing current before, path, ?_, fun n member => ?_, fun fuel enough => ?_⟩
      · rw [same] at trail ⊢
        exact trail
      · exact sound.own n (discovered_closing.mp (trail.closed n member).1)
      · rw [NodePool.nodes_pop, ← retrievePath_congr cameFrom_closing]
        exact trail.retrieved enough

end Query

namespace AStar

variable {sqrt : K → K} {occupied : Vec3 K → Bool} {late : ℕ → Bool} {a : AStar K} {fuel : ℕ}
  {stepSize : K} {startPt endPt : Vec3 K}

/-- No node of the pool is of a later search than the last one. -/
def Stale (a : AStar K) : Prop := ∀ n, (a.pool.nodes n).rounds ≤ a.rounds

theorem Stale.lt (stale : a.Stale) (n : Vec3 ℤ) : (a.pool.nodes n).rounds < a.rounds + 1 :=
  Nat.lt_succ_of_le (stale n)

variable [Field K] [LinearOrder K] [FloorRing K]

inductive Returns (sqrt : K → K) (occupied : Vec3 K → Bool) (late : ℕ → Bool) (fuel : ℕ)
    (stepSize : K) (startPt endPt : Vec3 K) (a : AStar K) : Bool → AStar K → Prop
  | refused (converted : (a.setGrid stepSize startPt endPt).convertToIndexAndAdjustStartEndPoints
        sqrt occupied fuel startPt endPt = some none) :
      Returns sqrt occupied late fuel stepSize startPt endPt a false
        { a with grid := a.setGrid stepSize startPt endPt, rounds := a.rounds + 1 }
  | failed {startIdx endIdx : Vec3 ℤ} {pool : NodePool K}
      (converted : (a.setGrid stepSize startPt endPt).convertToIndexAndAdjustStartEndPoints
        sqrt occupied fuel startPt endPt = some (some (startIdx, endIdx)))
      (ended : (query sqrt occupied a stepSize startPt endPt endIdx).searchLoop late fuel 0
        ((query sqrt occupied a stepSize startPt endPt endIdx).putStart startIdx a.pool) =
          some (none, pool)) :
      Returns sqrt occupied late fuel stepSize startPt endPt a false
        { a with grid := a.setGrid stepSize startPt endPt, rounds := a.rounds + 1, pool }
  | found {startIdx endIdx current : Vec3 ℤ} {pool : NodePool K} {gridPath : List (Vec3 ℤ)}
      (converted : (a.setGrid stepSize startPt endPt).convertToIndexAndAdjustStartEndPoints
        sqrt occupied fuel startPt endPt = some (some (startIdx, endIdx)))
      (ended : (query sqrt occupied a stepSize startPt endPt endIdx).searchLoop late fuel 0
        ((query sqrt occupied a stepSize startPt endPt endIdx).putStart startIdx a.pool) =
          some (some current, pool))
      (retrieved : retrievePath pool.nodes fuel current = some gridPath) :
      Returns sqrt occupied late fuel stepSize startPt endPt a true
        { a with grid := a.setGrid stepSize startPt endPt, rounds := a.rounds + 1, pool, gridPath }

theorem astarSearch_returns {result : Bool} {next : AStar K}
    (returned : a.astarSearch sqrt occupied late fuel stepSize startPt endPt =
      some (result, next)) :
    Returns sqrt occupied late fuel stepSize startPt endPt a result next := by
  rw [astarSearch] at returned
  split at returned
  next => contradiction
  next converted =>
    obtain ⟨rfl, rfl⟩ := Prod.mk.inj (Option.some.inj returned)
    exact .refused converted
  next startIdx endIdx converted =>
    dsimp only at returned
    split at returned
    next => contradiction
    next pool ended =>
      obtain ⟨rfl, rfl⟩ := Prod.mk.inj (Option.some.inj returned)
      exact .failed converted ended
    next current pool ended =>
      obtain ⟨path, retrieved, same⟩ := Option.map_eq_some_iff.mp returned
      obtain ⟨rfl, rfl⟩ := Prod.mk.inj same
      exact .found converted ended retrieved

theorem Stale.loop (stale : a.Stale) {startIdx endIdx : Vec3 ℤ}
    (converted : (a.setGrid stepSize startPt endPt).convertToIndexAndAdjustStartEndPoints
      sqrt occupied fuel startPt endPt = some (some (startIdx, endIdx)))
    {rounds : ℕ} {found : Option (Vec3 ℤ)} {pool : NodePool K}
    (ended : (query sqrt occupied a stepSize startPt endPt endIdx).searchLoop late rounds 0
      ((query sqrt occupied a stepSize startPt endPt endIdx).putStart startIdx a.pool) =
        some (found, pool)) :
    (query sqrt occupied a stepSize startPt endPt endIdx).Ends
      (fun p => (query sqrt occupied a stepSize startPt endPt endIdx).Sound p startIdx ∧
        (query sqrt occupied a stepSize startPt endPt endIdx).Bounded p) late found pool := by
  have free : (query sqrt occupied a stepSize startPt endPt endIdx).blocked startIdx = false :=
    (Grid.convert_cells converted).1.2
  exact Query.searchLoop_sound stale.lt free ended

theorem stale_of_reachable (reachable : Reachable sqrt a) : a.Stale := by
  induction reachable with
  | init grid indices => exact fun n => le_rfl
  | search before occupied late fuel stepSize startPt endPt returned ih =>
      cases astarSearch_returns returned with
      | refused => exact fun n => (ih n).trans (Nat.le_succ _)
      | failed converted ended =>
          cases ih.loop converted ended with
          | searched kept => exact kept.2
          | tooLate kept => exact kept.2
      | found converted ended =>
          cases ih.loop converted ended with
          | arrived kept => exact kept.2

/-- After any searches on the pool, `retrievePath` ends where the loop arrives, and a search that
returns true leaves a path over distinct free cells from the adjusted start to the adjusted end. -/
theorem found_path (reachable : Reachable sqrt a) (occupied : Vec3 K → Bool) (late : ℕ → Bool)
    (stepSize : K) (startPt endPt : Vec3 K) :
    (∀ fuel startIdx endIdx rounds current pool,
      (a.setGrid stepSize startPt endPt).convertToIndexAndAdjustStartEndPoints sqrt occupied fuel
        startPt endPt = some (some (startIdx, endIdx)) →
      (query sqrt occupied a stepSize startPt endPt endIdx).searchLoop late rounds 0
        ((query sqrt occupied a stepSize startPt endPt endIdx).putStart startIdx a.pool) =
          some (some current, pool) →
      ∃ bound, ∀ fuel ≥ bound, (retrievePath pool.nodes fuel current).isSome) ∧
    ∀ fuel next,
      a.astarSearch sqrt occupied late fuel stepSize startPt endPt = some (true, next) →
      ∃ startIdx endIdx cells,
        (a.setGrid stepSize startPt endPt).convertToIndexAndAdjustStartEndPoints sqrt occupied fuel
          startPt endPt = some (some (startIdx, endIdx)) ∧
        next.getPath = cells.map (a.setGrid stepSize startPt endPt).index2Coord ∧
        (query sqrt occupied a stepSize startPt endPt endIdx).IsPath startIdx cells := by
  have stale := stale_of_reachable reachable
  constructor
  · intro fuel startIdx endIdx rounds current pool converted ended
    obtain ⟨_, path, _, _, retrieved⟩ := Query.arrived_trail (stale.loop converted ended)
    refine ⟨path.length, fun fuel enough => ?_⟩
    rw [retrieved fuel enough, Option.isSome_some]
  · intro fuel next returned
    cases astarSearch_returns returned with
    | @found startIdx endIdx current pool gridPath converted ended retrieved =>
        obtain ⟨_, path, trail, own, all_fuels⟩ := Query.arrived_trail (stale.loop converted ended)
        have same : gridPath = path := by
          have longer := retrievePath_mono retrieved (le_max_left fuel path.length)
          rw [all_fuels _ (le_max_right fuel path.length)] at longer
          exact (Option.some.inj longer).symm
        refine ⟨startIdx, endIdx, path.reverse, converted, ?_,
          trail.isPath (Grid.convert_cells converted).1.1⟩
        rw [getPath, same, List.map_reverse]
        congr 1
        apply List.map_congr_left
        intro n member
        rw [own n member]

def doubleRoot (x : ℚ) : ℚ :=
  if x = 2 then 6369051672525773 / 4503599627370496
  else if x = 3 then 7800463371553962 / 4503599627370496
  else x

def level : Grid ℚ := ⟨⟨7, 5, 3⟩, 1, 0⟩

def levelFree : List (Vec3 ℤ) :=
  [⟨1, 1, 1⟩, ⟨2, 3, 1⟩, ⟨3, 2, 1⟩, ⟨4, 2, 1⟩, ⟨4, 3, 1⟩, ⟨5, 2, 1⟩, ⟨5, 3, 1⟩]

def levelOccupied (pt : Vec3 ℚ) : Bool := !(levelFree.any fun n => level.index2Coord n == pt)

/-- The pool after a search along the passage, from its left end. -/
def levelOnce : AStar ℚ :=
  ((initGridMap level fun _ => 0).astarSearch doubleRoot levelOccupied (fun _ => false) 8 1
    ⟨-3 / 2, 1 / 2, 0⟩ ⟨3 / 2, -1 / 2, 0⟩).elim (initGridMap level fun _ => 0) Prod.snd

theorem levelOnce_reachable : Reachable doubleRoot levelOnce := by
  have ends : ((initGridMap level fun _ => 0).astarSearch doubleRoot levelOccupied
      (fun _ => false) 8 1 ⟨-3 / 2, 1 / 2, 0⟩ ⟨3 / 2, -1 / 2, 0⟩).isSome := by
    decide +kernel
  obtain ⟨⟨found, next⟩, returned⟩ := Option.isSome_iff_exists.mp ends
  rw [levelOnce, returned]
  exact .search (.init level fun _ => 0) levelOccupied (fun _ => false) 8 1 _ _ returned

/-- The search back, from the right end to the left one. -/
theorem found_path_level : ∃ startIdx endIdx next cells,
    levelOnce.astarSearch doubleRoot levelOccupied (fun _ => false) 8 1 ⟨3 / 2, -1 / 2, 0⟩
      ⟨-3 / 2, 1 / 2, 0⟩ = some (true, next) ∧
    next.getPath = cells.map level.index2Coord ∧
    (query doubleRoot levelOccupied levelOnce 1 ⟨3 / 2, -1 / 2, 0⟩ ⟨-3 / 2, 1 / 2, 0⟩
      endIdx).IsPath startIdx cells := by
  have true_result : (levelOnce.astarSearch doubleRoot levelOccupied (fun _ => false) 8 1
      ⟨3 / 2, -1 / 2, 0⟩ ⟨-3 / 2, 1 / 2, 0⟩).map Prod.fst = some true := by
    decide +kernel
  obtain ⟨⟨result, next⟩, returned, rfl⟩ := Option.map_eq_some_iff.mp true_result
  obtain ⟨startIdx, endIdx, cells, _, path, is_path⟩ :=
    (found_path levelOnce_reachable levelOccupied (fun _ => false) 1 ⟨3 / 2, -1 / 2, 0⟩
      ⟨-3 / 2, 1 / 2, 0⟩).2 8 next returned
  have same : levelOnce.setGrid 1 ⟨3 / 2, -1 / 2, 0⟩ ⟨-3 / 2, 1 / 2, 0⟩ = level := by
    decide +kernel
  rw [same] at path
  exact ⟨startIdx, endIdx, next, cells, returned, path, is_path⟩

end AStar

end RobocupDrone.PathSearching
