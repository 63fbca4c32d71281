import RobocupDrone.PathSearching.FoundPaths

/-! The scores of the nodes that the search takes from its queue. -/

namespace RobocupDrone.PathSearching

open Geometry

variable {K : Type*}

theorem getHeu_congr [Field K] {sqrt : K → K} {node1 node2 other1 other2 : GridNode K}
    (first : node1.index = other1.index) (second : node2.index = other2.index) :
    getHeu sqrt node1 node2 = getHeu sqrt other1 other2 := by
  simp only [getHeu, getDiagHeu, first, second]

namespace Query

variable {q : Query K} {p : NodePool K} {startIdx n current d : Vec3 ℤ}

theorem key_set_other {m : Vec3 ℤ} {node : GridNode K} (other : m ≠ n) :
    (p.set n node).key m = p.key m := by
  rw [NodePool.key, NodePool.key, NodePool.nodes_set_other _ _ _ other]

theorem key_set_same {node : GridNode K} (same : node.fScore = (p.nodes n).fScore) :
    (p.set n node).key = p.key := by
  funext m
  by_cases here : m = n
  · rw [here, NodePool.key, NodePool.key, NodePool.nodes_set_same, same]
  · exact key_set_other here

section

variable [Field K] [LinearOrder K]

section Runs

variable (q : Query K) (current : Vec3 ℤ) (p : NodePool K) (d : Vec3 ℤ)

/-- A visit finds a lower score for a node in the queue. -/
structure Lowers : Prop where
  inner : q.Inner (current + d)
  free : q.blocked (current + d) = false
  known : (p.nodes (current + d)).rounds = q.round
  unsettled : (p.nodes (current + d)).state ≠ .closedSet
  lower : q.tentativeGScore p current d < (p.nodes (current + d)).gScore

def Harmless : Prop :=
  q.Lowers current p d → ∀ i > 0, p.openSet[i]? = some (current + d) →
    ∀ up, p.openSet[KeyedHeap.parent i]? = some up → p.key up ≤ (q.reachedNode current d p).fScore

/-- The pools that the loop meets between its rounds, as long as every visit is an allowed one. -/
inductive Run (allowed : Vec3 ℤ → NodePool K → Vec3 ℤ → Prop) (start : NodePool K) :
    NodePool K → Prop
  | start : Run allowed start start
  | round {p : NodePool K} {current : Vec3 ℤ} {rest : List (Vec3 ℤ)} (before : Run allowed start p)
      (queue : p.openSet = current :: rest)
      (elsewhere : (p.nodes current).index ≠ (p.nodes q.endIdx).index)
      (each : ∀ past d later, offsets = past ++ d :: later →
        allowed current (past.foldl (q.visitNeighbor current) (closing current p)) d) :
      Run allowed start (q.expand current p.pop)

end Runs

theorem searchLoop_run {late : ℕ → Bool} {fuel numIter : ℕ} {found : Option (Vec3 ℤ)}
    {last : NodePool K} (ended : q.searchLoop late fuel numIter p = some (found, last)) :
    q.Ends (q.Run (fun _ _ _ => True) p) late found last :=
  searchLoop_induct (fun _ _ _ run queue elsewhere =>
    .round run queue elsewhere fun _ _ _ _ => trivial) .start ended

/-- The queue is a heap, and the scores in it belong to the ways found so far. -/
structure InOrder (q : Query K) (startIdx : Vec3 ℤ) (p : NodePool K) : Prop where
  sound : q.Sound p startIdx
  heap : KeyedHeap.IsHeap p.key p.openSet
  scored : ∀ n, q.Open p n → n ≠ startIdx →
    p.key n = (p.nodes n).gScore + getHeu q.sqrt (p.nodes n) (p.nodes q.endIdx)

theorem InOrder.of_agrees {next : NodePool K} (order : q.InOrder startIdx p)
    (agrees : q.Agrees p next) (keys : next.key = p.key) : q.InOrder startIdx next where
  sound := order.sound.of_agrees agrees
  heap := by
    rw [keys, agrees.queue]
    exact order.heap
  scored n queued other := by
    have earlier := agrees.open_iff.mp queued
    have ends : (next.nodes q.endIdx).index = (p.nodes q.endIdx).index :=
      agrees.end_own.trans order.sound.end_own.symm
    rw [keys, agrees.nodes n earlier.1, order.scored n earlier other, getHeu_congr rfl ends]

theorem InOrder.scored_of_reaches {next : NodePool K} (order : q.InOrder startIdx p)
    (closed : q.Closed p current) (reaches : q.Reaches current d p next) :
    ∀ n, q.Open next n → n ≠ startIdx →
      next.key n = (next.nodes n).gScore + getHeu q.sqrt (next.nodes n) (next.nodes q.endIdx) := by
  have sound := order.sound.of_reaches closed reaches
  have ends : (next.nodes q.endIdx).index = (p.nodes q.endIdx).index :=
    sound.end_own.trans order.sound.end_own.symm
  intro n queued other
  rw [getHeu_congr rfl ends]
  by_cases same : n = current + d
  · rw [same, NodePool.key, reaches.node, reachedNode]
    rfl
  · rw [NodePool.key, reaches.others n same]
    exact order.scored n ((or_iff_right same).mp (reaches.open_iff.mp queued)) other

theorem InOrder.discover (order : q.InOrder startIdx p) (closed : q.Closed p current)
    (move : q.Move current (current + d)) (fresh : (p.nodes (current + d)).rounds ≠ q.round) :
    q.InOrder startIdx
      ((p.set (current + d) (q.reachedNode current d p)).push (current + d)) := by
  have reaches := reaches_discover order.sound move fresh
  refine ⟨order.sound.of_reaches closed reaches, ?_, order.scored_of_reaches closed reaches⟩
  apply KeyedHeap.push_isHeap
  apply order.heap.congr
  intro n queued
  apply key_set_other
  rintro rfl
  exact fresh ((order.sound.queue _).mp queued).1.1

/-- The order of the queue, once the start is closed or while it is alone. -/
structure Started (q : Query K) (startIdx : Vec3 ℤ) (p : NodePool K) : Prop extends
    q.InOrder startIdx p where
  begun : q.Closed p startIdx ∨ p.openSet = [startIdx]

theorem started_putStart (stale : ∀ n, (p.nodes n).rounds < q.round)
    (free : q.blocked startIdx = false) : q.Started startIdx (q.putStart startIdx p) := by
  refine ⟨⟨sound_putStart stale free, ?_, fun n queued other => ?_⟩, .inr rfl⟩
  · intro k later
    have beyond : [startIdx].length ≤ k := later
    rw [openSet_putStart, KeyedHeap.order_beyond beyond]
    exact le_top
  · exact absurd (discovered_putStart stale queued.1) other

theorem closing_inOrder {rest : List (Vec3 ℤ)} (order : q.InOrder startIdx p)
    (queue : p.openSet = current :: rest) : q.InOrder startIdx (closing current p) := by
  have keys : (closing current p).key = p.key := key_set_same rfl
  refine ⟨sound_closing order.sound queue, ?_, fun n queued other => ?_⟩
  · rw [keys]
    exact KeyedHeap.pop_isHeap order.heap
  · obtain ⟨elsewhere, earlier⟩ := open_closing.mp queued
    have same : (closing current p).nodes n = p.nodes n := by
      rw [closing, NodePool.nodes_set_other _ _ _ elsewhere, NodePool.nodes_pop]
    rw [keys, same, getHeu_congr rfl (index_closing q.endIdx)]
    exact order.scored n earlier other

end

section

variable [Field K] [LinearOrder K] [IsStrictOrderedRing K]

theorem InOrder.improve (order : q.InOrder startIdx p) (closed : q.Closed p current)
    (started : q.Closed p startIdx) (move : q.Move current (current + d))
    (lowers : q.Lowers current p d) (harmless : q.Harmless current p d) :
    q.InOrder startIdx (p.set (current + d)
      { q.reachedNode current d p with state := (p.nodes (current + d)).state }) := by
  have sound := order.sound
  have reaches := reaches_improve sound move lowers.known lowers.unsettled
  have discovered : q.Discovered p (current + d) := ⟨lowers.known, move.free⟩
  have queued : q.Open p (current + d) :=
    ⟨discovered, (sound.settled _ discovered).resolve_right lowers.unsettled⟩
  obtain ⟨i, inside, here⟩ := List.getElem_of_mem ((sound.queue _).mpr queued)
  have place := List.getElem?_eq_some_iff.mpr ⟨inside, here⟩
  have other : current + d ≠ startIdx := by
    intro same
    rw [same] at queued
    exact queued.not_closed started
  have new_key : (p.set (current + d)
      { q.reachedNode current d p with state := (p.nodes (current + d)).state }).key (current + d) =
        (q.reachedNode current d p).fScore := by
    rw [NodePool.key, NodePool.nodes_set_same]
  refine ⟨sound.of_reaches closed reaches, ?_, order.scored_of_reaches closed reaches⟩
  apply order.heap.lowered sound.nodup place
  · have same_index : (q.seenNode p (current + d)).index = (p.nodes (current + d)).index := by
      rw [sound.own _ discovered, seenNode]
    rw [new_key, order.scored _ queued other, reachedNode, getHeu_congr same_index rfl]
    exact add_le_add lowers.lower.le le_rfl
  · intro n elsewhere
    exact key_set_other elsewhere
  · intro later
    have up := KeyedHeap.parent_lt later
    have within := up.trans inside
    have above := List.getElem?_eq_getElem within
    have elsewhere : p.openSet[KeyedHeap.parent i] ≠ current + d := by
      rw [← here]
      exact fun same => up.ne (sound.nodup.getElem_inj_iff.mp same)
    have least := harmless lowers i later place _ above
    rw [KeyedHeap.order_eq_key above, KeyedHeap.order_eq_key place, new_key,
      key_set_other elsewhere]
    exact WithTop.coe_le_coe.mpr least

theorem InOrder.visit (order : q.InOrder startIdx p) (closed : q.Closed p current)
    (started : q.Closed p startIdx) (member : d ∈ offsets) (harmless : q.Harmless current p d) :
    q.InOrder startIdx (q.visitNeighbor current p d) := by
  have near : ∀ axis, |(current + d).get axis - current.get axis| ≤ 1 := near_of_mem_offsets member
  have visit : q.Visit current d p (q.visitNeighbor current p d) :=
    visit_cases (order.sound.own current closed.1)
  generalize q.visitNeighbor current p d = next at visit ⊢
  cases visit with
  | outside => exact order
  | seen inner known => exact order.of_agrees (agrees_seen order.sound known) (key_set_same rfl)
  | discover inner free fresh => exact order.discover closed ⟨near, inner, free⟩ fresh
  | improve inner free known unsettled lower =>
      exact order.improve closed started ⟨near, inner, free⟩ ⟨inner, free, known, unsettled, lower⟩
        harmless

theorem visits_inOrder {steps : List (Vec3 ℤ)} (past : List (Vec3 ℤ))
    (split : offsets = past ++ steps)
    (order : q.InOrder startIdx (past.foldl (q.visitNeighbor current) p))
    (closed : q.Closed (past.foldl (q.visitNeighbor current) p) current)
    (started : q.Closed (past.foldl (q.visitNeighbor current) p) startIdx)
    (each : ∀ past d later, offsets = past ++ d :: later →
      q.Harmless current (past.foldl (q.visitNeighbor current) p) d) :
    q.InOrder startIdx (offsets.foldl (q.visitNeighbor current) p) := by
  induction steps generalizing past with
  | nil =>
      rw [split, List.append_nil]
      exact order
  | cons d steps ih =>
      have member : d ∈ offsets := by
        rw [split]
        exact List.mem_append_right _ List.mem_cons_self
      have grows := (visit_sound order.sound closed member).2
      have longer : (past ++ [d]).foldl (q.visitNeighbor current) p =
          q.visitNeighbor current (past.foldl (q.visitNeighbor current) p) d := by
        rw [List.foldl_append, List.foldl_cons, List.foldl_nil]
      apply ih (past ++ [d])
      · rw [split, List.append_assoc, List.singleton_append]
      · rw [longer]
        exact order.visit closed started member (each past d steps split)
      · rw [longer]
        exact (grows.closed current).mpr closed
      · rw [longer]
        exact (grows.closed startIdx).mpr started

theorem Started.round {rest : List (Vec3 ℤ)} (started : q.Started startIdx p)
    (queue : p.openSet = current :: rest)
    (each : ∀ past d later, offsets = past ++ d :: later →
      q.Harmless current (past.foldl (q.visitNeighbor current) (closing current p)) d) :
    q.Started startIdx (q.expand current p.pop) := by
  have queued := started.sound.open_of_queue queue
  have closed : q.Closed (closing current p) current := (closed_closing queued).mpr (.inl rfl)
  have start_closed : q.Closed (closing current p) startIdx := by
    rcases started.begun with earlier | alone
    · exact (closed_closing queued).mpr (.inr earlier)
    · rw [alone, List.cons.injEq] at queue
      exact (closed_closing queued).mpr (.inl queue.1)
  refine ⟨visits_inOrder [] rfl (closing_inOrder started.toInOrder queue) closed
    start_closed each, .inl ?_⟩
  exact ((expand_sound started.sound queue).2.closed startIdx).mpr start_closed

theorem Run.started {first : NodePool K} (start : q.Started startIdx first)
    (run : q.Run q.Harmless first p) : q.Started startIdx p := by
  induction run with
  | start => exact start
  | round before queue elsewhere each ih => exact ih.round queue each

end

variable [Field K] [LinearOrder K]

theorem Started.first_least {rest : List (Vec3 ℤ)} (started : q.Started startIdx p)
    (queue : p.openSet = current :: rest) (queued : q.Open p n) : p.key current ≤ p.key n := by
  have heap := started.heap
  have member := (started.sound.queue n).mpr queued
  rw [queue] at heap member
  exact heap.first_le member

end Query

namespace AStar

variable {sqrt : K → K} {occupied : Vec3 K → Bool} {a : AStar K} {fuel : ℕ} {stepSize : K}
  {startPt endPt : Vec3 K} {startIdx endIdx : Vec3 ℤ}
variable [Field K] [LinearOrder K] [IsStrictOrderedRing K] [FloorRing K]

/-- As long as no visit lowers a score below that of the parent in the heap, every node taken from
the queue has the least score of the open set. -/
theorem popped_least (reachable : Reachable sqrt a)
    (converted : (a.setGrid stepSize startPt endPt).convertToIndexAndAdjustStartEndPoints sqrt
      occupied fuel startPt endPt = some (some (startIdx, endIdx))) {p : NodePool K}
    (run : (query sqrt occupied a stepSize startPt endPt endIdx).Run
      (query sqrt occupied a stepSize startPt endPt endIdx).Harmless
      ((query sqrt occupied a stepSize startPt endPt endIdx).putStart startIdx a.pool) p)
    {top : Vec3 ℤ} {rest : List (Vec3 ℤ)} (queue : p.openSet = top :: rest) (n : Vec3 ℤ)
    (queued : (query sqrt occupied a stepSize startPt endPt endIdx).Open p n) :
    p.key top ≤ p.key n := by
  have stale := stale_of_reachable reachable
  have free : (query sqrt occupied a stepSize startPt endPt endIdx).blocked startIdx = false :=
    (Grid.convert_cells converted).1.2
  exact (run.started (Query.started_putStart stale.lt free)).first_least queue queued

theorem each_visit {P : List (Vec3 ℤ) → Vec3 ℤ → Prop}
    (each : ∀ k < 26, ∀ d ∈ Query.offsets[k]?, P (Query.offsets.take k) d) (past : List (Vec3 ℤ))
    (d : Vec3 ℤ) (later : List (Vec3 ℤ)) (split : Query.offsets = past ++ d :: later) :
    P past d := by
  have count : Query.offsets.length = 26 := by decide
  have here : Query.offsets[past.length]? = some d := by
    rw [split, List.getElem?_append_right le_rfl, Nat.sub_self, List.getElem?_cons_zero]
  have inside : past.length < 26 := by
    rw [← count]
    exact (List.getElem?_eq_some_iff.mp here).1
  have front : Query.offsets.take past.length = past := by rw [split, List.take_left]
  rw [← front]
  exact each past.length inside d here

/-- The search back on the pool of the first search. -/
def backQuery : Query ℚ :=
  query doubleRoot levelOccupied levelOnce 1 ⟨3 / 2, -1 / 2, 0⟩ ⟨-3 / 2, 1 / 2, 0⟩ ⟨2, 3, 1⟩

def backStart : NodePool ℚ := backQuery.putStart ⟨5, 2, 1⟩ levelOnce.pool

def backFirst : NodePool ℚ := backQuery.expand ⟨5, 2, 1⟩ backStart.pop

def backSecond : NodePool ℚ := backQuery.expand ⟨4, 3, 1⟩ backFirst.pop

theorem backSecond_run : backQuery.Run backQuery.Harmless backStart backSecond := by
  have first : ∀ k < 26, ∀ d ∈ Query.offsets[k]?,
      let p := (Query.offsets.take k).foldl (backQuery.visitNeighbor ⟨5, 2, 1⟩)
        (Query.closing ⟨5, 2, 1⟩ backStart)
      ¬(backQuery.Inner (⟨5, 2, 1⟩ + d) ∧ (p.nodes (⟨5, 2, 1⟩ + d)).rounds = backQuery.round) := by
    decide +kernel
  -- the second round meets two nodes of the queue again, and neither is nearer now
  have second : ∀ k < 26, ∀ d ∈ Query.offsets[k]?,
      let p := (Query.offsets.take k).foldl (backQuery.visitNeighbor ⟨4, 3, 1⟩)
        (Query.closing ⟨4, 3, 1⟩ backFirst)
      ¬(backQuery.Inner (⟨4, 3, 1⟩ + d) ∧ (p.nodes (⟨4, 3, 1⟩ + d)).rounds = backQuery.round ∧
        backQuery.tentativeGScore p ⟨4, 3, 1⟩ d < (p.nodes (⟨4, 3, 1⟩ + d)).gScore) := by
    decide +kernel
  have queue : backFirst.openSet = [⟨4, 3, 1⟩, ⟨4, 2, 1⟩, ⟨5, 3, 1⟩] := by decide +kernel
  refine .round (.round .start rfl (by decide +kernel) ?_) queue (by decide +kernel) ?_
  · exact each_visit fun k inside d member lowers =>
      absurd ⟨lowers.inner, lowers.known⟩ (first k inside d member)
  · exact each_visit fun k inside d member lowers =>
      absurd ⟨lowers.inner, lowers.known, lowers.lower⟩ (second k inside d member)

theorem popped_least_back : backQuery.Open backSecond ⟨5, 3, 1⟩ ∧
    ∀ n, backQuery.Open backSecond n → backSecond.key ⟨4, 2, 1⟩ ≤ backSecond.key n := by
  have converted : (levelOnce.setGrid 1 ⟨3 / 2, -1 / 2, 0⟩
      ⟨-3 / 2, 1 / 2, 0⟩).convertToIndexAndAdjustStartEndPoints doubleRoot levelOccupied 1
      ⟨3 / 2, -1 / 2, 0⟩ ⟨-3 / 2, 1 / 2, 0⟩ = some (some (⟨5, 2, 1⟩, ⟨2, 3, 1⟩)) := by
    decide +kernel
  have queue : backSecond.openSet = [⟨4, 2, 1⟩, ⟨5, 3, 1⟩, ⟨3, 2, 1⟩] := by decide +kernel
  have waiting : ((backSecond.nodes ⟨5, 3, 1⟩).rounds = backQuery.round ∧
      backQuery.blocked ⟨5, 3, 1⟩ = false) ∧ (backSecond.nodes ⟨5, 3, 1⟩).state = .openSet := by
    decide +kernel
  exact ⟨waiting, popped_least levelOnce_reachable converted backSecond_run queue⟩

def levelQuery : Query ℚ :=
  query doubleRoot levelOccupied (initGridMap level fun _ => 0) 1 ⟨3 / 2, -1 / 2, 0⟩
    ⟨-3 / 2, 1 / 2, 0⟩ ⟨2, 3, 1⟩

def levelStart : NodePool ℚ := levelQuery.putStart ⟨5, 2, 1⟩ (initGridMap level fun _ => 0).pool

/-- The pool after the rounds that close the start and the first two cells taken after it. -/
def levelThird : NodePool ℚ :=
  levelQuery.expand ⟨4, 2, 1⟩
    (levelQuery.expand ⟨4, 3, 1⟩ (levelQuery.expand ⟨5, 2, 1⟩ levelStart.pop).pop).pop

/-- The fourth node taken is not the least: another one in the queue has been lowered in place. -/
theorem lowered_node_left :
    ((initGridMap level fun _ => 0).setGrid 1 ⟨3 / 2, -1 / 2, 0⟩
        ⟨-3 / 2, 1 / 2, 0⟩).convertToIndexAndAdjustStartEndPoints doubleRoot levelOccupied 1
        ⟨3 / 2, -1 / 2, 0⟩ ⟨-3 / 2, 1 / 2, 0⟩ = some (some (⟨5, 2, 1⟩, ⟨2, 3, 1⟩)) ∧
      levelQuery.Run (fun _ _ _ => True) levelStart levelThird ∧
      levelThird.openSet = [⟨5, 3, 1⟩, ⟨3, 2, 1⟩] ∧ levelQuery.Open levelThird ⟨3, 2, 1⟩ ∧
      levelThird.key ⟨3, 2, 1⟩ < levelThird.key ⟨5, 3, 1⟩ := by
  have first : levelStart.openSet = [⟨5, 2, 1⟩] := rfl
  have second : (levelQuery.expand ⟨5, 2, 1⟩ levelStart.pop).openSet =
      [⟨4, 3, 1⟩, ⟨4, 2, 1⟩, ⟨5, 3, 1⟩] := by
    decide +kernel
  have third : (levelQuery.expand ⟨4, 3, 1⟩
      (levelQuery.expand ⟨5, 2, 1⟩ levelStart.pop).pop).openSet =
      [⟨4, 2, 1⟩, ⟨5, 3, 1⟩, ⟨3, 2, 1⟩] := by
    decide +kernel
  have run : levelQuery.Run (fun _ _ _ => True) levelStart levelThird := by
    refine .round (.round (.round .start first ?_ ?_) second ?_ ?_) third ?_ ?_
    · decide +kernel
    · exact fun _ _ _ _ => trivial
    · decide +kernel
    · exact fun _ _ _ _ => trivial
    · decide +kernel
    · exact fun _ _ _ _ => trivial
  exact ⟨by decide +kernel, run, by decide +kernel,
    ⟨⟨by decide +kernel, by decide +kernel⟩, by decide +kernel⟩, by decide +kernel⟩

end AStar

end RobocupDrone.PathSearching
