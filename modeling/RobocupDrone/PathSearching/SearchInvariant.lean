import RobocupDrone.PathSearching.DynAStar

/-! What holds of the node pool throughout a search, whatever earlier searches left in it. -/

namespace RobocupDrone.PathSearching

open Geometry

variable {K : Type*}

namespace Query

variable {q : Query K} {p : NodePool K} {startIdx n current d : Vec3 ℤ} {path : List (Vec3 ℤ)}

def seenNode (q : Query K) (p : NodePool K) (n : Vec3 ℤ) : GridNode K :=
  { p.nodes n with index := n, rounds := q.round }

theorem seenNode_eq (round : (p.nodes n).rounds = q.round) (own : (p.nodes n).index = n) :
    q.seenNode p n = p.nodes n := by
  rw [seenNode, ← round]
  generalize p.nodes n = node at own ⊢
  rw [← own]

def Bounded (q : Query K) (p : NodePool K) : Prop := ∀ n, (p.nodes n).rounds ≤ q.round

theorem Bounded.set {node : GridNode K} (bounded : q.Bounded p) (here : node.rounds ≤ q.round)
    (n : Vec3 ℤ) : q.Bounded (p.set n node) := by
  intro m
  by_cases same : m = n
  · rw [same, NodePool.nodes_set_same]
    exact here
  · rw [NodePool.nodes_set_other _ _ _ same]
    exact bounded m

section Start

variable (q p startIdx) [Field K] [LinearOrder K]

theorem openSet_putStart : (q.putStart startIdx p).openSet = [startIdx] := rfl

theorem nodes_putStart_other (other : n ≠ startIdx) :
    ((q.putStart startIdx p).nodes n).rounds = (p.nodes n).rounds := by
  rw [putStart]
  by_cases at_end : n = q.endIdx
  · rw [at_end] at other ⊢
    simp [NodePool.nodes_set_other, other]
  · simp [NodePool.nodes_set_other, at_end, other]

theorem nodes_putStart_end : ((q.putStart startIdx p).nodes q.endIdx).index = q.endIdx := by
  rw [putStart, NodePool.nodes_set_same]

theorem nodes_putStart_start : (q.putStart startIdx p).nodes startIdx =
    { p.nodes startIdx with
      rounds := q.round
      state := .openSet
      index := startIdx
      gScore := 0
      fScore := ((q.putStart startIdx p).nodes startIdx).fScore
      cameFrom := none } := by
  by_cases at_end : startIdx = q.endIdx
  · simp [putStart, at_end]
  · simp [putStart, NodePool.nodes_set_other, at_end]

end Start

section

variable [Field K]

section Nodes

variable (q : Query K) (p : NodePool K)

def Discovered (n : Vec3 ℤ) : Prop := (p.nodes n).rounds = q.round ∧ q.blocked n = false

def Open (n : Vec3 ℤ) : Prop := q.Discovered p n ∧ (p.nodes n).state = .openSet

def Closed (n : Vec3 ℤ) : Prop := q.Discovered p n ∧ (p.nodes n).state = .closedSet

instance (n : Vec3 ℤ) : Decidable (q.Closed p n) :=
  inferInstanceAs (Decidable ((_ = _ ∧ _ = _) ∧ _ = _))

/-- A move of the expansion from one cell to the next. -/
structure Move (m n : Vec3 ℤ) : Prop where
  near : ∀ axis, |n.get axis - m.get axis| ≤ 1
  inner : q.Inner n
  free : q.blocked n = false

/-- The way of `cameFrom` from a closed node back to the start. -/
inductive Trail (startIdx : Vec3 ℤ) : Vec3 ℤ → List (Vec3 ℤ) → Prop
  | start (closed : q.Closed p startIdx) (first : (p.nodes startIdx).cameFrom = none) :
      Trail startIdx startIdx [startIdx]
  | step {n before : Vec3 ℤ} {path : List (Vec3 ℤ)} (closed : q.Closed p n)
      (from_before : (p.nodes n).cameFrom = some before) (move : q.Move before n) (new : n ∉ path)
      (earlier : Trail startIdx before path) : Trail startIdx n (n :: path)

structure Sound (startIdx : Vec3 ℤ) : Prop where
  end_own : (p.nodes q.endIdx).index = q.endIdx
  own : ∀ n, q.Discovered p n → (p.nodes n).index = n
  start_seen : q.Discovered p startIdx
  settled : ∀ n, q.Discovered p n → (p.nodes n).state = .openSet ∨ (p.nodes n).state = .closedSet
  queue : ∀ n, n ∈ p.openSet ↔ q.Open p n
  nodup : p.openSet.Nodup
  reached : ∀ n, q.Open p n → n = startIdx ∧ (p.nodes n).cameFrom = none ∨
    ∃ before, (p.nodes n).cameFrom = some before ∧ q.Closed p before ∧ q.Move before n
  trail : ∀ n, q.Closed p n → ∃ path, q.Trail p startIdx n path

end Nodes

theorem Open.not_closed (queued : q.Open p n) : ¬q.Closed p n := by
  intro closed
  have states := queued.2.symm.trans closed.2
  contradiction

theorem Trail.closed (trail : q.Trail p startIdx n path) : ∀ m ∈ path, q.Closed p m := by
  induction trail with
  | start closed first =>
      intro m member
      rw [List.mem_singleton.mp member]
      exact closed
  | step closed from_before move new earlier ih =>
      intro m member
      rcases List.mem_cons.mp member with rfl | older
      · exact closed
      · exact ih m older

theorem Trail.mono {next : NodePool K} (trail : q.Trail p startIdx n path)
    (kept : ∀ m, q.Closed p m →
      q.Closed next m ∧ (next.nodes m).cameFrom = (p.nodes m).cameFrom) :
    q.Trail next startIdx n path := by
  induction trail with
  | start closed first =>
      have same := kept startIdx closed
      exact .start same.1 (same.2.trans first)
  | step closed from_before move new earlier ih =>
      have same := kept _ closed
      exact .step same.1 (same.2.trans from_before) move new ih

theorem Sound.open_of_queue (sound : q.Sound p startIdx) {rest : List (Vec3 ℤ)}
    (queue : p.openSet = current :: rest) :
    q.Open p current := by
  rw [← sound.queue, queue]
  exact List.mem_cons_self

theorem Sound.node_trail (sound : q.Sound p startIdx) (queued : q.Open p n) :
    n = startIdx ∧ (p.nodes n).cameFrom = none ∨
      ∃ before path, (p.nodes n).cameFrom = some before ∧ q.Move before n ∧ n ∉ path ∧
        q.Trail p startIdx before path := by
  rcases sound.reached n queued with first | ⟨before, from_before, closed, move⟩
  · exact .inl first
  · obtain ⟨path, trail⟩ := sound.trail before closed
    exact .inr ⟨before, path, from_before, move, fun member =>
      queued.not_closed (trail.closed n member), trail⟩

/-- Only nodes of other rounds or occupied cells have changed. -/
structure Agrees (q : Query K) (p next : NodePool K) : Prop where
  queue : next.openSet = p.openSet
  discovered : ∀ n, q.Discovered next n ↔ q.Discovered p n
  nodes : ∀ n, q.Discovered p n → next.nodes n = p.nodes n
  end_own : (next.nodes q.endIdx).index = q.endIdx

section Agreement

variable {next : NodePool K}

theorem Agrees.open_iff (agrees : q.Agrees p next) : q.Open next n ↔ q.Open p n := by
  rw [Open, Open, agrees.discovered]
  apply and_congr_right
  intro discovered
  rw [agrees.nodes n discovered]

theorem Agrees.closed_iff (agrees : q.Agrees p next) : q.Closed next n ↔ q.Closed p n := by
  rw [Closed, Closed, agrees.discovered]
  apply and_congr_right
  intro discovered
  rw [agrees.nodes n discovered]

theorem Sound.of_agrees (sound : q.Sound p startIdx) (agrees : q.Agrees p next) :
    q.Sound next startIdx where
  end_own := agrees.end_own
  own n discovered := by
    have before := (agrees.discovered n).mp discovered
    rw [agrees.nodes n before]
    exact sound.own n before
  start_seen := (agrees.discovered startIdx).mpr sound.start_seen
  settled n discovered := by
    have before := (agrees.discovered n).mp discovered
    rw [agrees.nodes n before]
    exact sound.settled n before
  queue n := by
    rw [agrees.queue, agrees.open_iff]
    exact sound.queue n
  nodup := by
    rw [agrees.queue]
    exact sound.nodup
  reached n queued := by
    have earlier := agrees.open_iff.mp queued
    rw [agrees.nodes n earlier.1]
    rcases sound.reached n earlier with first | ⟨before, from_before, closed, move⟩
    · exact .inl first
    · exact .inr ⟨before, from_before, agrees.closed_iff.mpr closed, move⟩
  trail n closed := by
    obtain ⟨path, trail⟩ := sound.trail n (agrees.closed_iff.mp closed)
    refine ⟨path, trail.mono fun m member => ⟨agrees.closed_iff.mpr member, ?_⟩⟩
    rw [agrees.nodes m member.1]

end Agreement

theorem agrees_seen (sound : q.Sound p startIdx)
    (known : q.blocked n = true ∨ (p.nodes n).rounds = q.round) :
    q.Agrees p (p.set n (q.seenNode p n)) where
  queue := rfl
  discovered m := by
    rw [Discovered, Discovered]
    by_cases same : m = n
    · rw [same, NodePool.nodes_set_same, seenNode]
      rcases known with taken | round
      · simp [taken]
      · rw [round]
    · rw [NodePool.nodes_set_other _ _ _ same]
  nodes m discovered := by
    by_cases same : m = n
    · rw [same] at discovered ⊢
      rw [NodePool.nodes_set_same, seenNode_eq discovered.1 (sound.own n discovered)]
    · exact NodePool.nodes_set_other _ _ _ same
  end_own := by
    by_cases same : q.endIdx = n
    · rw [same, NodePool.nodes_set_same, seenNode]
    · rw [NodePool.nodes_set_other _ _ _ same]
      exact sound.end_own

def reachedNode (q : Query K) (current d : Vec3 ℤ) (p : NodePool K) : GridNode K :=
  { q.seenNode p (current + d) with
    state := .openSet
    cameFrom := some current
    gScore := q.tentativeGScore p current d
    fScore := q.tentativeGScore p current d +
      getHeu q.sqrt (q.seenNode p (current + d)) (p.nodes q.endIdx) }

/-- What the visits of an expansion leave as it is. -/
structure Grows (q : Query K) (p next : NodePool K) : Prop where
  closed : ∀ n, q.Closed next n ↔ q.Closed p n
  discovered : ∀ n, q.Discovered p n → q.Discovered next n

/-- The cell at `n` gets into the queue, or another way to it. -/
structure Reaches (q : Query K) (current d : Vec3 ℤ) (p next : NodePool K) : Prop where
  move : q.Move current (current + d)
  unsettled : ¬q.Closed p (current + d)
  node : next.nodes (current + d) = q.reachedNode current d p
  others : ∀ n ≠ current + d, next.nodes n = p.nodes n
  queue : ∀ n, n ∈ next.openSet ↔ n = current + d ∨ n ∈ p.openSet
  nodup : next.openSet.Nodup

section Reaching

variable {next : NodePool K}

theorem Reaches.discovered_iff (reaches : q.Reaches current d p next) :
    q.Discovered next n ↔ n = current + d ∨ q.Discovered p n := by
  by_cases same : n = current + d
  · rw [same]
    refine ⟨fun _ => .inl rfl, fun _ => ⟨?_, reaches.move.free⟩⟩
    rw [reaches.node, reachedNode, seenNode]
  · rw [Discovered, Discovered, reaches.others n same, or_iff_right same]

theorem Reaches.closed_iff (reaches : q.Reaches current d p next) :
    q.Closed next n ↔ q.Closed p n := by
  by_cases same : n = current + d
  · rw [same]
    refine ⟨fun closed => ?_, fun closed => absurd closed reaches.unsettled⟩
    have state := closed.2
    rw [reaches.node, reachedNode] at state
    contradiction
  · rw [Closed, Closed, reaches.discovered_iff, or_iff_right same, reaches.others n same]

theorem Reaches.open_iff (reaches : q.Reaches current d p next) :
    q.Open next n ↔ n = current + d ∨ q.Open p n := by
  by_cases same : n = current + d
  · rw [same]
    refine ⟨fun _ => .inl rfl, fun _ => ⟨reaches.discovered_iff.mpr (.inl rfl), ?_⟩⟩
    rw [reaches.node, reachedNode]
  · rw [Open, Open, reaches.discovered_iff, or_iff_right same, reaches.others n same,
      or_iff_right same]

theorem Sound.of_reaches (sound : q.Sound p startIdx) (closed : q.Closed p current)
    (reaches : q.Reaches current d p next) : q.Sound next startIdx where
  end_own := by
    by_cases same : q.endIdx = current + d
    · rw [same, reaches.node, reachedNode, seenNode]
    · rw [reaches.others _ same]
      exact sound.end_own
  own n discovered := by
    by_cases same : n = current + d
    · rw [same, reaches.node, reachedNode, seenNode]
    · rw [reaches.others n same]
      exact sound.own n ((or_iff_right same).mp (reaches.discovered_iff.mp discovered))
  start_seen := reaches.discovered_iff.mpr (.inr sound.start_seen)
  settled n discovered := by
    by_cases same : n = current + d
    · left
      rw [same, reaches.node, reachedNode]
    · rw [reaches.others n same]
      exact sound.settled n ((or_iff_right same).mp (reaches.discovered_iff.mp discovered))
  queue n := by
    rw [reaches.queue, reaches.open_iff]
    exact or_congr_right (sound.queue n)
  nodup := reaches.nodup
  reached n queued := by
    by_cases same : n = current + d
    · right
      rw [same]
      refine ⟨current, ?_, reaches.closed_iff.mpr closed, reaches.move⟩
      rw [reaches.node, reachedNode]
    · rw [reaches.others n same]
      rcases sound.reached n ((or_iff_right same).mp (reaches.open_iff.mp queued)) with
        first | ⟨before, from_before, before_closed, move⟩
      · exact .inl first
      · exact .inr ⟨before, from_before, reaches.closed_iff.mpr before_closed, move⟩
  trail n settled := by
    obtain ⟨path, trail⟩ := sound.trail n (reaches.closed_iff.mp settled)
    refine ⟨path, trail.mono fun m member => ⟨reaches.closed_iff.mpr member, ?_⟩⟩
    have other : m ≠ current + d := by
      intro same
      rw [same] at member
      exact reaches.unsettled member
    rw [reaches.others m other]

theorem Agrees.grows {next : NodePool K} (agrees : q.Agrees p next) : q.Grows p next :=
  ⟨fun _ => agrees.closed_iff, fun n => (agrees.discovered n).mpr⟩

theorem Reaches.grows {next : NodePool K} (reaches : q.Reaches current d p next) :
    q.Grows p next :=
  ⟨fun _ => reaches.closed_iff, fun _ discovered => reaches.discovered_iff.mpr (.inr discovered)⟩

theorem Grows.trans {middle next : NodePool K} (first : q.Grows p middle)
    (second : q.Grows middle next) : q.Grows p next where
  closed n := (second.closed n).trans (first.closed n)
  discovered n discovered := second.discovered n (first.discovered n discovered)

end Reaching

section Visits

variable (q : Query K) (current d : Vec3 ℤ) (p : NodePool K) [LinearOrder K]

/-- What a visit can do to the pool. -/
inductive Visit : NodePool K → Prop
  | outside (outer : ¬q.Inner (current + d)) : Visit p
  | seen (inner : q.Inner (current + d))
      (known : q.blocked (current + d) = true ∨ (p.nodes (current + d)).rounds = q.round) :
      Visit (p.set (current + d) (q.seenNode p (current + d)))
  | discover (inner : q.Inner (current + d)) (free : q.blocked (current + d) = false)
      (fresh : (p.nodes (current + d)).rounds ≠ q.round) :
      Visit ((p.set (current + d) (q.reachedNode current d p)).push (current + d))
  | improve (inner : q.Inner (current + d)) (free : q.blocked (current + d) = false)
      (known : (p.nodes (current + d)).rounds = q.round)
      (unsettled : (p.nodes (current + d)).state ≠ .closedSet)
      (lower : q.tentativeGScore p current d < (p.nodes (current + d)).gScore) :
      Visit (p.set (current + d)
        { q.reachedNode current d p with state := (p.nodes (current + d)).state })

variable {q current d p}

theorem visit_cases (own : (p.nodes current).index = current) :
    q.Visit current d p (q.visitNeighbor current p d) := by
  rw [visitNeighbor, own]
  by_cases inner : q.Inner (current + d)
  · simp only [inner, not_true, if_false, decide_eq_true_eq]
    split
    next closed =>
      have same : { p.nodes (current + d) with index := current + d } =
          q.seenNode p (current + d) := by
        rw [seenNode, ← closed.1]
      rw [same]
      exact .seen inner (.inr closed.1)
    next unsettled =>
      split
      next taken => exact .seen inner (.inl taken)
      next free =>
        split
        next fresh => exact .discover inner (Bool.eq_false_iff.mpr free) fresh
        next known =>
          rw [not_not] at known
          split
          next lower =>
            exact .improve inner (Bool.eq_false_iff.mpr free) known
              (fun closed => unsettled ⟨known, closed⟩) lower
          next => exact .seen inner (.inr known)
  · simp only [inner, not_false_eq_true, if_true]
    exact .outside inner

end Visits

theorem near_of_mem_offsets (member : d ∈ offsets) (axis : Axis) :
    |(current + d).get axis - current.get axis| ≤ 1 := by
  have bounded : ∀ d ∈ offsets, ∀ axis, |d.get axis| ≤ 1 := by decide
  rw [Vec3.get_add, add_sub_cancel_left]
  exact bounded d member axis

theorem reaches_improve (sound : q.Sound p startIdx) (move : q.Move current (current + d))
    (known : (p.nodes (current + d)).rounds = q.round)
    (unsettled : (p.nodes (current + d)).state ≠ .closedSet) : q.Reaches current d p
      (p.set (current + d)
        { q.reachedNode current d p with state := (p.nodes (current + d)).state }) := by
  have discovered : q.Discovered p (current + d) := ⟨known, move.free⟩
  have queued : (p.nodes (current + d)).state = .openSet :=
    (sound.settled _ discovered).resolve_right unsettled
  have member := (sound.queue _).mpr ⟨discovered, queued⟩
  refine ⟨move, fun settled => unsettled settled.2, ?_, ?_, fun n => ?_, sound.nodup⟩
  · rw [NodePool.nodes_set_same, queued, reachedNode]
  · intro n other
    rw [NodePool.nodes_set_other _ _ _ other]
  · rw [NodePool.openSet_set, or_iff_right_of_imp]
    rintro rfl
    exact member

end

section

variable [Field K] [LinearOrder K]

theorem reaches_discover (sound : q.Sound p startIdx) (move : q.Move current (current + d))
    (fresh : (p.nodes (current + d)).rounds ≠ q.round) : q.Reaches current d p
      ((p.set (current + d) (q.reachedNode current d p)).push (current + d)) := by
  have absent : ¬q.Discovered p (current + d) := fun discovered => fresh discovered.1
  have queue := (p.set (current + d) (q.reachedNode current d p)).openSet_push_perm (current + d)
  refine ⟨move, fun settled => absent settled.1, ?_, ?_, fun n => ?_, ?_⟩
  · rw [NodePool.nodes_push, NodePool.nodes_set_same]
  · intro n other
    rw [NodePool.nodes_push, NodePool.nodes_set_other _ _ _ other]
  · rw [queue.mem_iff, List.mem_cons, NodePool.openSet_set]
  · rw [queue.nodup_iff, List.nodup_cons, NodePool.openSet_set]
    exact ⟨fun queued => absent ((sound.queue _).mp queued).1, sound.nodup⟩

theorem visit_agrees_or_reaches (sound : q.Sound p startIdx) (closed : q.Closed p current)
    (member : d ∈ offsets) : q.Agrees p (q.visitNeighbor current p d) ∨
      q.Reaches current d p (q.visitNeighbor current p d) := by
  have near : ∀ axis, |(current + d).get axis - current.get axis| ≤ 1 := near_of_mem_offsets member
  have visit : q.Visit current d p (q.visitNeighbor current p d) :=
    visit_cases (sound.own current closed.1)
  generalize q.visitNeighbor current p d = next at visit ⊢
  cases visit with
  | outside outer => exact .inl ⟨rfl, fun _ => Iff.rfl, fun _ _ => rfl, sound.end_own⟩
  | seen inner known => exact .inl (agrees_seen sound known)
  | discover inner free fresh => exact .inr (reaches_discover sound ⟨near, inner, free⟩ fresh)
  | improve inner free known unsettled lower =>
      exact .inr (reaches_improve sound ⟨near, inner, free⟩ known unsettled)

theorem visit_sound (sound : q.Sound p startIdx) (closed : q.Closed p current)
    (member : d ∈ offsets) : q.Sound (q.visitNeighbor current p d) startIdx ∧
      q.Grows p (q.visitNeighbor current p d) := by
  rcases visit_agrees_or_reaches sound closed member with agrees | reaches
  · exact ⟨sound.of_agrees agrees, agrees.grows⟩
  · exact ⟨sound.of_reaches closed reaches, reaches.grows⟩

theorem visits_sound {steps : List (Vec3 ℤ)} (sound : q.Sound p startIdx)
    (closed : q.Closed p current) (inside : steps ⊆ offsets) :
    q.Sound (steps.foldl (q.visitNeighbor current) p) startIdx ∧
      q.Grows p (steps.foldl (q.visitNeighbor current) p) := by
  induction steps generalizing p with
  | nil => exact ⟨sound, fun _ => Iff.rfl, fun _ discovered => discovered⟩
  | cons d steps ih =>
      rw [List.cons_subset] at inside
      obtain ⟨kept, first⟩ := visit_sound sound closed inside.1
      obtain ⟨still, later⟩ := ih kept ((first.closed current).mpr closed) inside.2
      exact ⟨still, first.trans later⟩

def closing (current : Vec3 ℤ) (p : NodePool K) : NodePool K :=
  p.pop.set current { p.nodes current with state := .closedSet }

theorem visit_bounded (bounded : q.Bounded p) (own : (p.nodes current).index = current) :
    q.Bounded (q.visitNeighbor current p d) := by
  have visit : q.Visit current d p (q.visitNeighbor current p d) := visit_cases own
  generalize q.visitNeighbor current p d = next at visit ⊢
  cases visit with
  | outside => exact bounded
  | seen => exact bounded.set le_rfl _
  | discover => exact bounded.set le_rfl _
  | improve => exact bounded.set le_rfl _

theorem visits_bounded {steps : List (Vec3 ℤ)} (sound : q.Sound p startIdx)
    (bounded : q.Bounded p) (closed : q.Closed p current) (inside : steps ⊆ offsets) :
    q.Bounded (steps.foldl (q.visitNeighbor current) p) := by
  induction steps generalizing p with
  | nil => exact bounded
  | cons d steps ih =>
      rw [List.cons_subset] at inside
      obtain ⟨kept, first⟩ := visit_sound sound closed inside.1
      exact ih kept (visit_bounded bounded (sound.own current closed.1))
        ((first.closed current).mpr closed) inside.2

theorem discovered_putStart (stale : ∀ n, (p.nodes n).rounds < q.round)
    (discovered : q.Discovered (q.putStart startIdx p) n) : n = startIdx := by
  by_contra other
  have round := discovered.1
  rw [nodes_putStart_other q p startIdx other] at round
  exact (stale n).ne round

theorem sound_putStart (stale : ∀ n, (p.nodes n).rounds < q.round)
    (free : q.blocked startIdx = false) : q.Sound (q.putStart startIdx p) startIdx := by
  have only : ∀ n, q.Discovered (q.putStart startIdx p) n → n = startIdx := fun n =>
    discovered_putStart stale
  have seen : q.Discovered (q.putStart startIdx p) startIdx := by
    refine ⟨?_, free⟩
    rw [nodes_putStart_start]
  have queued : ((q.putStart startIdx p).nodes startIdx).state = .openSet := by
    rw [nodes_putStart_start]
  refine ⟨nodes_putStart_end q p startIdx, ?_, seen, ?_, ?_, ?_, ?_, ?_⟩
  · intro n discovered
    rw [only n discovered, nodes_putStart_start]
  · intro n discovered
    rw [only n discovered]
    exact .inl queued
  · intro n
    rw [openSet_putStart, List.mem_singleton]
    constructor
    · rintro rfl
      exact ⟨seen, queued⟩
    · exact fun still_open => only n still_open.1
  · rw [openSet_putStart]
    exact List.nodup_singleton _
  · intro n still_open
    left
    rw [only n still_open.1, nodes_putStart_start]
    exact ⟨rfl, rfl⟩
  · intro n closed
    rw [only n closed.1] at closed
    have states := queued.symm.trans closed.2
    contradiction

theorem bounded_putStart (stale : ∀ n, (p.nodes n).rounds < q.round) :
    q.Bounded (q.putStart startIdx p) := by
  intro n
  by_cases same : n = startIdx
  · rw [same, nodes_putStart_start]
  · rw [nodes_putStart_other q p startIdx same]
    exact (stale n).le

/-- How the loop ends, with what its rounds keep. -/
inductive Ends (q : Query K) (I : NodePool K → Prop) (late : ℕ → Bool) :
    Option (Vec3 ℤ) → NodePool K → Prop
  | searched {last : NodePool K} (kept : I last) (empty : last.openSet = []) :
      Ends q I late none last
  | tooLate {last : NodePool K} {n : ℕ} (kept : I last) (timeout : late n = true) :
      Ends q I late none last
  | arrived {before : NodePool K} {current : Vec3 ℤ} {rest : List (Vec3 ℤ)} (kept : I before)
      (queue : before.openSet = current :: rest)
      (at_end : (before.nodes current).index = (before.nodes q.endIdx).index) :
      Ends q I late (some current) before.pop

theorem searchLoop_induct {I : NodePool K → Prop} {late : ℕ → Bool} {fuel numIter : ℕ}
    (round : ∀ p current rest, I p → p.openSet = current :: rest →
      (p.nodes current).index ≠ (p.nodes q.endIdx).index → I (q.expand current p.pop))
    (start : I p) {found : Option (Vec3 ℤ)} {last : NodePool K}
    (ended : q.searchLoop late fuel numIter p = some (found, last)) :
    q.Ends I late found last := by
  induction fuel generalizing numIter p with
  | zero => contradiction
  | succ fuel ih =>
      rw [searchLoop] at ended
      split at ended
      next empty =>
        obtain ⟨rfl, rfl⟩ := Prod.mk.inj (Option.some.inj ended)
        exact .searched start empty
      next current rest queue =>
        split at ended
        next arrived =>
          obtain ⟨rfl, rfl⟩ := Prod.mk.inj (Option.some.inj ended)
          exact .arrived start queue arrived
        next elsewhere =>
          have later := round p current rest start queue elsewhere
          split at ended
          next too_late =>
            obtain ⟨rfl, rfl⟩ := Prod.mk.inj (Option.some.inj ended)
            exact .tooLate later too_late
          next => exact ih later ended

end

variable [LinearOrder K]

section Closing

variable {rest : List (Vec3 ℤ)}

theorem index_closing (n : Vec3 ℤ) : ((closing current p).nodes n).index = (p.nodes n).index := by
  rw [closing]
  by_cases same : n = current
  · rw [same, NodePool.nodes_set_same]
  · rw [NodePool.nodes_set_other _ _ _ same, NodePool.nodes_pop]

theorem cameFrom_closing (n : Vec3 ℤ) :
    ((closing current p).nodes n).cameFrom = (p.nodes n).cameFrom := by
  rw [closing]
  by_cases same : n = current
  · rw [same, NodePool.nodes_set_same]
  · rw [NodePool.nodes_set_other _ _ _ same, NodePool.nodes_pop]

variable [Field K]

theorem discovered_closing : q.Discovered (closing current p) n ↔ q.Discovered p n := by
  rw [Discovered, Discovered, closing]
  by_cases same : n = current
  · rw [same, NodePool.nodes_set_same]
  · rw [NodePool.nodes_set_other _ _ _ same, NodePool.nodes_pop]

theorem closed_closing (queued : q.Open p current) :
    q.Closed (closing current p) n ↔ n = current ∨ q.Closed p n := by
  rw [Closed, discovered_closing, Closed, closing]
  by_cases same : n = current
  · rw [same, NodePool.nodes_set_same]
    exact ⟨fun _ => .inl rfl, fun _ => ⟨queued.1, rfl⟩⟩
  · rw [NodePool.nodes_set_other _ _ _ same, NodePool.nodes_pop, or_iff_right same]

theorem open_closing : q.Open (closing current p) n ↔ n ≠ current ∧ q.Open p n := by
  rw [Open, discovered_closing, Open, closing]
  by_cases same : n = current
  · rw [same, NodePool.nodes_set_same]
    constructor
    · intro open_again
      have states := open_again.2
      contradiction
    · intro elsewhere
      exact absurd rfl elsewhere.1
  · rw [NodePool.nodes_set_other _ _ _ same, NodePool.nodes_pop, and_iff_right same]

theorem sound_closing (sound : q.Sound p startIdx) (queue : p.openSet = current :: rest) :
    q.Sound (closing current p) startIdx := by
  have queued := sound.open_of_queue queue
  have popped : (closing current p).openSet.Perm rest := p.openSet_pop_perm queue
  have distinct := sound.nodup
  rw [queue, List.nodup_cons] at distinct
  have kept : ∀ m, q.Closed p m → q.Closed (closing current p) m ∧
      ((closing current p).nodes m).cameFrom = (p.nodes m).cameFrom := fun m closed =>
    ⟨(closed_closing queued).mpr (.inr closed), cameFrom_closing m⟩
  have closed_here : q.Closed (closing current p) current := (closed_closing queued).mpr (.inl rfl)
  refine ⟨?_, ?_, discovered_closing.mpr sound.start_seen, ?_, ?_, ?_, ?_, ?_⟩
  · rw [index_closing]
    exact sound.end_own
  · intro n discovered
    rw [index_closing]
    exact sound.own n (discovered_closing.mp discovered)
  · intro n discovered
    by_cases same : n = current
    · rw [same]
      exact .inr closed_here.2
    · rw [closing, NodePool.nodes_set_other _ _ _ same]
      exact sound.settled n (discovered_closing.mp discovered)
  · intro n
    rw [popped.mem_iff, open_closing, ← sound.queue, queue, List.mem_cons]
    constructor
    · intro later
      refine ⟨?_, .inr later⟩
      rintro rfl
      exact distinct.1 later
    · intro elsewhere
      exact (or_iff_right elsewhere.1).mp elsewhere.2
  · rw [popped.nodup_iff]
    exact distinct.2
  · intro n still_open
    rw [cameFrom_closing]
    rcases sound.reached n (open_closing.mp still_open).2 with
      first | ⟨before, from_before, closed, move⟩
    · exact .inl first
    · exact .inr ⟨before, from_before, (kept before closed).1, move⟩
  · intro n closed
    rcases (closed_closing queued).mp closed with same | earlier
    · rw [same]
      rcases sound.node_trail queued with ⟨start, none_before⟩ |
        ⟨before, path, link, move, new, trail⟩
      · rw [start] at closed_here none_before ⊢
        refine ⟨_, .start closed_here ?_⟩
        rw [cameFrom_closing]
        exact none_before
      · refine ⟨_, .step closed_here ?_ move new (trail.mono kept)⟩
        rw [cameFrom_closing]
        exact link
    · obtain ⟨path, trail⟩ := sound.trail n earlier
      exact ⟨path, trail.mono kept⟩

theorem expand_sound (sound : q.Sound p startIdx) (queue : p.openSet = current :: rest) :
    q.Sound (q.expand current p.pop) startIdx ∧
      q.Grows (closing current p) (q.expand current p.pop) :=
  visits_sound (sound_closing sound queue)
    ((closed_closing (sound.open_of_queue queue)).mpr (.inl rfl)) (List.Subset.refl offsets)

end Closing

variable [Field K]

theorem expand_bounded {rest : List (Vec3 ℤ)} (sound : q.Sound p startIdx) (bounded : q.Bounded p)
    (queue : p.openSet = current :: rest) : q.Bounded (q.expand current p.pop) := by
  have popped : q.Bounded p.pop := bounded
  have closed : q.Bounded (closing current p) := by
    apply popped.set
    exact bounded current
  exact visits_bounded (sound_closing sound queue) closed
    ((closed_closing (sound.open_of_queue queue)).mpr (.inl rfl)) (List.Subset.refl offsets)

end Query

end RobocupDrone.PathSearching
