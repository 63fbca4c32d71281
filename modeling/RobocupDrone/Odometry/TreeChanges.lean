import RobocupDrone.Odometry.TreeSearch

/-! Deleting the points in a box and adding a point, whether or not the trees on the way are
rebuilt or handed to the thread. -/

namespace RobocupDrone.Odometry

open Geometry

variable {P K : Type} (config : TreeConfig P K)

theorem Tree.isNil_of_visible {t : Tree P K} (points : t.visible ≠ []) : t.isNil = false := by
  cases t with
  | nil => exact absurd rfl points
  | node _ _ _ => rfl

section Own

variable [PointType P K] [LinearOrder K] (n : Node P K) (l r : Tree P K)
  (box : BoxPointType K) (isDownsample : Bool)

theorem Node.own_hit :
    ((n.relieved l r).hit isDownsample
        (decide (box.Contains (pos n.point)) && !n.pointDeleted)).own =
      n.own.filter fun p => decide ¬box.Contains (pos p) := by
  unfold own hit relieved
  cases n.pointDeleted <;> by_cases contained : box.Contains (pos n.point) <;> simp [contained]

theorem Node.count_hit :
    (if decide (box.Contains (pos n.point)) && !n.pointDeleted then 1 else 0) =
      n.own.countP fun p => decide (box.Contains (pos p)) := by
  unfold own
  cases n.pointDeleted <;> by_cases contained : box.Contains (pos n.point) <;> simp [contained]

end Own

section Sides

variable [PointType P K] [Field K] [LinearOrder K] (point : P) (allowRebuild : Bool)
  (fatherAxis : Axis) (path : Path) {n : Node P K} (l r : Tree P K) (s : Shared P K)

theorem addByPoint_left
    (smaller : (pos point).get n.divisionAxis < (pos n.point).get n.divisionAxis) :
    let s₀ := s.logPushDown path n l r
    let handed := s₀.hands (.left :: path) (n.pushLeft l)
    let added := addByPoint config point (allowRebuild && !handed) n.divisionAxis (.left :: path)
      (n.pushLeft l) s₀
    addByPoint config point allowRebuild fatherAxis path (.node n l r) s =
      finish config allowRebuild path (n.relieved l r) added.1 (n.pushRight r)
        (if handed then added.2.log (.addPoint point) else added.2) := by
  rw [addByPoint]
  dsimp only
  rw [if_pos (show (pos point).get (n.relieved l r).divisionAxis <
    (pos (n.relieved l r).point).get (n.relieved l r).divisionAxis from smaller)]
  rfl

theorem addByPoint_right
    (notSmaller : ¬(pos point).get n.divisionAxis < (pos n.point).get n.divisionAxis) :
    let s₀ := s.logPushDown path n l r
    let handed := s₀.hands (.right :: path) (n.pushRight r)
    let added := addByPoint config point (allowRebuild && !handed) n.divisionAxis (.right :: path)
      (n.pushRight r) s₀
    addByPoint config point allowRebuild fatherAxis path (.node n l r) s =
      finish config allowRebuild path (n.relieved l r) (n.pushLeft l) added.1
        (if handed then added.2.log (.addPoint point) else added.2) := by
  rw [addByPoint]
  dsimp only
  rw [if_neg (show ¬(pos point).get (n.relieved l r).divisionAxis <
    (pos (n.relieved l r).point).get (n.relieved l r).divisionAxis from notSmaller)]
  rfl

end Sides

section

variable [PointType P K] [Field K] [LinearOrder K]

theorem rebuild_spec (path : Path) {t : Tree P K} (sound : t.Sound) (s : Shared P K) :
    (rebuild config path t s).1.Sound ∧ (rebuild config path t s).1.visible.Perm t.visible := by
  unfold rebuild
  split_ifs
  · exact ⟨sound, .rfl⟩
  · exact ⟨sound, .rfl⟩
  · exact ⟨sound, .rfl⟩
  · obtain ⟨built, same⟩ := buildTree_spec config.nthElement t.visible
    dsimp only
    rw [flatten_storage]
    exact ⟨built, same⟩

theorem finish_spec (allowRebuild : Bool) (path : Path) {n : Node P K} {l r : Tree P K}
    (left : l.Sound) (right : r.Sound) (pendingLeft : Pending n.needPushDownToLeft l)
    (pendingRight : Pending n.needPushDownToRight r) (s : Shared P K) :
    (finish config allowRebuild path n l r s).1.Sound ∧
      (finish config allowRebuild path n l r s).1.visible.Perm
        (n.own ++ l.visible ++ r.visible) := by
  obtain ⟨sound, seen⟩ := update_sound left right pendingLeft pendingRight
  rw [← seen]
  unfold finish
  dsimp only
  split
  · exact rebuild_spec config path sound _
  · exact ⟨sound, .rfl⟩

/-- The points outside a box are left, and those inside are counted. -/
structure Tree.Deleted (box : BoxPointType K) (before after : Tree P K) (count : ℕ) : Prop where
  sound : after.Sound
  visible : after.visible.Perm (before.visible.filter fun p => decide ¬box.Contains (pos p))
  counted : count = before.visible.countP fun p => decide (box.Contains (pos p))
  isNil : after.isNil = before.isNil

theorem deleteByRange_partly (box : BoxPointType K) (isDownsample : Bool)
    (allowRebuild : Bool) (path : Path) {n : Node P K} {l r : Tree P K} (s : Shared P K)
    (kept : n.treeDeleted = false)
    (meets : (n.range.any fun range => decide (box.Meets range)) = true)
    (covers : ¬(n.range.all fun range => decide (box.Covers range)) = true) :
    let operation := deletion box isDownsample
    let hit := decide (box.Contains (pos n.point)) && !n.pointDeleted
    let s₀ := s.logPushDown path n l r
    let handedLeft := s₀.hands (.left :: path) (n.pushLeft l)
    let left := deleteByRange config box isDownsample (allowRebuild && !handedLeft) (.left :: path)
      (n.pushLeft l) s₀
    let s₁ := if handedLeft then left.2.1.log operation else left.2.1
    let handedRight := s₁.hands (.right :: path) (n.pushRight r)
    let right := deleteByRange config box isDownsample (allowRebuild && !handedRight)
      (.right :: path) (n.pushRight r) s₁
    let s₂ := if handedRight then right.2.1.log operation else right.2.1
    let t := finish config allowRebuild path ((n.relieved l r).hit isDownsample hit) left.1 right.1
      s₂
    deleteByRange config box isDownsample allowRebuild path (.node n l r) s =
      (t.1, t.2, (if hit then 1 else 0) + left.2.2 + right.2.2) := by
  rw [deleteByRange, if_neg (kept ▸ Bool.false_ne_true)]
  dsimp only
  rw [if_pos (show ((n.relieved l r).range.any _) = true from meets),
    if_neg (show ¬((n.relieved l r).range.all _) = true from covers)]
  rfl

end

variable [PointType P K] [LinearOrder K]

theorem Node.Fits.exists_outside {n : Node P K} {points : List P} {box : BoxPointType K}
    (fits : n.Fits points) (kept : n.treeDeleted = false)
    (covers : ¬(n.range.all fun range => decide (box.Covers range)) = true) :
    (points.filter fun p => decide ¬box.Contains (pos p)) ≠ [] := by
  intro nothing
  have contained : ∀ p ∈ points, box.Contains (pos p) := fun p member => by
    simpa using List.filter_eq_nil_iff.mp nothing p member
  obtain ⟨p, member⟩ := List.exists_mem_of_ne_nil _ (fits.hull kept).1
  obtain ⟨range, found, hull⟩ := fits.range_of_mem member
  refine covers ?_
  rw [found]
  refine decide_eq_true (BoxPointType.covers_of_contains hull fun v place => ?_)
  obtain ⟨q, point, rfl⟩ := List.mem_map.mp place
  exact contained q point

theorem Node.deleted_sound (n : Node P K) (isDownsample : Bool) (l r : Tree P K) :
    (Tree.node (n.deleted isDownsample) l r).Sound ∧
      (Tree.node (n.deleted isDownsample) l r).visible = [] := by
  have deletion : (n.deleted isDownsample).mark.treeDeleted = true := rfl
  have nothing : (Tree.node (n.deleted isDownsample) l r).visible = [] := by
    rw [Tree.visible_node]
    exact congrArg₂ (fun a b => [] ++ a ++ b) (l.visibleUnder_deleted deletion)
      (r.visibleUnder_deleted deletion)
  refine ⟨⟨⟨?_, fun _ => nothing, fun kept => absurd kept.symm Bool.false_ne_true⟩,
    ⟨.deletion deletion, l.soundUnder_deleted deletion⟩, .deletion deletion,
    r.soundUnder_deleted deletion⟩, nothing⟩
  rw [show Tree.visibleUnder none _ = _ from nothing]
  rfl

theorem Node.Ready.pending {n : Node P K} {l r l' r' : Tree P K} (ready : n.Ready l r)
    (left : l'.isNil = l.isNil) (right : r'.isNil = r.isNil) :
    Pending n.needPushDownToLeft l' ∧ Pending n.needPushDownToRight r' := by
  refine ⟨fun request => .inl ?_, fun request => .inl ?_⟩
  · have missing := left.trans (ready.left request)
    cases l' with
    | nil => rfl
    | node _ _ _ => cases missing
  · have missing := right.trans (ready.right request)
    cases r' with
    | nil => rfl
    | node _ _ _ => cases missing

/-- One more point, and a new leaf if there was no tree. -/
structure Tree.Added (point : P) (before after : Tree P K) : Prop where
  sound : after.Sound
  visible : after.visible.Perm (point :: before.visible)
  isNil : after.isNil = false
  fresh : before.isNil = true → after.Fresh

theorem Tree.Added.of_node {point : P} {n : Node P K} {l r after : Tree P K} (sound : after.Sound)
    (points : after.visible.Perm (point :: (node n l r).visible)) :
    (node n l r).Added point after :=
  ⟨sound, points, Tree.isNil_of_visible fun nothing => List.cons_ne_nil _ _
    (List.nil_perm.mp (nothing ▸ points)), fun missing => absurd missing Bool.false_ne_true⟩

theorem Tree.Added.pending {point : P} {before after : Tree P K} (added : before.Added point after)
    {request : Bool} (asked : request = true → before.isNil = true) : Pending request after :=
  fun requested => .inr (added.fresh (asked requested))

variable [Field K]

section Deletes

variable (box : BoxPointType K) (isDownsample allowRebuild : Bool) (path : Path)

/-- The subtree is gone, or the box does not meet its range. -/
theorem deleteByRange_apart {n : Node P K} {l r : Tree P K} (sound : (Tree.node n l r).Sound)
    (s : Shared P K) (apart : n.treeDeleted = true ∨
      ¬(n.range.any fun range => decide (box.Meets range)) = true) :
    (Tree.node n l r).Deleted box
      (deleteByRange config box isDownsample allowRebuild path (.node n l r) s).1
      (deleteByRange config box isDownsample allowRebuild path (.node n l r) s).2.2 := by
  obtain ⟨fits, left, right⟩ := sound.pushDown
  have pushed := sound.visited left.refl_visited right.refl_visited
  cases kept : n.treeDeleted with
  | true =>
      rw [deleteByRange, if_pos kept]
      have nothing := sound.visible_of_gone kept
      refine ⟨sound, ?_, ?_, rfl⟩
      · rw [nothing]; exact .nil
      · rw [nothing]; rfl
  | false =>
      have meets := apart.resolve_left (kept ▸ Bool.false_ne_true)
      rw [deleteByRange, if_neg (kept ▸ Bool.false_ne_true)]
      dsimp only
      rw [if_neg (show ¬((n.relieved l r).range.any _) = true from meets)]
      have outside := fun p member => fits.not_contains (p := p) meets member
      refine ⟨pushed.sound, ?_, ?_, rfl⟩
      · rw [pushed.visible, List.filter_eq_self.mpr fun p member =>
          decide_eq_true (outside p member)]
      · exact (List.countP_eq_zero.mpr fun p member =>
          mt of_decide_eq_true (outside p member)).symm

theorem deleteByRange_covered {n : Node P K} {l r : Tree P K} (sound : (Tree.node n l r).Sound)
    (s : Shared P K) (kept : n.treeDeleted = false)
    (meets : (n.range.any fun range => decide (box.Meets range)) = true)
    (covers : (n.range.all fun range => decide (box.Covers range)) = true) :
    (Tree.node n l r).Deleted box
      (deleteByRange config box isDownsample allowRebuild path (.node n l r) s).1
      (deleteByRange config box isDownsample allowRebuild path (.node n l r) s).2.2 := by
  obtain ⟨fits, -, -⟩ := sound.pushDown
  rw [deleteByRange, if_neg (kept ▸ Bool.false_ne_true)]
  dsimp only
  rw [if_pos (show ((n.relieved l r).range.any _) = true from meets),
    if_pos (show ((n.relieved l r).range.all _) = true from covers)]
  have inside : ∀ p ∈ (Tree.node n l r).visible, decide (box.Contains (pos p)) = true :=
    fun p member => decide_eq_true (fits.contains covers member)
  obtain ⟨after, nothing⟩ := (n.relieved l r).deleted_sound isDownsample
    (n.pushLeft l) (n.pushRight r)
  refine ⟨after, ?_, ?_, rfl⟩
  · rw [nothing, List.filter_eq_nil_iff.mpr fun p member => by simpa using inside p member]
  · rw [List.countP_eq_length.mpr inside, ← fits.counted, Nat.add_sub_cancel_left]

theorem deleteByRange_spec {t : Tree P K} (sound : t.Sound) (s : Shared P K) :
    t.Deleted box (deleteByRange config box isDownsample allowRebuild path t s).1
      (deleteByRange config box isDownsample allowRebuild path t s).2.2 := by
  induction t using Tree.pushed_induction generalizing allowRebuild path s with
  | nil => rw [deleteByRange]; exact ⟨trivial, .nil, rfl, rfl⟩
  | node n l r ihl ihr =>
      obtain ⟨fits, left, right⟩ := sound.pushDown
      by_cases apart : n.treeDeleted = true ∨
          ¬(n.range.any fun range => decide (box.Meets range)) = true
      · exact deleteByRange_apart config box isDownsample allowRebuild path sound s apart
      · obtain ⟨kept, meets⟩ := not_or.mp apart
        rw [Bool.not_eq_true] at kept
        rw [not_not] at meets
        by_cases covers : (n.range.all fun range => decide (box.Covers range)) = true
        · exact deleteByRange_covered config box isDownsample allowRebuild path sound s kept meets
            covers
        · have whole := deleteByRange_partly config box isDownsample allowRebuild path (l := l)
            (r := r) s kept meets covers
          dsimp only at whole
          rw [whole]
          clear whole
          generalize s.logPushDown path n l r = s₀
          have goneLeft := ihl (allowRebuild && !s₀.hands (.left :: path) (n.pushLeft l))
            (.left :: path) left s₀
          generalize deleteByRange config box isDownsample _ _ (n.pushLeft l) s₀ = afterLeft
            at goneLeft ⊢
          generalize (if s₀.hands (.left :: path) (n.pushLeft l) = true then _ else _) = s₁
          have goneRight := ihr
            (allowRebuild && !s₁.hands (.right :: path) (n.pushRight r)) (.right :: path)
            right s₁
          generalize deleteByRange config box isDownsample _ _ (n.pushRight r) s₁ = afterRight
            at goneRight ⊢
          generalize (if s₁.hands (.right :: path) (n.pushRight r) = true then _ else _) = s₂
          obtain ⟨pendingLeft, pendingRight⟩ :=
            (n.relieved_ready l r).pending goneLeft.isNil goneRight.isNil
          obtain ⟨after, points⟩ := finish_spec config allowRebuild path
            (n := (n.relieved l r).hit isDownsample
              (decide (box.Contains (pos n.point)) && !n.pointDeleted))
            goneLeft.sound goneRight.sound pendingLeft pendingRight s₂
          rw [n.own_hit l r box isDownsample] at points
          have same := points.trans
            ((goneLeft.visible.append_left _).append goneRight.visible)
          rw [← List.filter_append, ← List.filter_append, ← Tree.visible_pushDown] at same
          refine ⟨after, same, ?_, Tree.isNil_of_visible ?_⟩
          · dsimp only
            rw [n.count_hit, goneLeft.counted, goneRight.counted, ← List.countP_append,
              ← List.countP_append, ← Tree.visible_pushDown]
          · intro nothing
            rw [nothing] at same
            exact fits.exists_outside kept covers (List.nil_perm.mp same)

end Deletes

theorem addByPoint_spec (point : P) (allowRebuild : Bool)
    (fatherAxis : Axis) (path : Path) {t : Tree P K} (sound : t.Sound) (s : Shared P K) :
    t.Added point (addByPoint config point allowRebuild fatherAxis path t s).1 := by
  induction t using Tree.pushed_induction generalizing allowRebuild fatherAxis path s with
  | nil =>
      rw [addByPoint]
      have fresh : (Tree.node (update { point, divisionAxis := nextAxis fatherAxis } .nil .nil)
        .nil .nil : Tree P K).Fresh := ⟨point, _⟩
      exact ⟨(fresh.visible (.inl rfl)).choose_spec.2, .rfl, rfl, fun _ => fresh⟩
  | node n l r ihl ihr =>
      obtain ⟨-, left, right⟩ := sound.pushDown
      have ready := n.relieved_ready l r
      have alone := ready.pending (rfl : (n.pushLeft l).isNil = _) (rfl : (n.pushRight r).isNil = _)
      by_cases smaller : (pos point).get n.divisionAxis < (pos n.point).get n.divisionAxis
      · rw [addByPoint_left config point allowRebuild fatherAxis path l r s smaller]
        generalize s.logPushDown path n l r = s₀
        have added := ihl (allowRebuild && !s₀.hands (.left :: path) (n.pushLeft l)) n.divisionAxis
          (.left :: path) left s₀
        obtain ⟨after, points⟩ := finish_spec config allowRebuild path added.sound right
          (added.pending ready.left) alone.2 _
        refine .of_node after (points.trans ?_)
        rw [Tree.visible_pushDown]
        refine ((added.visible.append_left _).append_right _).trans ?_
        exact List.perm_middle.append_right _
      · rw [addByPoint_right config point allowRebuild fatherAxis path l r s smaller]
        generalize s.logPushDown path n l r = s₀
        have added := ihr (allowRebuild && !s₀.hands (.right :: path) (n.pushRight r))
          n.divisionAxis (.right :: path) right s₀
        obtain ⟨after, points⟩ := finish_spec config allowRebuild path left added.sound alone.1
          (added.pending ready.right) _
        refine .of_node after (points.trans ?_)
        rw [Tree.visible_pushDown]
        exact (added.visible.append_left _).trans List.perm_middle

end RobocupDrone.Odometry
