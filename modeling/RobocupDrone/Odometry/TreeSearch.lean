import Mathlib.Data.List.Perm.Basic
import RobocupDrone.Odometry.VisiblePoints

/-! Building, flattening and searching a tree: what comes out are the points it stands for. -/

namespace RobocupDrone.Odometry

open Geometry

variable {P K : Type}

section Visits

variable [PointType P K] [LinearOrder K]

/-- The marks of a tree have been pushed further down. -/
structure Tree.Visited (before after : Tree P K) : Prop where
  sound : after.Sound
  visible : after.visible = before.visible
  isNil : after.isNil = before.isNil

theorem Tree.Sound.visited {n : Node P K} {l r l' r' : Tree P K} (sound : (node n l r).Sound)
    (left : (n.pushLeft l).Visited l') (right : (n.pushRight r).Visited r') :
    (node n l r).Visited (node (n.relieved l r) l' r') := by
  have relieved := n.relieved_ready l r
  have ready : (n.relieved l r).Ready l' r' :=
    ⟨fun request => left.isNil.trans (relieved.left request),
      fun request => right.isNil.trans (relieved.right request)⟩
  have points : (n.relieved l r).own ++ l'.visible ++ r'.visible = (node n l r).visible := by
    rw [left.visible, right.visible, visible_pushDown]
    rfl
  refine ⟨ready.sound_iff.mpr ⟨?_, left.sound, right.sound⟩, ready.visible.trans points, rfl⟩
  rw [points]
  exact sound.pushDown.1

theorem Tree.Sound.refl_visited {t : Tree P K} (sound : t.Sound) : t.Visited t := ⟨sound, rfl, rfl⟩

end Visits

theorem flatten_node (path : Path) (n : Node P K) (l r : Tree P K) (s : Shared P K) :
    let left := flatten (.left :: path) (n.pushLeft l) (s.logPushDown path n l r)
    let right := flatten (.right :: path) (n.pushRight r) left.2.1
    flatten path (.node n l r) s =
      (.node (n.relieved l r) left.1 right.1, right.2.1, n.own ++ left.2.2.1 ++ right.2.2.1,
        left.2.2.2 ++ right.2.2.2 ++
          if n.pointDeleted && !n.pointDownsampleDeleted then [n.point] else []) := by
  rw [flatten]
  rfl

theorem flatten_storage (path : Path) (t : Tree P K) (s : Shared P K) :
    (flatten path t s).2.2.1 = t.visible := by
  induction t using Tree.pushed_induction generalizing path s with
  | nil => rw [flatten]; rfl
  | node n l r ihl ihr =>
      rw [flatten_node]
      dsimp only
      rw [ihl, ihr, Tree.visible_pushDown]

section Build

variable [PointType P K] [Field K] [LinearOrder K]

theorem buildTree_spec (nth : NthElement P) (points : List P) :
    (buildTree nth points).Sound ∧ (buildTree nth points).visible.Perm points := by
  induction size : points.length using Nat.strong_induction_on generalizing points with
  | _ k ih =>
    rw [buildTree]
    dsimp only
    generalize axis : longestAxis points = divisionAxis
    have same := nth.perm (fun a b => decide ((pos a).get divisionAxis < (pos b).get divisionAxis))
      ((points.length - 1) / 2) points
    generalize nth.run _ _ points = sorted at same
    have length := same.length_eq
    split
    · next missing =>
        have nothing : points = [] := by
          have outside := List.getElem?_eq_none_iff.mp missing
          apply List.eq_nil_of_length_eq_zero
          omega
        rw [nothing]
        exact ⟨trivial, .nil⟩
    · next point found =>
        obtain ⟨inside, here⟩ := List.getElem?_eq_some_iff.mp found
        obtain ⟨left, leftPoints⟩ := ih _ (by rw [List.length_take]; omega)
          (sorted.take ((points.length - 1) / 2)) rfl
        obtain ⟨right, rightPoints⟩ := ih _ (by rw [List.length_drop]; omega)
          (sorted.drop ((points.length - 1) / 2 + 1)) rfl
        obtain ⟨sound, seen⟩ := update_sound (n := { point, divisionAxis }) left right
          (fun request => absurd request Bool.false_ne_true)
          (fun request => absurd request Bool.false_ne_true)
        refine ⟨sound, ?_⟩
        rw [seen]
        have parts : sorted = sorted.take ((points.length - 1) / 2) ++
            point :: sorted.drop ((points.length - 1) / 2 + 1) := by
          rw [← here, ← List.drop_eq_getElem_cons inside, List.take_append_drop]
        refine List.Perm.trans ?_ same
        refine ((leftPoints.append rightPoints).cons point).trans ?_
        conv_rhs => rw [parts]
        exact List.perm_middle.symm

end Build

variable [PointType P K]

theorem flatten_visited [LinearOrder K] (path : Path) {t : Tree P K} (sound : t.Sound)
    (s : Shared P K) : t.Visited (flatten path t s).1 := by
  induction t using Tree.pushed_induction generalizing path s with
  | nil => rw [flatten]; exact sound.refl_visited
  | node n l r ihl ihr =>
      obtain ⟨-, left, right⟩ := sound.pushDown
      rw [flatten_node]
      exact sound.visited (ihl _ left _) (ihr _ right _)

theorem search_visited [LinearOrder K] (visits : Path → Bool) (path : Path) {t : Tree P K}
    (sound : t.Sound) : t.Visited (search visits path t) := by
  induction t using Tree.pushed_induction generalizing path with
  | nil => rw [search]; exact sound.refl_visited
  | node n l r ihl ihr =>
      obtain ⟨-, left, right⟩ := sound.pushDown
      rw [search]
      split
      · exact sound.visited (ihl _ left) (ihr _ right)
      · exact sound.refl_visited

section Search

variable [LinearOrder K]

theorem BoxPointType.Meets.of_hull {box : BoxPointType K} {range : NodeRange K}
    {places : List (Vec3 K)} (hull : range.IsHull places) {v : Vec3 K} (member : v ∈ places)
    (contained : box.Contains v) : box.Meets range := fun axis =>
  ⟨((hull.inside v member axis).1).trans_lt (contained axis).2,
    (contained axis).1.trans (hull.inside v member axis).2⟩

theorem BoxPointType.Covers.contains {box : BoxPointType K} {range : NodeRange K}
    {places : List (Vec3 K)} (covers : box.Covers range) (hull : range.IsHull places) {v : Vec3 K}
    (member : v ∈ places) : box.Contains v := fun axis =>
  ⟨(covers axis).1.trans (hull.inside v member axis).1,
    (hull.inside v member axis).2.trans_lt (covers axis).2⟩

theorem BoxPointType.covers_of_contains {box : BoxPointType K} {range : NodeRange K}
    {places : List (Vec3 K)} (hull : range.IsHull places)
    (contained : ∀ v ∈ places, box.Contains v) : box.Covers range := by
  intro axis
  obtain ⟨v, low, same⟩ := hull.low axis
  obtain ⟨w, high, same'⟩ := hull.high axis
  exact ⟨same ▸ (contained v low axis).1, same' ▸ (contained w high axis).2⟩

namespace Node.Fits

variable {n : Node P K} {points : List P} {p : P} {box : BoxPointType K}

theorem range_of_mem (fits : n.Fits points) (member : p ∈ points) :
    ∃ range, n.range = some range ∧ range.IsHull (places points) := by
  have kept : n.treeDeleted = false := by
    by_contra deleted
    exact List.not_mem_nil (fits.deleted (Bool.not_eq_false _ ▸ deleted) ▸ member)
  have bounded := (fits.hull kept).2
  generalize n.range = found at bounded ⊢
  generalize around : places points = around at bounded ⊢
  cases bounded with
  | none =>
      have nothing : points = [] := List.map_eq_nil_iff.mp around
      exact absurd (nothing ▸ member) List.not_mem_nil
  | some hull => exact ⟨_, rfl, hull⟩

theorem not_contains (fits : n.Fits points)
    (away : ¬(n.range.any fun range => decide (box.Meets range)) = true) (member : p ∈ points) :
    ¬box.Contains (pos p) := by
  intro contained
  obtain ⟨range, found, hull⟩ := fits.range_of_mem member
  refine away ?_
  rw [found]
  exact decide_eq_true (BoxPointType.Meets.of_hull hull (List.mem_map_of_mem member) contained)

theorem contains (fits : n.Fits points)
    (covers : (n.range.all fun range => decide (box.Covers range)) = true) (member : p ∈ points) :
    box.Contains (pos p) := by
  obtain ⟨range, found, hull⟩ := fits.range_of_mem member
  rw [found] at covers
  exact (of_decide_eq_true covers).contains hull (List.mem_map_of_mem member)

end Node.Fits

theorem Node.filter_own (n : Node P K) (box : BoxPointType K) :
    (n.own.filter fun p => decide (box.Contains (pos p))) =
      if box.Contains (pos n.point) ∧ n.pointDeleted = false then [n.point] else [] := by
  unfold own
  cases n.pointDeleted <;> simp [List.filter_singleton]

section Partly

variable (box : BoxPointType K) (path : Path) {n : Node P K} (l r : Tree P K) (s : Shared P K)

theorem searchByRange_partly
    (meets : (n.range.any fun range => decide (box.Meets range)) = true)
    (covers : ¬(n.range.all fun range => decide (box.Covers range)) = true) :
    let left := searchByRange box (.left :: path) (n.pushLeft l) (s.logPushDown path n l r)
    let right := searchByRange box (.right :: path) (n.pushRight r) left.2.1
    searchByRange box path (.node n l r) s =
      (.node (n.relieved l r) left.1 right.1, right.2.1,
        (n.own.filter fun p => decide (box.Contains (pos p))) ++ left.2.2 ++ right.2.2) := by
  rw [searchByRange, if_pos meets, if_neg covers, n.filter_own]

theorem searchByRange_whole
    (meets : (n.range.any fun range => decide (box.Meets range)) = true)
    (covers : (n.range.all fun range => decide (box.Covers range)) = true) :
    let flat := flatten path (.node (n.relieved l r) (n.pushLeft l) (n.pushRight r))
      (s.logPushDown path n l r)
    searchByRange box path (.node n l r) s = (flat.1, flat.2.1, flat.2.2.1) := by
  rw [searchByRange, if_pos meets, if_pos covers]

theorem searchByRange_away
    (away : ¬(n.range.any fun range => decide (box.Meets range)) = true) :
    searchByRange box path (.node n l r) s =
      (.node (n.relieved l r) (n.pushLeft l) (n.pushRight r), s.logPushDown path n l r, []) := by
  rw [searchByRange, if_neg away]

end Partly

theorem searchByRange_spec (box : BoxPointType K) (path : Path) {t : Tree P K} (sound : t.Sound)
    (s : Shared P K) :
    t.Visited (searchByRange box path t s).1 ∧
      (searchByRange box path t s).2.2 =
        t.visible.filter fun p => decide (box.Contains (pos p)) := by
  induction t using Tree.pushed_induction generalizing path s with
  | nil => rw [searchByRange]; exact ⟨sound.refl_visited, rfl⟩
  | node n l r ihl ihr =>
      obtain ⟨fits, left, right⟩ := sound.pushDown
      have pushed := sound.visited left.refl_visited right.refl_visited
      by_cases meets : (n.range.any fun range => decide (box.Meets range)) = true
      · by_cases covers : (n.range.all fun range => decide (box.Covers range)) = true
        · rw [searchByRange_whole box path l r s meets covers]
          have flat := flatten_visited path pushed.sound (s.logPushDown path n l r)
          refine ⟨⟨flat.sound, flat.visible.trans pushed.visible, flat.isNil⟩, ?_⟩
          rw [List.filter_eq_self.mpr fun p member =>
            decide_eq_true (fits.contains covers member)]
          exact (flatten_storage path _ _).trans pushed.visible
        · rw [searchByRange_partly box path l r s meets covers]
          dsimp only
          obtain ⟨visitedLeft, foundLeft⟩ := ihl (.left :: path) left (s.logPushDown path n l r)
          obtain ⟨visitedRight, foundRight⟩ := ihr (.right :: path) right
            (searchByRange box (.left :: path) (n.pushLeft l) (s.logPushDown path n l r)).2.1
          refine ⟨sound.visited visitedLeft visitedRight, ?_⟩
          rw [foundLeft, foundRight, Tree.visible_pushDown, List.filter_append,
            List.filter_append]
      · rw [searchByRange_away box path l r s meets]
        refine ⟨pushed, ?_⟩
        rw [List.filter_eq_nil_iff.mpr fun p member =>
          mt of_decide_eq_true (fits.not_contains meets member)]

end Search

end RobocupDrone.Odometry
