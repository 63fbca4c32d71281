import Mathlib.Algebra.Order.Field.Basic
import Mathlib.Algebra.Order.Floor.Defs
import RobocupDrone.Library.Vec3

/-! `ikd_Tree.h`, `ikd_Tree.cpp`: the incremental k-d tree that holds the map of the odometry. A
deletion marks nodes, and a mark on a node reaches the nodes under it when they are visited. The
coordinates are exact numbers. -/

namespace RobocupDrone.Odometry

open Geometry

/-- The template parameter of `KD_TREE`: points with a position. -/
class PointType (P : Type) (K : outParam Type) where
  pos : P → Vec3 K

export PointType (pos)

structure BoxPointType (K : Type) where
  vertexMin : Vec3 K
  vertexMax : Vec3 K

structure NodeRange (K : Type) where
  low : Vec3 K
  high : Vec3 K

/-- What a node hands to its sons: `tree_deleted` and `tree_downsample_deleted`. -/
structure Mark where
  treeDeleted : Bool
  treeDownsampleDeleted : Bool
  deriving DecidableEq

/-- `KD_TREE_NODE`. Before `Update` has run the range is that of no points. -/
structure Node (P K : Type) where
  point : P
  divisionAxis : Axis
  treeSize : ℕ := 1
  invalidPointNum : ℕ := 0
  downDelNum : ℕ := 0
  pointDeleted : Bool := false
  treeDeleted : Bool := false
  pointDownsampleDeleted : Bool := false
  treeDownsampleDeleted : Bool := false
  needPushDownToLeft : Bool := false
  needPushDownToRight : Bool := false
  range : Option (NodeRange K) := none

inductive Tree (P K : Type)
  | nil
  | node (root : Node P K) (left right : Tree P K)

/-- `Operation_Logger_Type`, without the operations that nothing in the repository calls. -/
inductive Operation (P K : Type)
  | addPoint (point : P)
  | deleteBox (box : BoxPointType K)
  | downsampleDelete (box : BoxPointType K)
  | pushDown (mark : Mark)

inductive Side
  | left
  | right
  deriving DecidableEq

abbrev Path := List Side

/-- What `Rebuild_Ptr` leads to: the place of a node and its `TreeSize`. -/
structure Handed where
  path : Path
  treeSize : ℕ

structure Shared (P K : Type) where
  rebuildPtr : Option Handed := none
  /-- Whether the thread holds `rebuild_ptr_mutex_lock`. -/
  ptrLocked : Bool := false
  rebuildFlag : Bool := false
  rebuildLogger : List (Operation P K) := []
  pointsDeleted : List P := []

/-- `std::nth_element` moves the elements around; the comparison is `point_cmp_x`, `point_cmp_y` or
`point_cmp_z`. -/
structure NthElement (P : Type) where
  run : (P → P → Bool) → ℕ → List P → List P
  perm : ∀ (less : P → P → Bool) (nth : ℕ) (points : List P), (run less nth points).Perm points

structure TreeConfig (P K : Type) where
  nthElement : NthElement P
  deleteCriterionParam : K
  balanceCriterionParam : K
  downsampleSize : K

def minimalUnbalancedTreeSize : ℕ := 10

def multiThreadRebuildPointNum : ℕ := 1500

variable {P K : Type}

section Ranges

variable [LinearOrder K]

def BoxPointType.Meets (box : BoxPointType K) (range : NodeRange K) : Prop :=
  ∀ axis, range.low.get axis < box.vertexMax.get axis ∧
    box.vertexMin.get axis ≤ range.high.get axis

instance (box : BoxPointType K) (range : NodeRange K) : Decidable (box.Meets range) :=
  inferInstanceAs (Decidable (∀ _, _))

def BoxPointType.Covers (box : BoxPointType K) (range : NodeRange K) : Prop :=
  ∀ axis, box.vertexMin.get axis ≤ range.low.get axis ∧
    range.high.get axis < box.vertexMax.get axis

instance (box : BoxPointType K) (range : NodeRange K) : Decidable (box.Covers range) :=
  inferInstanceAs (Decidable (∀ _, _))

def BoxPointType.Contains (box : BoxPointType K) (v : Vec3 K) : Prop :=
  ∀ axis, box.vertexMin.get axis ≤ v.get axis ∧ v.get axis < box.vertexMax.get axis

instance (box : BoxPointType K) (v : Vec3 K) : Decidable (box.Contains v) :=
  inferInstanceAs (Decidable (∀ _, _))

def NodeRange.ofPoint (v : Vec3 K) : NodeRange K := ⟨v, v⟩

def NodeRange.hull (a b : NodeRange K) : NodeRange K where
  low := Vec3.ofAxes fun axis => min (a.low.get axis) (b.low.get axis)
  high := Vec3.ofAxes fun axis => max (a.high.get axis) (b.high.get axis)

def joined (a b : Option (NodeRange K)) : Option (NodeRange K) := Option.merge NodeRange.hull a b

end Ranges

namespace Tree

def isNil : Tree P K → Bool
  | nil => true
  | node _ _ _ => false

def treeSize : Tree P K → ℕ
  | nil => 0
  | node n _ _ => n.treeSize

def invalidPointNum : Tree P K → ℕ
  | nil => 0
  | node n _ _ => n.invalidPointNum

def downDelNum : Tree P K → ℕ
  | nil => 0
  | node n _ _ => n.downDelNum

def gone : Tree P K → Bool
  | nil => true
  | node n _ _ => n.treeDeleted

def undeleted : Tree P K → Bool
  | nil => true
  | node n _ _ => !n.treeDeleted

def downsampled : Tree P K → Bool
  | nil => true
  | node n _ _ => n.treeDownsampleDeleted

def range : Tree P K → Option (NodeRange K)
  | nil => none
  | node n _ _ => n.range

def count : Tree P K → ℕ
  | nil => 0
  | node _ l r => l.count + r.count + 1

end Tree

def Node.mark (n : Node P K) : Mark := ⟨n.treeDeleted, n.treeDownsampleDeleted⟩

def Node.pushed (mark : Mark) (n : Node P K) : Node P K :=
  let treeDownsampleDeleted := n.treeDownsampleDeleted || mark.treeDownsampleDeleted
  let pointDownsampleDeleted := n.pointDownsampleDeleted || mark.treeDownsampleDeleted
  let treeDeleted := mark.treeDeleted || treeDownsampleDeleted
  let downDelNum := if mark.treeDownsampleDeleted then n.treeSize else n.downDelNum
  { n with
    treeDownsampleDeleted, pointDownsampleDeleted, treeDeleted, downDelNum
    pointDeleted := treeDeleted || pointDownsampleDeleted
    invalidPointNum := if mark.treeDeleted then n.treeSize else downDelNum
    needPushDownToLeft := true
    needPushDownToRight := true }

def Tree.push (mark : Mark) : Tree P K → Tree P K
  | .nil => .nil
  | .node n l r => .node (n.pushed mark) l r

@[simp] theorem Tree.count_push (mark : Mark) (t : Tree P K) : (t.push mark).count = t.count := by
  cases t <;> rfl

namespace Node

def pushLeft (n : Node P K) (l : Tree P K) : Tree P K :=
  if n.needPushDownToLeft then l.push n.mark else l

def pushRight (n : Node P K) (r : Tree P K) : Tree P K :=
  if n.needPushDownToRight then r.push n.mark else r

/-- The node after `Push_Down`. Without a son the request stays. -/
def relieved (n : Node P K) (l r : Tree P K) : Node P K :=
  { n with
    needPushDownToLeft := n.needPushDownToLeft && l.isNil
    needPushDownToRight := n.needPushDownToRight && r.isNil }

@[simp] theorem count_pushLeft (n : Node P K) (l : Tree P K) : (n.pushLeft l).count = l.count := by
  unfold pushLeft
  split <;> simp

@[simp] theorem count_pushRight (n : Node P K) (r : Tree P K) :
    (n.pushRight r).count = r.count := by
  unfold pushRight
  split <;> simp

end Node

section Update

variable [PointType P K] [LinearOrder K]

/-- `Update`. The four cases for the sons of the source are one: a missing son adds nothing. -/
def update (n : Node P K) (l r : Tree P K) : Node P K :=
  let here := some (NodeRange.ofPoint (pos n.point))
  let treeDeleted := l.gone && r.gone && n.pointDeleted
  { n with
    treeSize := l.treeSize + r.treeSize + 1
    invalidPointNum := l.invalidPointNum + r.invalidPointNum + if n.pointDeleted then 1 else 0
    downDelNum := l.downDelNum + r.downDelNum + if n.pointDownsampleDeleted then 1 else 0
    treeDownsampleDeleted := l.downsampled && r.downsampled && n.pointDownsampleDeleted
    treeDeleted
    range :=
      if treeDeleted || (l.undeleted && r.undeleted && !n.pointDeleted) then
        joined (joined l.range r.range) here
      else
        joined (joined (if l.gone then none else l.range) (if r.gone then none else r.range))
          (if n.pointDeleted then none else here) }

end Update

section Build

variable [PointType P K] [Field K] [LinearOrder K]

def dimRange (points : List P) (axis : Axis) : K :=
  match points.map fun p => (pos p).get axis with
  | [] => 0
  | a :: rest => rest.foldl max a - rest.foldl min a

def longestAxis (points : List P) : Axis :=
  let second := if dimRange points .x < dimRange points .y then Axis.y else .x
  if dimRange points second < dimRange points .z then .z else second

def buildTree (nth : NthElement P) (points : List P) : Tree P K :=
  let axis := longestAxis points
  let mid := (points.length - 1) / 2
  let sorted := nth.run (fun a b => decide ((pos a).get axis < (pos b).get axis)) mid points
  match found : sorted[mid]? with
  | none => .nil
  | some point =>
      let l := buildTree nth (sorted.take mid)
      let r := buildTree nth (sorted.drop (mid + 1))
      .node (update { point, divisionAxis := axis } l r) l r
termination_by points.length
decreasing_by
  all_goals
    have inside : mid < points.length := by
      rw [← (nth.perm _ _ points).length_eq]
      exact (List.getElem?_eq_some_iff.mp found).1
    have same : sorted.length = points.length := (nth.perm _ _ points).length_eq
  · have shorter : (sorted.take mid).length < points.length := by
      rw [List.length_take]
      omega
    exact shorter
  · have shorter : (sorted.drop (mid + 1)).length < points.length := by
      rw [List.length_drop, same]
      omega
    exact shorter

end Build

namespace Shared

def hands (s : Shared P K) (path : Path) (t : Tree P K) : Bool :=
  !t.isNil && s.rebuildPtr.any fun handed => decide (handed.path = path)

def log (s : Shared P K) (operation : Operation P K) : Shared P K :=
  if s.rebuildFlag then { s with rebuildLogger := s.rebuildLogger ++ [operation] } else s

/-- `Push_Down` on a node logs its mark for a son that is `*Rebuild_Ptr`. -/
def logPushDown (s : Shared P K) (path : Path) (n : Node P K) (l r : Tree P K) : Shared P K :=
  let s := if n.needPushDownToLeft && s.hands (.left :: path) l then s.log (.pushDown n.mark) else s
  if n.needPushDownToRight && s.hands (.right :: path) r then s.log (.pushDown n.mark) else s

/-- After the `Update` of a node: one that has become small is not rebuilt by the thread. -/
def settle (s : Shared P K) (path : Path) (treeSize : ℕ) : Shared P K :=
  match s.rebuildPtr with
  | none => s
  | some handed =>
      if handed.path = path then
        if treeSize < multiThreadRebuildPointNum then { s with rebuildPtr := none }
        else { s with rebuildPtr := some ⟨path, treeSize⟩ }
      else s

end Shared

/-- `flatten`: the tree with its marks pushed down, the shared state, the storage, and the points
that a record of deleted points gets. -/
def flatten : Path → Tree P K → Shared P K → Tree P K × Shared P K × List P × List P
  | _, .nil, s => (.nil, s, [], [])
  | path, .node n l r, s =>
      let s := s.logPushDown path n l r
      let here := if n.pointDeleted then [] else [n.point]
      let (l', s, storageLeft, deletedLeft) := flatten (.left :: path) (n.pushLeft l) s
      let (r', s, storageRight, deletedRight) := flatten (.right :: path) (n.pushRight r) s
      (.node (n.relieved l r) l' r', s, here ++ storageLeft ++ storageRight,
        deletedLeft ++ deletedRight ++
          if n.pointDeleted && !n.pointDownsampleDeleted then [n.point] else [])
termination_by _ t _ => t.count
decreasing_by all_goals simp only [Tree.count, Node.count_pushLeft, Node.count_pushRight]; omega

/-- What `Search` leaves of a tree: the marks of the nodes that it visits are pushed down. -/
def search (visits : Path → Bool) : Path → Tree P K → Tree P K
  | _, .nil => .nil
  | path, .node n l r =>
      if visits path then
        .node (n.relieved l r) (search visits (.left :: path) (n.pushLeft l))
          (search visits (.right :: path) (n.pushRight r))
      else .node n l r
termination_by _ t => t.count
decreasing_by all_goals simp only [Tree.count, Node.count_pushLeft, Node.count_pushRight]; omega

section Search

variable [PointType P K] [LinearOrder K]

/-- `Search_by_range`: the tree with the marks on the way pushed down, the shared state, and the
storage. -/
def searchByRange (box : BoxPointType K) :
    Path → Tree P K → Shared P K → Tree P K × Shared P K × List P
  | _, .nil, s => (.nil, s, [])
  | path, .node n l r, s =>
      let s' := s.logPushDown path n l r
      if n.range.any fun range => decide (box.Meets range) then
        if n.range.all fun range => decide (box.Covers range) then
          let (t, s, storage, _) :=
            flatten path (.node (n.relieved l r) (n.pushLeft l) (n.pushRight r)) s'
          (t, s, storage)
        else
          let here := if box.Contains (pos n.point) ∧ n.pointDeleted = false then [n.point] else []
          let (l', s, storageLeft) := searchByRange box (.left :: path) (n.pushLeft l) s'
          let (r', s, storageRight) := searchByRange box (.right :: path) (n.pushRight r) s
          (.node (n.relieved l r) l' r', s, here ++ storageLeft ++ storageRight)
      else (.node (n.relieved l r) (n.pushLeft l) (n.pushRight r), s', [])
termination_by _ t _ => t.count
decreasing_by all_goals simp only [Tree.count, Node.count_pushLeft, Node.count_pushRight]; omega

end Search

section Change

variable [PointType P K] [Field K] [LinearOrder K]

def criterionCheck (config : TreeConfig P K) : Tree P K → Bool
  | .nil => false
  | .node n l r =>
      let son := if l.isNil then r else l
      let deleteEvaluation : K := n.invalidPointNum / n.treeSize
      let balanceEvaluation : K := son.treeSize / (n.treeSize - 1)
      decide (minimalUnbalancedTreeSize < n.treeSize) &&
        (decide (config.deleteCriterionParam < deleteEvaluation) ||
          decide (config.balanceCriterionParam < balanceEvaluation) ||
          decide (balanceEvaluation < 1 - config.balanceCriterionParam))

/-- `Rebuild`: a large tree is handed to the thread, if it is not busy. -/
def rebuild (config : TreeConfig P K) (path : Path) (t : Tree P K) (s : Shared P K) :
    Tree P K × Shared P K :=
  if multiThreadRebuildPointNum ≤ t.treeSize then
    if s.ptrLocked then (t, s)
    else if s.rebuildPtr.all fun handed => decide (handed.treeSize < t.treeSize) then
      (t, { s with rebuildPtr := some ⟨path, t.treeSize⟩ })
    else (t, s)
  else
    let (_, s, storage, deleted) := flatten path t s
    (buildTree config.nthElement storage, { s with pointsDeleted := s.pointsDeleted ++ deleted })

def finish (config : TreeConfig P K) (allowRebuild : Bool) (path : Path) (n : Node P K)
    (l r : Tree P K) (s : Shared P K) : Tree P K × Shared P K :=
  let n := update n l r
  let s := s.settle path n.treeSize
  if allowRebuild && criterionCheck config (.node n l r) then
    rebuild config path (.node n l r) s
  else (.node n l r, s)

/-- The marks of `Delete_by_range` on a node whose points are all in the box. -/
def Node.deleted (isDownsample : Bool) (n : Node P K) : Node P K :=
  { n with
    treeDeleted := true
    pointDeleted := true
    needPushDownToLeft := true
    needPushDownToRight := true
    invalidPointNum := n.treeSize
    treeDownsampleDeleted := n.treeDownsampleDeleted || isDownsample
    pointDownsampleDeleted := n.pointDownsampleDeleted || isDownsample
    downDelNum := if isDownsample then n.treeSize else n.downDelNum }

def Node.hit (isDownsample hit : Bool) (n : Node P K) : Node P K :=
  { n with
    pointDeleted := n.pointDeleted || hit
    pointDownsampleDeleted := n.pointDownsampleDeleted || (hit && isDownsample) }

def deletion (box : BoxPointType K) (isDownsample : Bool) : Operation P K :=
  if isDownsample then .downsampleDelete box else .deleteBox box

/-- `Delete_by_range`: the tree, the shared state and the number of points that it deletes. -/
def deleteByRange (config : TreeConfig P K) (box : BoxPointType K) (isDownsample : Bool) :
    Bool → Path → Tree P K → Shared P K → Tree P K × Shared P K × ℕ
  | _, _, .nil, s => (.nil, s, 0)
  | allowRebuild, path, .node n l r, s =>
      if n.treeDeleted then (.node n l r, s, 0)
      else
        let s := s.logPushDown path n l r
        let l' := n.pushLeft l
        let r' := n.pushRight r
        let n := n.relieved l r
        if n.range.any fun range => decide (box.Meets range) then
          if n.range.all fun range => decide (box.Covers range) then
            (.node (n.deleted isDownsample) l' r', s, n.treeSize - n.invalidPointNum)
          else
            let hit := decide (box.Contains (pos n.point)) && !n.pointDeleted
            let n := n.hit isDownsample hit
            let handed := s.hands (.left :: path) l'
            let (l', s, left) :=
              deleteByRange config box isDownsample (allowRebuild && !handed) (.left :: path) l' s
            let s := if handed then s.log (deletion box isDownsample) else s
            let handed := s.hands (.right :: path) r'
            let (r', s, right) :=
              deleteByRange config box isDownsample (allowRebuild && !handed) (.right :: path) r' s
            let s := if handed then s.log (deletion box isDownsample) else s
            let (t, s) := finish config allowRebuild path n l' r' s
            (t, s, (if hit then 1 else 0) + left + right)
        else (.node n l' r', s, 0)
termination_by _ _ t _ => t.count
decreasing_by all_goals simp only [Tree.count, Node.count_pushLeft, Node.count_pushRight]; omega

def nextAxis : Axis → Axis
  | .x => .y
  | .y => .z
  | .z => .x

def addByPoint (config : TreeConfig P K) (point : P) :
    Bool → Axis → Path → Tree P K → Shared P K → Tree P K × Shared P K
  | _, fatherAxis, _, .nil, s =>
      (.node (update { point, divisionAxis := nextAxis fatherAxis } .nil .nil) .nil .nil, s)
  | allowRebuild, _, path, .node n l r, s =>
      let s := s.logPushDown path n l r
      let l' := n.pushLeft l
      let r' := n.pushRight r
      let n := n.relieved l r
      if (pos point).get n.divisionAxis < (pos n.point).get n.divisionAxis then
        let handed := s.hands (.left :: path) l'
        let (l', s) :=
          addByPoint config point (allowRebuild && !handed) n.divisionAxis (.left :: path) l' s
        let s := if handed then s.log (.addPoint point) else s
        finish config allowRebuild path n l' r' s
      else
        let handed := s.hands (.right :: path) r'
        let (r', s) :=
          addByPoint config point (allowRebuild && !handed) n.divisionAxis (.right :: path) r' s
        let s := if handed then s.log (.addPoint point) else s
        finish config allowRebuild path n l' r' s
termination_by _ _ _ t _ => t.count
decreasing_by all_goals simp only [Tree.count, Node.count_pushLeft, Node.count_pushRight]; omega

end Change

structure KdTree (P K : Type) where
  root : Tree P K
  shared : Shared P K := {}

/-- A `Nearest_Search` without its queue: the nodes that it visits. What it logs is among the
changes of the shared fields. -/
structure NearestSearch (P K : Type) where
  visits : Path → Bool
  shares : Shared P K → Shared P K := id

def Tree.divisionAxis : Tree P K → Axis
  | .nil => .x
  | .node n _ _ => n.divisionAxis

def calcDist [CommRing K] (a b : Vec3 K) : K := (a - b).normSq

section Operations

variable [PointType P K] [Field K] [LinearOrder K] [FloorRing K]

def BoxPointType.cell (downsampleSize : K) (v : Vec3 K) : BoxPointType K where
  vertexMin := Vec3.ofAxes fun axis => ⌊v.get axis / downsampleSize⌋ * downsampleSize
  vertexMax := Vec3.ofAxes fun axis =>
    ⌊v.get axis / downsampleSize⌋ * downsampleSize + downsampleSize

def BoxPointType.midPoint (box : BoxPointType K) : Vec3 K :=
  Vec3.ofAxes fun axis => box.vertexMin.get axis +
    (box.vertexMax.get axis - box.vertexMin.get axis) / 2

def SamePoint (a b : Vec3 K) : Prop := ∀ axis, |a.get axis - b.get axis| < 1e-6

instance (a b : Vec3 K) : Decidable (SamePoint a b) := inferInstanceAs (Decidable (∀ _, _))

/-- `downsample_result`: the first of the points that are closest to the middle of the cell. -/
def downsampleResult (midPoint : Vec3 K) (point : P) (storage : List P) : P :=
  storage.foldl (fun result p =>
    if calcDist (pos p) midPoint < calcDist (pos result) midPoint then p else result) point

namespace KdTree

def build (config : TreeConfig P K) (pointCloud : List P) : KdTree P K where
  root := buildTree config.nthElement pointCloud

def boxSearch (box : BoxPointType K) (t : KdTree P K) : KdTree P K × List P :=
  let (root, shared, storage) := searchByRange box [] t.root t.shared
  (⟨root, shared⟩, storage)

def nearestSearch (search : NearestSearch P K) (t : KdTree P K) : KdTree P K :=
  ⟨Odometry.search search.visits [] t.root, search.shares t.shared⟩

def addPoint (config : TreeConfig P K) (point : P) (t : KdTree P K) : KdTree P K :=
  let handed := t.shared.hands [] t.root
  let (root, shared) :=
    addByPoint config point (!handed) t.root.divisionAxis [] t.root t.shared
  ⟨root, if handed then shared.log (.addPoint point) else shared⟩

/-- `Add_Points` with one point, with downsampling: the tree, and whether it has changed. -/
def addDownsampled (config : TreeConfig P K) (point : P) (t : KdTree P K) : KdTree P K × Bool :=
  let box := BoxPointType.cell config.downsampleSize (pos point)
  let (root, shared, storage) := searchByRange box [] t.root t.shared
  let result := downsampleResult box.midPoint point storage
  if 1 < storage.length ∨ SamePoint (pos point) (pos result) then
    let handed := shared.hands [] root
    let (root, shared) :=
      if storage.isEmpty then (root, shared)
      else
        let (root, shared, _) := deleteByRange config box true (!handed) [] root shared
        (root, shared)
    let (root, shared) := addByPoint config result (!handed) root.divisionAxis [] root shared
    let shared := if handed && !storage.isEmpty then shared.log (.downsampleDelete box) else shared
    (⟨root, if handed then shared.log (.addPoint result) else shared⟩, true)
  else (⟨root, shared⟩, false)

/-- `Add_Points`: the tree, and how many points have changed it. -/
def addPoints (config : TreeConfig P K) (downsampleOn : Bool) :
    List P → KdTree P K → KdTree P K × ℕ
  | [], t => (t, 0)
  | point :: points, t =>
      if downsampleOn then
        let (t, changed) := t.addDownsampled config point
        let (t, counter) := addPoints config downsampleOn points t
        (t, counter + if changed then 1 else 0)
      else addPoints config downsampleOn points (t.addPoint config point)

def deletePointBox (config : TreeConfig P K) (box : BoxPointType K) (t : KdTree P K) :
    KdTree P K × ℕ :=
  let handed := t.shared.hands [] t.root
  let (root, shared, count) := deleteByRange config box false (!handed) [] t.root t.shared
  (⟨root, if handed then shared.log (.deleteBox box) else shared⟩, count)

/-- `Delete_Point_Boxes`: the tree, and how many points it has deleted. -/
def deletePointBoxes (config : TreeConfig P K) :
    List (BoxPointType K) → KdTree P K → KdTree P K × ℕ
  | [], t => (t, 0)
  | box :: boxes, t =>
      let (t, count) := t.deletePointBox config box
      let (t, counter) := deletePointBoxes config boxes t
      (t, count + counter)

/-- `validnum`. With the root handed over it needs `working_flag_mutex`, which the thread may
hold. -/
def validnum (workingLocked : Bool) (t : KdTree P K) : ℤ :=
  if t.shared.hands [] t.root && workingLocked then -1
  else t.root.treeSize - t.root.invalidPointNum

end KdTree

end Operations

end RobocupDrone.Odometry
