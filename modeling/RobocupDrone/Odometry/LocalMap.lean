import RobocupDrone.Odometry.MapRuns

/-! `laserMapping.cpp`: the local map is a cube that follows the LiDAR. The points that it leaves
behind are deleted, and those of a scan are added. -/

namespace RobocupDrone.Odometry

open Geometry

variable {P K : Type}

section

variable [PointType P K] [Field K] [LinearOrder K] [FloorRing K] [IsStrictOrderedRing K]

/-- `cube_side_length` and `mapping/det_range`, and the tree, whose cells have the size
`filter_size_map`. -/
structure MappingParams (P K : Type) where
  cubeLen : K
  detRange : K
  tree : TreeConfig P K

/-- A scan with points, as the filter leaves it. -/
structure Scan (P K : Type) where
  posLid : Vec3 K
  ekfInited : Bool
  /-- `feats_down_world`, each with its `Nearest_Points`. -/
  features : List (P × List P)
  /-- What has changed in the shared fields since the scan before. The thread swaps no rebuilt
  subtree in. -/
  thread : Shared P K → Shared P K := id
  /-- The searches for nearest points, those of every iteration of the filter. -/
  searches : List (NearestSearch P K) := []

structure LaserMapping (P K : Type) where
  /-- `LocalMap_Points`, once `Localmap_Initialized`. -/
  localMapPoints : Option (BoxPointType K) := none
  /-- Before `Build` there is no `Root_Node`. -/
  ikdtree : Option (KdTree P K) := none

def movThreshold : K := 1.5

def numMatchPoints : ℕ := 5

section Cube

variable (params : MappingParams P K) (box : BoxPointType K) (posLid : Vec3 K) (axis : Axis)

/-- `dist_to_map_edge[i][0]` calls for a move. -/
def BoxPointType.NearMin : Prop :=
  |posLid.get axis - box.vertexMin.get axis| ≤ movThreshold * params.detRange

instance : Decidable (box.NearMin params posLid axis) := inferInstanceAs (Decidable (_ ≤ _))

/-- `dist_to_map_edge[i][1]` calls for a move. -/
def BoxPointType.NearMax : Prop :=
  |posLid.get axis - box.vertexMax.get axis| ≤ movThreshold * params.detRange

instance : Decidable (box.NearMax params posLid axis) := inferInstanceAs (Decidable (_ ≤ _))

def MappingParams.movDist : K :=
  max ((params.cubeLen - 2 * movThreshold * params.detRange) * 0.5 * 0.9)
    (params.detRange * (movThreshold - 1))

def MappingParams.firstCube : BoxPointType K where
  vertexMin := Vec3.ofAxes fun axis => posLid.get axis - params.cubeLen / 2
  vertexMax := Vec3.ofAxes fun axis => posLid.get axis + params.cubeLen / 2

def BoxPointType.move : K :=
  if box.NearMin params posLid axis then -params.movDist
  else if box.NearMax params posLid axis then params.movDist
  else 0

def BoxPointType.moved : BoxPointType K where
  vertexMin := Vec3.ofAxes fun axis => box.vertexMin.get axis + box.move params posLid axis
  vertexMax := Vec3.ofAxes fun axis => box.vertexMax.get axis + box.move params posLid axis

/-- `tmp_boxpoints`: what a move along an axis leaves behind. -/
def BoxPointType.tmpBoxpoints : Option (BoxPointType K) :=
  if box.NearMin params posLid axis then
    some { box with vertexMin := Vec3.ofAxes fun i =>
      if i = axis then box.vertexMax.get axis - params.movDist else box.vertexMin.get i }
  else if box.NearMax params posLid axis then
    some { box with vertexMax := Vec3.ofAxes fun i =>
      if i = axis then box.vertexMin.get axis + params.movDist else box.vertexMax.get i }
  else none

def BoxPointType.cubNeedrm : List (BoxPointType K) :=
  [Axis.x, .y, .z].filterMap (box.tmpBoxpoints params posLid)

end Cube

/-- `acquire_removed_points`: the tree and what was removed from it, without the list of the
thread. -/
def KdTree.acquireRemovedPoints (t : KdTree P K) : KdTree P K × List P :=
  ({ t with shared := { t.shared with pointsDeleted := [] } }, t.shared.pointsDeleted)

/-- `lasermap_fov_segment`. The history of the removed points is not used. -/
def LaserMapping.lasermapFovSegment (params : MappingParams P K) (posLid : Vec3 K)
    (s : LaserMapping P K) : LaserMapping P K :=
  match s.localMapPoints with
  | none => { s with localMapPoints := some (params.firstCube posLid) }
  | some box =>
      if ∀ axis, ¬box.NearMin params posLid axis ∧ ¬box.NearMax params posLid axis then s
      else
        { localMapPoints := some (box.moved params posLid)
          ikdtree := s.ikdtree.map fun t =>
            (t.acquireRemovedPoints.1.deletePointBoxes params.tree
              (box.cubNeedrm params posLid)).1 }

/-- What `map_incremental` does with a point. -/
inductive Increment
  | skip
  | pointToAdd
  | pointNoNeedDownsample
  deriving DecidableEq

def MappingParams.increment (params : MappingParams P K) (ekfInited : Bool) (point : P)
    (pointsNear : List P) : Increment :=
  match pointsNear with
  | [] => .pointToAdd
  | near :: _ =>
      if ekfInited then
        let size := params.tree.downsampleSize
        let midPoint := Vec3.ofAxes fun axis =>
          ⌊(pos point).get axis / size⌋ * size + 0.5 * size
        if ∀ axis, 0.5 * size < |(pos near).get axis - midPoint.get axis| then
          .pointNoNeedDownsample
        else if numMatchPoints ≤ pointsNear.length ∧ ∃ q ∈ pointsNear.take numMatchPoints,
            calcDist (pos q) midPoint < calcDist (pos point) midPoint then .skip
        else .pointToAdd
      else .pointToAdd

/-- The points of a scan that `map_incremental` treats alike. -/
def Scan.chosen (params : MappingParams P K) (scan : Scan P K) (increment : Increment) : List P :=
  (scan.features.filter fun feature =>
    params.increment scan.ekfInited feature.1 feature.2 = increment).map Prod.fst

def KdTree.afterSearches (searches : List (NearestSearch P K)) (t : KdTree P K) : KdTree P K :=
  searches.foldl (fun t search => t.nearestSearch search) t

def KdTree.mapIncremental (params : MappingParams P K) (scan : Scan P K) (t : KdTree P K) :
    KdTree P K :=
  let t := (t.addPoints params.tree true (scan.chosen params .pointToAdd)).1
  (t.addPoints params.tree false (scan.chosen params .pointNoNeedDownsample)).1

namespace LaserMapping

def afterThread (thread : Shared P K → Shared P K) (s : LaserMapping P K) : LaserMapping P K :=
  { s with ikdtree := s.ikdtree.map fun t => { t with shared := thread t.shared } }

def update (params : MappingParams P K) (s : LaserMapping P K) (scan : Scan P K) :
    LaserMapping P K :=
  let s := (s.afterThread scan.thread).lasermapFovSegment params scan.posLid
  match s.ikdtree with
  | none =>
      if 5 < scan.features.length then
        { s with ikdtree := some (KdTree.build params.tree (scan.features.map Prod.fst)) }
      else s
  | some t =>
      if scan.features.length < 5 then s
      else { s with ikdtree := some ((t.afterSearches scan.searches).mapIncremental params scan) }

def run (params : MappingParams P K) (scans : List (Scan P K)) : LaserMapping P K :=
  scans.foldl (update params) {}

def visible (s : LaserMapping P K) : List P := s.ikdtree.elim [] fun t => t.root.visible

def InLocalMap (s : LaserMapping P K) (v : Vec3 K) : Prop :=
  ∃ box, s.localMapPoints = some box ∧ box.Contains v

end LaserMapping

end

section

variable [Field K] [LinearOrder K]
variable {params : MappingParams P K}

section Moves

variable {box : BoxPointType K} {posLid v : Vec3 K}

theorem BoxPointType.mem_cubNeedrm {left : BoxPointType K} :
    left ∈ box.cubNeedrm params posLid ↔
      ∃ axis, box.tmpBoxpoints params posLid axis = some left := by
  unfold cubNeedrm
  rw [List.mem_filterMap]
  refine ⟨fun ⟨axis, _, same⟩ => ⟨axis, same⟩, fun ⟨axis, same⟩ => ⟨axis, ?_, same⟩⟩
  cases axis <;> simp only [List.mem_cons, true_or, or_true]

variable [IsStrictOrderedRing K]

theorem MappingParams.movDist_nonneg (reach : 0 ≤ params.detRange) : 0 ≤ params.movDist :=
  le_max_of_le_right (mul_nonneg reach (by norm_num [movThreshold]))

theorem BoxPointType.exists_cubNeedrm (reach : 0 ≤ params.detRange) (inside : box.Contains v)
    (outside : ¬(box.moved params posLid).Contains v) :
    ∃ left ∈ box.cubNeedrm params posLid, left.Contains v := by
  have far := params.movDist_nonneg reach
  obtain ⟨axis, left⟩ := not_forall.mp outside
  obtain ⟨low, high⟩ := inside axis
  simp only [moved, Vec3.get_ofAxes, move] at left
  by_cases nearMin : box.NearMin params posLid axis
  · rw [if_pos nearMin] at left
    have edge : box.vertexMax.get axis - params.movDist ≤ v.get axis := by
      by_contra below
      exact left ⟨by linarith, by linarith⟩
    refine ⟨_, mem_cubNeedrm.mpr ⟨axis, if_pos nearMin⟩, fun i => ⟨?_, (inside i).2⟩⟩
    rw [Vec3.get_ofAxes]
    split
    · next same => exact same ▸ edge
    · exact (inside i).1
  · rw [if_neg nearMin] at left
    by_cases nearMax : box.NearMax params posLid axis
    · rw [if_pos nearMax] at left
      have edge : v.get axis < box.vertexMin.get axis + params.movDist := by
        by_contra above
        exact left ⟨by linarith, by linarith⟩
      refine ⟨_, mem_cubNeedrm.mpr ⟨axis, (if_neg nearMin).trans (if_pos nearMax)⟩,
        fun i => ⟨(inside i).1, ?_⟩⟩
      rw [Vec3.get_ofAxes]
      split
      · next same => exact same ▸ edge
      · exact (inside i).2
    · rw [if_neg nearMax, add_zero, add_zero] at left
      exact absurd ⟨low, high⟩ left

theorem BoxPointType.not_contains_cubNeedrm (inside : (box.moved params posLid).Contains v) :
    ∀ left ∈ box.cubNeedrm params posLid, ¬left.Contains v := by
  intro left member contained
  obtain ⟨axis, same⟩ := mem_cubNeedrm.mp member
  have here := inside axis
  simp only [moved, Vec3.get_ofAxes, move] at here
  unfold tmpBoxpoints at same
  split at same
  · next nearMin =>
      have edge := (Option.some.inj same ▸ contained) axis
      rw [Vec3.get_ofAxes, if_pos rfl] at edge
      rw [if_pos nearMin] at here
      linarith [edge.1, here.2]
  · next nearMin =>
      rw [if_neg nearMin] at here
      split at same
      · next nearMax =>
          have edge := (Option.some.inj same ▸ contained) axis
          rw [Vec3.get_ofAxes, if_pos rfl] at edge
          rw [if_pos nearMax] at here
          linarith [edge.2, here.1]
      · cases same

end Moves

section Adding

variable {size : K} {points before after : List P} {p : P} [PointType P K] [FloorRing K]

theorem Scan.mem_of_chosen {scan : Scan P K} {increment : Increment}
    (member : p ∈ scan.chosen params increment) : p ∈ scan.features.map Prod.fst := by
  obtain ⟨feature, inside, rfl⟩ := List.mem_map.mp member
  exact List.mem_map_of_mem (List.mem_filter.mp inside).1

variable [IsStrictOrderedRing K]

theorem DownsampledAll.mem (positive : 0 < size)
    (changed : DownsampledAll size points before after) (member : p ∈ after) :
    p ∈ before ∨ p ∈ points := by
  obtain ⟨untouched, touched⟩ := changed (pos p)
  have here : p ∈ inCell size (pos p) after :=
    List.mem_filter.mpr ⟨member, decide_eq_true (contains_cell_self positive _)⟩
  by_cases nothing : inCell size (pos p) points = []
  · exact .inl (List.mem_filter.mp ((untouched nothing).mem_iff.mp here)).1
  · obtain ⟨kept, only, closest⟩ := touched nothing
    have among := closest.mem
    rw [only, List.mem_singleton] at here
    rw [← here] at among
    exact List.mem_append.mp (List.mem_filter.mp among).1

theorem DownsampledAll.keeps (positive : 0 < size)
    (changed : DownsampledAll size points before after) (member : p ∈ before)
    (apart : ∀ q ∈ points, ¬(BoxPointType.cell size (pos p)).Contains (pos q)) : p ∈ after := by
  have nothing : inCell size (pos p) points = [] :=
    List.filter_eq_nil_iff.mpr fun q inside => mt of_decide_eq_true (apart q inside)
  have here : p ∈ inCell size (pos p) before :=
    List.mem_filter.mpr ⟨member, decide_eq_true (contains_cell_self positive _)⟩
  exact (List.mem_filter.mp (((changed (pos p)).1 nothing).mem_iff.mpr here)).1

end Adding

end

section

variable [PointType P K] [Field K] [LinearOrder K] [FloorRing K] [IsStrictOrderedRing K]
variable {params : MappingParams P K}

def Scan.SparesCell (params : MappingParams P K) (scan : Scan P K) (v : Vec3 K) : Prop :=
  ∀ q ∈ scan.chosen params .pointToAdd,
    ¬(BoxPointType.cell params.tree.downsampleSize v).Contains (pos q)

theorem KdTree.mapIncremental_spec (positive : 0 < params.tree.downsampleSize) {t : KdTree P K}
    (built : t.Built) (scan : Scan P K) :
    (t.mapIncremental params scan).Built ∧
      (∀ p ∈ (t.mapIncremental params scan).root.visible,
        p ∈ t.root.visible ∨ p ∈ scan.features.map Prod.fst) ∧
      ∀ p ∈ t.root.visible, scan.SparesCell params (pos p) →
        p ∈ (t.mapIncremental params scan).root.visible := by
  obtain ⟨first, changed⟩ := addPoints_spec positive built (scan.chosen params .pointToAdd)
  obtain ⟨last, same⟩ := addPoints_all params.tree first (scan.chosen params .pointNoNeedDownsample)
  refine ⟨last, fun p member => ?_, fun p member spared => ?_⟩
  · rcases List.mem_append.mp (same.mem_iff.mp member) with added | member
    · exact .inr (Scan.mem_of_chosen added)
    · exact (changed.mem positive member).imp_right Scan.mem_of_chosen
  · exact same.mem_iff.mpr (List.mem_append_right _ (changed.keeps positive member spared))

end

theorem KdTree.Built.afterSearches [PointType P K] [LinearOrder K] {t : KdTree P K}
    (built : t.Built) (searches : List (NearestSearch P K)) :
    (t.afterSearches searches).Built ∧
      (t.afterSearches searches).root.visible = t.root.visible := by
  induction searches generalizing t with
  | nil => exact ⟨built, rfl⟩
  | cons search searches ih =>
      have visited := search_visited search.visits [] built.sound
      obtain ⟨last, same⟩ := ih (t := t.nearestSearch search)
        ⟨visited.sound, visited.isNil.trans built.isNil⟩
      exact ⟨last, same.trans visited.visible⟩

theorem KdTree.Built.acquireRemovedPoints [PointType P K] [LinearOrder K] {t : KdTree P K}
    (built : t.Built) : t.acquireRemovedPoints.1.Built := ⟨built.sound, built.isNil⟩

variable {params : MappingParams P K}

namespace LaserMapping

variable {s : LaserMapping P K} {p : P}

@[simp] theorem afterThread_visible (s : LaserMapping P K) (thread : Shared P K → Shared P K) :
    (s.afterThread thread).visible = s.visible := by
  unfold visible afterThread
  cases s.ikdtree <;> rfl

section

variable [PointType P K] [Field K] [LinearOrder K]

/-- The cube has its size, and the tree is a tree that has been built. -/
structure Sound (params : MappingParams P K) (s : LaserMapping P K) : Prop where
  cube : ∀ box, s.localMapPoints = some box →
    ∀ axis, box.vertexMax.get axis - box.vertexMin.get axis = params.cubeLen
  tree : ∀ t, s.ikdtree = some t → t.Built

/-- A place is in the cube, or nothing that has been left there is visible. -/
def Clear (s : LaserMapping P K) (p : P) : Prop := s.InLocalMap (pos p) ∨ p ∉ s.visible

theorem afterThread_sound (sound : s.Sound params) (thread : Shared P K → Shared P K) :
    (s.afterThread thread).Sound params := by
  refine ⟨sound.cube, fun t same => ?_⟩
  obtain ⟨before, here, rfl⟩ := Option.map_eq_some_iff.mp same
  have built := sound.tree before here
  exact ⟨built.sound, built.isNil⟩

theorem mem_visible_deleted {boxes : List (BoxPointType K)} {cube : Option (BoxPointType K)}
    (sound : s.Sound params) :
    p ∈ visible ⟨cube, s.ikdtree.map fun t =>
        (t.acquireRemovedPoints.1.deletePointBoxes params.tree boxes).1⟩ ↔
      p ∈ s.visible ∧ ∀ box ∈ boxes, ¬box.Contains (pos p) := by
  unfold visible
  dsimp only
  cases here : s.ikdtree with
  | none => exact ⟨fun member => absurd member List.not_mem_nil, fun member => member.1⟩
  | some t =>
      have built := (sound.tree t here).acquireRemovedPoints
      have same := (KdTree.deletePointBoxes_spec params.tree built boxes).2.1
      refine same.mem_iff.trans ?_
      rw [List.mem_filter, decide_eq_true_iff]
      rfl

end

section

variable [PointType P K] [Field K] [LinearOrder K] [FloorRing K]

theorem lasermapFovSegment_sound (sound : s.Sound params) (posLid : Vec3 K) :
    (s.lasermapFovSegment params posLid).Sound params := by
  unfold lasermapFovSegment
  split
  · refine ⟨fun box same axis => ?_, sound.tree⟩
    obtain rfl := Option.some.inj same
    simp only [MappingParams.firstCube, Vec3.get_ofAxes]
    ring
  · next box found =>
      split
      · exact sound
      · refine ⟨fun after same axis => ?_, fun t same => ?_⟩
        · obtain rfl := Option.some.inj same
          simp only [BoxPointType.moved, Vec3.get_ofAxes, add_sub_add_right_eq_sub]
          exact sound.cube box found axis
        · obtain ⟨before, here, rfl⟩ := Option.map_eq_some_iff.mp same
          have built := sound.tree before here
          exact (KdTree.deletePointBoxes_spec params.tree built.acquireRemovedPoints _).1

/-- What a scan does once the cube has moved. -/
inductive Updated (params : MappingParams P K) (scan : Scan P K) (before : LaserMapping P K) :
    LaserMapping P K → Prop
  | skipped : Updated params scan before before
  | built : before.ikdtree = none → scan.features.map Prod.fst ≠ [] →
      Updated params scan before
        { before with ikdtree := some (KdTree.build params.tree (scan.features.map Prod.fst)) }
  | added {t} : before.ikdtree = some t →
      Updated params scan before
        { before with ikdtree := some ((t.afterSearches scan.searches).mapIncremental params scan) }

theorem update_updated (params : MappingParams P K) (s : LaserMapping P K) (scan : Scan P K) :
    Updated params scan ((s.afterThread scan.thread).lasermapFovSegment params scan.posLid)
      (s.update params scan) := by
  unfold update
  dsimp only
  generalize (s.afterThread scan.thread).lasermapFovSegment params scan.posLid = before
  cases here : before.ikdtree with
  | none =>
      dsimp only
      split
      · next enough =>
          refine .built here fun empty => ?_
          rw [List.map_eq_nil_iff.mp empty] at enough
          exact absurd enough (Nat.not_lt_zero 5)
      · exact .skipped
  | some t =>
      dsimp only
      split
      · exact .skipped
      · exact .added here

section Updated

variable {scan : Scan P K} {before after : LaserMapping P K}

theorem Updated.localMapPoints (updated : Updated params scan before after) :
    after.localMapPoints = before.localMapPoints := by
  cases updated <;> rfl

variable [IsStrictOrderedRing K]

theorem Updated.added_spec (positive : 0 < params.tree.downsampleSize)
    (sound : before.Sound params) {t : KdTree P K} (here : before.ikdtree = some t) :
    ((t.afterSearches scan.searches).mapIncremental params scan).Built ∧
      (∀ p ∈ ((t.afterSearches scan.searches).mapIncremental params scan).root.visible,
        p ∈ t.root.visible ∨ p ∈ scan.features.map Prod.fst) ∧
      ∀ p ∈ t.root.visible, scan.SparesCell params (pos p) →
        p ∈ ((t.afterSearches scan.searches).mapIncremental params scan).root.visible := by
  obtain ⟨built, same⟩ := (sound.tree t here).afterSearches scan.searches
  rw [← same]
  exact KdTree.mapIncremental_spec positive built scan

theorem Updated.sound (updated : Updated params scan before after)
    (positive : 0 < params.tree.downsampleSize) (sound : before.Sound params) :
    after.Sound params := by
  cases updated with
  | skipped => exact sound
  | built none filled =>
      refine ⟨sound.cube, fun t same => ?_⟩
      obtain rfl := Option.some.inj same
      exact (KdTree.build_built params.tree filled).1
  | added here =>
      refine ⟨sound.cube, fun t same => ?_⟩
      obtain rfl := Option.some.inj same
      exact (added_spec positive sound here).1

theorem Updated.visible_imp (updated : Updated params scan before after)
    (positive : 0 < params.tree.downsampleSize) (sound : before.Sound params)
    (member : p ∈ after.visible) : p ∈ before.visible ∨ p ∈ scan.features.map Prod.fst := by
  cases updated with
  | skipped => exact .inl member
  | built none filled => exact .inr ((KdTree.build_built params.tree filled).2.mem_iff.mp member)
  | added here =>
      rw [visible, here]
      exact (added_spec positive sound here).2.1 p member

theorem Updated.keeps (updated : Updated params scan before after)
    (positive : 0 < params.tree.downsampleSize) (sound : before.Sound params)
    (member : p ∈ before.visible) (spared : scan.SparesCell params (pos p)) :
    p ∈ after.visible := by
  cases updated with
  | skipped => exact member
  | built none filled =>
      rw [visible, none] at member
      exact absurd member List.not_mem_nil
  | added here =>
      rw [visible, here] at member
      exact (added_spec positive sound here).2.2 p member spared

end Updated

theorem run_append (early late : List (Scan P K)) :
    run params (early ++ late) = late.foldl (update params) (run params early) :=
  List.foldl_append

end

variable [PointType P K] [Field K] [LinearOrder K] [IsStrictOrderedRing K]

theorem lasermapFovSegment_clear (reach : 0 ≤ params.detRange) (sound : s.Sound params)
    (posLid : Vec3 K) (clear : s.Clear p) : (s.lasermapFovSegment params posLid).Clear p := by
  unfold lasermapFovSegment
  split
  · next none =>
      refine .inr (clear.resolve_left fun ⟨box, found, _⟩ => ?_)
      exact Option.some_ne_none box (found.symm.trans none)
  · next box found =>
      split
      · exact clear
      · by_cases inside : (box.moved params posLid).Contains (pos p)
        · exact .inl ⟨_, rfl, inside⟩
        · refine .inr fun member => ?_
          obtain ⟨before, outside⟩ := (mem_visible_deleted sound).mp member
          obtain ⟨cube, same, contained⟩ := clear.resolve_right (not_not_intro before)
          obtain rfl := Option.some.inj (found.symm.trans same)
          obtain ⟨left, among, there⟩ := box.exists_cubNeedrm reach contained inside
          exact outside left among there

theorem lasermapFovSegment_keeps (sound : s.Sound params) (posLid : Vec3 K)
    (member : p ∈ s.visible) (inside : (s.lasermapFovSegment params posLid).InLocalMap (pos p)) :
    p ∈ (s.lasermapFovSegment params posLid).visible := by
  unfold lasermapFovSegment at inside ⊢
  split at inside
  · exact member
  · next box found =>
      split at inside
      · next still => exact (if_pos still).symm ▸ member
      · next need =>
          obtain ⟨cube, same, contained⟩ := inside
          obtain rfl := Option.some.inj same
          rw [if_neg need]
          exact (mem_visible_deleted sound).mpr
            ⟨member, BoxPointType.not_contains_cubNeedrm contained⟩

variable [FloorRing K]

theorem update_sound (positive : 0 < params.tree.downsampleSize) (sound : s.Sound params)
    (scan : Scan P K) : (s.update params scan).Sound params :=
  (update_updated params s scan).sound positive
    (lasermapFovSegment_sound (afterThread_sound sound scan.thread) scan.posLid)

theorem update_clear (reach : 0 ≤ params.detRange) (positive : 0 < params.tree.downsampleSize)
    (sound : s.Sound params) {scan : Scan P K} (absent : p ∉ scan.features.map Prod.fst)
    (clear : s.Clear p) : (s.update params scan).Clear p := by
  have updated := update_updated params s scan
  have sound := afterThread_sound sound scan.thread
  have before : (s.afterThread scan.thread).Clear p :=
    clear.imp_right fun gone => (s.afterThread_visible scan.thread).symm ▸ gone
  rcases lasermapFovSegment_clear reach sound scan.posLid before with inside | gone
  · obtain ⟨box, found, contained⟩ := inside
    exact .inl ⟨box, updated.localMapPoints.trans found, contained⟩
  · refine .inr fun member => ?_
    have moved := lasermapFovSegment_sound sound scan.posLid
    exact (updated.visible_imp positive moved member).elim gone absent

theorem update_keeps (positive : 0 < params.tree.downsampleSize) (sound : s.Sound params)
    {scan : Scan P K} (member : p ∈ s.visible)
    (inside : (s.update params scan).InLocalMap (pos p))
    (spared : scan.SparesCell params (pos p)) : p ∈ (s.update params scan).visible := by
  have updated := update_updated params s scan
  have sound := afterThread_sound sound scan.thread
  obtain ⟨box, found, contained⟩ := inside
  rw [← s.afterThread_visible scan.thread] at member
  have moved := lasermapFovSegment_keeps sound scan.posLid member
    ⟨box, updated.localMapPoints.symm.trans found, contained⟩
  exact updated.keeps positive (lasermapFovSegment_sound sound scan.posLid) moved spared

theorem foldl_sound (positive : 0 < params.tree.downsampleSize) (sound : s.Sound params)
    (scans : List (Scan P K)) : (scans.foldl (update params) s).Sound params := by
  induction scans generalizing s with
  | nil => exact sound
  | cons scan scans ih => exact ih (update_sound positive sound scan)

theorem foldl_clear (reach : 0 ≤ params.detRange) (positive : 0 < params.tree.downsampleSize)
    (sound : s.Sound params) (clear : s.Clear p) {scans : List (Scan P K)}
    (absent : ∀ scan ∈ scans, p ∉ scan.features.map Prod.fst) :
    (scans.foldl (update params) s).Clear p := by
  induction scans generalizing s with
  | nil => exact clear
  | cons scan scans ih =>
      obtain ⟨first, rest⟩ := List.forall_mem_cons.mp absent
      exact ih (update_sound positive sound scan) (update_clear reach positive sound first clear)
        rest

theorem foldl_keeps (positive : 0 < params.tree.downsampleSize) (sound : s.Sound params)
    (member : p ∈ s.visible) {scans : List (Scan P K)}
    (inside : ∀ part, part <+: scans → part ≠ [] →
      (part.foldl (update params) s).InLocalMap (pos p))
    (spared : ∀ scan ∈ scans, scan.SparesCell params (pos p)) :
    p ∈ (scans.foldl (update params) s).visible := by
  induction scans generalizing s with
  | nil => exact member
  | cons scan scans ih =>
      obtain ⟨first, rest⟩ := List.forall_mem_cons.mp spared
      have here := inside [scan] ⟨scans, rfl⟩ (List.cons_ne_nil _ _)
      refine ih (update_sound positive sound scan) (update_keeps positive sound member here first)
        (fun part among _ => ?_) rest
      exact inside (scan :: part) ((List.prefix_cons_inj scan).mpr among) (List.cons_ne_nil _ _)

theorem run_sound (positive : 0 < params.tree.downsampleSize) (scans : List (Scan P K)) :
    (run params scans).Sound params :=
  foldl_sound positive ⟨fun _ none => (Option.some_ne_none _ none.symm).elim,
    fun _ none => (Option.some_ne_none _ none.symm).elim⟩ scans

/-- The local map between two moments of a run. -/
structure Follows (params : MappingParams P K) (early late : List (Scan P K)) (p : P) : Prop where
  cube : ∀ box, (run params (early ++ late)).localMapPoints = some box →
    ∀ axis, box.vertexMax.get axis - box.vertexMin.get axis = params.cubeLen
  leaves : (run params early).InLocalMap (pos p) →
    (∀ scan ∈ late, p ∉ scan.features.map Prod.fst) →
    p ∈ (run params (early ++ late)).visible → (run params (early ++ late)).InLocalMap (pos p)
  keeps : p ∈ (run params early).visible →
    (∀ part, part <+: late → part ≠ [] → (run params (early ++ part)).InLocalMap (pos p)) →
    (∀ scan ∈ late, scan.SparesCell params (pos p)) → p ∈ (run params (early ++ late)).visible

def shortRange : MappingParams (Vec3 ℚ) ℚ := ⟨20, 2, smallMap⟩

def standing : Scan (Vec3 ℚ) ℚ where
  posLid := 0
  ekfInited := false
  features := [⟨-5, 0, 0⟩, ⟨5, 0, 0⟩, ⟨5, 1, 0⟩, ⟨5, 2, 0⟩, ⟨5, 3, 0⟩, ⟨5, 4, 0⟩].map fun p =>
    (p, [])

def atTheEdge : Scan (Vec3 ℚ) ℚ where
  posLid := ⟨8, 0, 0⟩
  ekfInited := true
  features := [⟨12, 0, 0⟩, ⟨12, 1, 0⟩, ⟨12, 2, 0⟩, ⟨12, 3, 0⟩, ⟨12, 4, 0⟩].map fun p =>
    (p, [⟨5, 0, 0⟩])
  searches := [{ visits := fun _ => true }]

/-- A point that the cube has left behind is not visible again unless a scan brings it back, and a
point that stays in the cube is visible until another one takes its cell. -/
theorem localMap_follows (reach : 0 ≤ params.detRange)
    (positive : 0 < params.tree.downsampleSize) (early late : List (Scan P K)) (p : P) :
    Follows params early late p where
  cube := (run_sound positive (early ++ late)).cube
  leaves inside absent member := by
    have clear := foldl_clear reach positive (run_sound positive early) (.inl inside) absent
    rw [← run_append] at clear
    exact clear.resolve_right (not_not_intro member)
  keeps member inside spared := by
    rw [run_append]
    refine foldl_keeps positive (run_sound positive early) member (fun part among longer => ?_)
      spared
    rw [← run_append]
    exact inside part among longer

theorem localMap_follows_atTheEdge : Follows shortRange [standing] [atTheEdge] ⟨-5, 0, 0⟩ :=
  localMap_follows (by norm_num [shortRange]) (by norm_num [shortRange, smallMap]) _ _ _

end LaserMapping

end RobocupDrone.Odometry
