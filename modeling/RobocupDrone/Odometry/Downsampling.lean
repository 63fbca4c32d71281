import Mathlib.Algebra.Order.Floor.Ring
import Mathlib.Data.Rat.Floor
import Mathlib.Tactic.Linarith
import RobocupDrone.Odometry.TreeChanges

/-! `Add_Points`: with downsampling a cell of the grid keeps the point closest to its middle. -/

namespace RobocupDrone.Odometry

open Geometry

variable {P K : Type} [PointType P K] [LinearOrder K]

/-- A tree that has been built: its fields fit, and there is a root. -/
structure KdTree.Built (t : KdTree P K) : Prop where
  sound : t.root.Sound
  isNil : t.root.isNil = false

theorem KdTree.validnum_spec {t : KdTree P K} (built : t.Built) (workingLocked : Bool) :
    t.validnum workingLocked =
      if t.shared.hands [] t.root && workingLocked then -1 else (t.root.visible.length : ℤ) := by
  have counted := built.sound.counted
  rw [validnum]
  split
  · rfl
  · omega

variable [Field K]

section

variable [IsStrictOrderedRing K] [FloorRing K]

section Cells

variable {size : K}

theorem contains_cell_iff (positive : 0 < size) (v w : Vec3 K) :
    (BoxPointType.cell size v).Contains w ↔
      ∀ axis, ⌊w.get axis / size⌋ = ⌊v.get axis / size⌋ := by
  refine forall_congr' fun axis => ?_
  simp only [BoxPointType.cell, Vec3.get_ofAxes]
  rw [Int.floor_eq_iff, le_div_iff₀ positive, div_lt_iff₀ positive, add_one_mul]

theorem contains_cell_self (positive : 0 < size) (v : Vec3 K) :
    (BoxPointType.cell size v).Contains v :=
  (contains_cell_iff positive v v).mpr fun _ => rfl

theorem cell_eq_of_contains (positive : 0 < size) {v w : Vec3 K}
    (contained : (BoxPointType.cell size v).Contains w) :
    BoxPointType.cell size w = BoxPointType.cell size v := by
  have same := (contains_cell_iff positive v w).mp contained
  simp only [BoxPointType.cell, same]

end Cells

/-- A point of the list that is no farther from the middle than any other. -/
structure Closest (midPoint : Vec3 K) (points : List P) (kept : P) : Prop where
  mem : kept ∈ points
  least : ∀ q ∈ points, calcDist (pos kept) midPoint ≤ calcDist (pos q) midPoint

end

theorem Closest.congr {midPoint : Vec3 K} {a b : List P} {kept : P}
    (closest : Closest midPoint a kept) (same : ∀ q, q ∈ a ↔ q ∈ b) : Closest midPoint b kept :=
  ⟨(same kept).mp closest.mem, fun q member => closest.least q ((same q).mpr member)⟩

theorem Closest.append {midPoint : Vec3 K} {a b : List P} {first kept : P}
    (closest : Closest midPoint a first) (last : Closest midPoint (first :: b) kept) :
    Closest midPoint (a ++ b) kept where
  mem := by
    rcases List.mem_cons.mp last.mem with same | member
    · exact List.mem_append_left _ (same ▸ closest.mem)
    · exact List.mem_append_right _ member
  least q member := by
    rcases List.mem_append.mp member with member | member
    · exact (last.least first List.mem_cons_self).trans (closest.least q member)
    · exact last.least q (List.mem_cons_of_mem _ member)

theorem downsampleResult_closest (midPoint : Vec3 K) (point : P) (storage : List P) :
    Closest midPoint (point :: storage) (downsampleResult midPoint point storage) := by
  induction storage generalizing point with
  | nil =>
      exact ⟨List.mem_singleton_self _, fun q member => (List.mem_singleton.mp member) ▸ le_rfl⟩
  | cons p storage ih =>
      have step : downsampleResult midPoint point (p :: storage) = downsampleResult midPoint
          (if calcDist (pos p) midPoint < calcDist (pos point) midPoint then p else point)
          storage := rfl
      rw [step]
      split
      · next closer =>
          obtain ⟨member, least⟩ := ih p
          refine ⟨List.mem_cons_of_mem _ member, fun q inside => ?_⟩
          rcases List.mem_cons.mp inside with rfl | inside
          · exact (least p List.mem_cons_self).trans closer.le
          · exact least q inside
      · next farther =>
          obtain ⟨member, least⟩ := ih point
          refine ⟨?_, fun q inside => ?_⟩
          · rcases List.mem_cons.mp member with same | later
            · rw [same]
              exact List.mem_cons_self
            · exact List.mem_cons_of_mem _ (List.mem_cons_of_mem _ later)
          · rcases List.mem_cons.mp inside with rfl | inside
            · exact least _ List.mem_cons_self
            · rcases List.mem_cons.mp inside with rfl | inside
              · exact (least point List.mem_cons_self).trans (not_lt.mp farther)
              · exact least q (List.mem_cons_of_mem _ inside)

section

variable [FloorRing K]

def inCell (size : K) (v : Vec3 K) (points : List P) : List P :=
  points.filter fun p => decide ((BoxPointType.cell size v).Contains (pos p))

theorem inCell_append (size : K) (v : Vec3 K) (a b : List P) :
    inCell size v (a ++ b) = inCell size v a ++ inCell size v b := List.filter_append ..

/-- One point has been added with downsampling: its cell keeps a closest point, and nothing else
has changed. -/
def Downsampled (size : K) (point : P) (before after : List P) : Prop :=
  ∃ kept, Closest (BoxPointType.cell size (pos point)).midPoint
      (point :: inCell size (pos point) before) kept ∧
    after.Perm (kept :: before.filter fun p =>
      decide ¬(BoxPointType.cell size (pos point)).Contains (pos p))

/-- Points have been added with downsampling: a cell with one of them keeps a closest point of it,
and the other cells have not changed. -/
def DownsampledAll (size : K) (points before after : List P) : Prop :=
  ∀ v : Vec3 K,
    (inCell size v points = [] → (inCell size v after).Perm (inCell size v before)) ∧
      (inCell size v points ≠ [] → ∃ kept, inCell size v after = [kept] ∧
        Closest (BoxPointType.cell size v).midPoint (inCell size v (before ++ points)) kept)

section Lists

variable {size : K} {point : P} {points before middle after : List P} (positive : 0 < size)
variable [IsStrictOrderedRing K]

include positive
theorem Downsampled.same_cell (changed : Downsampled size point before middle) {v : Vec3 K}
    (inside : (BoxPointType.cell size v).Contains (pos point)) :
    ∃ kept, inCell size v middle = [kept] ∧
      Closest (BoxPointType.cell size v).midPoint (point :: inCell size v before) kept := by
  obtain ⟨kept, closest, same⟩ := changed
  have cells := cell_eq_of_contains positive inside
  have cell : inCell size (pos point) before = inCell size v before := by rw [inCell, cells]; rfl
  rw [cells, cell] at closest
  rw [cells] at same
  refine ⟨kept, ?_, closest⟩
  have within : (BoxPointType.cell size v).Contains (pos kept) := by
    rcases List.mem_cons.mp closest.mem with rfl | member
    · exact inside
    · exact of_decide_eq_true (List.mem_filter.mp member).2
  have filtered := same.filter fun p => decide ((BoxPointType.cell size v).Contains (pos p))
  have nothing : (before.filter fun p => decide ((BoxPointType.cell size v).Contains (pos p)) &&
      decide ¬(BoxPointType.cell size v).Contains (pos p)) = [] :=
    List.filter_eq_nil_iff.mpr fun p _ => by simp
  rw [List.filter_cons, if_pos (decide_eq_true within), List.filter_filter, nothing] at filtered
  exact List.perm_singleton.mp filtered

theorem Downsampled.other_cell (changed : Downsampled size point before middle) {v : Vec3 K}
    (outside : ¬(BoxPointType.cell size v).Contains (pos point)) :
    (inCell size v middle).Perm (inCell size v before) := by
  obtain ⟨kept, closest, same⟩ := changed
  have apart : ∀ w, (BoxPointType.cell size (pos point)).Contains w →
      ¬(BoxPointType.cell size v).Contains w := fun w here there => by
    refine outside ?_
    rw [← cell_eq_of_contains positive there, cell_eq_of_contains positive here]
    exact contains_cell_self positive _
  have within : (BoxPointType.cell size (pos point)).Contains (pos kept) := by
    rcases List.mem_cons.mp closest.mem with rfl | member
    · exact contains_cell_self positive _
    · exact of_decide_eq_true (List.mem_filter.mp member).2
  have filtered := same.filter fun p => decide ((BoxPointType.cell size v).Contains (pos p))
  rw [List.filter_cons, if_neg (mt of_decide_eq_true (apart _ within)), List.filter_filter]
    at filtered
  refine filtered.trans (List.Perm.of_eq (List.filter_congr fun p _ => ?_))
  by_cases there : (BoxPointType.cell size v).Contains (pos p)
  · have elsewhere : ¬(BoxPointType.cell size (pos point)).Contains (pos p) :=
      fun here => apart (pos p) here there
    rw [decide_eq_true there, decide_eq_true elsewhere]
    rfl
  · rw [decide_eq_false there]
    rfl

theorem Downsampled.cons (first : Downsampled size point before middle)
    (rest : DownsampledAll size points middle after) :
    DownsampledAll size (point :: points) before after := by
  intro v
  obtain ⟨untouched, touched⟩ := rest v
  by_cases inside : (BoxPointType.cell size v).Contains (pos point)
  · have member : inCell size v (point :: points) = point :: inCell size v points :=
      List.filter_cons_of_pos (decide_eq_true inside)
    rw [member]
    refine ⟨fun nothing => absurd nothing (List.cons_ne_nil _ _), fun _ => ?_⟩
    obtain ⟨kept, only, closest⟩ := first.same_cell positive inside
    obtain ⟨last, alone, final⟩ : ∃ last, inCell size v after = [last] ∧
        Closest (BoxPointType.cell size v).midPoint (kept :: inCell size v points) last := by
      by_cases nothing : inCell size v points = []
      · have same := untouched nothing
        rw [only] at same
        rw [nothing]
        exact ⟨kept, List.perm_singleton.mp same, List.mem_singleton_self _,
          fun q member => (List.mem_singleton.mp member) ▸ le_rfl⟩
      · obtain ⟨last, alone, final⟩ := touched nothing
        rw [inCell_append, only] at final
        exact ⟨last, alone, final⟩
    refine ⟨last, alone, (closest.append final).congr fun q => ?_⟩
    rw [inCell_append, member]
    simp only [List.mem_append, List.mem_cons]
    tauto
  · have same : inCell size v (point :: points) = inCell size v points :=
      List.filter_cons_of_neg (mt of_decide_eq_true inside)
    have kept := first.other_cell positive inside
    rw [same]
    refine ⟨fun nothing => (untouched nothing).trans kept, fun something => ?_⟩
    obtain ⟨last, alone, final⟩ := touched something
    refine ⟨last, alone, final.congr fun q => ?_⟩
    rw [inCell_append, inCell_append, same, List.mem_append, List.mem_append, kept.mem_iff]

end Lists

instance : PointType (Vec3 ℚ) ℚ := ⟨id⟩

/-- Sorting puts every element where `nth_element` puts the one that it is asked for. -/
def sortingNth : NthElement (Vec3 ℚ) where
  run less _ points := points.mergeSort fun a b => !less b a
  perm _ _ points := List.mergeSort_perm points _

def smallMap : TreeConfig (Vec3 ℚ) ℚ := ⟨sortingNth, 0.5, 0.6, 0.2⟩

def firstScan : List (Vec3 ℚ) := [⟨0, 0, 0⟩, ⟨1, 0, 0⟩, ⟨0.15, 0.1, 0.1⟩]

end

namespace KdTree

variable {config : TreeConfig P K} {t : KdTree P K}

theorem build_built (config : TreeConfig P K) {pointCloud : List P} (some : pointCloud ≠ []) :
    (build config pointCloud).Built ∧ (build config pointCloud).root.visible.Perm pointCloud := by
  obtain ⟨sound, same⟩ := buildTree_spec config.nthElement pointCloud
  refine ⟨⟨sound, Tree.isNil_of_visible fun nothing => some ?_⟩, same⟩
  exact List.nil_perm.mp (nothing ▸ same)

variable [IsStrictOrderedRing K] [FloorRing K]

theorem addDownsampled_spec (config : TreeConfig P K) (built : t.Built) (point : P) :
    (t.addDownsampled config point).1.Built ∧
      Downsampled config.downsampleSize point t.root.visible
        (t.addDownsampled config point).1.root.visible := by
  unfold addDownsampled Downsampled inCell
  generalize BoxPointType.cell config.downsampleSize (pos point) = box
  obtain ⟨visited, found⟩ := searchByRange_spec box [] built.sound t.shared
  dsimp only
  generalize searchByRange box [] t.root t.shared = searched at visited found ⊢
  obtain ⟨root, shared, storage⟩ := searched
  dsimp only at visited found ⊢
  have closest := downsampleResult_closest box.midPoint point storage
  generalize downsampleResult box.midPoint point storage = result at closest ⊢
  have present : root.isNil = false := visited.isNil.trans built.isNil
  split
  · obtain ⟨cleared, clear⟩ : ∃ cleared : Tree P K × Shared P K,
        (if storage.isEmpty then (root, shared) else
          ((deleteByRange config box true (!shared.hands [] root) [] root shared).1,
            (deleteByRange config box true (!shared.hands [] root) [] root shared).2.1)) =
          cleared := ⟨_, rfl⟩
    have deleted : cleared.1.Sound ∧
        cleared.1.visible.Perm (t.root.visible.filter fun p => decide ¬box.Contains (pos p)) := by
      rw [← clear]
      split
      · next empty =>
          rw [List.isEmpty_iff.mp empty] at found
          refine ⟨visited.sound, visited.visible ▸ List.Perm.of_eq ?_⟩
          refine (List.filter_eq_self.mpr fun p member => ?_).symm
          have outside : ¬box.Contains (pos p) := fun inside =>
            List.filter_eq_nil_iff.mp found.symm p (visited.visible ▸ member)
              (decide_eq_true inside)
          exact decide_eq_true outside
      · have gone := deleteByRange_spec config box true (!shared.hands [] root) [] visited.sound
          shared
        exact ⟨gone.sound, visited.visible ▸ gone.visible⟩
    rw [clear]
    have added := addByPoint_spec config result (!shared.hands [] root) cleared.1.divisionAxis []
      deleted.1 cleared.2
    exact ⟨⟨added.sound, added.isNil⟩, result, found ▸ closest,
      added.visible.trans (deleted.2.cons result)⟩
  · next rest =>
      obtain ⟨few, different⟩ := not_or.mp rest
      have unequal : result ≠ point := fun same => different fun axis => by
        rw [same, sub_self, abs_zero]
        norm_num
      have single : storage = [result] := by
        rcases storage with - | ⟨q, - | ⟨_, _⟩⟩
        · exact absurd (List.mem_singleton.mp closest.mem) unequal
        · rcases List.mem_cons.mp closest.mem with same | member
          · exact absurd same unequal
          · rw [List.mem_singleton.mp member]
        · exact absurd (Nat.succ_lt_succ (Nat.zero_lt_succ _)) few
      refine ⟨⟨visited.sound, present⟩, result, found ▸ closest, ?_⟩
      have parts := List.filter_append_perm (fun p => decide (box.Contains (pos p))) t.root.visible
      rw [← found, single] at parts
      rw [visited.visible]
      simpa only [decide_not, List.singleton_append] using parts.symm

theorem addPoints_spec (positive : 0 < config.downsampleSize) (built : t.Built) (points : List P) :
    (t.addPoints config true points).1.Built ∧
      DownsampledAll config.downsampleSize points t.root.visible
        (t.addPoints config true points).1.root.visible := by
  induction points generalizing t with
  | nil => exact ⟨built, fun v => ⟨fun _ => .rfl, fun something => absurd rfl something⟩⟩
  | cons point points ih =>
      obtain ⟨first, changed⟩ := addDownsampled_spec config built point
      obtain ⟨last, rest⟩ := ih first
      exact ⟨last, changed.cons positive rest⟩

/-- With downsampling a cell with an added point keeps one point, the closest to its middle of all
that were there and were added. The points in the other cells stay. -/
theorem addPoints_downsampled (positive : 0 < config.downsampleSize) (built : t.Built)
    (points : List P) :
    DownsampledAll config.downsampleSize points t.root.visible
      (t.addPoints config true points).1.root.visible :=
  (addPoints_spec positive built points).2

def secondScan : List (Vec3 ℚ) := [⟨0.05, 0.1, 0⟩, ⟨0.1, 0.1, 0.1⟩]

/-- Of the four points of the first cell the one in its middle is kept; the point a metre away
stays. -/
theorem addPoints_downsampled_firstScan :
    let after := ((build smallMap firstScan).addPoints smallMap true secondScan).1.root.visible
    inCell smallMap.downsampleSize 0 after = [⟨0.1, 0.1, 0.1⟩] ∧
      inCell smallMap.downsampleSize ⟨1, 0, 0⟩ after = [⟨1, 0, 0⟩] := by
  obtain ⟨built, same⟩ := build_built smallMap (show firstScan ≠ [] from List.cons_ne_nil _ _)
  have cells := addPoints_downsampled (show 0 < smallMap.downsampleSize by norm_num [smallMap])
    built secondScan
  constructor
  · obtain ⟨kept, only, closest⟩ := (cells 0).2 (by decide +kernel)
    have first := closest.congr fun q => ((same.append_right secondScan).filter _).mem_iff
    have middle : ∀ kept ∈ inCell smallMap.downsampleSize 0 (firstScan ++ secondScan),
        calcDist kept (BoxPointType.cell smallMap.downsampleSize 0).midPoint ≤
          calcDist ⟨0.1, 0.1, 0.1⟩ (BoxPointType.cell smallMap.downsampleSize 0).midPoint →
        kept = ⟨0.1, 0.1, 0.1⟩ := by
      decide +kernel
    rw [only, middle kept first.mem (first.least _ (by decide +kernel))]
  · have stays := (cells ⟨1, 0, 0⟩).1 (by decide +kernel)
    have alone : inCell smallMap.downsampleSize ⟨1, 0, 0⟩ firstScan = [⟨1, 0, 0⟩] := by
      decide +kernel
    have before := (stays.trans (same.filter _)).trans (List.Perm.of_eq alone)
    exact List.perm_singleton.mp before

end KdTree

end RobocupDrone.Odometry
