import RobocupDrone.Odometry.Downsampling

/-! Runs of the operations on a map: whatever is rebuilt or handed to the thread on the way, the
answers are those of a bag of points. -/

namespace RobocupDrone.Odometry

open Geometry

variable {P K : Type} [PointType P K] [Field K] [LinearOrder K]

section

variable [FloorRing K]

/-- What is done with a map. The thread may hold `working_flag_mutex` at a `validnum`, and write to
the shared fields between two operations; that it swaps a rebuilt subtree in is none of these. -/
inductive MapOp (P K : Type)
  | addPoints (points : List P) (downsampleOn : Bool)
  | deletePointBoxes (boxes : List (BoxPointType K))
  | boxSearch (box : BoxPointType K)
  | nearestSearch (search : NearestSearch P K)
  | validnum (workingLocked : Bool)
  | share (shared : Shared P K)

inductive Answer (P : Type)
  | none
  | count (number : ℕ)
  | valid (number : ℤ)
  | points (storage : List P)

def KdTree.operate (config : TreeConfig P K) (t : KdTree P K) : MapOp P K → KdTree P K × Answer P
  | .addPoints points downsampleOn => ((t.addPoints config downsampleOn points).1, .none)
  | .deletePointBoxes boxes =>
      let (t, count) := t.deletePointBoxes config boxes
      (t, .count count)
  | .boxSearch box =>
      let (t, storage) := t.boxSearch box
      (t, .points storage)
  | .nearestSearch search => (t.nearestSearch search, .none)
  | .validnum workingLocked => (t, .valid (t.validnum workingLocked))
  | .share shared => ({ t with shared }, .none)

def KdTree.runs (config : TreeConfig P K) :
    KdTree P K → List (MapOp P K) → KdTree P K × List (Answer P)
  | t, [] => (t, [])
  | t, op :: ops =>
      let (t, answer) := t.operate config op
      let (t, answers) := t.runs config ops
      (t, answer :: answers)

/-- What the operations mean for a bag of points. -/
inductive BagStep (size : K) (before after : List P) : MapOp P K → Answer P → Prop
  | add {points} : after.Perm (points ++ before) →
      BagStep size before after (.addPoints points false) .none
  | downsample {points} : DownsampledAll size points before after →
      BagStep size before after (.addPoints points true) .none
  | delete {boxes : List (BoxPointType K)} {count} :
      after.Perm (before.filter fun p => decide (∀ box ∈ boxes, ¬box.Contains (pos p))) →
      count + after.length = before.length →
      BagStep size before after (.deletePointBoxes boxes) (.count count)
  | search {box : BoxPointType K} {storage} : after = before →
      storage = before.filter (fun p => decide (box.Contains (pos p))) →
      BagStep size before after (.boxSearch box) (.points storage)
  | nearest {nearest} : after = before → BagStep size before after (.nearestSearch nearest) .none
  | valid {workingLocked} : after = before →
      BagStep size before after (.validnum workingLocked) (.valid before.length)
  | locked : after = before → BagStep size before after (.validnum true) (.valid (-1))
  | share {shared} : after = before → BagStep size before after (.share shared) .none

inductive BagRuns (size : K) : List P → List (MapOp P K) → List P → List (Answer P) → Prop
  | nil {points} : BagRuns size points [] points []
  | cons {before middle after op ops answer answers} : BagStep size before middle op answer →
      BagRuns size middle ops after answers →
      BagRuns size before (op :: ops) after (answer :: answers)

end

namespace KdTree

variable {config : TreeConfig P K} {t : KdTree P K}

theorem addPoint_spec (config : TreeConfig P K) (built : t.Built) (point : P) :
    (t.addPoint config point).Built ∧
      (t.addPoint config point).root.visible.Perm (point :: t.root.visible) := by
  have added := addByPoint_spec config point (!t.shared.hands [] t.root) t.root.divisionAxis []
    built.sound t.shared
  exact ⟨⟨added.sound, added.isNil⟩, added.visible⟩

theorem deletePointBox_spec (config : TreeConfig P K) (built : t.Built) (box : BoxPointType K) :
    t.root.Deleted box (t.deletePointBox config box).1.root (t.deletePointBox config box).2 :=
  deleteByRange_spec config box false (!t.shared.hands [] t.root) [] built.sound t.shared

theorem deletePointBoxes_spec (config : TreeConfig P K) (built : t.Built)
    (boxes : List (BoxPointType K)) :
    (t.deletePointBoxes config boxes).1.Built ∧
      (t.deletePointBoxes config boxes).1.root.visible.Perm
        (t.root.visible.filter fun p => decide (∀ box ∈ boxes, ¬box.Contains (pos p))) ∧
      (t.deletePointBoxes config boxes).2 +
        (t.deletePointBoxes config boxes).1.root.visible.length = t.root.visible.length := by
  induction boxes generalizing t with
  | nil =>
      refine ⟨built, List.Perm.of_eq (List.filter_eq_self.mpr fun p _ => ?_).symm, Nat.zero_add _⟩
      exact decide_eq_true fun box member => absurd member List.not_mem_nil
  | cons box boxes ih =>
      have gone := deletePointBox_spec config built box
      have first : (t.deletePointBox config box).1.Built :=
        ⟨gone.sound, gone.isNil.trans built.isNil⟩
      obtain ⟨last, rest, counted⟩ := ih first
      have whole : t.deletePointBoxes config (box :: boxes) =
          ((deletePointBoxes config boxes (t.deletePointBox config box).1).1,
            (t.deletePointBox config box).2 +
              (deletePointBoxes config boxes (t.deletePointBox config box).1).2) := rfl
      rw [whole]
      refine ⟨last, rest.trans ((gone.visible.filter _).trans (List.Perm.of_eq ?_)), ?_⟩
      · rw [List.filter_filter]
        refine List.filter_congr fun p _ => ?_
        simp only [List.forall_mem_cons, Bool.decide_and, Bool.and_comm]
      · have lengths := (List.filter_append_perm (fun p => decide (box.Contains (pos p)))
          t.root.visible).length_eq
        have kept := gone.visible.length_eq
        have count := gone.counted
        rw [List.length_append] at lengths
        rw [List.countP_eq_length_filter] at count
        simp only [decide_not] at kept
        dsimp only
        omega

variable [FloorRing K]

theorem addPoints_all (config : TreeConfig P K) (built : t.Built) (points : List P) :
    (t.addPoints config false points).1.Built ∧
      (t.addPoints config false points).1.root.visible.Perm (points ++ t.root.visible) := by
  induction points generalizing t with
  | nil => exact ⟨built, .rfl⟩
  | cons point points ih =>
      obtain ⟨first, one⟩ := addPoint_spec config built point
      obtain ⟨last, rest⟩ := ih first
      exact ⟨last, rest.trans ((one.append_left _).trans List.perm_middle)⟩

variable [IsStrictOrderedRing K]

theorem operate_step (positive : 0 < config.downsampleSize) (built : t.Built) (op : MapOp P K) :
    (t.operate config op).1.Built ∧
      BagStep config.downsampleSize t.root.visible (t.operate config op).1.root.visible op
        (t.operate config op).2 := by
  cases op with
  | addPoints points downsampleOn =>
      cases downsampleOn with
      | false =>
          obtain ⟨after, same⟩ := addPoints_all config built points
          exact ⟨after, .add same⟩
      | true =>
          obtain ⟨after, changed⟩ := addPoints_spec positive built points
          exact ⟨after, .downsample changed⟩
  | deletePointBoxes boxes =>
      obtain ⟨after, same, counted⟩ := deletePointBoxes_spec config built boxes
      exact ⟨after, .delete same counted⟩
  | boxSearch box =>
      obtain ⟨visited, found⟩ := searchByRange_spec box [] built.sound t.shared
      exact ⟨⟨visited.sound, visited.isNil.trans built.isNil⟩, .search visited.visible found⟩
  | nearestSearch search =>
      have visited := search_visited search.visits [] built.sound
      exact ⟨⟨visited.sound, visited.isNil.trans built.isNil⟩, .nearest visited.visible⟩
  | validnum workingLocked =>
      refine ⟨built, ?_⟩
      rw [operate, validnum_spec built]
      split
      next held =>
        rw [(Bool.and_eq_true_iff.mp held).2]
        exact .locked rfl
      next => exact .valid rfl
  | share shared => exact ⟨⟨built.sound, built.isNil⟩, .share rfl⟩

theorem runs_spec (positive : 0 < config.downsampleSize) (built : t.Built)
    (ops : List (MapOp P K)) :
    (t.runs config ops).1.Built ∧
      BagRuns config.downsampleSize t.root.visible ops (t.runs config ops).1.root.visible
        (t.runs config ops).2 := by
  induction ops generalizing t with
  | nil => exact ⟨built, .nil⟩
  | cons op ops ih =>
      obtain ⟨first, step⟩ := operate_step positive built op
      obtain ⟨last, rest⟩ := ih first
      exact ⟨last, .cons step rest⟩

def laterOps : List (MapOp (Vec3 ℚ) ℚ) :=
  [.addPoints [⟨1, 0.1, 0⟩] true, .deletePointBoxes [⟨⟨0, 0, 0⟩, ⟨1, 1, 1⟩⟩], .validnum true]

end KdTree

end RobocupDrone.Odometry
