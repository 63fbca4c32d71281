import RobocupDrone.Odometry.IkdTree

/-! The points that a tree stands for, under the marks that have not reached them, and what the
fields of the nodes say about these points. -/

namespace RobocupDrone.Odometry

open Geometry

variable {P K : Type}

def Node.under (n : Node P K) : Option Mark → Node P K
  | none => n
  | some mark => n.pushed mark

def Node.leftMark (n : Node P K) : Option Mark :=
  if n.needPushDownToLeft then some n.mark else none

def Node.rightMark (n : Node P K) : Option Mark :=
  if n.needPushDownToRight then some n.mark else none

def Node.own (n : Node P K) : List P := if n.pointDeleted then [] else [n.point]

namespace Tree

/-- The points of a tree under a mark on its father that are not deleted. -/
def visibleUnder : Option Mark → Tree P K → List P
  | _, nil => []
  | mark, node n l r =>
      (n.under mark).own ++ l.visibleUnder (n.under mark).leftMark ++
        r.visibleUnder (n.under mark).rightMark

abbrev visible (t : Tree P K) : List P := t.visibleUnder none

theorem visible_node (n : Node P K) (l r : Tree P K) :
    (node n l r).visible = n.own ++ l.visibleUnder n.leftMark ++ r.visibleUnder n.rightMark := rfl

@[simp] theorem isNil_push (mark : Mark) (t : Tree P K) : (t.push mark).isNil = t.isNil := by
  cases t <;> rfl

@[simp] theorem visible_push (mark : Mark) (t : Tree P K) :
    (t.push mark).visible = t.visibleUnder (some mark) := by
  cases t <;> rfl

theorem visibleUnder_deleted (t : Tree P K) {mark : Mark} (deleted : mark.treeDeleted = true) :
    t.visibleUnder (some mark) = [] := by
  induction t generalizing mark with
  | nil => rfl
  | node n l r ihl ihr =>
      have tree : (n.pushed mark).treeDeleted = true := by simp [Node.pushed, deleted]
      have own : (n.pushed mark).own = [] := by simp [Node.own, Node.pushed, deleted]
      have left : (n.pushed mark).leftMark = some (n.pushed mark).mark := rfl
      have right : (n.pushed mark).rightMark = some (n.pushed mark).mark := rfl
      rw [visibleUnder, Node.under, own, left, right, ihl tree, ihr tree]
      rfl

end Tree

@[simp] theorem Node.visible_pushLeft (n : Node P K) (l : Tree P K) :
    (n.pushLeft l).visible = l.visibleUnder n.leftMark := by
  unfold pushLeft leftMark
  split
  · exact Tree.visible_push _ _
  · rfl

@[simp] theorem Node.visible_pushRight (n : Node P K) (r : Tree P K) :
    (n.pushRight r).visible = r.visibleUnder n.rightMark := by
  unfold pushRight rightMark
  split
  · exact Tree.visible_push _ _
  · rfl

@[elab_as_elim]
theorem Tree.pushed_induction {motive : Tree P K → Prop} (nil : motive .nil)
    (node : ∀ n l r, motive (n.pushLeft l) → motive (n.pushRight r) → motive (.node n l r))
    (t : Tree P K) : motive t := by
  induction size : t.count using Nat.strong_induction_on generalizing t with
  | _ k ih =>
    cases t with
    | nil => exact nil
    | node n l r =>
        refine node n l r (ih _ ?_ _ (n.count_pushLeft l)) (ih _ ?_ _ (n.count_pushRight r))
        · rw [← size, Tree.count]; omega
        · rw [← size, Tree.count]; omega

section Ranges

variable [LinearOrder K]

/-- The least range around the points. -/
structure NodeRange.IsHull (range : NodeRange K) (places : List (Vec3 K)) : Prop where
  inside : ∀ v ∈ places, ∀ axis, range.low.get axis ≤ v.get axis ∧ v.get axis ≤ range.high.get axis
  low : ∀ axis, ∃ v ∈ places, v.get axis = range.low.get axis
  high : ∀ axis, ∃ v ∈ places, v.get axis = range.high.get axis

theorem NodeRange.isHull_ofPoint (v : Vec3 K) : (NodeRange.ofPoint v).IsHull [v] where
  inside w member axis := by
    rw [List.mem_singleton.mp member]
    exact ⟨le_rfl, le_rfl⟩
  low _ := ⟨v, List.mem_singleton_self v, rfl⟩
  high _ := ⟨v, List.mem_singleton_self v, rfl⟩

theorem NodeRange.IsHull.append {a b : NodeRange K} {left right : List (Vec3 K)}
    (ha : a.IsHull left) (hb : b.IsHull right) : (a.hull b).IsHull (left ++ right) where
  inside v member axis := by
    simp only [hull, Vec3.get_ofAxes, min_le_iff, le_max_iff]
    rcases List.mem_append.mp member with member | member
    · exact ⟨.inl (ha.inside v member axis).1, .inl (ha.inside v member axis).2⟩
    · exact ⟨.inr (hb.inside v member axis).1, .inr (hb.inside v member axis).2⟩
  low axis := by
    simp only [hull, Vec3.get_ofAxes, List.mem_append]
    rcases min_choice (a.low.get axis) (b.low.get axis) with least | least
    · obtain ⟨v, member, same⟩ := ha.low axis
      exact ⟨v, .inl member, same.trans least.symm⟩
    · obtain ⟨v, member, same⟩ := hb.low axis
      exact ⟨v, .inr member, same.trans least.symm⟩
  high axis := by
    simp only [hull, Vec3.get_ofAxes, List.mem_append]
    rcases max_choice (a.high.get axis) (b.high.get axis) with greatest | greatest
    · obtain ⟨v, member, same⟩ := ha.high axis
      exact ⟨v, .inl member, same.trans greatest.symm⟩
    · obtain ⟨v, member, same⟩ := hb.high axis
      exact ⟨v, .inr member, same.trans greatest.symm⟩

theorem NodeRange.IsHull.perm {range : NodeRange K} {a b : List (Vec3 K)} (hull : range.IsHull a)
    (same : a.Perm b) : range.IsHull b where
  inside v member := hull.inside v (same.mem_iff.mpr member)
  low axis := (hull.low axis).imp fun _ found => ⟨same.mem_iff.mp found.1, found.2⟩
  high axis := (hull.high axis).imp fun _ found => ⟨same.mem_iff.mp found.1, found.2⟩

/-- A range of what there is: none around no points, and else the hull. -/
inductive Bounded : Option (NodeRange K) → List (Vec3 K) → Prop
  | none : Bounded none []
  | some {range places} : range.IsHull places → Bounded (some range) places

theorem Bounded.append {a b : Option (NodeRange K)} {left right : List (Vec3 K)}
    (ha : Bounded a left) (hb : Bounded b right) : Bounded (joined a b) (left ++ right) := by
  cases ha with
  | none => cases hb with
    | none => exact .none
    | some hb => exact .some hb
  | some ha => cases hb with
    | none => rw [List.append_nil]; exact .some ha
    | some hb => exact .some (ha.append hb)

theorem Bounded.perm {a : Option (NodeRange K)} {before after : List (Vec3 K)}
    (bounded : Bounded a before) (same : before.Perm after) : Bounded a after := by
  cases bounded with
  | none => rw [List.nil_perm.mp same]; exact .none
  | some hull => exact .some (hull.perm same)

end Ranges

section

variable [PointType P K] [LinearOrder K]

def places (points : List P) : List (Vec3 K) := points.map pos

/-- What the fields of a node say about the points of its tree. -/
structure Node.Fits (n : Node P K) (points : List P) : Prop where
  counted : n.invalidPointNum + points.length = n.treeSize
  deleted : n.treeDeleted = true → points = []
  hull : n.treeDeleted = false → points ≠ [] ∧ Bounded n.range (places points)

inductive Tree.Fresh : Tree P K → Prop
  | intro (point : P) (divisionAxis : Axis) :
      Tree.Fresh (.node (update { point, divisionAxis } .nil .nil) .nil .nil)

/-- A mark on the father is a deletion, or it means nothing for the son. -/
inductive Harmless : Option Mark → Tree P K → Prop
  | none {t} : Harmless none t
  | deletion {mark t} : mark.treeDeleted = true → Harmless (some mark) t
  | nil {mark} : Harmless (some mark) .nil
  | fresh {t} : t.Fresh → Harmless (some ⟨false, false⟩) t

/-- The fields of all nodes fit, once the marks above them have reached them. -/
def Tree.SoundUnder : Option Mark → Tree P K → Prop
  | _, .nil => True
  | mark, .node n l r =>
      (n.under mark).Fits (Tree.visibleUnder mark (.node n l r)) ∧
        (Harmless (n.under mark).leftMark l ∧ l.SoundUnder (n.under mark).leftMark) ∧
          Harmless (n.under mark).rightMark r ∧ r.SoundUnder (n.under mark).rightMark

abbrev Tree.Sound (t : Tree P K) : Prop := t.SoundUnder none

namespace Tree

theorem sound_push (mark : Mark) (t : Tree P K) :
    (t.push mark).Sound ↔ t.SoundUnder (some mark) := by
  cases t <;> rfl

theorem soundUnder_deleted (t : Tree P K) {mark : Mark} (deleted : mark.treeDeleted = true) :
    t.SoundUnder (some mark) := by
  induction t generalizing mark with
  | nil => trivial
  | node n l r ihl ihr =>
      have tree : (n.pushed mark).treeDeleted = true := by simp [Node.pushed, deleted]
      have nothing := visibleUnder_deleted (.node n l r) deleted
      refine ⟨⟨?_, fun _ => nothing, fun kept => ?_⟩, ⟨.deletion tree, ihl tree⟩,
        .deletion tree, ihr tree⟩
      · rw [nothing]
        simp [Node.under, Node.pushed, deleted]
      · rw [show ((n.under (some mark)).treeDeleted) = true from tree] at kept
        exact absurd kept (by decide)

theorem Fresh.visible {t : Tree P K} (fresh : t.Fresh) {mark : Option Mark}
    (kept : mark = none ∨ mark = some ⟨false, false⟩) :
    ∃ point, t.visibleUnder mark = [point] ∧ t.SoundUnder mark := by
  obtain ⟨point, divisionAxis⟩ := fresh
  refine ⟨point, ?_⟩
  have bounded : Bounded (some (NodeRange.ofPoint (pos point))) (places [point]) :=
    .some (NodeRange.isHull_ofPoint _)
  rcases kept with rfl | rfl
  · exact ⟨rfl, ⟨rfl, fun deleted => absurd deleted Bool.false_ne_true,
      fun _ => ⟨List.cons_ne_nil _ _, bounded⟩⟩, ⟨.none, trivial⟩, .none, trivial⟩
  · exact ⟨rfl, ⟨rfl, fun deleted => absurd deleted Bool.false_ne_true,
      fun _ => ⟨List.cons_ne_nil _ _, bounded⟩⟩, ⟨.nil, trivial⟩, .nil, trivial⟩

end Tree

def Pending (request : Bool) (t : Tree P K) : Prop := request = true → t = .nil ∨ t.Fresh

namespace Tree

theorem Sound.counted {t : Tree P K} (sound : t.Sound) :
    t.invalidPointNum + t.visible.length = t.treeSize := by
  cases t with
  | nil => rfl
  | node n l r => exact sound.1.counted

theorem Sound.visible_of_gone {t : Tree P K} (sound : t.Sound) (gone : t.gone = true) :
    t.visible = [] := by
  cases t with
  | nil => rfl
  | node n l r => exact sound.1.deleted gone

theorem Sound.gone_of_visible {t : Tree P K} (sound : t.Sound) (nothing : t.visible = []) :
    t.gone = true := by
  cases t with
  | nil => rfl
  | node n l r =>
      by_contra kept
      exact (sound.1.hull (Bool.eq_false_iff.mpr kept)).1 nothing

theorem Sound.bounded {t : Tree P K} (sound : t.Sound) (kept : t.undeleted = true) :
    Bounded t.range (places t.visible) := by
  cases t with
  | nil => exact .none
  | node n l r => exact (sound.1.hull (Bool.not_eq_true' _ ▸ kept)).2

theorem Sound.bounded_unless {t : Tree P K} (sound : t.Sound) :
    Bounded (if t.gone then none else t.range) (places t.visible) := by
  cases t with
  | nil => exact .none
  | node n l r =>
      cases kept : n.treeDeleted with
      | true =>
          rw [sound.visible_of_gone kept, if_pos (by exact kept)]
          exact .none
      | false =>
          rw [if_neg (by simp [gone, kept])]
          exact (sound.1.hull kept).2

end Tree

theorem Node.bounded_own (n : Node P K) :
    Bounded (if n.pointDeleted then none else some (NodeRange.ofPoint (pos n.point)))
      (places n.own) := by
  unfold own
  split
  · exact .none
  · exact .some (NodeRange.isHull_ofPoint _)

theorem Pending.harmless {t : Tree P K} {request : Bool} (pending : Pending request t)
    (sound : t.Sound) (mark : Mark)
    (up : t.gone = false → t.downsampled = false → mark = ⟨false, false⟩) :
    let mark := if request then some mark else none
    Harmless mark t ∧ t.SoundUnder mark ∧ t.visibleUnder mark = t.visible := by
  cases request with
  | false => exact ⟨.none, sound, rfl⟩
  | true =>
      rcases pending rfl with rfl | fresh
      · exact ⟨.nil, trivial, rfl⟩
      · have up : mark = ⟨false, false⟩ := by
          cases fresh
          exact up rfl rfl
        dsimp only
        rw [if_pos rfl, up]
        refine ⟨.fresh fresh, (fresh.visible (.inr rfl)).choose_spec.2, ?_⟩
        cases fresh
        rfl

end

theorem places_append [PointType P K]
    (a b : List P) : places (a ++ b) = places a ++ places b := List.map_append

section

variable [PointType P K] [LinearOrder K]

theorem update_sound {n : Node P K} {l r : Tree P K} (left : l.Sound) (right : r.Sound)
    (pendingLeft : Pending n.needPushDownToLeft l)
    (pendingRight : Pending n.needPushDownToRight r) :
    (Tree.node (update n l r) l r).Sound ∧
      (Tree.node (update n l r) l r).visible = n.own ++ l.visible ++ r.visible := by
  obtain ⟨harmlessLeft, soundLeft, sameLeft⟩ := pendingLeft.harmless left
    (update n l r).mark fun gone down => by simp [Node.mark, update, gone, down]
  obtain ⟨harmlessRight, soundRight, sameRight⟩ := pendingRight.harmless right
    (update n l r).mark fun gone down => by simp [Node.mark, update, gone, down]
  have seen : (Tree.node (update n l r) l r).visible = n.own ++ l.visible ++ r.visible := by
    rw [Tree.visible_node]
    exact congrArg₂ _ (congrArg _ sameLeft) sameRight
  refine ⟨⟨⟨?_, ?_, ?_⟩, ⟨harmlessLeft, soundLeft⟩, harmlessRight, soundRight⟩, seen⟩
  all_goals rw [show Tree.visibleUnder none (Tree.node (update n l r) l r) = _ from seen]
  · have countLeft := left.counted
    have countRight := right.counted
    have own : (if n.pointDeleted then 1 else 0) + n.own.length = 1 := by
      unfold Node.own
      split <;> rfl
    simp only [Node.under, update, List.length_append]
    omega
  · intro deleted
    simp only [Node.under, update, Bool.and_eq_true] at deleted
    obtain ⟨⟨goneLeft, goneRight⟩, here⟩ := deleted
    rw [left.visible_of_gone goneLeft, right.visible_of_gone goneRight, Node.own, if_pos here]
    rfl
  · intro kept
    simp only [Node.under, update] at kept ⊢
    constructor
    · intro nothing
      simp only [List.append_eq_nil_iff] at nothing
      obtain ⟨⟨own, nothingLeft⟩, nothingRight⟩ := nothing
      have here : n.pointDeleted = true := by
        by_contra alive
        rw [Node.own, if_neg alive] at own
        exact absurd own (List.cons_ne_nil _ _)
      rw [left.gone_of_visible nothingLeft, right.gone_of_visible nothingRight, here] at kept
      exact absurd kept (by decide)
    · rw [kept, Bool.false_or, places_append, places_append, List.append_assoc]
      refine Bounded.perm ?_ List.perm_append_comm
      split
      · next all =>
          simp only [Bool.and_eq_true, Bool.not_eq_true'] at all
          have own := n.bounded_own
          rw [all.2, if_neg Bool.false_ne_true] at own
          exact ((left.bounded all.1.1).append (right.bounded all.1.2)).append own
      · exact (left.bounded_unless.append right.bounded_unless).append n.bounded_own

/-- Only missing sons are left to be asked. -/
structure Node.Ready (n : Node P K) (l r : Tree P K) : Prop where
  left : n.needPushDownToLeft = true → l.isNil = true
  right : n.needPushDownToRight = true → r.isNil = true

end

namespace Node

variable {n : Node P K} {l r : Tree P K}

theorem relieved_ready (n : Node P K) (l r : Tree P K) :
    (n.relieved l r).Ready (n.pushLeft l) (n.pushRight r) where
  left request := by
    unfold pushLeft
    split <;> simpa using (Bool.and_eq_true _ _ ▸ request).2
  right request := by
    unfold pushRight
    split <;> simpa using (Bool.and_eq_true _ _ ▸ request).2

theorem Ready.visible (ready : n.Ready l r) :
    (Tree.node n l r).visible = n.own ++ l.visible ++ r.visible := by
  have left : l.visibleUnder n.leftMark = l.visible := by
    unfold leftMark
    split
    · next request => cases l with
      | nil => rfl
      | node _ _ _ => exact absurd (ready.left request) Bool.false_ne_true
    · rfl
  have right : r.visibleUnder n.rightMark = r.visible := by
    unfold rightMark
    split
    · next request => cases r with
      | nil => rfl
      | node _ _ _ => exact absurd (ready.right request) Bool.false_ne_true
    · rfl
  rw [Tree.visible_node, left, right]

variable [PointType P K] [LinearOrder K]

theorem Ready.sound_iff (ready : n.Ready l r) :
    (Tree.node n l r).Sound ↔ n.Fits (n.own ++ l.visible ++ r.visible) ∧ l.Sound ∧ r.Sound := by
  have left : Harmless n.leftMark l ∧ l.SoundUnder n.leftMark ↔ l.Sound := by
    unfold leftMark
    split
    · next request => cases l with
      | nil => exact ⟨fun _ => trivial, fun _ => ⟨.nil, trivial⟩⟩
      | node _ _ _ => exact absurd (ready.left request) Bool.false_ne_true
    · exact ⟨And.right, fun sound => ⟨.none, sound⟩⟩
  have right : Harmless n.rightMark r ∧ r.SoundUnder n.rightMark ↔ r.Sound := by
    unfold rightMark
    split
    · next request => cases r with
      | nil => exact ⟨fun _ => trivial, fun _ => ⟨.nil, trivial⟩⟩
      | node _ _ _ => exact absurd (ready.right request) Bool.false_ne_true
    · exact ⟨And.right, fun sound => ⟨.none, sound⟩⟩
  rw [← ready.visible]
  exact and_congr Iff.rfl (and_congr left right)

end Node

namespace Tree

variable {n : Node P K} {l r : Tree P K}

theorem visible_pushDown (n : Node P K) (l r : Tree P K) :
    (node n l r).visible = n.own ++ (n.pushLeft l).visible ++ (n.pushRight r).visible := by
  rw [Node.visible_pushLeft, Node.visible_pushRight, visible_node]

variable [PointType P K] [LinearOrder K]

theorem Sound.pushDown (sound : (Tree.node n l r).Sound) :
    (n.relieved l r).Fits (node n l r).visible ∧ (n.pushLeft l).Sound ∧ (n.pushRight r).Sound := by
  obtain ⟨fits, ⟨-, left⟩, -, right⟩ := sound
  refine ⟨⟨fits.counted, fits.deleted, fits.hull⟩, ?_, ?_⟩
  · unfold Node.pushLeft
    unfold Node.under Node.leftMark at left
    split
    · next request => exact (sound_push _ _).mpr (by rwa [if_pos request] at left)
    · next request => rwa [if_neg request] at left
  · unfold Node.pushRight
    unfold Node.under Node.rightMark at right
    split
    · next request => exact (sound_push _ _).mpr (by rwa [if_pos request] at right)
    · next request => rwa [if_neg request] at right

end Tree

end RobocupDrone.Odometry
