import Mathlib.Data.List.FinRange
import Mathlib.Data.List.Perm.Subperm
import Mathlib.Data.List.Sort
import Mathlib.Data.Rat.Floor
import Mathlib.Tactic.Linarith
import RobocupDrone.Library.Greedy
import RobocupDrone.Library.Numerals
import RobocupDrone.Library.SortedMap

/-! `common.cpp`: the boxes of the detector that `nms` keeps. -/

namespace RobocupDrone.YoloServer

/-- `bbox[4]`: the centre of a box, its width and its height. -/
structure Bbox (K : Type) where
  centerX : K
  centerY : K
  w : K
  h : K
deriving DecidableEq

structure Detection (K : Type) where
  bbox : Bbox K
  conf : K
  classId : K
deriving DecidableEq

abbrev maxOutputBboxCount : ℕ := 1000

abbrev detSize : ℕ := 6

abbrev outputSize : ℕ := maxOutputBboxCount * detSize + 1

/-- `std::sort` with a comparison. In which order equal items come is left to it. -/
structure StdSort (α : Type) (cmp : α → α → Bool) where
  sort : List α → List α
  perm : ∀ items, (sort items).Perm items
  sorted : ∀ items, (sort items).Pairwise fun a b => cmp b a = false

variable {K : Type}

def word (output : Fin outputSize → K) (i : Fin maxOutputBboxCount) (j : Fin detSize) : K :=
  output ⟨1 + detSize * i + j, by
    have entry := i.isLt
    have part := j.isLt
    simp only [maxOutputBboxCount, detSize, outputSize] at entry part ⊢
    omega⟩

def detection (output : Fin outputSize → K) (i : Fin maxOutputBboxCount) : Detection K where
  bbox := ⟨word output i 0, word output i 1, word output i 2, word output i 3⟩
  conf := word output i 4
  classId := word output i 5

section Suppression

variable (nmsThresh : K) [LinearOrder K]

section

variable [Field K]

/-- `none`: zero over zero, which is no number. -/
def iou (l r : Bbox K) : Option K :=
  let left := max (l.centerX - l.w / 2) (r.centerX - r.w / 2)
  let right := min (l.centerX + l.w / 2) (r.centerX + r.w / 2)
  let top := max (l.centerY - l.h / 2) (r.centerY - r.h / 2)
  let bottom := min (l.centerY + l.h / 2) (r.centerY + r.h / 2)
  if top > bottom ∨ left > right then some 0
  else
    let interBoxS := (right - left) * (bottom - top)
    let whole := l.w * l.h + r.w * r.h - interBoxS
    if whole = 0 then none else some (interBoxS / whole)

def cmp (a b : Detection K) : Bool := decide (a.conf > b.conf)

/-- `iou(a, b) > nms_thresh`; no number is above anything. -/
def iouAbove (a b : Detection K) : Bool :=
  (iou a.bbox b.bbox).any fun value => decide (value > nmsThresh)

/-- The inner loop from `n` on. After an erasure `--n` and `++n` leave it where it is. -/
def eraseFrom (item : Detection K) (n : ℕ) (dets : List (Detection K)) : List (Detection K) :=
  if inside : n < dets.length then
    if iouAbove nmsThresh item dets[n] then eraseFrom item n (dets.eraseIdx n)
    else eraseFrom item (n + 1) dets
  else dets
termination_by dets.length - n
decreasing_by
  · rw [List.length_eraseIdx_of_lt inside]
    omega
  · omega

theorem eraseFrom_eq (item : Detection K) (n : ℕ) (dets : List (Detection K)) :
    eraseFrom nmsThresh item n dets =
      dets.take n ++ Greedy.spared (iouAbove nmsThresh) item (dets.drop n) := by
  fun_induction eraseFrom nmsThresh item n dets with
  | case1 n dets inside above ih =>
      rw [ih, List.take_eraseIdx_eq_take_of_le _ _ _ le_rfl, List.eraseIdx_eq_take_drop_succ,
        List.drop_append_of_le_length (by simp; omega), List.drop_take_self, List.nil_append]
      congr 1
      rw [List.drop_eq_getElem_cons inside, Greedy.spared, Greedy.spared,
        List.filter_cons_of_neg (by simpa using above)]
  | case2 n dets inside kept ih =>
      rw [ih, List.take_add_one, List.getElem?_eq_getElem inside, List.append_assoc]
      congr 1
      rw [List.drop_eq_getElem_cons inside, Greedy.spared, Greedy.spared,
        List.filter_cons_of_pos (by simpa using kept)]
      rfl
  | case3 n dets outside =>
      rw [List.drop_eq_nil_of_le (not_lt.mp outside), List.take_of_length_le (not_lt.mp outside)]
      exact (List.append_nil _).symm

theorem length_eraseFrom_le (item : Detection K) (n : ℕ) (dets : List (Detection K)) :
    (eraseFrom nmsThresh item n dets).length ≤ dets.length := by
  rw [eraseFrom_eq, List.length_append]
  have fewer := List.length_filter_le (fun b => !iouAbove nmsThresh item b) (dets.drop n)
  have whole := congrArg List.length (List.take_append_drop n dets)
  rw [List.length_append] at whole
  rw [Greedy.spared]
  omega

/-- The loop over the boxes of a class from `m` on. -/
def suppressFrom (m : ℕ) (dets res : List (Detection K)) : List (Detection K) :=
  if inside : m < dets.length then
    suppressFrom (m + 1) (eraseFrom nmsThresh dets[m] (m + 1) dets) (res ++ [dets[m]])
  else res
termination_by dets.length - m
decreasing_by
  have shorter := length_eraseFrom_le nmsThresh dets[m] (m + 1) dets
  omega

theorem suppressFrom_eq (m : ℕ) (dets res : List (Detection K)) :
    suppressFrom nmsThresh m dets res =
      res ++ Greedy.select (iouAbove nmsThresh) (dets.drop m) := by
  fun_induction suppressFrom nmsThresh m dets res with
  | case1 m dets res inside ih =>
      rw [ih, List.append_assoc, List.drop_eq_getElem_cons inside, Greedy.select,
        List.singleton_append, eraseFrom_eq]
      congr 3
      rw [List.drop_append_of_le_length (by simp; omega), List.drop_take_self, List.nil_append]
  | case2 m dets res outside =>
      rw [List.drop_eq_nil_of_le (not_lt.mp outside), Greedy.select, List.append_nil]

section Output

variable (output : Fin outputSize → K) (confThresh : K)

/-- The entries that the first loop of `nms` visits. -/
def visited : List (Fin maxOutputBboxCount) :=
  (List.finRange maxOutputBboxCount).takeWhile fun i => decide (((i : ℕ) : K) < output 0)

def classes : SortedMap K (List (Detection K)) :=
  (visited output).foldl (fun m i =>
    if word output i 4 ≤ confThresh then m
    else m.push Detection.classId (detection output i)) .empty

def nms (order : StdSort (Detection K) cmp) (res : List (Detection K)) : List (Detection K) :=
  (classes output confThresh).entries.foldl
    (fun res entry => suppressFrom nmsThresh 0 (order.sort entry.2) res) res

/-- The boxes above the threshold among the first `min(output[0], MAX_OUTPUT_BBOX_COUNT)`. -/
def candidates : List (Detection K) :=
  (((List.finRange maxOutputBboxCount).filter fun i : Fin maxOutputBboxCount =>
    decide (((i : ℕ) : K) < output 0)).map (detection output)).filter fun d =>
      decide (confThresh < d.conf)

theorem takeWhile_eq_filter {α : Type} {R : α → α → Prop} {p : α → Bool} {l : List α}
    (sorted : l.Pairwise R) (down : ∀ a b, R a b → p b = true → p a = true) :
    l.takeWhile p = l.filter p := by
  induction l with
  | nil => rfl
  | cons a rest ih =>
      rw [List.pairwise_cons] at sorted
      by_cases first : p a = true
      · rw [List.takeWhile_cons_of_pos first, List.filter_cons_of_pos first, ih sorted.2]
      · have none_later : rest.filter p = [] := by
          rw [List.filter_eq_nil_iff]
          exact fun b member later => first (down a b (sorted.1 b member) later)
        rw [List.takeWhile_cons_of_neg first, List.filter_cons_of_neg first, none_later]

theorem visited_eq [IsStrictOrderedRing K] : visited output =
    (List.finRange maxOutputBboxCount).filter fun i : Fin maxOutputBboxCount =>
      decide (((i : ℕ) : K) < output 0) := by
  apply takeWhile_eq_filter (List.pairwise_lt_finRange _)
  intro i j before below
  rw [decide_eq_true_eq] at below ⊢
  have closer : ((i : ℕ) : K) < ((j : ℕ) : K) := by exact_mod_cast before
  exact closer.trans below

theorem classes_eq [IsStrictOrderedRing K] : classes output confThresh =
    (candidates output confThresh).foldl (SortedMap.push Detection.classId) .empty := by
  rw [candidates, List.foldl_filter, List.foldl_map, classes, visited_eq]
  congr 1
  funext m i
  have same : decide (confThresh < (detection output i).conf) = true ↔
      ¬word output i 4 ≤ confThresh := by
    rw [decide_eq_true_eq, not_le]
    rfl
  by_cases low : word output i 4 ≤ confThresh
  · rw [if_pos low, if_neg (same.not.mpr (not_not_intro low))]
  · rw [if_neg low, if_pos (same.mpr low)]

theorem nms_eq (order : StdSort (Detection K) cmp) (res : List (Detection K)) :
    nms nmsThresh output confThresh order res =
      res ++ (classes output confThresh).entries.flatMap fun entry =>
        Greedy.select (iouAbove nmsThresh) (order.sort entry.2) := by
  rw [nms]
  generalize (classes output confThresh).entries = entries
  induction entries generalizing res with
  | nil => exact (List.append_nil res).symm
  | cons entry rest ih =>
      rw [List.foldl_cons, ih, suppressFrom_eq, List.drop_zero, List.flatMap_cons,
        List.append_assoc]

end Output

end

section Kept

variable (order : StdSort (Detection K) cmp)

theorem mem_groups {l : List (Detection K)} {entry : K × List (Detection K)}
    (member : entry ∈ (l.foldl (SortedMap.push Detection.classId) .empty).entries) :
    entry.2 = l.filter fun d => d.classId = entry.1 := by
  have found := SortedMap.get_eq_some_iff.mpr member
  rw [SortedMap.get_foldl_push] at found
  split_ifs at found
  · exact absurd found (by simp [SortedMap.empty, SortedMap.get, SortedMap.find])
  · exact (Option.some.inj found).symm

section

variable [Field K] [IsStrictOrderedRing K]

def IouAtMost (a b : Detection K) : Prop :=
  ∃ value, iou a.bbox b.bbox = some value ∧ value ≤ nmsThresh

def NoOverlap (a b : Detection K) : Prop :=
  iou a.bbox b.bbox = none ∧ a.bbox.w * a.bbox.h = 0 ∧ b.bbox.w * b.bbox.h = 0

/-- What a suppression promises of the boxes it returns, when any two of a class are to be
`apart`. -/
structure Suppressed (apart : Detection K → Detection K → Prop)
    (candidates returned : List (Detection K)) : Prop where
  ordered : returned.Pairwise fun a b =>
    a.classId < b.classId ∨ a.classId = b.classId ∧ b.conf ≤ a.conf
  taken : returned.Subperm candidates
  apart : returned.Pairwise fun a b => a.classId = b.classId → apart a b
  covered : ∀ d, returned.count d < candidates.count d →
    ∃ a ∈ returned, a.classId = d.classId ∧ d.conf ≤ a.conf ∧ iouAbove nmsThresh a d = true

theorem iou_eq_none {l r : Bbox K} (undefined : iou l r = none) :
    l.w * l.h = 0 ∧ r.w * r.h = 0 := by
  unfold iou at undefined
  dsimp only at undefined
  split_ifs at undefined with apart zero
  push Not at apart
  set left := max (l.centerX - l.w / 2) (r.centerX - r.w / 2)
  set right := min (l.centerX + l.w / 2) (r.centerX + r.w / 2)
  set top := max (l.centerY - l.h / 2) (r.centerY - r.h / 2)
  set bottom := min (l.centerY + l.h / 2) (r.centerY + r.h / 2)
  have width : 0 ≤ right - left := sub_nonneg.mpr apart.2
  have height : 0 ≤ bottom - top := sub_nonneg.mpr apart.1
  have within : ∀ b ∈ [l, r], right - left ≤ b.w ∧ bottom - top ≤ b.h := by
    have left_l : l.centerX - l.w / 2 ≤ left := le_max_left _ _
    have left_r : r.centerX - r.w / 2 ≤ left := le_max_right _ _
    have right_l : right ≤ l.centerX + l.w / 2 := min_le_left _ _
    have right_r : right ≤ r.centerX + r.w / 2 := min_le_right _ _
    have top_l : l.centerY - l.h / 2 ≤ top := le_max_left _ _
    have top_r : r.centerY - r.h / 2 ≤ top := le_max_right _ _
    have bottom_l : bottom ≤ l.centerY + l.h / 2 := min_le_left _ _
    have bottom_r : bottom ≤ r.centerY + r.h / 2 := min_le_right _ _
    rw [List.forall_mem_cons, List.forall_mem_singleton]
    refine ⟨⟨?_, ?_⟩, ?_, ?_⟩ <;> linarith
  have area : ∀ b ∈ [l, r], (right - left) * (bottom - top) ≤ b.w * b.h := fun b member =>
    mul_le_mul (within b member).1 (within b member).2 height (width.trans (within b member).1)
  have area_l := area l (by simp)
  have area_r := area r (by simp)
  have shared := mul_nonneg width height
  constructor <;> linarith

end

variable [Field K]

theorem class_of_taken {l : List (Detection K)} {entry : K × List (Detection K)}
    (member : entry ∈ (l.foldl (SortedMap.push Detection.classId) .empty).entries)
    {d : Detection K} (taken : d ∈ Greedy.select (iouAbove nmsThresh) (order.sort entry.2)) :
    d.classId = entry.1 := by
  have in_class := (order.perm _).subset ((Greedy.select_sublist _).subset taken)
  rw [mem_groups member] at in_class
  simpa using (List.mem_filter.mp in_class).2

theorem pairwise_taken {R : Detection K → Detection K → Prop} {l : List (Detection K)}
    (within : ∀ entry ∈ (l.foldl (SortedMap.push Detection.classId) .empty).entries,
      (Greedy.select (iouAbove nmsThresh) (order.sort entry.2)).Pairwise fun a b =>
        a.classId = b.classId → R a b)
    (across : ∀ a b : Detection K, a.classId < b.classId → R a b) :
    ((l.foldl (SortedMap.push Detection.classId) .empty).entries.flatMap fun entry =>
      Greedy.select (iouAbove nmsThresh) (order.sort entry.2)).Pairwise R := by
  rw [List.pairwise_flatMap]
  constructor
  · intro entry member
    refine (within entry member).imp_of_mem fun in_a in_b related => related ?_
    rw [class_of_taken nmsThresh order member in_a, class_of_taken nmsThresh order member in_b]
  · refine (SortedMap.sorted _).imp_of_mem fun in_a in_b before a taken_a b taken_b => across a b ?_
    rw [class_of_taken nmsThresh order in_a taken_a, class_of_taken nmsThresh order in_b taken_b]
    exact before

variable [IsStrictOrderedRing K]

theorem suppressed (l : List (Detection K)) :
    Suppressed nmsThresh (fun a b => IouAtMost nmsThresh a b ∨ NoOverlap a b) l
      ((l.foldl (SortedMap.push Detection.classId) .empty).entries.flatMap fun entry =>
        Greedy.select (iouAbove nmsThresh) (order.sort entry.2)) where
  ordered := by
    refine pairwise_taken nmsThresh order (fun entry _ => ?_) fun a b before => .inl before
    refine ((order.sorted entry.2).sublist (Greedy.select_sublist _)).imp ?_
    intro a b not_before same
    exact .inr ⟨same, not_lt.mp (of_decide_eq_false not_before)⟩
  taken := by
    have whole : ((l.foldl (SortedMap.push Detection.classId) .empty).entries.flatMap
        Prod.snd).Perm l := SortedMap.foldl_push_perm l .empty
    refine List.Subperm.trans ?_ whole.subperm
    generalize (l.foldl (SortedMap.push Detection.classId) .empty).entries = entries
    induction entries with
    | nil => exact List.Subperm.refl _
    | cons entry rest ih =>
        rw [List.flatMap_cons, List.flatMap_cons]
        exact List.Subperm.append
          ((Greedy.select_sublist _).subperm.trans (order.perm _).subperm) ih
  apart := by
    refine pairwise_taken nmsThresh order (fun entry _ => ?_) fun a b before same =>
      absurd same before.ne
    refine (Greedy.select_pairwise _).imp fun {a b} spared _ _ => ?_
    cases overlap : iou a.bbox b.bbox with
    | none => exact .inr ⟨overlap, iou_eq_none overlap⟩
    | some value =>
        refine .inl ⟨value, overlap, ?_⟩
        simpa [iouAbove, overlap] using spared
  covered := by
    intro d left_out
    set classes := l.foldl (SortedMap.push Detection.classId) .empty with classes_def
    set same_class := l.filter fun b => b.classId = d.classId with same_class_def
    have in_list : d ∈ l := List.count_pos_iff.mp (by omega)
    have in_class : d ∈ same_class := List.mem_filter.mpr ⟨in_list, by simp⟩
    have member : (d.classId, same_class) ∈ classes.entries := by
      rw [← SortedMap.get_eq_some_iff, classes_def, SortedMap.get_foldl_push,
        if_neg (List.ne_nil_of_mem in_class)]
      rfl
    have part : (Greedy.select (iouAbove nmsThresh) (order.sort same_class)).Sublist
        (classes.entries.flatMap fun entry =>
          Greedy.select (iouAbove nmsThresh) (order.sort entry.2)) := by
      rw [List.flatMap_def]
      exact List.sublist_flatten_of_mem (List.mem_map.mpr ⟨_, member, rfl⟩)
    have dropped : (Greedy.select (iouAbove nmsThresh) (order.sort same_class)).count d <
        (order.sort same_class).count d := by
      have count : same_class.count d = l.count d := List.count_filter (by simp)
      rw [(order.perm same_class).count_eq, count]
      exact (part.count_le d).trans_lt left_out
    rcases Greedy.select_covers (order.sorted same_class) dropped with ⟨a, taken, above, before⟩
    refine ⟨a, part.subset taken, class_of_taken nmsThresh order member taken, ?_, above⟩
    exact not_lt.mp (of_decide_eq_false before)

/-- Two boxes of a class whose overlap is not a number are both kept. -/
theorem nms_keeps (output : Fin outputSize → K) (confThresh nmsThresh : K)
    (order : StdSort (Detection K) cmp) (res : List (Detection K)) :
    ∃ returned, nms nmsThresh output confThresh order res = res ++ returned ∧
      Suppressed nmsThresh (fun a b => IouAtMost nmsThresh a b ∨ NoOverlap a b)
        (candidates output confThresh) returned := by
  refine ⟨_, nms_eq nmsThresh output confThresh order res, ?_⟩
  rw [classes_eq]
  exact suppressed nmsThresh order (candidates output confThresh)

end Kept

end Suppression

def stableSort : StdSort (Detection ℚ) cmp where
  sort := List.insertionSort fun a b => b.conf ≤ a.conf
  perm := List.perm_insertionSort _
  sorted items := by
    have total : Std.Total fun a b : Detection ℚ => b.conf ≤ a.conf := ⟨fun a b => le_total _ _⟩
    have transitive : IsTrans (Detection ℚ) fun a b => b.conf ≤ a.conf :=
      ⟨fun a b c ab bc => bc.trans ab⟩
    refine (List.pairwise_insertionSort _ items).imp ?_
    intro a b before
    exact decide_eq_false (not_lt.mpr before)

def twoPoints (i : Fin outputSize) : ℚ :=
  if i.val = 0 then 2 else if i.val = 5 then 9 / 10 else if i.val = 11 then 8 / 10 else 0

theorem two_points_kept : ∃ returned,
    nms (4 / 10) twoPoints (1 / 2) stableSort [] = [] ++ returned ∧
      Suppressed (4 / 10) (fun a b => IouAtMost (4 / 10) a b ∨ NoOverlap a b)
        (candidates twoPoints (1 / 2)) returned :=
  nms_keeps twoPoints (1 / 2) (4 / 10) stableSort []

theorem two_points_overlap_undefined :
    ¬∀ (output : Fin outputSize → ℚ) (confThresh nmsThresh : ℚ), ∃ returned,
      nms nmsThresh output confThresh stableSort [] = [] ++ returned ∧
        Suppressed nmsThresh (IouAtMost nmsThresh) (candidates output confThresh) returned := by
  intro every
  rcases every twoPoints (1 / 2) (4 / 10) with ⟨returned, made, kept⟩
  have both : nms (4 / 10) twoPoints (1 / 2) stableSort [] =
      [⟨⟨0, 0, 0, 0⟩, 9 / 10, 0⟩, ⟨⟨0, 0, 0, 0⟩, 8 / 10, 0⟩] := by
    decide +kernel
  rw [both, List.nil_append] at made
  have apart := kept.apart
  rw [← made, List.pairwise_cons] at apart
  rcases apart.1 _ List.mem_cons_self rfl with ⟨value, number, _⟩
  have undefined : iou (⟨0, 0, 0, 0⟩ : Bbox ℚ) ⟨0, 0, 0, 0⟩ = none := by decide +kernel
  rw [undefined] at number
  exact absurd number (by simp)

end RobocupDrone.YoloServer
