import RobocupDrone.Library.Odometer
import RobocupDrone.Optimizer.InitControlPoints

/-! `distinctiveTrajs`: the control points with the bounds of their segments, and with the opposite
ones, in every combination. -/

namespace RobocupDrone.Optimizer

open Geometry

inductive SegmentFault
  | erased
  | wrongNumber
  | outOfRange
  deriving DecidableEq

section Functions

variable {K : Type}

/-- A segment of `RichInfoSegs`, with its first and last control point. -/
structure RichInfo (K : Type) where
  ids : ℕ × ℕ
  first : ControlPoints K
  second : ControlPoints K

/-- `segment`; `none` is the index that it only reports. -/
def ControlPoints.segment (cps : ControlPoints K) (ids : ℕ × ℕ) : Option (ControlPoints K) :=
  if ids.2 < cps.points.length then some
    { clearance := cps.clearance
      points := (cps.points.drop ids.1).take (ids.2 + 1 - ids.1)
      bounds := (cps.bounds.drop ids.1).take (ids.2 + 1 - ids.1) }
  else none

/-- The assignments to `base_point[j][0]` and `direction[j][0]`. -/
def setFirst (s : ControlPoints K) (j : ℕ) (bound : Bound K) :
    Except SegmentFault (ControlPoints K) :=
  match s.bounds.getD j [] with
  | [] => .error .outOfRange
  | _ :: rest => .ok { s with bounds := s.bounds.set j (bound :: rest) }

def copyFirst (source : ℕ) (s : ControlPoints K) (j : ℕ) : Except SegmentFault (ControlPoints K) :=
  match s.bounds.getD source [] with
  | [] => .error .outOfRange
  | bound :: _ => setFirst s j bound

variable [Field K] [LinearOrder K] [FloorSemiring K] (sqrt : K → K) (w : Surroundings K)

def edgeStep (p q : Vec3 K) : Option K :=
  let length := (p - q).lengthBy sqrt
  if length = 0 then none else some (w.resolution / length)

/-- The first sample from `p` to `q` that is in an obstacle. -/
def firstOccupied (step : Option K) (p q : Vec3 K) : Option (Vec3 K) :=
  ((sampleParts step).map fun a => a • p + (1 - a) • q).find? w.occupied

def occStart (points : List (Vec3 K)) : Option (ℕ × Vec3 K) :=
  (List.range (points.length - 1)).findSome? fun j =>
    (firstOccupied w ((edgeStep sqrt w (col points j) (col points (j + 1))).map (· / 2))
      (col points j) (col points (j + 1))).map fun pt => (j, pt)

def occEnd (points : List (Vec3 K)) : Option (ℕ × Vec3 K) :=
  (List.range' 1 (points.length - 1)).reverse.findSome? fun j =>
    (firstOccupied w (edgeStep sqrt w (col points j) (col points (j - 1)))
      (col points j) (col points (j - 1))).map fun pt => (j, pt)

/-- The base point on the other side, searched outwards from `base` when that is in an obstacle. -/
def newBase (limit : K) (point base along : Vec3 K) : Option (Vec3 K) :=
  if w.occupied base then
    ((List.range ⌊limit / w.resolution⌋₊).map fun k : ℕ =>
      base + (((k : K) + 1) * w.resolution) • along).find? fun pt => !w.occupied pt
  else if w.resolution ≤ (base - point).lengthBy sqrt then some base
  else none

def mirrored (point : Vec3 K) (bound : Bound K) : Vec3 K :=
  point + (bound.basePoint - point).lengthBy sqrt • -bound.direction

def basePtReverse (first : ControlPoints K) (start stop : ℕ × Vec3 K) (j : ℕ) (bound : Bound K) :
    Vec3 K :=
  if j = start.1 then start.2 else if j = stop.1 then stop.2
  else mirrored sqrt (col first.points j) bound

def reverseBound (limit : K) (first : ControlPoints K) (start stop : ℕ × Vec3 K)
    (s : ControlPoints K) (j : ℕ) : Except SegmentFault (ControlPoints K) :=
  match first.bounds.getD j [] with
  | [bound] =>
      match newBase sqrt w limit (col first.points j) (basePtReverse sqrt first start stop j bound)
          (-bound.direction) with
      | none => .error .erased
      | some base => setFirst s j ⟨base, -bound.direction⟩
  | _ => .error .wrongNumber

def oppositeSegment (limit : K) (first : ControlPoints K) : Except SegmentFault (ControlPoints K) :=
  if 1 < first.points.length then
    match occStart sqrt w first.points, occEnd sqrt w first.points with
    | some start, some stop => do
        let s ← (List.range' start.1 (stop.1 + 1 - start.1)).foldlM
          (reverseBound sqrt w limit first start stop) first
        let s ← (List.range start.1).reverse.foldlM (copyFirst start.1) s
        (List.range' (stop.1 + 1) (first.points.length - (stop.1 + 1))).foldlM (copyFirst stop.1) s
    | _, _ => .error .erased
  else if first.points.length = 1 then
    match first.bounds.getD 0 [] with
    | [] => .error .outOfRange
    | bound :: _ =>
        match newBase sqrt w limit (col first.points 0) (mirrored sqrt (col first.points 0) bound)
            (-bound.direction) with
        | none => .error .erased
        | some base => setFirst first 0 ⟨base, -bound.direction⟩
  else .error .erased

def richInfoSegs (limit : K) :
    List ((ℕ × ℕ) × ControlPoints K) → Except SegmentFault (List (RichInfo K))
  | [] => .ok []
  | (ids, first) :: rest =>
      match oppositeSegment sqrt w limit first with
      | .ok second => do
          let later ← richInfoSegs limit rest
          .ok (⟨ids, first, second⟩ :: later)
      | .error .erased => richInfoSegs limit rest
      | .error fault => .error fault

def ctrlPtDist (points : List (Vec3 K)) : K :=
  (col points 0 - col points (points.length - 1)).lengthBy sqrt /
    (((points.length : ℤ) - 1 : ℤ) : K)

def segUpbound : ℕ := 3

def varis : ℕ := 2

end Functions

section Assembly

variable {K : Type} [Field K]

structure Assembly (K : Type) where
  segId : ℕ
  cpOfSegId : ℕ
  points : List (Vec3 K)
  bounds : List (List (Bound K))

/-- A control point of `source` is taken over. -/
def Assembly.take (s : Assembly K) (source : ControlPoints K) (j : ℕ) : Assembly K :=
  { s with
    points := s.points ++ [col source.points j]
    bounds := s.bounds ++ [source.bounds.getD j []] }

/-- Control point `cpId`; `none` abandons the trajectory. -/
def assembleStep (cps : ControlPoints K) (rich : List (RichInfo K)) (selection : List ℤ)
    (s : Assembly K) (cpId : ℕ) : Option (Assembly K) :=
  match rich[s.segId]? with
  | none => some (s.take cps cpId)
  | some seg =>
      if cpId < seg.ids.1 ∨ seg.ids.2 < cpId then some (s.take cps cpId)
      else
        let source := if selection.getD s.segId 0 = 0 then seg.first else seg.second
        if selection.getD s.segId 0 ≠ 0 ∧ seg.second.points.length = 0 then none
        else
          let next := s.take source s.cpOfSegId
          if cpId = seg.ids.2 then some { next with cpOfSegId := 0, segId := s.segId + 1 }
          else some { next with cpOfSegId := s.cpOfSegId + 1 }

def assemble (cps : ControlPoints K) (rich : List (RichInfo K)) (selection : List ℤ) :
    Option (FlaggedPoints K) :=
  ((List.range cps.points.length).foldlM (assembleStep cps rich selection) ⟨0, 0, [], []⟩).map
    fun s => ⟨⟨cps.clearance, s.points, s.bounds⟩, List.replicate cps.points.length false⟩

variable [LinearOrder K] [FloorSemiring K]

/-- `none` is a read out of range. -/
def distinctiveTrajs (sqrt : K → K) (w : Surroundings K) (cps : FlaggedPoints K)
    (segments : List (ℕ × ℕ)) : Option (List (FlaggedPoints K)) :=
  if segments.length = 0 then some [cps]
  else do
    let firsts ← (segments.take segUpbound).mapM fun ids =>
      (cps.segment ids).map fun first => (ids, first)
    match richInfoSegs sqrt w (5 * ctrlPtDist sqrt cps.points) firsts with
    | .error .wrongNumber => some []
    | .error _ => none
    | .ok rich =>
        if rich.length = 0 then some [cps]
        else do
          let selections ← Odometer.count varis (varis ^ rich.length)
            (Odometer.ready (rich.length - 1))
          some (selections.filterMap (assemble cps.toControlPoints rich))

end Assembly

section Opposite

variable {K : Type}

structure Kept (before after : ControlPoints K) : Prop where
  clearance : after.clearance = before.clearance
  points : after.points = before.points
  length : after.bounds.length = before.bounds.length
  tails : ∀ j, (after.bounds.getD j []).tail = (before.bounds.getD j []).tail
  has : ∀ j, HasBound before.bounds j → HasBound after.bounds j

theorem Kept.refl (cps : ControlPoints K) : Kept cps cps :=
  ⟨rfl, rfl, rfl, fun _ => rfl, fun _ has => has⟩

theorem Kept.trans {a b c : ControlPoints K} (first : Kept a b) (second : Kept b c) : Kept a c :=
  ⟨second.clearance.trans first.clearance, second.points.trans first.points,
    second.length.trans first.length, fun j => (second.tails j).trans (first.tails j),
    fun j has => second.has j (first.has j has)⟩

theorem hasBound_lt {bounds : List (List (Bound K))} {j : ℕ} (has : HasBound bounds j) :
    j < bounds.length := by
  by_contra beyond
  exact has (List.getD_eq_default _ _ (not_lt.mp beyond))

theorem setFirst_spec {s : ControlPoints K} {j : ℕ} (has : HasBound s.bounds j) (bound : Bound K) :
    ∃ after, setFirst s j bound = .ok after ∧ Kept s after ∧
      after.bounds.getD j [] = bound :: (s.bounds.getD j []).tail ∧
        ∀ i ≠ j, after.bounds.getD i [] = s.bounds.getD i [] := by
  obtain ⟨head, rest, shape⟩ := List.exists_cons_of_ne_nil has
  have inside := hasBound_lt has
  have here : (s.bounds.set j (bound :: rest)).getD j [] = bound :: rest := by
    rw [List.getD_eq_getElem _ _ (by rwa [List.length_set]), List.getElem_set_self]
  have elsewhere : ∀ i ≠ j, (s.bounds.set j (bound :: rest)).getD i [] = s.bounds.getD i [] := by
    intro i other
    rw [List.getD_eq_getElem?_getD, List.getElem?_set_ne (Ne.symm other),
      List.getD_eq_getElem?_getD]
  refine ⟨{ s with bounds := s.bounds.set j (bound :: rest) }, ?_,
    ⟨rfl, rfl, List.length_set, fun i => ?_, fun i present => ?_⟩, ?_, elsewhere⟩
  · rw [setFirst, shape]
  · by_cases same : i = j
    · rw [same, here, shape]
      rfl
    · rw [elsewhere i same]
  · by_cases same : i = j
    · rw [HasBound, same, here]
      exact List.cons_ne_nil _ _
    · rw [HasBound, elsewhere i same]
      exact present
  · rw [here, shape]
    rfl

theorem copyFirst_spec {s : ControlPoints K} {source j : ℕ} (has : HasBound s.bounds source)
    (there : HasBound s.bounds j) :
    ∃ after, copyFirst source s j = .ok after ∧ Kept s after ∧
      (after.bounds.getD j []).head? = (s.bounds.getD source []).head? ∧
        ∀ i ≠ j, after.bounds.getD i [] = s.bounds.getD i [] := by
  obtain ⟨head, rest, shape⟩ := List.exists_cons_of_ne_nil has
  obtain ⟨after, done, kept, here, elsewhere⟩ := setFirst_spec there head
  refine ⟨after, ?_, kept, ?_, elsewhere⟩
  · rw [copyFirst, shape]
    exact done
  · rw [here, shape]
    rfl

theorem copyAll_spec (source : ℕ) {l : List ℕ} (nodup : l.Nodup) (apart : source ∉ l)
    {s : ControlPoints K} (has : HasBound s.bounds source) (there : ∀ j ∈ l, HasBound s.bounds j) :
    ∃ after, l.foldlM (copyFirst source) s = Except.ok after ∧ Kept s after ∧
      (∀ j ∈ l, (after.bounds.getD j []).head? = (s.bounds.getD source []).head?) ∧
        ∀ i ∉ l, after.bounds.getD i [] = s.bounds.getD i [] := by
  induction l generalizing s with
  | nil => exact ⟨s, rfl, .refl s, fun j member => absurd member List.not_mem_nil, fun _ _ => rfl⟩
  | cons j rest ih =>
      obtain ⟨fresh, nodup⟩ := List.nodup_cons.mp nodup
      obtain ⟨other, apart⟩ : source ≠ j ∧ source ∉ rest := by
        rw [List.mem_cons, not_or] at apart
        exact apart
      obtain ⟨next, copied, kept, here, elsewhere⟩ :=
        copyFirst_spec has (there j List.mem_cons_self)
      obtain ⟨after, done, kept', heads, others⟩ := ih nodup apart (kept.has _ has)
        fun i member => kept.has i (there i (List.mem_cons_of_mem j member))
      refine ⟨after, ?_, kept.trans kept', ?_, ?_⟩
      · rw [List.foldlM_cons, copied]
        exact done
      · intro i member
        rcases List.mem_cons.mp member with rfl | member
        · rw [others i fresh, here]
        · rw [heads i member, elsewhere source other]
      · intro i missing
        rw [List.mem_cons, not_or] at missing
        rw [others i missing.2, elsewhere i missing.1]

variable [Field K] {w : Surroundings K}

def Reverses (w : Surroundings K) (before after : List (Bound K)) : Prop :=
  ∃ bound rest base, before = bound :: rest ∧ after = ⟨base, -bound.direction⟩ :: rest ∧
    w.occupied base = false

/-- The first bounds of `second` are those of the other side: from `start` to `stop` they are turned
around, and outside of that they are copies. -/
structure Opposed (w : Surroundings K) (first second : ControlPoints K) (start stop : ℕ) :
    Prop where
  kept : Kept first second
  inside : start < first.points.length ∧ stop < first.points.length
  reversed : ∀ j, start ≤ j → j ≤ stop →
    Reverses w (first.bounds.getD j []) (second.bounds.getD j [])
  before : start ≤ stop → ∀ j < start,
    (second.bounds.getD j []).head? = (second.bounds.getD start []).head?
  after : start ≤ stop → ∀ j, stop < j → j < first.points.length →
    (second.bounds.getD j []).head? = (second.bounds.getD stop []).head?

theorem copySides_spec {first s : ControlPoints K} {start stop : ℕ}
    (has : ∀ j < first.points.length, HasBound first.bounds j) (kept : Kept first s)
    (low : start < first.points.length) (high : stop < first.points.length)
    (reversed : ∀ j, start ≤ j → j ≤ stop →
      Reverses w (first.bounds.getD j []) (s.bounds.getD j [])) :
    ∃ second, (do
        let s ← (List.range start).reverse.foldlM (copyFirst start) s
        (List.range' (stop + 1) (first.points.length - (stop + 1))).foldlM (copyFirst stop) s) =
          (.ok second : Except SegmentFault (ControlPoints K)) ∧
      Opposed w first second start stop := by
  obtain ⟨s', copied, kept', heads, others⟩ := copyAll_spec start
    (l := (List.range start).reverse) (List.nodup_reverse.mpr List.nodup_range) (by simp)
    (kept.has _ (has start low)) fun j member => kept.has j (has j (by
      have inside := List.mem_range.mp (List.mem_reverse.mp member)
      omega))
  obtain ⟨second, copied', kept'', heads', others'⟩ := copyAll_spec stop
    (l := List.range' (stop + 1) (first.points.length - (stop + 1)))
    List.nodup_range' (by simp) (kept'.has _ (kept.has _ (has stop high)))
    fun j member => kept'.has j (kept.has j (has j (by
      have inside := List.mem_range'_1.mp member
      omega)))
  refine ⟨second, by rw [copied]; exact copied', ?_⟩
  -- what lies between the two is touched by neither copy
  have untouched : ∀ j, start ≤ j → j ≤ stop →
      second.bounds.getD j [] = s.bounds.getD j [] := by
    intro j low high
    rw [others' j fun member => absurd (List.mem_range'_1.mp member).1 (by omega),
      others j fun member => absurd (List.mem_range.mp (List.mem_reverse.mp member)) (by omega)]
  refine ⟨(kept.trans kept').trans kept'', ⟨low, high⟩, ?_, ?_, ?_⟩
  · intro j low high
    rw [untouched j low high]
    exact reversed j low high
  · intro forward j early
    rw [untouched start le_rfl forward, others' j fun member =>
      absurd (List.mem_range'_1.mp member).1 (by omega)]
    exact heads j (List.mem_reverse.mpr (List.mem_range.mpr early))
  · intro forward j late inside
    rw [heads' j (List.mem_range'_1.mpr (by omega)), others' stop fun member =>
      absurd (List.mem_range'_1.mp member).1 (by omega)]

variable [LinearOrder K] [FloorSemiring K] {sqrt : K → K}

theorem newBase_free {limit : K} {point base along found : Vec3 K}
    (searched : newBase sqrt w limit point base along = some found) :
    w.occupied found = false := by
  unfold newBase at searched
  split_ifs at searched with blocked far
  · simpa using List.find?_some searched
  · cases searched
    simpa using blocked

/-- Control point `j` has a single base point, and the search for an opposite one ends so. -/
def Searched (sqrt : K → K) (w : Surroundings K) (limit : K) (first : ControlPoints K)
    (start stop : ℕ × Vec3 K) (j : ℕ) (found : Option (Vec3 K)) : Prop :=
  ∃ bound, first.bounds.getD j [] = [bound] ∧
    newBase sqrt w limit (col first.points j) (basePtReverse sqrt first start stop j bound)
      (-bound.direction) = found

/-- The loop of step 1.2 gets as far as control point `j`. -/
structure GetsTo (sqrt : K → K) (w : Surroundings K) (limit : K) (first : ControlPoints K)
    (start stop : ℕ × Vec3 K) (j : ℕ) : Prop where
  low : start.1 ≤ j
  high : j ≤ stop.1
  earlier : ∀ i, start.1 ≤ i → i < j →
    ∃ base, Searched sqrt w limit first start stop i (some base)

def ReverseOutcome (sqrt : K → K) (w : Surroundings K) (limit : K) (first : ControlPoints K)
    (start stop : ℕ × Vec3 K) (s : ControlPoints K) (j : ℕ) :
    Except SegmentFault (ControlPoints K) → Prop
  | .ok after => (∃ base, Searched sqrt w limit first start stop j (some base)) ∧ Kept s after ∧
      Reverses w (first.bounds.getD j []) (after.bounds.getD j []) ∧
        ∀ i ≠ j, after.bounds.getD i [] = s.bounds.getD i []
  | .error .erased => Searched sqrt w limit first start stop j none
  | .error .wrongNumber => ∀ bound, first.bounds.getD j [] ≠ [bound]
  | .error .outOfRange => False

theorem reverseBound_spec (sqrt : K → K) (w : Surroundings K) (limit : K)
    {first : ControlPoints K} (start stop : ℕ × Vec3 K) {s : ControlPoints K} {j : ℕ}
    (has : HasBound s.bounds j) (fresh : s.bounds.getD j [] = first.bounds.getD j []) :
    ReverseOutcome sqrt w limit first start stop s j
      (reverseBound sqrt w limit first start stop s j) := by
  unfold reverseBound
  split
  · rename_i bound shape
    split
    · rename_i searched
      exact ⟨bound, shape, searched⟩
    · rename_i base searched
      obtain ⟨next, done, kept, here, elsewhere⟩ := setFirst_spec has ⟨base, -bound.direction⟩
      rw [done]
      refine ⟨⟨base, bound, shape, searched⟩, kept, ⟨bound, [], base, shape, ?_,
        newBase_free searched⟩, elsewhere⟩
      rw [here, fresh, shape]
      rfl
  · rename_i wrong
    exact wrong

/-- What the loop of step 1.2 leaves, from control point `j` on. -/
def ReverseAllOutcome (sqrt : K → K) (w : Surroundings K) (limit : K) (first : ControlPoints K)
    (start stop : ℕ × Vec3 K) (j n : ℕ) (s : ControlPoints K) :
    Except SegmentFault (ControlPoints K) → Prop
  | .ok after => Kept s after ∧
      (∀ i, j ≤ i → i < j + n → Reverses w (first.bounds.getD i []) (after.bounds.getD i [])) ∧
        ∀ i, i < j ∨ j + n ≤ i → after.bounds.getD i [] = s.bounds.getD i []
  | .error .erased => ∃ k, GetsTo sqrt w limit first start stop k ∧
      Searched sqrt w limit first start stop k none
  | .error .wrongNumber => ∃ k, GetsTo sqrt w limit first start stop k ∧
      ∀ bound, first.bounds.getD k [] ≠ [bound]
  | .error .outOfRange => False

theorem reverseAll_spec (sqrt : K → K) (w : Surroundings K) (limit : K) {first : ControlPoints K}
    (start stop : ℕ × Vec3 K) {j n : ℕ} {s : ControlPoints K}
    (has : ∀ i < j + n, HasBound s.bounds i)
    (fresh : ∀ i, j ≤ i → s.bounds.getD i [] = first.bounds.getD i [])
    (low : start.1 ≤ j) (high : 0 < n → j + n ≤ stop.1 + 1)
    (earlier : ∀ i, start.1 ≤ i → i < j →
      ∃ base, Searched sqrt w limit first start stop i (some base)) :
    ReverseAllOutcome sqrt w limit first start stop j n s
      ((List.range' j n).foldlM (reverseBound sqrt w limit first start stop) s) := by
  induction n generalizing j s with
  | zero => exact ⟨.refl s, fun i low high => absurd high (by omega), fun _ _ => rfl⟩
  | succ n ih =>
      rw [List.range'_succ, List.foldlM_cons]
      have step := reverseBound_spec sqrt w limit start stop (has j (by omega)) (fresh j le_rfl)
      cases done : reverseBound sqrt w limit first start stop s j with
      | error fault =>
          rw [done] at step
          cases fault with
          | erased => exact ⟨j, ⟨low, by omega, earlier⟩, step⟩
          | wrongNumber => exact ⟨j, ⟨low, by omega, earlier⟩, step⟩
          | outOfRange => exact step
      | ok next =>
          rw [done] at step
          obtain ⟨searched, kept, here, elsewhere⟩ := step
          have rest := ih (j := j + 1) (s := next)
            (fun i inside => kept.has i (has i (by omega)))
            (fun i beyond => (elsewhere i (by omega)).trans (fresh i (by omega)))
            (by omega) (by omega) fun i from_start before => by
              rcases Nat.lt_succ_iff_lt_or_eq.mp before with before | rfl
              · exact earlier i from_start before
              · exact searched
          change ReverseAllOutcome sqrt w limit first start stop j (n + 1) s
            ((List.range' (j + 1) n).foldlM (reverseBound sqrt w limit first start stop) next)
          cases ended : (List.range' (j + 1) n).foldlM
              (reverseBound sqrt w limit first start stop) next with
          | error fault =>
              rw [ended] at rest
              cases fault with
              | erased => exact rest
              | wrongNumber => exact rest
              | outOfRange => exact rest
          | ok after =>
              rw [ended] at rest
              obtain ⟨kept', reversed, others⟩ := rest
              refine ⟨kept.trans kept', fun i low high => ?_, fun i outside => ?_⟩
              · rcases Nat.lt_or_eq_of_le low with later | rfl
                · exact reversed i later (by omega)
                · rw [others j (.inl (by omega))]
                  exact here
              · rw [others i (by omega), elsewhere i (by omega)]

theorem occStart_lt {points : List (Vec3 K)} {start : ℕ × Vec3 K}
    (found : occStart sqrt w points = some start) : start.1 + 1 < points.length := by
  obtain ⟨j, member, here⟩ := List.exists_of_findSome?_eq_some found
  obtain ⟨pt, _, same⟩ := Option.map_eq_some_iff.mp here
  have inside := List.mem_range.mp member
  rw [← same]
  dsimp only
  omega

theorem occEnd_lt {points : List (Vec3 K)} {stop : ℕ × Vec3 K}
    (found : occEnd sqrt w points = some stop) : stop.1 < points.length := by
  obtain ⟨j, member, here⟩ := List.exists_of_findSome?_eq_some found
  obtain ⟨pt, _, same⟩ := Option.map_eq_some_iff.mp here
  have inside := List.mem_range'_1.mp (List.mem_reverse.mp member)
  rw [← same]
  dsimp only
  omega

def TurnsAt (sqrt : K → K) (w : Surroundings K) (first : ControlPoints K) (start stop : ℕ) : Prop :=
  1 < first.points.length → (occStart sqrt w first.points).map Prod.fst = some start ∧
    (occEnd sqrt w first.points).map Prod.fst = some stop

/-- Why a segment is erased: no sample of it is in an obstacle, or a control point gets no base
point on the other side. -/
inductive Erased (sqrt : K → K) (w : Surroundings K) (limit : K) (first : ControlPoints K) : Prop
  | empty (empty : first.points.length = 0)
  | free (several : 1 < first.points.length)
      (free : occStart sqrt w first.points = none ∨ occEnd sqrt w first.points = none)
  | single {bound : Bound K} {rest : List (Bound K)} (single : first.points.length = 1)
      (bounds : first.bounds.getD 0 [] = bound :: rest)
      (missing : newBase sqrt w limit (col first.points 0)
        (mirrored sqrt (col first.points 0) bound) (-bound.direction) = none)
  | several {start stop : ℕ × Vec3 K} {j : ℕ} (several : 1 < first.points.length)
      (starts : occStart sqrt w first.points = some start)
      (stops : occEnd sqrt w first.points = some stop)
      (gets_to : GetsTo sqrt w limit first start stop j)
      (missing : Searched sqrt w limit first start stop j none)

inductive WrongNumber (sqrt : K → K) (w : Surroundings K) (limit : K) (first : ControlPoints K) :
    Prop
  | intro {start stop : ℕ × Vec3 K} {j : ℕ} (several : 1 < first.points.length)
      (starts : occStart sqrt w first.points = some start)
      (stops : occEnd sqrt w first.points = some stop)
      (gets_to : GetsTo sqrt w limit first start stop j)
      (wrong : ∀ bound, first.bounds.getD j [] ≠ [bound])

def OppositeOutcome (sqrt : K → K) (w : Surroundings K) (limit : K) (first : ControlPoints K) :
    Except SegmentFault (ControlPoints K) → Prop
  | .ok second => ∃ start stop, TurnsAt sqrt w first start stop ∧ Opposed w first second start stop
  | .error .erased => Erased sqrt w limit first
  | .error .wrongNumber => WrongNumber sqrt w limit first
  | .error .outOfRange => False

theorem oppositeSegment_spec (sqrt : K → K) (w : Surroundings K) (limit : K)
    {first : ControlPoints K} (has : ∀ j < first.points.length, HasBound first.bounds j) :
    OppositeOutcome sqrt w limit first (oppositeSegment sqrt w limit first) := by
  unfold oppositeSegment
  split_ifs with several single
  · split
    · rename_i start stop starts stops
      have low := occStart_lt starts
      have high := occEnd_lt stops
      have turned := reverseAll_spec sqrt w limit start stop (j := start.1)
        (n := stop.1 + 1 - start.1) (fun i inside => has i (by omega)) (fun i _ => rfl) le_rfl
        (by omega) fun i from_start before => absurd before (by omega)
      cases done : (List.range' start.1 (stop.1 + 1 - start.1)).foldlM
          (reverseBound sqrt w limit first start stop) first with
      | error fault =>
          rw [done] at turned
          cases fault with
          | outOfRange => exact turned
          | erased =>
              obtain ⟨j, gets_to, missing⟩ := turned
              exact .several several starts stops gets_to missing
          | wrongNumber =>
              obtain ⟨j, gets_to, wrong⟩ := turned
              exact .intro several starts stops gets_to wrong
      | ok s =>
          rw [done] at turned
          obtain ⟨kept, reversed, _⟩ := turned
          obtain ⟨second, copied, opposed⟩ := copySides_spec has kept (by omega) high
            fun j low high => reversed j low (by omega)
          change OppositeOutcome sqrt w limit first (do
            let s ← (List.range start.1).reverse.foldlM (copyFirst start.1) s
            (List.range' (stop.1 + 1) (first.points.length - (stop.1 + 1))).foldlM
              (copyFirst stop.1) s)
          rw [copied]
          exact ⟨start.1, stop.1, fun _ => ⟨by rw [starts]; rfl, by rw [stops]; rfl⟩, opposed⟩
    · rename_i missing
      refine .free several ?_
      cases starts : occStart sqrt w first.points with
      | none => exact .inl rfl
      | some start =>
          cases stops : occEnd sqrt w first.points with
          | none => exact .inr rfl
          | some stop => exact absurd stops (missing start stop starts)
  · split
    · rename_i empty
      exact absurd empty (has 0 (by omega))
    · rename_i bound rest shape
      split
      · rename_i missing
        exact .single single shape missing
      · rename_i base searched
        obtain ⟨second, done, kept, here, elsewhere⟩ :=
          setFirst_spec (has 0 (by omega)) ⟨base, -bound.direction⟩
        rw [done]
        refine ⟨0, 0, fun several => absurd several (by omega), kept, ⟨by omega, by omega⟩, ?_, ?_,
          ?_⟩
        · intro j low high
          obtain rfl : j = 0 := by omega
          rw [here, shape]
          exact ⟨bound, rest, base, rfl, rfl, newBase_free searched⟩
        · intro _ j early
          omega
        · intro _ j late inside
          omega
  · exact .empty (by omega)

def RichOutcome (sqrt : K → K) (w : Surroundings K) (limit : K)
    (firsts : List ((ℕ × ℕ) × ControlPoints K)) :
    Except SegmentFault (List (RichInfo K)) → Prop
  | .ok rich => (rich.map fun r => (r.ids, r.first)).Sublist firsts ∧
      (∀ r ∈ rich, ∃ start stop, TurnsAt sqrt w r.first start stop ∧
        Opposed w r.first r.second start stop) ∧
      ∀ p ∈ firsts, p ∈ rich.map (fun r => (r.ids, r.first)) ∨ Erased sqrt w limit p.2
  | .error .wrongNumber => ∃ p ∈ firsts, WrongNumber sqrt w limit p.2
  | .error _ => False

theorem richInfoSegs_spec (sqrt : K → K) (w : Surroundings K) (limit : K)
    {firsts : List ((ℕ × ℕ) × ControlPoints K)}
    (has : ∀ p ∈ firsts, ∀ j < p.2.points.length, HasBound p.2.bounds j) :
    RichOutcome sqrt w limit firsts (richInfoSegs sqrt w limit firsts) := by
  induction firsts with
  | nil =>
      exact ⟨.slnil, fun r member => absurd member List.not_mem_nil,
        fun p member => absurd member List.not_mem_nil⟩
  | cons p rest ih =>
      obtain ⟨ids, first⟩ := p
      have here := oppositeSegment_spec sqrt w limit (has _ List.mem_cons_self)
      have later := ih fun p member => has p (List.mem_cons_of_mem _ member)
      rw [richInfoSegs]
      cases outcome : oppositeSegment sqrt w limit first with
      | error fault =>
          dsimp only at here
          rw [outcome] at here
          cases fault with
          | outOfRange => exact here.elim
          | wrongNumber => exact ⟨_, List.mem_cons_self, here⟩
          | erased =>
              dsimp only
              cases done : richInfoSegs sqrt w limit rest with
              | error fault =>
                  rw [done] at later
                  cases fault with
                  | outOfRange => exact later
                  | erased => exact later
                  | wrongNumber =>
                      obtain ⟨p, member, wrong⟩ := later
                      exact ⟨p, List.mem_cons_of_mem _ member, wrong⟩
              | ok rich =>
                  rw [done] at later
                  obtain ⟨sub, turned, covered⟩ := later
                  refine ⟨sub.cons _, turned, fun p member => ?_⟩
                  rcases List.mem_cons.mp member with rfl | member
                  · exact .inr here
                  · exact covered p member
      | ok second =>
          dsimp only at here
          rw [outcome] at here
          dsimp only
          cases done : richInfoSegs sqrt w limit rest with
          | error fault =>
              rw [done] at later
              cases fault with
              | outOfRange => exact later
              | erased => exact later
              | wrongNumber =>
                  obtain ⟨p, member, wrong⟩ := later
                  exact ⟨p, List.mem_cons_of_mem _ member, wrong⟩
          | ok rich =>
              rw [done] at later
              obtain ⟨sub, turned, covered⟩ := later
              refine ⟨sub.cons_cons _, fun r member => ?_, fun p member => ?_⟩
              · rcases List.mem_cons.mp member with rfl | member
                · exact here
                · exact turned r member
              · rcases List.mem_cons.mp member with rfl | member
                · exact .inl List.mem_cons_self
                · exact (covered p member).imp_left (List.mem_cons_of_mem _)

end Opposite

end RobocupDrone.Optimizer
