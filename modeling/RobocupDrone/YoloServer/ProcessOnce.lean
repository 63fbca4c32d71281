import RobocupDrone.Library.Vec3
import RobocupDrone.PathSearching.GridIndex
import RobocupDrone.YoloServer.Nms

/-! `YoloServer::process_once`: the answer with the nearest of the detected targets. -/

namespace RobocupDrone.YoloServer

open Geometry
open PathSearching (castInt)

variable {K : Type} [Field K] [LinearOrder K] [FloorRing K]

structure ImageResult (K : Type) where
  cols : ℕ
  rows : ℕ
  output : Fin outputSize → K
  cols_pos : 0 < cols
  rows_pos : 0 < rows

structure Rect where
  x : ℤ
  y : ℤ
  width : ℤ
  height : ℤ

structure Response (K : Type) where
  isDetect : Bool
  minType : ℤ
  x : K
  y : K
  z : K

def inputW : ℕ := 640

def inputH : ℕ := 640

def confThreshold : K := 0.5

def nmsThreshold : K := 0.4

def dblMax : ℕ := (2 ^ 53 - 1) * 2 ^ 971

/-- The box of a detection in the image. The assignments to `int` cut off the fraction. -/
def getRect (roiW roiH : ℕ) (bbox : Bbox K) : Rect :=
  let rW : K := inputW / roiW
  let rH : K := inputH / roiH
  let scaled (scale l r t b : K) : Rect :=
    let l := castInt ((castInt l : K) / scale)
    let r := castInt ((castInt r : K) / scale)
    let t := castInt ((castInt t : K) / scale)
    let b := castInt ((castInt b : K) / scale)
    ⟨l, t, r - l, b - t⟩
  if rH > rW then
    scaled rW (bbox.centerX - bbox.w / 2) (bbox.centerX + bbox.w / 2)
      (bbox.centerY - bbox.h / 2 - (inputH - rW * roiH) / 2)
      (bbox.centerY + bbox.h / 2 - (inputH - rW * roiH) / 2)
  else
    scaled rH (bbox.centerX - bbox.w / 2 - (inputW - rH * roiW) / 2)
      (bbox.centerX + bbox.w / 2 - (inputW - rH * roiW) / 2)
      (bbox.centerY - bbox.h / 2) (bbox.centerY + bbox.h / 2)

def imagePoints (r : Rect) : List (ℤ × ℤ) :=
  [(r.x, r.y), (r.x + r.width, r.y), (r.x + r.width, r.y + r.height), (r.x, r.y + r.height)]

def modelPoints : List (Vec3 K) :=
  [⟨-29.9, -29.9, 0⟩, ⟨29.9, -29.9, 0⟩, ⟨29.9, 29.9, 0⟩, ⟨-29.9, 29.9, 0⟩]

def typeOf (d : Detection K) : ℤ := castInt d.classId

section Process

variable (order : StdSort (Detection K) cmp) (solvePnP : List (Vec3 K) → List (ℤ × ℤ) → Vec3 K)
  (sqrt : K → K)

def kept (image : ImageResult K) : List (Detection K) :=
  nms nmsThreshold image.output confThreshold order []

/-- The translation that `solvePnP` finds for a detection. -/
def translation (image : ImageResult K) (d : Detection K) : Vec3 K :=
  solvePnP modelPoints (imagePoints (getRect image.cols image.rows d.bbox))

/-- `detect`: a later detection of a class takes the place of an earlier one. -/
def detect (image : ImageResult K) : SortedMap ℤ (Vec3 K) :=
  (kept order image).foldl (fun typeDis d =>
    if d.conf > 0.7 then typeDis.put typeOf (translation solvePnP image) d else typeDis) .empty

def planeDistance (t : Vec3 K) : K := sqrt (t.x * t.x + t.y * t.y)

/-- The least distance of a class with that class, from `DBL_MAX` and -1 on. -/
def nearestType (typeDis : SortedMap ℤ (Vec3 K)) : K × ℤ :=
  typeDis.entries.foldl (SortedMap.lesser (planeDistance sqrt)) ((dblMax : K), -1)

/-- `process_once`, with its result and the response. `none`: there is no image, or it cannot be
converted. -/
def processOnce (latest : Option (ImageResult K)) (resp : Response K) : Bool × Response K :=
  match latest with
  | none => (false, resp)
  | some image =>
      let typeDis := detect order solvePnP image
      let minDisType := (nearestType sqrt typeDis).2
      if minDisType = -1 then (false, ⟨false, -1, 0, 0, 0⟩)
      else
        let disVec := (typeDis.get minDisType).getD 0
        (true, ⟨true, minDisType, disVec.x, disVec.y, disVec.z⟩)

def confident (image : ImageResult K) : List (Detection K) :=
  (kept order image).filter fun d => decide (d.conf > 0.7)

def DescribesNearest (image : ImageResult K) (answer : Bool × Response K) : Prop :=
  answer.1 = answer.2.isDetect ∧
    if confident order image = [] then answer.2.isDetect = false ∧ answer.2.minType = -1
    else answer.2.isDetect = true ∧ ∃ d ∈ confident order image,
      answer.2.minType = typeOf d ∧
      ⟨answer.2.x, answer.2.y, answer.2.z⟩ = translation solvePnP image d ∧
      ∀ other ∈ confident order image, planeDistance sqrt (translation solvePnP image d) ≤
        planeDistance sqrt (translation solvePnP image other)

/-- No confident detection of the class of `d` comes after it. -/
def LastOfType (image : ImageResult K) (d : Detection K) : Prop :=
  ((confident order image).filter fun other => typeOf other = typeOf d).getLast? = some d

def NearestIsLast (image : ImageResult K) : Prop :=
  ∃ d, LastOfType order image d ∧ typeOf d ≠ -1 ∧
    planeDistance sqrt (translation solvePnP image d) < dblMax ∧
    (∀ other ∈ confident order image, planeDistance sqrt (translation solvePnP image d) ≤
      planeDistance sqrt (translation solvePnP image other)) ∧
    ∀ other, LastOfType order image other → typeOf other = -1 → typeOf d < -1 ∨
      planeDistance sqrt (translation solvePnP image d) <
        planeDistance sqrt (translation solvePnP image other)

variable {order solvePnP sqrt}

theorem detect_eq (image : ImageResult K) : detect order solvePnP image =
    (confident order image).foldl (SortedMap.put typeOf (translation solvePnP image)) .empty := by
  rw [detect, confident, List.foldl_filter]
  simp only [decide_eq_true_eq]

theorem LastOfType.mem {image : ImageResult K} {d : Detection K}
    (last : LastOfType order image d) : d ∈ confident order image :=
  (List.mem_filter.mp (List.mem_of_getLast? last)).1

theorem mem_detect_iff {image : ImageResult K} {entry : ℤ × Vec3 K} :
    entry ∈ (detect order solvePnP image).entries ↔
      ∃ d, LastOfType order image d ∧ entry = (typeOf d, translation solvePnP image d) := by
  rcases entry with ⟨k, t⟩
  rw [← SortedMap.get_eq_some_iff, detect_eq, SortedMap.get_foldl_put]
  change Option.or _ none = _ ↔ _
  rw [Option.or_none, Option.map_eq_some_iff]
  constructor
  · rintro ⟨d, last, rfl⟩
    have same : typeOf d = k := by
      simpa using (List.mem_filter.mp (List.mem_of_getLast? last)).2
    rw [← same] at last ⊢
    exact ⟨d, last, rfl⟩
  · rintro ⟨d, last, same⟩
    rcases Prod.mk.inj same with ⟨rfl, rfl⟩
    exact ⟨d, last, rfl⟩

theorem nearestType_cases (image : ImageResult K) :
    (nearestType sqrt (detect order solvePnP image)).2 = -1 ∧
        (∀ d, LastOfType order image d →
          (dblMax : K) ≤ planeDistance sqrt (translation solvePnP image d)) ∨
      ∃ first, LastOfType order image first ∧
        (nearestType sqrt (detect order solvePnP image)).2 = typeOf first ∧
        planeDistance sqrt (translation solvePnP image first) < dblMax ∧
        (∀ d, LastOfType order image d → planeDistance sqrt (translation solvePnP image first) ≤
          planeDistance sqrt (translation solvePnP image d)) ∧
        ∀ d, LastOfType order image d → typeOf d < typeOf first →
          planeDistance sqrt (translation solvePnP image first) <
            planeDistance sqrt (translation solvePnP image d) := by
  have entry : ∀ d, LastOfType order image d →
      (typeOf d, translation solvePnP image d) ∈ (detect order solvePnP image).entries :=
    fun d last => mem_detect_iff.mpr ⟨d, last, rfl⟩
  rcases SortedMap.foldl_lesser (l := (detect order solvePnP image).entries)
    (detect order solvePnP image).sorted ((dblMax : K), -1) with
    ⟨same, none_below⟩ | ⟨first, member, same, below, least, strict⟩
  · exact .inl ⟨congrArg Prod.snd same, fun d last => none_below _ (entry d last)⟩
  · rcases mem_detect_iff.mp member with ⟨d, last, rfl⟩
    exact .inr ⟨d, last, congrArg Prod.snd same, below,
      fun other last' => least _ (entry other last'),
      fun other last' before => strict _ (entry other last') before⟩

theorem get_last {image : ImageResult K} {d : Detection K} (last : LastOfType order image d) :
    ((detect order solvePnP image).get (typeOf d)).getD 0 = translation solvePnP image d := by
  rw [SortedMap.get_eq_some_iff.mpr (mem_detect_iff.mpr ⟨d, last, rfl⟩), Option.getD_some]

/-- The response describes the nearest target exactly when no less confident detection of its class
takes its place. -/
theorem describes_nearest_iff (order : StdSort (Detection K) cmp)
    (solvePnP : List (Vec3 K) → List (ℤ × ℤ) → Vec3 K) (sqrt : K → K) (image : ImageResult K)
    (resp : Response K) :
    DescribesNearest order solvePnP sqrt image
        (processOnce order solvePnP sqrt (some image) resp) ↔
      confident order image = [] ∨ NearestIsLast order solvePnP sqrt image := by
  rw [DescribesNearest, processOnce]
  dsimp only
  by_cases nothing : confident order image = []
  · rw [if_pos nothing]
    have none_last : ∀ d, ¬LastOfType order image d := by
      intro d last
      have member := last.mem
      rw [nothing] at member
      exact absurd member List.not_mem_nil
    have sentinel : (nearestType sqrt (detect order solvePnP image)).2 = -1 := by
      rcases nearestType_cases image with ⟨same, _⟩ | ⟨first, last, _⟩
      · exact same
      · exact absurd last (none_last first)
    rw [if_pos sentinel]
    exact iff_of_true ⟨rfl, rfl, rfl⟩ (.inl nothing)
  · rw [if_neg nothing, or_iff_right nothing]
    rcases nearestType_cases image with ⟨same, none_below⟩ |
      ⟨first, last, same, below, least, strict⟩
    · rw [if_pos same]
      refine iff_of_false (fun ⟨_, detected, _⟩ => Bool.false_ne_true detected) ?_
      rintro ⟨d, last, _, below, _⟩
      exact absurd below (not_lt.mpr (none_below d last))
    · rw [same]
      constructor
      · intro ⟨_, detected, d, member, type, found, nearest⟩
        by_cases sentinel : typeOf first = -1
        · rw [if_pos sentinel] at detected
          exact absurd detected Bool.false_ne_true
        · rw [if_neg sentinel] at type found
          dsimp only at type found
          rw [get_last last] at found
          have same_place : translation solvePnP image first = translation solvePnP image d :=
            found
          refine ⟨first, last, sentinel, below, same_place ▸ nearest,
            fun other last' minus_one => ?_⟩
          by_cases before : typeOf other < typeOf first
          · exact .inr (strict other last' before)
          · exact .inl (by omega)
      · rintro ⟨d, last_d, type, _, nearest, before⟩
        have equal : planeDistance sqrt (translation solvePnP image first) =
            planeDistance sqrt (translation solvePnP image d) :=
          le_antisymm (least d last_d) (nearest first last.mem)
        have sentinel : typeOf first ≠ -1 := by
          intro minus_one
          rcases before first last minus_one with earlier | nearer
          · exact absurd equal (strict d last_d (minus_one ▸ earlier)).ne
          · exact absurd equal nearer.ne'
        rw [if_neg sentinel]
        refine ⟨rfl, rfl, first, last.mem, rfl, ?_, equal ▸ nearest⟩
        dsimp only
        rw [get_last last]

end Process

def twoTargets : ImageResult ℚ where
  cols := 640
  rows := 640
  output i :=
    if i.val = 0 then 2
    else if i.val = 1 then 330 else if i.val = 2 then 320 else if i.val = 3 then 20
    else if i.val = 4 then 20 else if i.val = 5 then 9 / 10
    else if i.val = 7 then 500 else if i.val = 8 then 320 else if i.val = 9 then 20
    else if i.val = 10 then 20 else if i.val = 11 then 8 / 10
    else 0
  cols_pos := by decide
  rows_pos := by decide

def firstCorner (_ : List (Vec3 ℚ)) (points : List (ℤ × ℤ)) : Vec3 ℚ :=
  ⟨((points.head?.map Prod.fst).getD 0 - 300 : ℤ), 0, 0⟩

def wholeSqrt (q : ℚ) : ℚ := q.num.natAbs.sqrt

/-- The response has the target at 190 instead of the one at 20. -/
theorem nearest_target_overwritten :
    ¬∀ (image : ImageResult ℚ) (resp : Response ℚ),
      DescribesNearest stableSort firstCorner wholeSqrt image
        (processOnce stableSort firstCorner wholeSqrt (some image) resp) := by
  intro every
  have described := every twoTargets ⟨false, 0, 0, 0, 0⟩
  have both : confident stableSort twoTargets =
      [⟨⟨330, 320, 20, 20⟩, 9 / 10, 0⟩, ⟨⟨500, 320, 20, 20⟩, 8 / 10, 0⟩] := by
    decide +kernel
  have answer : ∀ t : Vec3 ℚ,
      (⟨(processOnce stableSort firstCorner wholeSqrt (some twoTargets) ⟨false, 0, 0, 0, 0⟩).2.x,
        (processOnce stableSort firstCorner wholeSqrt (some twoTargets) ⟨false, 0, 0, 0, 0⟩).2.y,
        (processOnce stableSort firstCorner wholeSqrt (some twoTargets) ⟨false, 0, 0, 0, 0⟩).2.z⟩ :
          Vec3 ℚ) = t → planeDistance wholeSqrt t = 190 := by
    rintro t rfl
    decide +kernel
  have near : planeDistance wholeSqrt (translation firstCorner twoTargets
      ⟨⟨330, 320, 20, 20⟩, 9 / 10, 0⟩) = 20 := by
    decide +kernel
  rw [DescribesNearest, both, if_neg (List.cons_ne_nil _ _)] at described
  rcases described with ⟨_, _, d, _, _, found, nearest⟩
  have least := nearest _ List.mem_cons_self
  rw [answer _ found, near] at least
  exact absurd least (by decide +kernel)

end RobocupDrone.YoloServer
