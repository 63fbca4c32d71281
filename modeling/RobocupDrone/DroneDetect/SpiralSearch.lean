import RobocupDrone.DroneDetect.CountPixel

/-! Which pixels `countPixel` tests, and when the one that it reports is right. -/

namespace RobocupDrone.DroneDetect

open Geometry

namespace Spiral

theorem iterate_xMove (s : Spiral) (n : ℕ) :
    xMove^[n] s = { s with init := ⟨s.init.x + n * s.xFlag, s.init.y⟩ } := by
  induction n with
  | zero => simp
  | succ n ih =>
      rw [Function.iterate_succ_apply', ih]
      simp only [xMove, mk.injEq, Pixel.mk.injEq, and_true]
      push_cast
      ring

theorem iterate_yMove (s : Spiral) (n : ℕ) :
    yMove^[n] s = { s with init := ⟨s.init.x, s.init.y + n * s.yFlag⟩ } := by
  induction n with
  | zero => simp
  | succ n ih =>
      rw [Function.iterate_succ_apply', ih]
      simp only [yMove, mk.injEq, Pixel.mk.injEq, and_true, true_and]
      push_cast
      ring

theorem mem_leg {move : Spiral → Spiral} {rounds : ℕ} {s : Spiral} {pixel : Pixel}
    (visited : pixel ∈ leg move rounds s) : ∃ n ≤ rounds, pixel = (move^[n] s).init := by
  induction rounds generalizing s with
  | zero => exact absurd visited List.not_mem_nil
  | succ rounds ih =>
      rcases List.mem_cons.mp visited with first | later
      · exact ⟨1, by omega, first⟩
      · obtain ⟨n, few, same⟩ := ih later
        exact ⟨n + 1, by omega, same⟩

/-- How far the spiral is from its centre before a turn, in both directions. -/
def Centered (center : Pixel) (s : Spiral) : Prop :=
  (s.xFlag = 1 ∧ s.yFlag = 1 ∧ 2 * (s.init.x - center.x) = 1 - s.step ∧
    2 * (s.init.y - center.y) = 1 - s.step) ∨
  (s.xFlag = -1 ∧ s.yFlag = -1 ∧ 2 * (s.init.x - center.x) = s.step ∧
    2 * (s.init.y - center.y) = s.step)

def Reached (center : Pixel) (side : ℤ) (pixel : Pixel) : Prop :=
  |2 * (pixel.x - center.x)| ≤ side ∧ |2 * (pixel.y - center.y)| ≤ side

variable {center : Pixel} {s : Spiral}

theorem centered_turn (centered : Centered center s) : Centered center s.xTurn.yTurn := by
  simp only [Centered, xTurn, yTurn, iterate_xMove, iterate_yMove]
  rcases centered with ⟨x_up, y_up, x_place, y_place⟩ | ⟨x_down, y_down, x_place, y_place⟩
  · right
    rw [x_up, y_up]
    exact ⟨rfl, rfl, by omega, by omega⟩
  · left
    rw [x_down, y_down]
    exact ⟨rfl, rfl, by omega, by omega⟩

theorem reached_xLeg (centered : Centered center s) {rounds : ℕ} {side : ℤ}
    (wide : s.step ≤ side) (short : 2 * rounds + 1 ≤ s.step + side) :
    ∀ pixel ∈ leg xMove rounds s, Reached center side pixel := by
  intro pixel visited
  obtain ⟨n, few, rfl⟩ := mem_leg visited
  simp only [Reached, iterate_xMove, abs_le]
  rcases centered with ⟨x_up, -, x_place, y_place⟩ | ⟨x_down, -, x_place, y_place⟩
  · rw [x_up]
    omega
  · rw [x_down]
    omega

theorem reached_yLeg (centered : Centered center s) {side : ℤ} (wide : s.step + 1 ≤ side) :
    ∀ pixel ∈ leg yMove s.step s.xTurn, Reached center side pixel := by
  intro pixel visited
  obtain ⟨n, few, rfl⟩ := mem_leg visited
  simp only [Reached, xTurn, iterate_yMove, iterate_xMove, abs_le]
  rcases centered with ⟨x_up, y_up, x_place, y_place⟩ | ⟨x_down, y_down, x_place, y_place⟩
  · rw [x_up, y_up]
    omega
  · rw [x_down, y_down]
    omega

theorem reached_turns {rounds : ℕ} (centered : Centered center s) (first : 1 ≤ s.step) :
    ∀ pixel ∈ turns rounds s, Reached center (s.step + rounds) pixel := by
  induction rounds generalizing s with
  | zero =>
      rw [turns]
      exact reached_xLeg centered (by simp) (by omega)
  | succ rounds ih =>
      intro pixel visited
      simp only [turns, List.mem_append] at visited
      rcases visited with in_x | in_y | later
      · exact reached_xLeg centered (by omega) (by omega) pixel in_x
      · exact reached_yLeg centered (by omega) pixel in_y
      · have step : s.xTurn.yTurn.step = s.step + 1 := by
          simp only [xTurn, yTurn, iterate_xMove, iterate_yMove]
        have reached := ih (centered_turn centered) (by omega) pixel later
        rw [step] at reached
        convert reached using 1
        push_cast
        ring

end Spiral

def InRect (lu rd pixel : Pixel) : Prop :=
  (lu.x ≤ pixel.x ∧ pixel.x ≤ rd.x) ∧ lu.y ≤ pixel.y ∧ pixel.y ≤ rd.y

theorem spiral_narrow {s : Scan} (narrow : s.size ≤ 1) : s.spiral = [s.center] := by
  have no_turn : (s.size - 1).toNat = 0 := by omega
  rw [Scan.spiral, no_turn]
  rfl

theorem spiral_inRect {s : Scan}
    (x_box : 0 ≤ s.boundingboxLu.x ∧ s.boundingboxLu.x ≤ s.boundingboxRd.x)
    (y_box : 0 ≤ s.boundingboxLu.y ∧ s.boundingboxLu.y ≤ s.boundingboxRd.y) :
    ∀ pixel ∈ s.spiral, InRect s.boundingboxLu s.boundingboxRd pixel := by
  have x_half : s.center.x = (s.boundingboxLu.x + s.boundingboxRd.x) / 2 :=
    Int.tdiv_eq_ediv_of_nonneg (by omega)
  have y_half : s.center.y = (s.boundingboxLu.y + s.boundingboxRd.y) / 2 :=
    Int.tdiv_eq_ediv_of_nonneg (by omega)
  have size_le : s.size ≤ s.boundingboxRd.x - s.boundingboxLu.x ∧
      s.size ≤ s.boundingboxRd.y - s.boundingboxLu.y := by
    unfold Scan.size
    split_ifs <;> omega
  have center : InRect s.boundingboxLu s.boundingboxRd s.center := by
    rw [InRect, x_half, y_half]
    omega
  intro pixel visited
  by_cases narrow : s.size ≤ 1
  · rw [spiral_narrow narrow, List.mem_singleton] at visited
    rwa [visited]
  · rw [Scan.spiral, List.mem_cons] at visited
    rcases visited with first | later
    · rwa [first]
    · have start : Spiral.Centered s.center ⟨s.center, 1, 1, 1⟩ :=
        .inl ⟨rfl, rfl, by simp, by simp⟩
      obtain ⟨x_near, y_near⟩ := Spiral.reached_turns start le_rfl pixel later
      rw [abs_le] at x_near y_near
      rw [InRect]
      push_cast at x_near y_near
      omega

section Search

theorem depth2Pos_inj {K : Type} [Field K] {par : Parameters K} {pixel : Pixel} {d e : K} :
    depth2Pos par pixel d = depth2Pos par pixel e ↔ d = e :=
  ⟨fun same => congrArg Vec3.z same, fun same => same ▸ rfl⟩

variable {K : Type} [Field K] [LinearOrder K] [FloorRing K] {par : Parameters K}
  (drone : Drone par) (img : DepthImg) (unset : Pixel)

theorem scanPixel_tmpPixel (s : Scan) (pixel : Pixel) :
    (scanPixel drone img s pixel).tmpPixel = pixel := by
  unfold scanPixel
  split_ifs <;> rfl

/-- The pixel whose depth the spiral reads: the last one of the window, in the image or not. -/
def Drone.leftover : Pixel :=
  if 0 ≤ drone.searchRadius then
    ⟨drone.refPixel.x + drone.searchRadius, drone.refPixel.y + drone.searchRadius⟩
  else unset

theorem scan_tmpPixel : (scan drone img unset).tmpPixel = drone.leftover unset := by
  unfold Drone.leftover
  split_ifs with window
  · rw [scan, Drone.window, span_concat (by omega), List.flatMap_append, List.flatMap_singleton,
      List.map_append, List.map_singleton, ← List.append_assoc, List.foldl_append,
      List.foldl_cons, List.foldl_nil, scanPixel_tmpPixel]
  · have none_left : span (-drone.searchRadius) drone.searchRadius = [] := by
      rw [span, Int.toNat_of_nonpos (by omega), List.range_zero, List.map_nil]
    rw [scan, Drone.window, none_left, List.flatMap_nil, List.foldl_nil]

/-- `img_width_` and `img_height_` bound it. -/
def InCamera (par : Parameters K) (pixel : Pixel) : Prop :=
  (0 ≤ pixel.x ∧ pixel.x < par.imgWidth) ∧ 0 ≤ pixel.y ∧ pixel.y < par.imgHeight

/-- What holds after every round of the scan. -/
structure Scanned (s : Scan) : Prop where
  counted : s.validPixelCnt = s.hitPixels.length
  hits : ∀ pixel ∈ s.hitPixels, InCamera par pixel ∧ drone.Near pixel (img.depth K pixel) ∧
    InRect s.boundingboxLu s.boundingboxRd pixel
  box : (s.hitPixels = [] ∧ s.boundingboxLu = ⟨par.imgWidth, par.imgHeight⟩ ∧
      s.boundingboxRd = ⟨0, 0⟩) ∨
    (InCamera par s.boundingboxLu ∧ InCamera par s.boundingboxRd ∧
      InRect s.boundingboxLu s.boundingboxRd s.boundingboxLu)

variable {drone img}

theorem scanned_scanPixel {s : Scan} (scanned : Scanned drone img s) (pixel : Pixel) :
    Scanned drone img (scanPixel drone img s pixel) := by
  unfold scanPixel
  split_ifs with outside near
  · exact ⟨scanned.counted, scanned.hits, scanned.box⟩
  · have inside : InCamera par pixel := by
      unfold InCamera
      omega
    refine ⟨?_, ?_, .inr ?_⟩
    · simp [scanned.counted]
    · intro hit member
      rcases List.mem_append.mp member with earlier | here
      · obtain ⟨in_camera, hit_near, in_box⟩ := scanned.hits hit earlier
        refine ⟨in_camera, hit_near, ?_⟩
        unfold InRect at in_box ⊢
        dsimp only
        split_ifs <;> omega
      · rw [List.mem_singleton] at here
        rw [here]
        refine ⟨inside, near, ?_⟩
        unfold InRect
        dsimp only
        split_ifs <;> omega
    · unfold InCamera at inside
      rcases scanned.box with ⟨-, lu, rd⟩ | box
      · rw [lu, rd]
        unfold InCamera InRect
        dsimp only
        split_ifs <;> omega
      · unfold InCamera InRect at box ⊢
        dsimp only
        split_ifs <;> omega
  · exact ⟨scanned.counted, scanned.hits, scanned.box⟩

theorem scanned_scan : Scanned drone img (scan drone img unset) :=
  List.foldlRecOn _ _ ⟨rfl, fun _ member => absurd member List.not_mem_nil, .inl ⟨rfl, rfl, rfl⟩⟩
    fun _ scanned pixel _ => scanned_scanPixel scanned pixel

theorem spiral_inCamera (wide : 1 ≤ par.imgWidth) (high : 1 ≤ par.imgHeight) :
    ∀ pixel ∈ (scan drone img unset).spiral, InCamera par pixel := by
  intro pixel visited
  rcases (scanned_scan unset : Scanned drone img (scan drone img unset)).box with
    ⟨-, lu, rd⟩ | ⟨⟨x_low, y_low⟩, ⟨x_high, y_high⟩, ordered⟩
  · have narrow : (scan drone img unset).size ≤ 1 := by
      rw [Scan.size, lu, rd]
      dsimp only
      split_ifs <;> omega
    rw [spiral_narrow narrow, List.mem_singleton] at visited
    have x_half : (par.imgWidth + 0).tdiv 2 = par.imgWidth / 2 := by
      rw [add_zero, Int.tdiv_eq_ediv_of_nonneg (by omega)]
    have y_half : (par.imgHeight + 0).tdiv 2 = par.imgHeight / 2 := by
      rw [add_zero, Int.tdiv_eq_ediv_of_nonneg (by omega)]
    rw [visited, InCamera, Scan.center, lu, rd, x_half, y_half]
    dsimp only
    omega
  · unfold InRect at ordered
    obtain ⟨x_in, y_in⟩ := spiral_inRect ⟨x_low.1, ordered.1.2⟩ ⟨y_low.1, ordered.2.2⟩ pixel visited
    exact ⟨⟨x_low.1.trans x_in.1, x_in.2.trans_lt x_high.2⟩, y_low.1.trans y_in.1,
      y_in.2.trans_lt y_high.2⟩

/-- The point is within `max_pose_error_` of the predicted position. -/
def Drone.Within (drone : Drone par) (point : Vec3 K) : Prop :=
  0 ≤ par.maxPoseError ∧ getDist2 point drone.poseCam ≤ par.maxPoseError * par.maxPoseError

/-- What a detection has to be: a pixel with the point that its own depth gives. -/
structure Detected (drone : Drone par) (img : DepthImg) (pixel : Pixel) (pose : Vec3 K) :
    Prop where
  inside : img.Inside pixel
  within : drone.Within (depth2Pos par pixel (img.depth K pixel))
  own : pose = depth2Pos par pixel (img.depth K pixel)

theorem detected_iff {pixel : Pixel} {depth : K} (near : drone.Near pixel depth) :
    Detected drone img pixel (depth2Pos par pixel depth) ↔
      0 ≤ par.maxPoseError ∧ img.Inside pixel ∧ img.depth K pixel = depth := by
  constructor
  · intro detected
    exact ⟨detected.within.1, detected.inside, (depth2Pos_inj.mp detected.own).symm⟩
  · rintro ⟨error_nonneg, inside, rfl⟩
    exact ⟨inside, ⟨error_nonneg, le_of_lt near⟩, rfl⟩

theorem countPixel_eq_some_iff {pixel : Pixel} {pose : Vec3 K} :
    countPixel drone img unset = some (pixel, pose) ↔
      (scan drone img unset).validPixelCnt > drone.pixelThreshold ∧
        drone.Near pixel (img.depth K (drone.leftover unset)) ∧
        (∃ before after, (scan drone img unset).spiral = before ++ pixel :: after ∧
          ∀ earlier ∈ before, ¬drone.Near earlier (img.depth K (drone.leftover unset))) ∧
        pose = depth2Pos par pixel (img.depth K (drone.leftover unset)) := by
  rw [countPixel, scan_tmpPixel]
  split_ifs with enough
  · simp only [Option.map_eq_some_iff, Prod.mk.injEq, List.find?_eq_some_iff_append,
      decide_eq_true_eq, Bool.not_eq_true', decide_eq_false_iff_not]
    constructor
    · rintro ⟨_, ⟨near, before, after, split, earlier⟩, rfl, rfl⟩
      exact ⟨enough, near, ⟨before, after, split, earlier⟩, rfl⟩
    · rintro ⟨-, near, ⟨before, after, split, earlier⟩, rfl⟩
      exact ⟨pixel, ⟨near, before, after, split, earlier⟩, rfl, rfl⟩
  · exact iff_of_false nofun fun found => enough found.1

theorem countPixel_inCamera (wide : 1 ≤ par.imgWidth) (high : 1 ≤ par.imgHeight) {pixel : Pixel}
    {pose : Vec3 K} (found : countPixel drone img unset = some (pixel, pose)) :
    InCamera par pixel := by
  obtain ⟨-, -, ⟨before, after, split, -⟩, -⟩ := (countPixel_eq_some_iff unset).mp found
  exact spiral_inCamera unset wide high pixel (by rw [split]; simp)

/-- Every pixel that is reported is right exactly when the first pixel of the spiral that the
leftover depth brings near is in the image and has that depth. -/
theorem detections_iff :
    (∀ pixel pose, countPixel drone img unset = some (pixel, pose) →
        Detected drone img pixel pose) ↔
      ((scan drone img unset).validPixelCnt > drone.pixelThreshold →
        ∀ before pixel after, (scan drone img unset).spiral = before ++ pixel :: after →
          drone.Near pixel (img.depth K (drone.leftover unset)) →
          (∀ earlier ∈ before, ¬drone.Near earlier (img.depth K (drone.leftover unset))) →
            0 ≤ par.maxPoseError ∧ img.Inside pixel ∧
              img.depth K pixel = img.depth K (drone.leftover unset)) := by
  constructor
  · intro right enough before pixel after split near earlier
    rw [← detected_iff near]
    exact right pixel _ ((countPixel_eq_some_iff unset).mpr
      ⟨enough, near, ⟨before, after, split, earlier⟩, rfl⟩)
  · intro condition pixel pose found
    obtain ⟨enough, near, ⟨before, after, split, earlier⟩, rfl⟩ :=
      (countPixel_eq_some_iff unset).mp found
    exact (detected_iff near).mpr (condition enough before pixel after split near earlier)

end Search

def smallCamera : Parameters ℚ where
  imgWidth := 5
  imgHeight := 5
  fx := 2
  fy := 2
  cx := 0
  cy := 0
  droneWidth := 0.2
  droneHeight := 0.2
  maxPoseError := 0.6
  pixelRatio := 0.1
  fx_ne := by decide
  fy_ne := by decide

def nearDrone : Drone smallCamera := ⟨⟨1, 1, 1⟩, by decide, by decide +kernel⟩

/-- Both arms of the drone have a depth, and so has the wall behind pixel (4, 4). -/
def armsImage : DepthImg :=
  ⟨5, 5, fun place => if place = 11 ∨ place = 13 ∨ place = 24 then 1000 else 0⟩

theorem hole_detected : ¬ ∀ (par : Parameters ℚ) (drone : Drone par) (img : DepthImg)
    (unset pixel : Pixel) (pose : Vec3 ℚ), countPixel drone img unset = some (pixel, pose) →
      Detected drone img pixel pose := by
  intro right
  have found : countPixel nearDrone armsImage ⟨0, 0⟩ = some (⟨2, 2⟩, ⟨1, 1, 1⟩) := by
    decide +kernel
  have own := (right smallCamera nearDrone armsImage ⟨0, 0⟩ ⟨2, 2⟩ ⟨1, 1, 1⟩ found).own
  exact absurd own (by decide +kernel)

end RobocupDrone.DroneDetect
