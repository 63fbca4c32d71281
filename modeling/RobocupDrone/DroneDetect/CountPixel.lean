import RobocupDrone.Library.Voxels
import RobocupDrone.PathSearching.GridIndex

/-! `drone_detector.cpp`: the search of the depth image for a drone at its predicted position. -/

namespace RobocupDrone.DroneDetect

open Geometry
open PathSearching (castInt)

structure Pixel where
  x : ℤ
  y : ℤ
  deriving DecidableEq

/-- `depth_img_`: its size, and the memory that starts with its first row. -/
structure DepthImg where
  rows : ℕ
  cols : ℕ
  memory : ℤ → BitVec 16

namespace DepthImg

variable (img : DepthImg)

def ptr (row : ℤ) : ℤ := row * img.cols

def Inside (pixel : Pixel) : Prop :=
  (0 ≤ pixel.x ∧ pixel.x < img.cols) ∧ 0 ≤ pixel.y ∧ pixel.y < img.rows

/-- `depth` once the row pointer is moved to the pixel, inside the image or not. -/
def depth (K : Type) [Field K] (pixel : Pixel) : K :=
  (img.memory (img.ptr pixel.y + pixel.x)).toNat / 1000

end DepthImg

/-- The parameters of the camera and of the search. The focal lengths of the camera file are not
zero. -/
structure Parameters (K : Type) [Field K] where
  imgWidth : ℤ
  imgHeight : ℤ
  fx : K
  fy : K
  cx : K
  cy : K
  droneWidth : K
  droneHeight : K
  maxPoseError : K
  pixelRatio : K
  fx_ne : fx ≠ 0
  fy_ne : fy ≠ 0

section Projection

variable {K : Type} [Field K] (par : Parameters K)

def depth2Pos (pixel : Pixel) (depth : K) : Vec3 K :=
  ⟨(pixel.x - par.cx) * depth / par.fx, (pixel.y - par.cy) * depth / par.fy, depth⟩

def getDist2 (p1 p2 : Vec3 K) : K :=
  let delta := p1 - p2
  delta.x * delta.x + delta.y * delta.y + delta.z * delta.z

variable [LinearOrder K] [FloorRing K]

def pos2Depth (pose : Vec3 K) : Pixel :=
  ⟨castInt (pose.x * par.fx / pose.z + par.cx + 0.5),
    castInt (pose.y * par.fy / pose.z + par.cy + 0.5)⟩

def isInSensorRange (pixel : Pixel) : Prop :=
  pixel.x ≥ 0 ∧ pixel.y ≥ 0 ∧ pixel.x ≤ par.imgWidth ∧ pixel.y ≤ par.imgHeight

instance (pixel : Pixel) : Decidable (isInSensorRange par pixel) :=
  inferInstanceAs (Decidable (_ ∧ _))

/-- A drone with `in_depth_` set: `drone_pose_cam_`, in front of the camera. -/
structure Drone where
  poseCam : Vec3 K
  in_front : 0 < poseCam.z
  in_range : isInSensorRange par (pos2Depth par poseCam)

end Projection

section Search

variable {K : Type} [Field K] [LinearOrder K] [FloorRing K] {par : Parameters K}
  (drone : Drone par) (img : DepthImg) (unset : Pixel)

def Drone.refPixel : Pixel := pos2Depth par drone.poseCam

def Drone.searchRadius : ℤ := castInt (2 * par.maxPoseError * par.fx / drone.poseCam.z)

def Drone.Near (pixel : Pixel) (depth : K) : Prop :=
  getDist2 (depth2Pos par pixel depth) drone.poseCam < par.maxPoseError * par.maxPoseError

instance (pixel : Pixel) (depth : K) : Decidable (drone.Near pixel depth) :=
  inferInstanceAs (Decidable (_ < _))

/-- `tmp_pixel` and what the members of the class hold for the drone. -/
structure Scan where
  tmpPixel : Pixel
  validPixelCnt : ℤ
  hitPixels : List Pixel
  boundingboxLu : Pixel
  boundingboxRd : Pixel

def scanPixel (s : Scan) (pixel : Pixel) : Scan :=
  let s := { s with tmpPixel := pixel }
  if pixel.x < 0 ∨ pixel.x ≥ par.imgWidth ∨ pixel.y < 0 ∨ pixel.y ≥ par.imgHeight then s
  else if drone.Near pixel (img.depth K pixel) then
    { s with
      validPixelCnt := s.validPixelCnt + 1
      hitPixels := s.hitPixels ++ [pixel]
      boundingboxLu :=
        ⟨if pixel.x < s.boundingboxLu.x then pixel.x else s.boundingboxLu.x,
          if pixel.y < s.boundingboxLu.y then pixel.y else s.boundingboxLu.y⟩
      boundingboxRd :=
        ⟨if pixel.x > s.boundingboxRd.x then pixel.x else s.boundingboxRd.x,
          if pixel.y > s.boundingboxRd.y then pixel.y else s.boundingboxRd.y⟩ }
  else s

def Drone.window : List Pixel :=
  (span (-drone.searchRadius) drone.searchRadius).flatMap fun i =>
    (span (-drone.searchRadius) drone.searchRadius).map fun j =>
      ⟨drone.refPixel.x + j, drone.refPixel.y + i⟩

/-- The scan; `unset` is what `tmp_pixel` holds before it. -/
def scan : Scan :=
  drone.window.foldl (scanPixel drone img)
    { tmpPixel := unset
      validPixelCnt := 0
      hitPixels := []
      boundingboxLu := ⟨par.imgWidth, par.imgHeight⟩
      boundingboxRd := ⟨0, 0⟩ }

def Drone.pixelThreshold : ℤ :=
  castInt ((par.droneWidth * par.fx / drone.poseCam.z) *
    (par.droneHeight * par.fy / drone.poseCam.z) * par.pixelRatio)

/-- The locals of the spiral that last from one pixel to the next: `init_x` and `init_y`, `x_flag`,
`y_flag` and `step`. -/
structure Spiral where
  init : Pixel
  xFlag : ℤ
  yFlag : ℤ
  step : ℕ

namespace Spiral

def xMove (s : Spiral) : Spiral := { s with init := ⟨s.init.x + s.xFlag, s.init.y⟩ }

def yMove (s : Spiral) : Spiral := { s with init := ⟨s.init.x, s.init.y + s.yFlag⟩ }

def leg (move : Spiral → Spiral) : ℕ → Spiral → List Pixel
  | 0, _ => []
  | rounds + 1, s => (move s).init :: leg move rounds (move s)

def xTurn (s : Spiral) : Spiral := { xMove^[s.step] s with xFlag := -s.xFlag }

def yTurn (s : Spiral) : Spiral :=
  { yMove^[s.step] s with yFlag := -s.yFlag, step := s.step + 1 }

def turns : ℕ → Spiral → List Pixel
  | 0, s => leg xMove (s.step - 1) s
  | rounds + 1, s =>
      leg xMove s.step s ++ (leg yMove s.step s.xTurn ++ turns rounds s.xTurn.yTurn)

end Spiral

def Scan.size (s : Scan) : ℤ :=
  if s.boundingboxRd.y - s.boundingboxLu.y < s.boundingboxRd.x - s.boundingboxLu.x then
    s.boundingboxRd.y - s.boundingboxLu.y
  else s.boundingboxRd.x - s.boundingboxLu.x

def Scan.center (s : Scan) : Pixel :=
  ⟨(s.boundingboxLu.x + s.boundingboxRd.x).tdiv 2, (s.boundingboxLu.y + s.boundingboxRd.y).tdiv 2⟩

def Scan.spiral (s : Scan) : List Pixel :=
  s.center :: Spiral.turns (s.size - 1).toNat ⟨s.center, 1, 1, 1⟩

/-- `true_pixel` and `true_pose_cam`, or false. Each test reads the depth at `tmp_pixel`. -/
def countPixel : Option (Pixel × Vec3 K) :=
  let s := scan drone img unset
  if s.validPixelCnt > drone.pixelThreshold then
    let depth := img.depth K s.tmpPixel
    (s.spiral.find? fun pixel => drone.Near pixel depth).map fun pixel =>
      (pixel, depth2Pos par pixel depth)
  else none

end Search

end RobocupDrone.DroneDetect
