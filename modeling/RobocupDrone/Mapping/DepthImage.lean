import RobocupDrone.Library.Loop
import RobocupDrone.Library.Voxels
import RobocupDrone.Mapping.GridMap

/-! `projectDepthImage`: the points of a depth image, by its row pointer. -/

namespace RobocupDrone.Mapping

open Geometry

variable {K : Type} [Field K]

/-- A `cv::Mat` of 16 bit depths as `copyTo` leaves it: its rows one after the other. -/
structure DepthImage where
  rows : ℕ
  cols : ℕ
  data : List (BitVec 16)
  length_data : data.length = rows * cols

namespace DepthImage

variable (image : DepthImage)

def ptr (v : ℤ) : ℤ := v * image.cols

def read (pointer : ℤ) : Option (BitVec 16) :=
  if 0 ≤ pointer then image.data[pointer.toNat]? else none

def pixel (v u : ℤ) : Option (BitVec 16) :=
  if (0 ≤ v ∧ v < image.rows) ∧ 0 ≤ u ∧ u < image.cols then image.read (image.ptr v + u) else none

end DepthImage

/-- The part of `MappingParameters` that the projection reads. The launch file sets the scaling and
the focal lengths to values other than zero. -/
structure ProjectionParameters (K : Type) [Field K] extends MappingParameters K where
  cx : K
  cy : K
  fx : K
  fy : K
  kDepthScalingFactor : K
  useDepthFilter : Bool
  depthFilterMindist : K
  depthFilterMaxdist : K
  depthFilterMargin : ℤ
  skipPixel : ℤ
  scaling_ne : kDepthScalingFactor ≠ 0
  fx_ne : fx ≠ 0
  fy_ne : fy ≠ 0

structure CameraData (K : Type) extends MappingData K where
  depthImage : DepthImage
  cameraR : Vec3.Matrix3 K
  hasFirstDepth : Bool
  lastCameraPos : Vec3 K
  lastCameraR : Vec3.Matrix3 K
  lastDepthImage : DepthImage

structure Sample (K : Type) where
  v : ℤ
  u : ℤ
  point : Vec3 K

structure Projection (K : Type) where
  rowPtr : ℤ
  stored : List (Sample K)

section Projecting

variable (mp : ProjectionParameters K) (md : CameraData K)

def projPointsSize : ℕ := (640 * 480 / mp.skipPixel / mp.skipPixel).toNat

def backProject (v u : ℤ) (depth : K) : Vec3 K :=
  Vec3.mulVec md.cameraR ⟨(u - mp.cx) * depth / mp.fx, (v - mp.cy) * depth / mp.fy, depth⟩ +
    md.cameraPos

/-- `md_.proj_points_[md_.proj_points_cnt++] = pt`; past the end of the vector it is no store. -/
def Projection.store (v u : ℤ) (pt : Vec3 K) (s : Projection K) : Option (Projection K) :=
  if s.stored.length < projPointsSize mp then some { s with stored := s.stored ++ [⟨v, u, pt⟩] }
  else none

def plainPixel (v : ℤ) (s : Projection K) (u : ℤ) : Option (Projection K) := do
  let raw ← md.depthImage.read s.rowPtr
  let s := { s with rowPtr := s.rowPtr + 1 }
  let depth := (raw.toNat : K) / mp.kDepthScalingFactor
  s.store mp v u (backProject mp md v u depth)

def plainRow (s : Projection K) (v : ℤ) : Option (Projection K) :=
  (stride 0 md.depthImage.cols mp.skipPixel).foldlM (plainPixel mp md v)
    { s with rowPtr := md.depthImage.ptr v }

variable [LinearOrder K]

def filteredPixel (v : ℤ) (s : Projection K) (u : ℤ) : Option (Projection K) := do
  let raw ← md.depthImage.read s.rowPtr
  let depth := (raw.toNat : K) * (1 / mp.kDepthScalingFactor)
  let s := { s with rowPtr := s.rowPtr + mp.skipPixel }
  let next ← md.depthImage.read s.rowPtr
  if next = 0 then s.store mp v u (backProject mp md v u (mp.maxRayLength + 0.1))
  else if depth < mp.depthFilterMindist then some s
  else if depth > mp.depthFilterMaxdist then
    s.store mp v u (backProject mp md v u (mp.maxRayLength + 0.1))
  else s.store mp v u (backProject mp md v u depth)

def filteredRow (s : Projection K) (v : ℤ) : Option (Projection K) :=
  (stride mp.depthFilterMargin (md.depthImage.cols - mp.depthFilterMargin) mp.skipPixel).foldlM
    (filteredPixel mp md v) { s with rowPtr := md.depthImage.ptr v + mp.depthFilterMargin }

def projectPixels : Option (List (Sample K)) :=
  if ¬mp.useDepthFilter then
    ((stride 0 md.depthImage.rows mp.skipPixel).foldlM (plainRow mp md) ⟨0, []⟩).map (·.stored)
  else if ¬md.hasFirstDepth then some []
  else
    ((stride mp.depthFilterMargin (md.depthImage.rows - mp.depthFilterMargin) mp.skipPixel).foldlM
      (filteredRow mp md) ⟨0, []⟩).map (·.stored)

/-- `none`: a read outside the image, or a store past the end of `proj_points_`. -/
def projectDepthImage : Option (CameraData K) :=
  (projectPixels mp md).map fun stored =>
    { md with
      projPoints := stored.map (·.point)
      hasFirstDepth := md.hasFirstDepth || mp.useDepthFilter
      lastCameraPos := md.cameraPos
      lastCameraR := md.cameraR
      lastDepthImage := md.depthImage }

end Projecting

end RobocupDrone.Mapping
