import Mathlib.Tactic.FieldSimp
import Mathlib.Tactic.Linarith
import RobocupDrone.Mapping.DepthImage

/-! The points that `projectDepthImage` stores, against the depth of their own pixels. -/

namespace RobocupDrone.Mapping

open Geometry

variable {K : Type}

theorem row_collects {round : Projection K → ℤ → Option (Projection K)} {pointer : ℤ → ℤ}
    {outcome : ℤ → Option (Option (Sample K))} {capacity : ℕ} {step : ℤ}
    (in_step : ∀ s u, s.rowPtr = pointer u → round s u =
      (Loop.collect capacity outcome s.stored u).map fun stored => ⟨pointer (u + step), stored⟩)
    (n : ℕ) {low : ℤ} {s : Projection K} (start : s.rowPtr = pointer low) :
    ((strideFrom low step n).foldlM round s).map (·.stored) =
      (strideFrom low step n).foldlM (Loop.collect capacity outcome) s.stored := by
  induction n generalizing low s with
  | zero => rfl
  | succ n ih =>
      rw [strideFrom, List.foldlM_cons, List.foldlM_cons, in_step s low start]
      cases Loop.collect capacity outcome s.stored low with
      | none => rfl
      | some stored => exact ih (s := ⟨pointer (low + step), stored⟩) rfl

theorem rows_collect {row : Projection K → ℤ → Option (Projection K)} {pixels : ℤ → List (ℤ × ℤ)}
    {outcome : ℤ × ℤ → Option (Option (Sample K))} {capacity : ℕ}
    (each : ∀ s v, (row s v).map (·.stored) =
      (pixels v).foldlM (Loop.collect capacity outcome) s.stored)
    (rows : List ℤ) (s : Projection K) :
    (rows.foldlM row s).map (·.stored) =
      (rows.flatMap pixels).foldlM (Loop.collect capacity outcome) s.stored := by
  induction rows generalizing s with
  | nil => rfl
  | cons v rest ih =>
      rw [List.foldlM_cons, List.flatMap_cons, List.foldlM_append, ← each s v]
      cases row s v with
      | none => rfl
      | some next => exact ih next

variable [Field K]

section Sampled

variable (mp : ProjectionParameters K) (md : CameraData K)

def sampledPixels : List (ℤ × ℤ) :=
  if ¬mp.useDepthFilter then
    (stride 0 md.depthImage.rows mp.skipPixel).flatMap fun v =>
      (stride 0 md.depthImage.cols mp.skipPixel).map fun u => (v, u)
  else if ¬md.hasFirstDepth then []
  else
    (stride mp.depthFilterMargin (md.depthImage.rows - mp.depthFilterMargin) mp.skipPixel).flatMap
      fun v =>
        (stride mp.depthFilterMargin (md.depthImage.cols - mp.depthFilterMargin) mp.skipPixel).map
          fun u => (v, u)

def rawDepth (raw : BitVec 16) : K := (raw.toNat : K) / mp.kDepthScalingFactor

def pixelRay (pixel : ℤ × ℤ) : Vec3 K := ⟨(pixel.2 - mp.cx) / mp.fx, (pixel.1 - mp.cy) / mp.fy, 1⟩

def Flat (pixel : ℤ × ℤ) : Prop := Vec3.mulVec md.cameraR (pixelRay mp pixel) = 0

instance [DecidableEq K] (pixel : ℤ × ℤ) : Decidable (Flat mp md pixel) :=
  inferInstanceAs (Decidable (_ = _))

def farDepth : K := mp.maxRayLength + 0.1

variable [LinearOrder K]

/-- A point is that of the depth stored at its pixel. With the filter a depth of zero or beyond
`depth_filter_maxdist_` may be replaced. -/
def PointRight (pixel : ℤ × ℤ) (raw : BitVec 16) (point : Vec3 K) : Prop :=
  point = backProject mp md pixel.1 pixel.2 (rawDepth mp raw) ∨
    mp.useDepthFilter = true ∧ (raw = 0 ∨ mp.depthFilterMaxdist < rawDepth mp raw) ∧
      point = backProject mp md pixel.1 pixel.2 (farDepth mp)

/-- The stored points of a pixel are right. With the filter a depth nearer than
`depth_filter_mindist_` may be dropped. -/
def PixelRight (stored : List (Sample K)) (pixel : ℤ × ℤ) : Prop :=
  ∃ raw, md.depthImage.pixel pixel.1 pixel.2 = some raw ∧
    (∀ sample ∈ stored, (sample.v, sample.u) = pixel → PointRight mp md pixel raw sample.point) ∧
    ((∀ sample ∈ stored, (sample.v, sample.u) ≠ pixel) →
      mp.useDepthFilter = true ∧ rawDepth mp raw < mp.depthFilterMindist)

def ProjectsRight : Prop :=
  ∃ stored after, projectPixels mp md = some stored ∧ projectDepthImage mp md = some after ∧
    after.projPoints = stored.map (·.point) ∧
    (∀ sample ∈ stored, (sample.v, sample.u) ∈ sampledPixels mp md) ∧
    ∀ pixel ∈ sampledPixels mp md, PixelRight mp md stored pixel

def PixelInStep (pixel : ℤ × ℤ) : Prop :=
  if mp.useDepthFilter then
    ∃ raw next, md.depthImage.pixel pixel.1 pixel.2 = some raw ∧
      md.depthImage.read (md.depthImage.ptr pixel.1 + pixel.2 + mp.skipPixel) = some next ∧
      (next = 0 → raw = 0 ∨ mp.depthFilterMaxdist < rawDepth mp raw ∨
        rawDepth mp raw = farDepth mp ∨ Flat mp md pixel)
  else
    md.depthImage.pixel pixel.1 (pixel.2 / mp.skipPixel) =
        md.depthImage.pixel pixel.1 pixel.2 ∨
      Flat mp md pixel

def keptPixel (pixel : ℤ × ℤ) : Bool :=
  !(mp.useDepthFilter &&
    (md.depthImage.pixel pixel.1 pixel.2).any (fun raw =>
      decide (rawDepth mp raw < mp.depthFilterMindist)) &&
    (md.depthImage.read (md.depthImage.ptr pixel.1 + pixel.2 + mp.skipPixel)).any (· ≠ 0))

/-- The reads serve their pixels, and `proj_points_` has room for the points. -/
structure InStep : Prop where
  pixels : ∀ pixel ∈ sampledPixels mp md, PixelInStep mp md pixel
  room : (sampledPixels mp md).countP (keptPixel mp md) ≤ projPointsSize mp

def ProjectionParameters.filtering (filter : Bool) : ProjectionParameters K :=
  { mp with useDepthFilter := filter }

def CameraData.seen : CameraData K := { md with hasFirstDepth := true }

def NothingFiltered : Prop :=
  ∀ pixel ∈ sampledPixels (mp.filtering true) md.seen, ∃ raw,
    md.depthImage.pixel pixel.1 pixel.2 = some raw ∧ raw ≠ 0 ∧
      mp.depthFilterMindist ≤ rawDepth mp raw ∧ rawDepth mp raw ≤ mp.depthFilterMaxdist

/-- With nothing filtered both branches store the same points for the pixels that both visit. -/
def BranchesAgree : Prop :=
  NothingFiltered mp md → ∀ plain filtered, projectPixels (mp.filtering false) md = some plain →
    projectPixels (mp.filtering true) md.seen = some filtered →
      ∀ v u, (v, u) ∈ sampledPixels (mp.filtering false) md →
        (v, u) ∈ sampledPixels (mp.filtering true) md.seen →
          ∀ point, ⟨v, u, point⟩ ∈ plain ↔ ⟨v, u, point⟩ ∈ filtered

end Sampled

section Outcomes

variable (mp : ProjectionParameters K) (md : CameraData K)

section

variable [LinearOrder K]

def plainOutcome (pixel : ℤ × ℤ) : Option (Option (Sample K)) :=
  (md.depthImage.read (md.depthImage.ptr pixel.1 + pixel.2 / mp.skipPixel)).map fun raw =>
    some ⟨pixel.1, pixel.2, backProject mp md pixel.1 pixel.2 (rawDepth mp raw)⟩

def filteredDepth (raw next : BitVec 16) : Option K :=
  if next = 0 then some (farDepth mp)
  else if rawDepth mp raw < mp.depthFilterMindist then none
  else if rawDepth mp raw > mp.depthFilterMaxdist then some (farDepth mp)
  else some (rawDepth mp raw)

def filteredOutcome (pixel : ℤ × ℤ) : Option (Option (Sample K)) :=
  (md.depthImage.read (md.depthImage.ptr pixel.1 + pixel.2)).bind fun raw =>
    (md.depthImage.read (md.depthImage.ptr pixel.1 + pixel.2 + mp.skipPixel)).map fun next =>
      (filteredDepth mp raw next).map fun depth =>
        ⟨pixel.1, pixel.2, backProject mp md pixel.1 pixel.2 depth⟩

def pixelOutcome (pixel : ℤ × ℤ) : Option (Option (Sample K)) :=
  if mp.useDepthFilter then filteredOutcome mp md pixel else plainOutcome mp md pixel

end

variable {mp md}

theorem store_eq (v u : ℤ) (pt : Vec3 K) (s : Projection K) :
    s.store mp v u pt =
      (if s.stored.length < projPointsSize mp then some (s.stored ++ [⟨v, u, pt⟩]) else none).map
        fun stored => ⟨s.rowPtr, stored⟩ := by
  unfold Projection.store
  split_ifs <;> rfl

theorem plainPixel_collects (positive : 0 < mp.skipPixel) (v : ℤ) (s : Projection K) (u : ℤ)
    (start : s.rowPtr = md.depthImage.ptr v + u / mp.skipPixel) :
    plainPixel mp md v s u =
      (Loop.collect (projPointsSize mp) (fun u => plainOutcome mp md (v, u)) s.stored u).map
        fun stored => ⟨md.depthImage.ptr v + (u + mp.skipPixel) / mp.skipPixel, stored⟩ := by
  have next_column : (u + mp.skipPixel) / mp.skipPixel = u / mp.skipPixel + 1 := by
    rw [Int.add_ediv_of_dvd_right (dvd_refl _), Int.ediv_self positive.ne']
  rw [plainPixel, Loop.collect, plainOutcome, start, next_column, ← add_assoc]
  dsimp only
  cases md.depthImage.read (md.depthImage.ptr v + u / mp.skipPixel) with
  | none => rfl
  | some raw =>
      rw [Option.bind_eq_bind, Option.bind_some, store_eq]
      rfl

variable [LinearOrder K]

theorem filteredPixel_collects (v : ℤ) (s : Projection K) (u : ℤ)
    (start : s.rowPtr = md.depthImage.ptr v + u) :
    filteredPixel mp md v s u =
      (Loop.collect (projPointsSize mp) (fun u => filteredOutcome mp md (v, u)) s.stored u).map
        fun stored => ⟨md.depthImage.ptr v + (u + mp.skipPixel), stored⟩ := by
  rw [filteredPixel, Loop.collect, filteredOutcome, start, ← add_assoc]
  dsimp only
  cases md.depthImage.read (md.depthImage.ptr v + u) with
  | none => rfl
  | some raw =>
      rw [Option.bind_eq_bind, Option.bind_some, Option.bind_some]
      cases md.depthImage.read (md.depthImage.ptr v + u + mp.skipPixel) with
      | none => rfl
      | some next =>
          rw [Option.bind_some, Option.map_some, Option.bind_some, filteredDepth, mul_one_div,
            store_eq, store_eq]
          by_cases zero : next = 0
          · rw [if_pos zero, if_pos zero]
            rfl
          · rw [if_neg zero, if_neg zero]
            by_cases near : rawDepth mp raw < mp.depthFilterMindist
            · rw [if_pos near]
              exact if_pos near
            · rw [if_neg near]
              refine (if_neg near).trans ?_
              by_cases far : rawDepth mp raw > mp.depthFilterMaxdist
              · rw [if_pos far]
                exact if_pos far
              · rw [if_neg far]
                exact if_neg far

theorem projectPixels_eq (positive : 0 < mp.skipPixel) :
    projectPixels mp md = (sampledPixels mp md).foldlM
      (Loop.collect (projPointsSize mp) (pixelOutcome mp md)) [] := by
  unfold projectPixels sampledPixels
  by_cases filter : mp.useDepthFilter = true
  · have outcome : pixelOutcome mp md = filteredOutcome mp md := by
      funext pixel
      rw [pixelOutcome, if_pos filter]
    rw [if_neg (not_not_intro filter), if_neg (not_not_intro filter), outcome]
    split_ifs
    · apply rows_collect
      intro s v
      rw [List.foldlM_map]
      exact row_collects (filteredPixel_collects v) _ rfl
    · rfl
  · have outcome : pixelOutcome mp md = plainOutcome mp md := by
      funext pixel
      rw [pixelOutcome, if_neg filter]
    rw [if_pos filter, if_pos filter, outcome]
    apply rows_collect
    intro s v
    rw [List.foldlM_map]
    exact row_collects (plainPixel_collects positive v) _ (by simp)

theorem pixelOutcome_tag {pixel : ℤ × ℤ} {sample : Sample K}
    (made : pixelOutcome mp md pixel = some (some sample)) : (sample.v, sample.u) = pixel := by
  unfold pixelOutcome filteredOutcome plainOutcome at made
  split_ifs at made
  · rcases Option.bind_eq_some_iff.mp made with ⟨raw, _, later⟩
    rcases Option.map_eq_some_iff.mp later with ⟨next, _, kept⟩
    rcases Option.map_eq_some_iff.mp kept with ⟨depth, _, rfl⟩
    rfl
  · rcases Option.map_eq_some_iff.mp made with ⟨raw, _, kept⟩
    rw [← Option.some.inj kept]

variable (mp md) in
def OutcomeRight (pixel : ℤ × ℤ) : Prop :=
  ∃ raw made, md.depthImage.pixel pixel.1 pixel.2 = some raw ∧
    pixelOutcome mp md pixel = some made ∧
    (∀ sample, made = some sample → PointRight mp md pixel raw sample.point) ∧
    (made = none → mp.useDepthFilter = true ∧ rawDepth mp raw < mp.depthFilterMindist)

theorem projectsRight_iff (positive : 0 < mp.skipPixel) : ProjectsRight mp md ↔
    (∀ pixel ∈ sampledPixels mp md, OutcomeRight mp md pixel) ∧
      (Loop.collected (pixelOutcome mp md) (sampledPixels mp md)).length ≤ projPointsSize mp := by
  constructor
  · rintro ⟨stored, after, run, _, _, _, each⟩
    rw [projectPixels_eq positive, Loop.foldlM_collect_eq_some_iff (Nat.zero_le _)] at run
    rcases run with ⟨valid, room, rfl⟩
    rw [List.length_nil, Nat.zero_add] at room
    refine ⟨fun pixel member => ?_, room⟩
    rcases each pixel member with ⟨raw, own, points, dropped⟩
    rcases Option.isSome_iff_exists.mp (valid pixel member) with ⟨made, outcome⟩
    refine ⟨raw, made, own, outcome, fun sample same => ?_, fun same => dropped ?_⟩
    · rw [same] at outcome
      exact points sample (Loop.mem_collected_iff.mpr ⟨pixel, member, outcome⟩)
        (pixelOutcome_tag outcome)
    · intro sample in_stored tag
      rcases Loop.mem_collected_iff.mp in_stored with ⟨other, _, kept⟩
      rw [← pixelOutcome_tag kept, tag, outcome, same] at kept
      exact absurd (Option.some.inj kept) (by simp)
  · rintro ⟨right, room⟩
    have run : projectPixels mp md =
        some (Loop.collected (pixelOutcome mp md) (sampledPixels mp md)) := by
      rw [projectPixels_eq positive, Loop.foldlM_collect_eq_some_iff (Nat.zero_le _)]
      refine ⟨fun pixel member => ?_, by rwa [List.length_nil, Nat.zero_add], rfl⟩
      rcases right pixel member with ⟨raw, made, _, outcome, _⟩
      rw [outcome, Option.isSome_some]
    refine ⟨_, _, run, by rw [projectDepthImage, run, Option.map_some], rfl, ?_, ?_⟩
    · intro sample in_stored
      rcases Loop.mem_collected_iff.mp in_stored with ⟨pixel, member, kept⟩
      rwa [pixelOutcome_tag kept]
    · intro pixel member
      rcases right pixel member with ⟨raw, made, own, outcome, points, dropped⟩
      refine ⟨raw, own, fun sample in_stored tag => ?_, fun none_stored => dropped ?_⟩
      · rcases Loop.mem_collected_iff.mp in_stored with ⟨other, _, kept⟩
        rw [← pixelOutcome_tag kept, tag, outcome] at kept
        exact points sample (Option.some.inj kept)
      · cases made with
        | none => rfl
        | some sample =>
            have in_stored := Loop.mem_collected_iff.mpr ⟨pixel, member, outcome⟩
            exact absurd (pixelOutcome_tag outcome) (none_stored sample in_stored)

end Outcomes

namespace DepthImage

variable {image : DepthImage} {v u : ℤ}

theorem read_of_pixel {raw : BitVec 16} (own : image.pixel v u = some raw) :
    image.read (image.ptr v + u) = some raw := by
  unfold pixel at own
  split_ifs at own
  exact own

theorem pixel_eq_read (row : 0 ≤ v ∧ v < image.rows) (column : 0 ≤ u ∧ u < image.cols) :
    image.pixel v u = image.read (image.ptr v + u) := if_pos ⟨row, column⟩

theorem exists_pixel (row : 0 ≤ v ∧ v < image.rows) (column : 0 ≤ u ∧ u < image.cols) :
    ∃ raw, image.pixel v u = some raw := by
  have range := MappingParameters.digits_range row.1 row.2 column.1 column.2
  have within : (v * image.cols + u).toNat < image.data.length := by
    rw [image.length_data]
    zify
    omega
  rw [pixel_eq_read row column, read, ptr, if_pos range.1, List.getElem?_eq_getElem within]
  exact ⟨_, rfl⟩

end DepthImage

section Reads

variable {mp : ProjectionParameters K} {md : CameraData K}

theorem backProject_eq_iff {v u : ℤ} {depth other : K} :
    backProject mp md v u depth = backProject mp md v u other ↔
      depth = other ∨ Flat mp md (v, u) := by
  have along : ∀ depth, backProject mp md v u depth =
      depth • Vec3.mulVec md.cameraR (pixelRay mp (v, u)) + md.cameraPos := by
    intro depth
    rw [backProject, ← Vec3.mulVec_smul]
    congr 2
    apply Vec3.ext_get
    intro axis
    cases axis
    · change _ = depth * ((u - mp.cx) / mp.fx)
      change (u - mp.cx) * depth / mp.fx = _
      ring
    · change _ = depth * ((v - mp.cy) / mp.fy)
      change (v - mp.cy) * depth / mp.fy = _
      ring
    · exact (mul_one depth).symm
  rw [along, along, add_left_inj, ← sub_eq_zero, ← sub_smul, smul_eq_zero, sub_eq_zero, Flat]

theorem rawDepth_inj [CharZero K] {raw other : BitVec 16} :
    rawDepth mp raw = rawDepth mp other ↔ raw = other := by
  rw [rawDepth, rawDepth, div_left_inj' mp.scaling_ne, Nat.cast_inj, BitVec.toNat_inj]

theorem sampled_plain (positive : 0 < mp.skipPixel) (plain : ¬mp.useDepthFilter = true)
    {pixel : ℤ × ℤ} (member : pixel ∈ sampledPixels mp md) :
    (0 ≤ pixel.1 ∧ pixel.1 < md.depthImage.rows) ∧
      0 ≤ pixel.2 ∧ pixel.2 < md.depthImage.cols := by
  rw [sampledPixels, if_pos plain, List.mem_flatMap] at member
  rcases member with ⟨v, row, column⟩
  rcases List.mem_map.mp column with ⟨u, inside, rfl⟩
  rw [mem_stride_iff positive] at row inside
  rcases row with ⟨v_lt, k, v_eq⟩
  rcases inside with ⟨u_lt, j, u_eq⟩
  have v_nonneg : 0 ≤ (k : ℤ) * mp.skipPixel := by positivity
  have u_nonneg : 0 ≤ (j : ℤ) * mp.skipPixel := by positivity
  dsimp only
  omega

variable [LinearOrder K]

theorem filteredDepth_zero (raw : BitVec 16) : filteredDepth mp raw 0 = some (farDepth mp) :=
  if_pos rfl

theorem filteredDepth_cases {raw next : BitVec 16} {depth : K}
    (left : filteredDepth mp raw next = some depth) (nonzero : next ≠ 0) :
    depth = rawDepth mp raw ∨ mp.depthFilterMaxdist < rawDepth mp raw ∧ depth = farDepth mp := by
  rw [filteredDepth, if_neg nonzero] at left
  split_ifs at left with _ far
  · exact .inr ⟨far, (Option.some.inj left).symm⟩
  · exact .inl (Option.some.inj left).symm

theorem filteredDepth_isSome {raw next : BitVec 16} : (filteredDepth mp raw next).isSome ↔
    ¬(rawDepth mp raw < mp.depthFilterMindist ∧ next ≠ 0) := by
  unfold filteredDepth
  split_ifs with zero near
  · simp [zero]
  · simpa [near] using zero
  · simp [near]
  · simp [near]

theorem outcomeRight_plain [CharZero K] (positive : 0 < mp.skipPixel)
    (plain : ¬mp.useDepthFilter = true) {pixel : ℤ × ℤ} (member : pixel ∈ sampledPixels mp md) :
    OutcomeRight mp md pixel ↔ PixelInStep mp md pixel := by
  have inside := sampled_plain positive plain member
  have column : 0 ≤ pixel.2 / mp.skipPixel ∧ pixel.2 / mp.skipPixel < md.depthImage.cols :=
    ⟨Int.ediv_nonneg inside.2.1 positive.le,
      (Int.ediv_le_self _ inside.2.1).trans_lt inside.2.2⟩
  rcases DepthImage.exists_pixel inside.1 inside.2 with ⟨raw, own⟩
  rcases DepthImage.exists_pixel inside.1 column with ⟨other, read⟩
  have outcome : pixelOutcome mp md pixel = some (some ⟨pixel.1, pixel.2,
      backProject mp md pixel.1 pixel.2 (rawDepth mp other)⟩) := by
    rw [pixelOutcome, if_neg plain, plainOutcome, DepthImage.read_of_pixel read, Option.map_some]
  have same : OutcomeRight mp md pixel ↔
      backProject mp md pixel.1 pixel.2 (rawDepth mp other) =
        backProject mp md pixel.1 pixel.2 (rawDepth mp raw) := by
    rw [OutcomeRight, own, outcome]
    constructor
    · rintro ⟨raw', made, same_raw, same_made, point, _⟩
      rw [Option.some.inj same_raw]
      rcases point _ (Option.some.inj same_made).symm with right | ⟨filter, _⟩
      · exact right
      · contradiction
    · intro right
      refine ⟨raw, _, rfl, rfl, fun sample same => .inl ?_, fun none_made => ?_⟩
      · rw [← Option.some.inj same]
        exact right
      · contradiction
  rw [same, backProject_eq_iff, rawDepth_inj, PixelInStep, if_neg plain, own, read,
    Option.some.injEq]

theorem pixelOutcome_filtered (filter : mp.useDepthFilter = true) {pixel : ℤ × ℤ}
    {raw next : BitVec 16} (own : md.depthImage.pixel pixel.1 pixel.2 = some raw)
    (later : md.depthImage.read (md.depthImage.ptr pixel.1 + pixel.2 + mp.skipPixel) = some next) :
    pixelOutcome mp md pixel = some ((filteredDepth mp raw next).map fun depth =>
      ⟨pixel.1, pixel.2, backProject mp md pixel.1 pixel.2 depth⟩) := by
  rw [pixelOutcome, if_pos filter, filteredOutcome, DepthImage.read_of_pixel own,
    Option.bind_some, later, Option.map_some]

theorem exists_next (filter : mp.useDepthFilter = true) {pixel : ℤ × ℤ} {raw : BitVec 16}
    {made : Option (Sample K)} (own : md.depthImage.pixel pixel.1 pixel.2 = some raw)
    (outcome : pixelOutcome mp md pixel = some made) : ∃ next,
      md.depthImage.read (md.depthImage.ptr pixel.1 + pixel.2 + mp.skipPixel) = some next := by
  rw [pixelOutcome, if_pos filter, filteredOutcome, DepthImage.read_of_pixel own,
    Option.bind_some] at outcome
  rcases Option.map_eq_some_iff.mp outcome with ⟨next, later, _⟩
  exact ⟨next, later⟩

theorem outcomeRight_filtered (filter : mp.useDepthFilter = true) {pixel : ℤ × ℤ} :
    OutcomeRight mp md pixel ↔ PixelInStep mp md pixel := by
  rw [PixelInStep, if_pos filter]
  constructor
  · rintro ⟨raw, made, own, given, right, _⟩
    rcases exists_next filter own given with ⟨next, later⟩
    refine ⟨raw, next, own, later, fun zero => ?_⟩
    rw [pixelOutcome_filtered filter own later, zero, filteredDepth_zero, Option.map_some] at given
    rcases right _ (Option.some.inj given).symm with same | ⟨_, untrusted, _⟩
    · rcases backProject_eq_iff.mp same with far | flat
      · exact .inr (.inr (.inl far.symm))
      · exact .inr (.inr (.inr flat))
    · rcases untrusted with empty | far
      · exact .inl empty
      · exact .inr (.inl far)
  · rintro ⟨raw, next, own, later, zero_read⟩
    refine ⟨raw, _, own, pixelOutcome_filtered filter own later, fun sample same => ?_,
      fun dropped => ?_⟩
    · rcases Option.map_eq_some_iff.mp same with ⟨depth, left, rfl⟩
      by_cases zero : next = 0
      · rw [zero, filteredDepth_zero, Option.some.injEq] at left
        rw [← left]
        rcases zero_read zero with empty | far | equal | flat
        · exact .inr ⟨filter, .inl empty, rfl⟩
        · exact .inr ⟨filter, .inr far, rfl⟩
        · exact .inl (by rw [equal])
        · exact .inl (backProject_eq_iff.mpr (.inr flat))
      · rcases filteredDepth_cases left zero with same | ⟨far, same⟩
        · exact .inl (by rw [same])
        · exact .inr ⟨filter, .inr far, by rw [same]⟩
    · have none_left := Option.map_eq_none_iff.mp dropped
      have near : rawDepth mp raw < mp.depthFilterMindist ∧ next ≠ 0 := by
        by_contra kept
        have left := filteredDepth_isSome.mpr kept
        rw [none_left] at left
        contradiction
      exact ⟨filter, near.1⟩

theorem keptPixel_iff {pixel : ℤ × ℤ} (right : OutcomeRight mp md pixel) :
    keptPixel mp md pixel = true ↔ ((pixelOutcome mp md pixel).join).isSome := by
  rcases right with ⟨raw, made, own, outcome, _, dropped⟩
  by_cases filter : mp.useDepthFilter = true
  · rcases exists_next filter own outcome with ⟨next, later⟩
    rw [pixelOutcome_filtered filter own later, Option.join_some, Option.isSome_map,
      filteredDepth_isSome, keptPixel, filter, own, later]
    simp [imp_iff_not_or]
  · have stored : made ≠ none := fun none_made => filter (dropped none_made).1
    rw [outcome, Option.join_some, Option.isSome_iff_ne_none, keptPixel]
    simp [filter, stored]

theorem projectsRight_iff_inStep [CharZero K] (positive : 0 < mp.skipPixel) :
    ProjectsRight mp md ↔ InStep mp md := by
  have pixels : (∀ pixel ∈ sampledPixels mp md, OutcomeRight mp md pixel) ↔
      ∀ pixel ∈ sampledPixels mp md, PixelInStep mp md pixel := by
    apply forall₂_congr
    intro pixel member
    by_cases filter : mp.useDepthFilter = true
    · exact outcomeRight_filtered filter
    · exact outcomeRight_plain positive filter member
  have count : (∀ pixel ∈ sampledPixels mp md, OutcomeRight mp md pixel) →
      (Loop.collected (pixelOutcome mp md) (sampledPixels mp md)).length =
        (sampledPixels mp md).countP (keptPixel mp md) :=
    fun right => Loop.length_collected fun pixel member => keptPixel_iff (right pixel member)
  rw [projectsRight_iff positive]
  constructor
  · rintro ⟨right, room⟩
    exact ⟨pixels.mp right, count right ▸ room⟩
  · rintro ⟨in_step, room⟩
    have right := pixels.mpr in_step
    exact ⟨right, (count right).symm ▸ room⟩

theorem mem_stored_iff {stored : List (Sample K)} {v u : ℤ} {raw : BitVec 16}
    (right : PixelRight mp md stored (v, u)) (own : md.depthImage.pixel v u = some raw)
    (trusted : mp.useDepthFilter = true → raw ≠ 0 ∧ mp.depthFilterMindist ≤ rawDepth mp raw ∧
      rawDepth mp raw ≤ mp.depthFilterMaxdist) (point : Vec3 K) :
    ⟨v, u, point⟩ ∈ stored ↔ point = backProject mp md v u (rawDepth mp raw) := by
  rcases right with ⟨raw', own', points, dropped⟩
  rw [show raw' = raw from Option.some.inj (own'.symm.trans own)] at points dropped
  have at_depth : ∀ sample ∈ stored, (sample.v, sample.u) = (v, u) →
      sample.point = backProject mp md v u (rawDepth mp raw) := by
    intro sample member tag
    rcases points sample member tag with same | ⟨filter, empty | far, _⟩
    · exact same
    · exact absurd empty (trusted filter).1
    · exact absurd far (not_lt.mpr (trusted filter).2.2)
  constructor
  · exact fun member => at_depth _ member rfl
  · rintro rfl
    by_contra missing
    have none_stored : ∀ sample ∈ stored, (sample.v, sample.u) ≠ (v, u) := by
      intro sample member tag
      apply missing
      have point := at_depth sample member tag
      cases sample
      rw [Prod.mk.injEq] at tag
      rcases tag with ⟨rfl, rfl⟩
      rwa [← point]
    rcases dropped none_stored with ⟨filter, near⟩
    exact absurd near (not_lt.mpr (trusted filter).2.1)

variable (mp md) in
theorem branches_agree (plain_right : ProjectsRight (mp.filtering false) md)
    (filtered_right : ProjectsRight (mp.filtering true) md.seen) : BranchesAgree mp md := by
  intro unfiltered plain filtered plain_run filtered_run v u in_plain in_filtered point
  rcases plain_right with ⟨stored, _, run, _, _, _, right⟩
  rcases filtered_right with ⟨stored', _, run', _, _, _, right'⟩
  rw [plain_run, Option.some.injEq] at run
  rw [filtered_run, Option.some.injEq] at run'
  rw [run, run']
  rcases unfiltered _ in_filtered with ⟨raw, own, trusted⟩
  rw [mem_stored_iff (right _ in_plain) own (by simp [ProjectionParameters.filtering]),
    mem_stored_iff (right' _ in_filtered) own fun _ => trusted]
  rfl

end Reads

/-- Without the filter the row pointer goes on by one pixel while the column goes on by the step;
with it the pixel tested for zero is the one after the step. -/
theorem projection_right_iff [LinearOrder K] [CharZero K] (mp : ProjectionParameters K)
    (md : CameraData K) (skip : 1 ≤ mp.skipPixel) :
    (∀ filter, ProjectsRight (mp.filtering filter) md ↔ InStep (mp.filtering filter) md) ∧
      (ProjectsRight (mp.filtering false) md ∧ ProjectsRight (mp.filtering true) md.seen ∧
          BranchesAgree mp md ↔
        InStep (mp.filtering false) md ∧ InStep (mp.filtering true) md.seen) := by
  have each : ∀ filter (md : CameraData K),
      ProjectsRight (mp.filtering filter) md ↔ InStep (mp.filtering filter) md :=
    fun filter md => projectsRight_iff_inStep skip
  refine ⟨fun filter => each filter md, ?_⟩
  rw [← each, ← each]
  constructor
  · rintro ⟨plain, filtered, _⟩
    exact ⟨plain, filtered⟩
  · rintro ⟨plain, filtered⟩
    exact ⟨plain, filtered, branches_agree mp md plain filtered⟩

def launchProjection : ProjectionParameters ℚ where
  resolution := 0.07
  mapSize := ⟨50, 25, 2⟩
  groundHeight := -0.01
  localUpdateRange := ⟨5.5, 5.5, 4.5⟩
  maxRayLength := 4.5
  probHitLog := 0.62
  probMissLog := -0.62
  clampMinLog := -1.99
  clampMaxLog := 2.2
  resolution_ne := by norm_num
  cx := 321
  cy := 243
  fx := 387
  fy := 387
  kDepthScalingFactor := 1000
  useDepthFilter := true
  depthFilterMindist := 0.2
  depthFilterMaxdist := 5
  depthFilterMargin := 2
  skipPixel := 2
  scaling_ne := by norm_num
  fx_ne := by norm_num
  fy_ne := by norm_num

/-- The depths of the pixels, row by row. -/
def imageOf (depth : ℕ → BitVec 16) : DepthImage where
  rows := 5
  cols := 7
  data := (List.range 35).map depth
  length_data := by simp

/-- The second frame of a camera that has not moved. -/
def secondFrame (image : DepthImage) : CameraData ℚ where
  toMappingData := initMap launchProjection.toMappingParameters
  depthImage := image
  cameraR := fun axis => Vec3.along axis 1
  hasFirstDepth := true
  lastCameraPos := ⟨0, 0, 0⟩
  lastCameraR := fun axis => Vec3.along axis 1
  lastDepthImage := image

/-- A wall that leans back by ten centimetres a row. -/
def slantedWall : CameraData ℚ :=
  secondFrame (imageOf fun i => 1000 + 100 * BitVec.ofNat 16 (i / 7))

theorem slantedWall_plain : InStep (launchProjection.filtering false) slantedWall := by
  have same : ∀ pixel ∈ sampledPixels (launchProjection.filtering false) slantedWall,
      slantedWall.depthImage.pixel pixel.1 (pixel.2 / 2) =
        slantedWall.depthImage.pixel pixel.1 pixel.2 := by
    decide +kernel
  exact ⟨fun pixel member => .inl (same pixel member), by decide +kernel⟩

theorem slantedWall_seen :
    ∀ pixel ∈ sampledPixels (launchProjection.filtering true) slantedWall,
      (slantedWall.depthImage.pixel pixel.1 pixel.2).isSome ∧
        (slantedWall.depthImage.read (slantedWall.depthImage.ptr pixel.1 + pixel.2 + 2)).any
          (· ≠ 0) := by
  decide +kernel

theorem slantedWall_filtered : InStep (launchProjection.filtering true) slantedWall := by
  refine ⟨fun pixel member => ?_, by decide +kernel⟩
  obtain ⟨own, other⟩ := slantedWall_seen pixel member
  obtain ⟨raw, own⟩ := Option.isSome_iff_exists.mp own
  obtain ⟨next, later, nonzero⟩ := (Option.any_eq_true _ _).mp other
  exact ⟨raw, next, own, later, fun zero => absurd zero (of_decide_eq_true nonzero)⟩

theorem slantedWall_projected :
    (∀ filter, ProjectsRight (launchProjection.filtering filter) slantedWall) ∧
      BranchesAgree launchProjection slantedWall := by
  have right := projection_right_iff launchProjection slantedWall (by decide)
  exact ⟨Bool.forall_bool.mpr ⟨(right.1 false).mpr slantedWall_plain,
    (right.1 true).mpr slantedWall_filtered⟩,
      (right.2.mpr ⟨slantedWall_plain, slantedWall_filtered⟩).2.2⟩

/-- A wall at one metre: at row 2 and column 4 it has no depth, at row 0 and column 1 two metres. -/
def secondImage : CameraData ℚ :=
  secondFrame (imageOf fun i => if i = 18 then 0 else if i = 1 then 2000 else 1000)

/-- With the filter the pixel before the hole is taken for one without a depth; without it the
pixel at column 2 has the depth of column 1. -/
theorem wall_projected_wrong :
    (¬∀ (mp : ProjectionParameters ℚ) md, 1 ≤ mp.skipPixel → mp.useDepthFilter = true →
      ProjectsRight mp md) ∧
    ¬∀ (mp : ProjectionParameters ℚ) md, 1 ≤ mp.skipPixel → mp.useDepthFilter = false →
      ProjectsRight mp md := by
  constructor
  · intro every
    have right := every launchProjection secondImage (by decide) rfl
    have before_hole := ((projectsRight_iff_inStep (by decide)).mp right).pixels (2, 2)
      (by decide +kernel)
    rcases before_hole with ⟨raw, next, own, later, zero⟩
    have own_depth : raw = 1000 := Option.some.inj (own.symm.trans (by decide +kernel))
    have hole : next = 0 := Option.some.inj (later.symm.trans (by decide +kernel))
    have trusted := zero hole
    rw [own_depth] at trusted
    revert trusted
    decide +kernel
  · intro every
    have right := every (launchProjection.filtering false) secondImage (by decide) rfl
    have second := ((projectsRight_iff_inStep (by decide)).mp right).pixels (0, 2)
      (by decide +kernel)
    rw [PixelInStep, if_neg (by decide)] at second
    revert second
    decide +kernel

end RobocupDrone.Mapping
