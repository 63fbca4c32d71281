import Mathlib.Data.Int.ModEq
import RobocupDrone.YoloServer.Resize

/-! What `DLinearResize` reads and writes for one output pixel. -/

namespace RobocupDrone.YoloServer.Resize

open PathSearching (castInt)

section Weights

variable {K : Type} [Field K] [LinearOrder K] [FloorRing K]

theorem castInt_nonneg {z : K} (above : -1 < z) : 0 ≤ castInt z := by
  unfold castInt
  split_ifs with nonneg
  · exact Int.floor_nonneg.mpr nonneg
  · have up : (-1 : ℤ) < ⌈z⌉ := Int.lt_ceil.mpr (by exact_mod_cast above)
    omega

theorem castInt_lt {z : K} {n : ℤ} (positive : 0 < n) (below : z < n) : castInt z < n := by
  unfold castInt
  split_ifs with nonneg
  · exact Int.floor_lt.mpr below
  · have low : ⌈z⌉ ≤ 0 := Int.ceil_le.mpr (by
      rw [Int.cast_zero]
      exact (not_le.mp nonneg).le)
    omega

variable [IsStrictOrderedRing K]

theorem sub_castInt {z bound : K} (low : -bound < z) (positive : 0 < bound) (small : bound ≤ 1) :
    -bound < z - castInt z ∧ z - castInt z < 1 := by
  unfold castInt
  split_ifs with nonneg
  · have floor := Int.floor_le z
    have next := Int.lt_floor_add_one z
    constructor <;> linarith
  · have zero : ⌈z⌉ = 0 := by
      rw [Int.ceil_eq_iff, Int.cast_zero]
      constructor <;> linarith
    rw [zero, Int.cast_zero]
    constructor <;> linarith

variable {idx source target : ℤ} {r : K} (scale : r = source / target)
include scale

theorem place_bounds (first : 0 ≤ idx) (last : idx < target) (pixel : 1 ≤ source) :
    -0.5 < place idx r ∧ place idx r < source := by
  have target_pos : (0 : K) < target := by exact_mod_cast first.trans_lt last
  have source_pos : (0 : K) < source := by exact_mod_cast zero_lt_one.trans_le pixel
  have idx_nonneg : (0 : K) ≤ idx := by exact_mod_cast first
  have idx_last : (idx : K) + 1 ≤ target := by exact_mod_cast last
  have step : 0 < r := scale ▸ div_pos source_pos target_pos
  have whole : r * target = source := by rw [scale, div_mul_cancel₀ _ target_pos.ne']
  have low : 0 < ((idx : K) + 0.5) * r := mul_pos (by linarith) step
  have high : ((idx : K) + 0.5) * r ≤ target * r :=
    mul_le_mul_of_nonneg_right (by linarith) step.le
  rw [mul_comm, mul_comm (target : K), whole, mul_comm] at high
  unfold place
  constructor <;> linarith

theorem intPlace_bounds (first : 0 ≤ idx) (last : idx < target) (pixel : 1 ≤ source) :
    castPlace idx r = intPlace idx r ∧ 0 ≤ intPlace idx r ∧ intPlace idx r < source := by
  obtain ⟨low, high⟩ := place_bounds scale first last pixel
  have nonneg : 0 ≤ castPlace idx r := castInt_nonneg (by linarith)
  have same : intPlace idx r = castPlace idx r := if_neg (not_lt.mpr nonneg)
  rw [same]
  exact ⟨rfl, nonneg, castInt_lt (by omega) high⟩

theorem shortTemp_bounds (first : 0 ≤ idx) (last : idx < target) (pixel : 1 ≤ source) :
    0 ≤ shortTemp idx r ∧ shortTemp idx r < 3072 := by
  obtain ⟨low, high⟩ := place_bounds scale first last pixel
  obtain ⟨lower, upper⟩ := sub_castInt low (by norm_num) (by norm_num)
  have above : (-1 : K) < (1 - fraction idx r) * 2048 := by
    have := mul_pos (sub_pos.mpr upper) (by norm_num : (0 : K) < 2048)
    exact neg_one_lt_zero.trans this
  refine ⟨castInt_nonneg above, castInt_lt (by norm_num) ?_⟩
  have half : 1 - fraction idx r < 1.5 := by
    unfold fraction castPlace
    linarith
  push_cast
  linarith

theorem cbuf_bounds (first : 0 ≤ idx) (last : idx < target) (pixel : 1 ≤ source) :
    0 ≤ cbuf1 idx r ∧ 0 ≤ cbuf2 idx r ∧ cbuf1 idx r + cbuf2 idx r = 2048 := by
  obtain ⟨low, -⟩ := shortTemp_bounds scale first last pixel
  unfold cbuf2 cbuf1
  split_ifs <;> omega

end Weights

section Sums

variable {v : Terms ℤ} {x1 x2 y1 y2 low high : ℤ}

theorem weightedSum_bounds (range : ∀ n ∈ v.toList, low ≤ n ∧ n ≤ high) (x1_nonneg : 0 ≤ x1)
    (x2_nonneg : 0 ≤ x2) (y1_nonneg : 0 ≤ y1) (y2_nonneg : 0 ≤ y2) :
    low * ((x1 + x2) * (y1 + y2)) ≤ weightedSum v x1 x2 y1 y2 ∧
      weightedSum v x1 x2 y1 y2 ≤ high * ((x1 + x2) * (y1 + y2)) := by
  have term : ∀ {n a b : ℤ}, n ∈ v.toList → 0 ≤ a → 0 ≤ b →
      low * (a * b) ≤ n * a * b ∧ n * a * b ≤ high * (a * b) := by
    intro n a b member a_nonneg b_nonneg
    have weight := mul_nonneg a_nonneg b_nonneg
    rw [mul_assoc]
    exact ⟨mul_le_mul_of_nonneg_right (range n member).1 weight,
      mul_le_mul_of_nonneg_right (range n member).2 weight⟩
  have first := term (n := v.term1) (by simp [Terms.toList]) x1_nonneg y1_nonneg
  have second := term (n := v.term2) (by simp [Terms.toList]) x1_nonneg y2_nonneg
  have third := term (n := v.term3) (by simp [Terms.toList]) x2_nonneg y1_nonneg
  have fourth := term (n := v.term4) (by simp [Terms.toList]) x2_nonneg y2_nonneg
  have split : ∀ n : ℤ, n * ((x1 + x2) * (y1 + y2)) =
      n * (x1 * y1) + n * (x1 * y2) + n * (x2 * y1) + n * (x2 * y2) := by
    intro n
    ring
  rw [split, split, weightedSum]
  constructor <;> linarith

theorem weightedSum_shift (range : ∀ n ∈ v.toList, low ≤ n ∧ n ≤ high) (x1_nonneg : 0 ≤ x1)
    (x2_nonneg : 0 ≤ x2) (x_weight : x1 + x2 = 2048) (y1_nonneg : 0 ≤ y1) (y2_nonneg : 0 ≤ y2)
    (y_weight : y1 + y2 = 2048) :
    low ≤ weightedSum v x1 x2 y1 y2 >>> (22 : ℕ) ∧
      weightedSum v x1 x2 y1 y2 >>> (22 : ℕ) ≤ high := by
  obtain ⟨below, above⟩ := weightedSum_bounds range x1_nonneg x2_nonneg y1_nonneg y2_nonneg
  rw [x_weight, y_weight] at below above
  rw [Int.shiftRight_eq_div_pow]
  omega

end Sums

namespace Sizes

variable (sz : Sizes)

/-- The source pixels for an output pixel whose place is at `x` and `y`. -/
def Selected (x y row col : ℤ) : Prop :=
  (row = y ∨ row = y + 1 ∧ y + 1 < sz.sheight) ∧ (col = x ∨ col = x + 1 ∧ x + 1 < sz.swidth)

theorem selected_first (x y : ℤ) : sz.Selected x y y x := ⟨.inl rfl, .inl rfl⟩

def byteIndex (row col : ℤ) (channel : ℕ) : ℤ := (row * sz.swidth + col) * 3 + channel

variable {sz} {x y row col : ℤ}

/-- The index of a pixel is what it would be without words, when its last byte has a word. -/
theorem si_channel {channel : ℕ} (few : channel < 3) (row_nonneg : 0 ≤ row)
    (col_nonneg : 0 ≤ col) (fits : sz.byteIndex row col 2 < 2 ^ 32) :
    u32 (sz.si row col + channel) = sz.byteIndex row col channel := by
  have exact : row * (3 * sz.swidth) + col * 3 + channel = sz.byteIndex row col channel := by
    rw [byteIndex]
    ring
  have width := sz.swidth_word.1
  have rows : 0 ≤ row * sz.swidth := mul_nonneg row_nonneg (by omega)
  have same : (u32 (row * sz.sstep + col * 3) + channel) ≡
      row * (3 * sz.swidth) + col * 3 + channel [ZMOD 2 ^ 32] :=
    ((Int.mod_modEq _ _).trans
      (((Int.mod_modEq (3 * sz.swidth) _).mul_left row).add_right (col * 3))).add_right _
  rw [u32, si, same.eq, exact]
  rw [byteIndex] at fits ⊢
  exact Int.emod_eq_of_lt (by omega) (by omega)

theorem u32_of_word {n : ℤ} (nonneg : 0 ≤ n) (word : n < 2 ^ 32) : u32 n = n :=
  Int.emod_eq_of_lt nonneg word

theorem sources_selected {si2 : ℤ} {channel : ℕ} (x_nonneg : 0 ≤ x) (x_inside : x < sz.swidth)
    (y_nonneg : 0 ≤ y) (y_inside : y < sz.sheight)
    (clear : x + 1 < sz.swidth ∨ y + 1 < sz.sheight) :
    ∀ i ∈ (sz.sources si2 x y channel).toList, ∃ row col, sz.Selected x y row col ∧
      i = u32 (sz.si row col + channel) := by
  have width := sz.swidth_word
  have height := sz.sheight_word
  simp only [sources, u32_of_word x_nonneg (by omega), u32_of_word y_nonneg (by omega),
    u32_of_word (n := sz.swidth - 1) (by omega) (by omega),
    u32_of_word (n := sz.sheight - 1) (by omega) (by omega)]
  intro i member
  split_ifs at member with interior right bottom <;>
    simp only [Terms.toList, List.mem_cons, List.not_mem_nil, or_false] at member
  · rcases member with rfl | rfl | rfl | rfl
    · exact ⟨y, x, ⟨.inl rfl, .inl rfl⟩, rfl⟩
    · exact ⟨y + 1, x, ⟨.inr ⟨rfl, by omega⟩, .inl rfl⟩, rfl⟩
    · exact ⟨y, x + 1, ⟨.inl rfl, .inr ⟨rfl, by omega⟩⟩, rfl⟩
    · exact ⟨y + 1, x + 1, ⟨.inr ⟨rfl, by omega⟩, .inr ⟨rfl, by omega⟩⟩, rfl⟩
  · rcases member with rfl | rfl | rfl | rfl
    · exact ⟨y, x, ⟨.inl rfl, .inl rfl⟩, rfl⟩
    · exact ⟨y + 1, x, ⟨.inr ⟨rfl, by omega⟩, .inl rfl⟩, rfl⟩
    · exact ⟨y, x, ⟨.inl rfl, .inl rfl⟩, rfl⟩
    · exact ⟨y + 1, x, ⟨.inr ⟨rfl, by omega⟩, .inl rfl⟩, rfl⟩
  · rcases member with rfl | rfl | rfl | rfl
    · exact ⟨y, x, ⟨.inl rfl, .inl rfl⟩, rfl⟩
    · exact ⟨y, x, ⟨.inl rfl, .inl rfl⟩, rfl⟩
    · exact ⟨y, x + 1, ⟨.inl rfl, .inr ⟨rfl, by omega⟩⟩, rfl⟩
    · exact ⟨y, x + 1, ⟨.inl rfl, .inr ⟨rfl, by omega⟩⟩, rfl⟩
  · omega
  · omega

theorem sources_corner {si2 : ℤ} {channel : ℕ} (x_nonneg : 0 ≤ x) (x_last : x + 1 = sz.swidth)
    (y_nonneg : 0 ≤ y) (y_last : y + 1 = sz.sheight) :
    sz.sources si2 x y channel =
      ⟨u32 (sz.si y x + channel), u32 ((if channel = 0 then sz.si y x else si2) + channel),
        u32 (sz.si y x + channel), u32 (sz.si y x + channel)⟩ := by
  have width := sz.swidth_word
  have height := sz.sheight_word
  simp only [sources, u32_of_word x_nonneg (by omega), u32_of_word y_nonneg (by omega),
    u32_of_word (n := sz.swidth - 1) (by omega) (by omega),
    u32_of_word (n := sz.sheight - 1) (by omega) (by omega)]
  split_ifs <;> first | rfl | omega

variable (sz)

def targetIndex (xIdx yIdx : ℤ) : ℤ :=
  if sz.twidth > sz.theight then
    (((sz.twidth - sz.theight) / 2 + yIdx) * sz.twidth + xIdx) * 3
  else (yIdx * sz.theight + xIdx + (sz.theight - sz.twidth) / 2) * 3

/-- The intermediate values of `ti` and of the indices written at. -/
def targetWords (xIdx yIdx : ℤ) : List ℤ :=
  (if sz.twidth > sz.theight then
    let half := (sz.twidth - sz.theight) / 2
    [sz.twidth - sz.theight, half, half * sz.twidth, half * sz.twidth * 3, yIdx * 3,
      yIdx * 3 * sz.twidth, xIdx * 3, half * sz.twidth * 3 + yIdx * 3 * sz.twidth]
  else
    let left := (sz.theight - sz.twidth) / 2
    [sz.theight - sz.twidth, left, yIdx * 3, yIdx * 3 * sz.theight, xIdx + left,
      (xIdx + left) * 3]) ++
    [sz.targetIndex xIdx yIdx, sz.targetIndex xIdx yIdx + 1, sz.targetIndex xIdx yIdx + 2]

theorem targetWords_bounds {xIdx yIdx : ℤ} (x_nonneg : 0 ≤ xIdx) (x_inside : xIdx < sz.twidth)
    (y_nonneg : 0 ≤ yIdx) (y_inside : yIdx < sz.theight) :
    ∀ n ∈ sz.targetWords xIdx yIdx, 0 ≤ n ∧ (n < 2 ^ 32 ∨ n ≤ sz.targetIndex xIdx yIdx + 2) := by
  have width := sz.twidth_word
  have height := sz.theight_word
  intro n member
  rw [targetWords, List.mem_append] at member
  by_cases wide : sz.twidth > sz.theight
  · rw [if_pos wide] at member
    have index : sz.targetIndex xIdx yIdx = ((sz.twidth - sz.theight) / 2 * sz.twidth) * 3 +
        (yIdx * sz.twidth) * 3 + xIdx * 3 := by
      rw [targetIndex, if_pos wide]
      ring
    have rows : yIdx * 3 * sz.twidth = yIdx * sz.twidth * 3 := by ring
    have half_nonneg : 0 ≤ (sz.twidth - sz.theight) / 2 := by omega
    have margin := le_mul_of_one_le_right half_nonneg (show 1 ≤ sz.twidth by omega)
    have above := le_mul_of_one_le_right y_nonneg (show 1 ≤ sz.twidth by omega)
    simp only [index, rows, List.mem_cons, List.not_mem_nil, or_false] at member
    rw [index]
    omega
  · rw [if_neg wide] at member
    have index : sz.targetIndex xIdx yIdx = (yIdx * sz.theight) * 3 + xIdx * 3 +
        ((sz.theight - sz.twidth) / 2) * 3 := by
      rw [targetIndex, if_neg wide]
      ring
    have rows : yIdx * 3 * sz.theight = yIdx * sz.theight * 3 := by ring
    have left_nonneg : 0 ≤ (sz.theight - sz.twidth) / 2 := by omega
    have above := le_mul_of_one_le_right y_nonneg (show 1 ≤ sz.theight by omega)
    simp only [index, rows, List.mem_cons, List.not_mem_nil, or_false] at member
    rw [index]
    omega

def Addressable (x y xIdx yIdx : ℤ) : Prop :=
  3 * sz.swidth < 2 ^ 32 ∧
    (∀ row col, sz.Selected x y row col →
      row < 2 ^ 31 ∧ col * 3 < 2 ^ 31 ∧ sz.byteIndex row col 2 < 2 ^ 32) ∧
    sz.targetIndex xIdx yIdx + 2 < 2 ^ 32

end Sizes

def Short (n : ℤ) : Prop := -2 ^ 15 ≤ n ∧ n < 2 ^ 15

def Int32 (n : ℤ) : Prop := -2 ^ 31 ≤ n ∧ n < 2 ^ 31

def Word (n : ℤ) : Prop := 0 ≤ n ∧ n < 2 ^ 32

def partialSums (v : Terms ℤ) (x1 x2 y1 y2 : ℤ) : List ℤ :=
  [v.term1 * x1, v.term1 * x1 * y1, v.term2 * x1, v.term2 * x1 * y2,
    v.term3 * x2, v.term3 * x2 * y1, v.term4 * x2, v.term4 * x2 * y2,
    v.term1 * x1 * y1 + v.term2 * x1 * y2,
    v.term1 * x1 * y1 + v.term2 * x1 * y2 + v.term3 * x2 * y1, weightedSum v x1 x2 y1 y2]

section Pixel

variable {K : Type} [Field K] [LinearOrder K] [FloorRing K] (dImage : ℤ → BitVec 8) (si2 : ℤ)
  (sz : Sizes) (wratio hratio : K) (xIdx yIdx : ℤ)

def mixed (channel : ℕ) : Terms ℤ :=
  (reads si2 sz wratio hratio xIdx yIdx channel).map fun i => (dImage i).toNat

/-- Every value of 16 or 32 bits on the way is what it would be without bounds. -/
structure NoOverflow : Prop where
  shorts : ∀ n ∈ [shortTemp xIdx wratio, cbuf1 xIdx wratio, cbuf2 xIdx wratio,
    shortTemp yIdx hratio, cbuf1 yIdx hratio, cbuf2 yIdx hratio], Short n
  casts : Int32 (castPlace xIdx wratio) ∧ Int32 (castPlace yIdx hratio)
  places : ∀ row col, sz.Selected (intPlace xIdx wratio) (intPlace yIdx hratio) row col →
    Int32 row ∧ Int32 col ∧ Int32 (col * 3)
  sstep : Word (3 * sz.swidth)
  indices : ∀ row col, sz.Selected (intPlace xIdx wratio) (intPlace yIdx hratio) row col →
    Word (row * (3 * sz.swidth)) ∧ ∀ channel < 3, Word (sz.byteIndex row col channel)
  target : ∀ n ∈ sz.targetWords xIdx yIdx, Word n
  sums : ∀ channel < 3,
    (∀ n ∈ (mixed dImage si2 sz wratio hratio xIdx yIdx channel).toList, Short n) ∧
    ∀ n ∈ partialSums (mixed dImage si2 sz wratio hratio xIdx yIdx channel)
      (cbuf1 xIdx wratio) (cbuf2 xIdx wratio) (cbuf1 yIdx hratio) (cbuf2 yIdx hratio), Int32 n

/-- The selected source pixel is in the image, and this is the index of its channel. -/
def FromImage (channel : ℕ) (i : ℤ) : Prop :=
  ∃ row col, sz.Selected (intPlace xIdx wratio) (intPlace yIdx hratio) row col ∧
    0 ≤ row ∧ row < sz.sheight ∧ 0 ≤ col ∧ col < sz.swidth ∧ i = sz.byteIndex row col channel

/-- What one output pixel has to be. -/
structure Resized : Prop where
  reads : ∀ channel < 3, ∀ i ∈ (reads si2 sz wratio hratio xIdx yIdx channel).toList,
    FromImage sz wratio hratio xIdx yIdx channel i
  between : ∀ channel < 3, ∀ index value,
    (dLinearResize dImage si2 sz wratio hratio xIdx yIdx)[channel]? = some (index, value) →
      (∃ i, FromImage sz wratio hratio xIdx yIdx channel i ∧ (dImage i).toNat ≤ value.toNat) ∧
      ∃ i, FromImage sz wratio hratio xIdx yIdx channel i ∧ value.toNat ≤ (dImage i).toNat
  fits : NoOverflow dImage si2 sz wratio hratio xIdx yIdx

end Pixel

theorem Terms.toList_map {α β : Type} (f : α → β) (t : Terms α) :
    (t.map f).toList = t.toList.map f := rfl

theorem bytes_of_map (dImage : ℤ → BitVec 8) (t : Terms ℤ) :
    ∀ n ∈ (t.map fun i => ((dImage i).toNat : ℤ)).toList, 0 ≤ n ∧ n ≤ 255 := by
  have byte : ∀ i, 0 ≤ ((dImage i).toNat : ℤ) ∧ ((dImage i).toNat : ℤ) ≤ 255 := by
    intro i
    have small := (dImage i).isLt
    omega
  intro n member
  simp only [Terms.map, Terms.toList, List.mem_cons, List.not_mem_nil, or_false] at member
  rcases member with rfl | rfl | rfl | rfl <;> exact byte _

theorem mul_range {a b low high : ℤ} (a_nonneg : 0 ≤ a) (a_le : a ≤ low) (b_nonneg : 0 ≤ b)
    (b_le : b ≤ high) : 0 ≤ a * b ∧ a * b ≤ low * high :=
  ⟨mul_nonneg a_nonneg b_nonneg, mul_le_mul a_le b_le b_nonneg (a_nonneg.trans a_le)⟩

theorem partialSums_int32 {v : Terms ℤ} {x1 x2 y1 y2 : ℤ}
    (bytes : ∀ n ∈ v.toList, 0 ≤ n ∧ n ≤ 255) (x1_nonneg : 0 ≤ x1) (x2_nonneg : 0 ≤ x2)
    (x_weight : x1 + x2 = 2048) (y1_nonneg : 0 ≤ y1) (y2_nonneg : 0 ≤ y2)
    (y_weight : y1 + y2 = 2048) : ∀ n ∈ partialSums v x1 x2 y1 y2, Int32 n := by
  obtain ⟨-, whole⟩ := weightedSum_bounds bytes x1_nonneg x2_nonneg y1_nonneg y2_nonneg
  rw [x_weight, y_weight, weightedSum] at whole
  have term : ∀ {n a b : ℤ}, n ∈ v.toList → 0 ≤ a → a ≤ 2048 → 0 ≤ b → b ≤ 2048 →
      (0 ≤ n * a ∧ n * a ≤ 255 * 2048) ∧ 0 ≤ n * a * b ∧ n * a * b ≤ 255 * 2048 * 2048 := by
    intro n a b member a_nonneg a_le b_nonneg b_le
    obtain ⟨low, high⟩ := bytes n member
    have first := mul_range low high a_nonneg a_le
    exact ⟨first, mul_range first.1 first.2 b_nonneg b_le⟩
  have first := term (n := v.term1) (a := x1) (b := y1) (by simp [Terms.toList]) x1_nonneg
    (by omega) y1_nonneg (by omega)
  have second := term (n := v.term2) (a := x1) (b := y2) (by simp [Terms.toList]) x1_nonneg
    (by omega) y2_nonneg (by omega)
  have third := term (n := v.term3) (a := x2) (b := y1) (by simp [Terms.toList]) x2_nonneg
    (by omega) y1_nonneg (by omega)
  have fourth := term (n := v.term4) (a := x2) (b := y2) (by simp [Terms.toList]) x2_nonneg
    (by omega) y2_nonneg (by omega)
  intro n member
  simp only [partialSums, weightedSum, List.mem_cons, List.not_mem_nil, or_false] at member
  unfold Int32
  omega

section Threads

variable {K : Type} [Field K] [LinearOrder K] [FloorRing K] [IsStrictOrderedRing K]
  {dImage : ℤ → BitVec 8} {si2 : ℤ} {sz : Sizes} {xIdx yIdx : ℤ}

theorem column_bounds (x_nonneg : 0 ≤ xIdx) (x_inside : xIdx < sz.twidth) :
    castPlace xIdx (sz.wratio K) = intPlace xIdx (sz.wratio K) ∧
      0 ≤ intPlace xIdx (sz.wratio K) ∧ intPlace xIdx (sz.wratio K) < sz.swidth :=
  intPlace_bounds rfl x_nonneg x_inside sz.swidth_word.1

theorem row_bounds (y_nonneg : 0 ≤ yIdx) (y_inside : yIdx < sz.theight) :
    castPlace yIdx (sz.hratio K) = intPlace yIdx (sz.hratio K) ∧
      0 ≤ intPlace yIdx (sz.hratio K) ∧ intPlace yIdx (sz.hratio K) < sz.sheight :=
  intPlace_bounds rfl y_nonneg y_inside sz.sheight_word.1

variable (x_nonneg : 0 ≤ xIdx) (x_inside : xIdx < sz.twidth) (y_nonneg : 0 ≤ yIdx)
  (y_inside : yIdx < sz.theight)
include x_nonneg x_inside y_nonneg y_inside

theorem selected_nonneg {row col : ℤ}
    (selected : sz.Selected (intPlace xIdx (sz.wratio K)) (intPlace yIdx (sz.hratio K)) row col) :
    0 ≤ row ∧ 0 ≤ col ∧ 0 ≤ row * sz.swidth := by
  obtain ⟨-, x_low, -⟩ := column_bounds (K := K) x_nonneg x_inside
  obtain ⟨-, y_low, -⟩ := row_bounds (K := K) y_nonneg y_inside
  obtain ⟨on_y, on_x⟩ := selected
  have row_nonneg : 0 ≤ row := by omega
  have width := sz.swidth_word.1
  exact ⟨row_nonneg, by omega, mul_nonneg row_nonneg (by omega)⟩

theorem weights_short : ∀ n ∈ [shortTemp xIdx (sz.wratio K), cbuf1 xIdx (sz.wratio K),
    cbuf2 xIdx (sz.wratio K), shortTemp yIdx (sz.hratio K), cbuf1 yIdx (sz.hratio K),
    cbuf2 yIdx (sz.hratio K)], Short n := by
  have x_short := shortTemp_bounds (r := sz.wratio K) rfl x_nonneg x_inside sz.swidth_word.1
  have y_short := shortTemp_bounds (r := sz.hratio K) rfl y_nonneg y_inside sz.sheight_word.1
  have x_weights := cbuf_bounds (r := sz.wratio K) rfl x_nonneg x_inside sz.swidth_word.1
  have y_weights := cbuf_bounds (r := sz.hratio K) rfl y_nonneg y_inside sz.sheight_word.1
  intro n member
  simp only [List.mem_cons, List.not_mem_nil, or_false] at member
  unfold Short
  omega

theorem mixed_fits (channel : ℕ) :
    (∀ n ∈ (mixed dImage si2 sz (sz.wratio K) (sz.hratio K) xIdx yIdx channel).toList, Short n) ∧
      ∀ n ∈ partialSums (mixed dImage si2 sz (sz.wratio K) (sz.hratio K) xIdx yIdx channel)
        (cbuf1 xIdx (sz.wratio K)) (cbuf2 xIdx (sz.wratio K)) (cbuf1 yIdx (sz.hratio K))
        (cbuf2 yIdx (sz.hratio K)), Int32 n := by
  obtain ⟨x1_nonneg, x2_nonneg, x_weight⟩ :=
    cbuf_bounds (r := sz.wratio K) rfl x_nonneg x_inside sz.swidth_word.1
  obtain ⟨y1_nonneg, y2_nonneg, y_weight⟩ :=
    cbuf_bounds (r := sz.hratio K) rfl y_nonneg y_inside sz.sheight_word.1
  have bytes : ∀ n ∈ (mixed dImage si2 sz (sz.wratio K) (sz.hratio K) xIdx yIdx
      channel).toList, 0 ≤ n ∧ n ≤ 255 := bytes_of_map _ _
  refine ⟨fun n member => ?_, partialSums_int32 bytes x1_nonneg x2_nonneg x_weight y1_nonneg
    y2_nonneg y_weight⟩
  have byte := bytes n member
  unfold Short
  omega

theorem noOverflow_of_addressable (fits : sz.Addressable (intPlace xIdx (sz.wratio K))
    (intPlace yIdx (sz.hratio K)) xIdx yIdx) :
    NoOverflow dImage si2 sz (sz.wratio K) (sz.hratio K) xIdx yIdx := by
  obtain ⟨x_cast, x_low, x_high⟩ := column_bounds (K := K) x_nonneg x_inside
  obtain ⟨y_cast, y_low, y_high⟩ := row_bounds (K := K) y_nonneg y_inside
  obtain ⟨sstep, places, target⟩ := fits
  have first := places _ _ (sz.selected_first _ _)
  exact {
    shorts := weights_short x_nonneg x_inside y_nonneg y_inside
    casts := by
      rw [x_cast, y_cast]
      unfold Int32
      omega
    places := by
      intro row col selected
      have fits := places row col selected
      have nonneg := selected_nonneg x_nonneg x_inside y_nonneg y_inside selected
      unfold Int32
      omega
    sstep := by
      have width := sz.swidth_word.1
      exact ⟨by omega, sstep⟩
    indices := by
      intro row col selected
      have fits := (places row col selected).2.2
      have nonneg := selected_nonneg x_nonneg x_inside y_nonneg y_inside selected
      have same : row * (3 * sz.swidth) = row * sz.swidth * 3 := by ring
      rw [Sizes.byteIndex] at fits
      refine ⟨?_, fun channel few => ?_⟩
      · rw [same]
        unfold Word
        omega
      · rw [Sizes.byteIndex]
        unfold Word
        omega
    target := by
      intro n member
      obtain ⟨nonneg, bound⟩ :=
        sz.targetWords_bounds x_nonneg x_inside y_nonneg y_inside n member
      exact ⟨nonneg, bound.elim id fun below => below.trans_lt target⟩
    sums := fun channel _ => mixed_fits x_nonneg x_inside y_nonneg y_inside channel }

theorem noOverflow_iff :
    NoOverflow dImage si2 sz (sz.wratio K) (sz.hratio K) xIdx yIdx ↔
      sz.Addressable (intPlace xIdx (sz.wratio K)) (intPlace yIdx (sz.hratio K)) xIdx yIdx := by
  refine ⟨fun fits => ?_, noOverflow_of_addressable x_nonneg x_inside y_nonneg y_inside⟩
  refine ⟨fits.sstep.2, fun row col selected => ?_, (fits.target _ ?_).2⟩
  · obtain ⟨row_fits, -, col_fits⟩ := fits.places row col selected
    exact ⟨row_fits.2, col_fits.2, ((fits.indices row col selected).2 2 (by omega)).2⟩
  · rw [Sizes.targetWords]
    simp

theorem fromImage_of_selected {row col : ℤ} (channel : ℕ)
    (selected : sz.Selected (intPlace xIdx (sz.wratio K)) (intPlace yIdx (sz.hratio K)) row col) :
    FromImage sz (sz.wratio K) (sz.hratio K) xIdx yIdx channel
      (sz.byteIndex row col channel) := by
  obtain ⟨-, x_low, x_high⟩ := column_bounds (K := K) x_nonneg x_inside
  obtain ⟨-, y_low, y_high⟩ := row_bounds (K := K) y_nonneg y_inside
  refine ⟨row, col, selected, ?_, ?_, ?_, ?_, rfl⟩
  all_goals
    obtain ⟨on_y, on_x⟩ := selected
    omega

theorem between_of_reads {channel : ℕ}
    (from_image : ∀ i ∈ (reads si2 sz (sz.wratio K) (sz.hratio K) xIdx yIdx channel).toList,
      FromImage sz (sz.wratio K) (sz.hratio K) xIdx yIdx channel i) :
    (∃ i, FromImage sz (sz.wratio K) (sz.hratio K) xIdx yIdx channel i ∧ (dImage i).toNat ≤
        (channelValue dImage si2 sz (sz.wratio K) (sz.hratio K) xIdx yIdx channel).toNat) ∧
      ∃ i, FromImage sz (sz.wratio K) (sz.hratio K) xIdx yIdx channel i ∧
        (channelValue dImage si2 sz (sz.wratio K) (sz.hratio K) xIdx yIdx channel).toNat ≤
          (dImage i).toNat := by
  obtain ⟨x1_nonneg, x2_nonneg, x_weight⟩ :=
    cbuf_bounds (r := sz.wratio K) rfl x_nonneg x_inside sz.swidth_word.1
  obtain ⟨y1_nonneg, y2_nonneg, y_weight⟩ :=
    cbuf_bounds (r := sz.hratio K) rfl y_nonneg y_inside sz.sheight_word.1
  set shifted := channelSum dImage si2 sz (sz.wratio K) (sz.hratio K) xIdx yIdx channel >>> (22 : ℕ)
    with shift
  have squeeze : ∀ low high : ℤ,
      (∀ i, FromImage sz (sz.wratio K) (sz.hratio K) xIdx yIdx channel i →
        low ≤ (dImage i).toNat ∧ ((dImage i).toNat : ℤ) ≤ high) →
      low ≤ shifted ∧ shifted ≤ high := by
    intro low high range
    refine weightedSum_shift (fun n member => ?_) x1_nonneg x2_nonneg x_weight y1_nonneg
      y2_nonneg y_weight
    obtain ⟨i, read, rfl⟩ := List.mem_map.mp (Terms.toList_map _ _ ▸ member)
    exact range i (from_image i read)
  have byte : ∀ i, 0 ≤ ((dImage i).toNat : ℤ) ∧ ((dImage i).toNat : ℤ) ≤ 255 := by
    intro i
    have small := (dImage i).isLt
    omega
  obtain ⟨low, high⟩ := squeeze 0 255 fun i _ => byte i
  have value : ((channelValue dImage si2 sz (sz.wratio K) (sz.hratio K) xIdx yIdx
      channel).toNat : ℤ) = shifted := by
    rw [channelValue, ← shift, BitVec.toNat_ofInt]
    omega
  constructor
  · by_contra none_below
    push Not at none_below
    have beyond := (squeeze (shifted + 1) 255 fun i from_here => by
      have above := none_below i from_here
      exact ⟨by omega, (byte i).2⟩).1
    omega
  · by_contra none_above
    push Not at none_above
    have beyond := (squeeze 0 (shifted - 1) fun i from_here => by
      have below := none_above i from_here
      exact ⟨(byte i).1, by omega⟩).2
    omega

theorem corner_fromImage {word : BitVec 32} {channel : ℕ} (few : channel < 3)
    (x_last : intPlace xIdx (sz.wratio K) + 1 = sz.swidth)
    (y_last : intPlace yIdx (sz.hratio K) + 1 = sz.sheight)
    (fits : sz.byteIndex (intPlace yIdx (sz.hratio K)) (intPlace xIdx (sz.wratio K)) 2 < 2 ^ 32)
    (lucky : (word.toNat : ℤ) =
      sz.byteIndex (intPlace yIdx (sz.hratio K)) (intPlace xIdx (sz.wratio K)) 0) :
    ∀ i ∈ (reads word.toNat sz (sz.wratio K) (sz.hratio K) xIdx yIdx channel).toList,
      i = sz.byteIndex (intPlace yIdx (sz.hratio K)) (intPlace xIdx (sz.wratio K)) channel := by
  obtain ⟨-, x_low, -⟩ := column_bounds (K := K) x_nonneg x_inside
  obtain ⟨-, y_low, -⟩ := row_bounds (K := K) y_nonneg y_inside
  intro i member
  rw [← Sizes.si_channel few y_low x_low fits]
  rw [reads, Sizes.sources_corner x_low x_last y_low y_last] at member
  simp only [Terms.toList, List.mem_cons, List.not_mem_nil, or_false] at member
  rcases member with same | same | same | same
  · exact same
  · rw [same]
    by_cases first : channel = 0
    · rw [if_pos first]
    · have width := sz.swidth_word.1
      have rows := mul_nonneg y_low (show 0 ≤ sz.swidth by omega)
      rw [if_neg first, Sizes.si_channel few y_low x_low fits, lucky]
      simp only [Sizes.byteIndex, u32] at fits ⊢
      omega
  · exact same
  · exact same

theorem word_of_corner {word : BitVec 32}
    (x_last : intPlace xIdx (sz.wratio K) + 1 = sz.swidth)
    (y_last : intPlace yIdx (sz.hratio K) + 1 = sz.sheight)
    (from_image : ∀ i ∈ (reads word.toNat sz (sz.wratio K) (sz.hratio K) xIdx yIdx 1).toList,
      FromImage sz (sz.wratio K) (sz.hratio K) xIdx yIdx 1 i) :
    (word.toNat : ℤ) =
      sz.byteIndex (intPlace yIdx (sz.hratio K)) (intPlace xIdx (sz.wratio K)) 0 := by
  obtain ⟨-, x_low, -⟩ := column_bounds (K := K) x_nonneg x_inside
  obtain ⟨-, y_low, -⟩ := row_bounds (K := K) y_nonneg y_inside
  have small := word.isLt
  rw [reads, Sizes.sources_corner x_low x_last y_low y_last] at from_image
  obtain ⟨row, col, ⟨on_y, on_x⟩, -, -, -, -, index⟩ := from_image _ (.tail _ (.head _))
  have row_same : row = intPlace yIdx (sz.hratio K) := by omega
  have col_same : col = intPlace xIdx (sz.wratio K) := by omega
  rw [row_same, col_same, if_neg one_ne_zero] at index
  have rows := mul_nonneg y_low (show 0 ≤ sz.swidth by omega)
  simp only [Sizes.byteIndex, u32] at index ⊢
  omega

/-- An output pixel is what it has to be exactly when it is not that of the last source pixel, or
the unset `si_2` holds the index of that, and every index fits. -/
theorem resized_iff (word : BitVec 32) :
    Resized dImage word.toNat sz (sz.wratio K) (sz.hratio K) xIdx yIdx ↔
      (intPlace xIdx (sz.wratio K) + 1 < sz.swidth ∨
        intPlace yIdx (sz.hratio K) + 1 < sz.sheight ∨
        (word.toNat : ℤ) =
          sz.byteIndex (intPlace yIdx (sz.hratio K)) (intPlace xIdx (sz.wratio K)) 0) ∧
      sz.Addressable (intPlace xIdx (sz.wratio K)) (intPlace yIdx (sz.hratio K)) xIdx yIdx := by
  obtain ⟨-, x_low, x_high⟩ := column_bounds (K := K) x_nonneg x_inside
  obtain ⟨-, y_low, y_high⟩ := row_bounds (K := K) y_nonneg y_inside
  constructor
  · intro resized
    have fits := (noOverflow_iff x_nonneg x_inside y_nonneg y_inside).mp resized.fits
    refine ⟨?_, fits⟩
    rw [or_iff_not_imp_left, or_iff_not_imp_left]
    intro x_last y_last
    exact word_of_corner x_nonneg x_inside y_nonneg y_inside (by omega) (by omega)
      (resized.reads 1 (by omega))
  · rintro ⟨clear, fits⟩
    have channels : ∀ channel < 3, ∀ i ∈ (reads word.toNat sz (sz.wratio K) (sz.hratio K) xIdx yIdx
        channel).toList, FromImage sz (sz.wratio K) (sz.hratio K) xIdx yIdx channel i := by
      intro channel few i member
      have here := sz.selected_first (intPlace xIdx (sz.wratio K)) (intPlace yIdx (sz.hratio K))
      by_cases inner : intPlace xIdx (sz.wratio K) + 1 < sz.swidth ∨
          intPlace yIdx (sz.hratio K) + 1 < sz.sheight
      · obtain ⟨row, col, selected, rfl⟩ :=
          sz.sources_selected x_low x_high y_low y_high inner i member
        obtain ⟨row_nonneg, col_nonneg, -⟩ :=
          selected_nonneg x_nonneg x_inside y_nonneg y_inside selected
        rw [Sizes.si_channel few row_nonneg col_nonneg (fits.2.1 _ _ selected).2.2]
        exact fromImage_of_selected x_nonneg x_inside y_nonneg y_inside channel selected
      · have lucky := (or_assoc.mpr clear).resolve_left inner
        rw [corner_fromImage x_nonneg x_inside y_nonneg y_inside few (by omega) (by omega)
          (fits.2.1 _ _ here).2.2 lucky i member]
        exact fromImage_of_selected x_nonneg x_inside y_nonneg y_inside channel here
    refine ⟨channels, fun channel few index value written => ?_,
      (noOverflow_iff x_nonneg x_inside y_nonneg y_inside).mpr fits⟩
    rw [dLinearResize, if_pos ⟨x_inside, y_inside⟩, List.getElem?_map, List.getElem?_range few,
      Option.map_some, Option.some.injEq, Prod.mk.injEq] at written
    rw [← written.2]
    exact between_of_reads x_nonneg x_inside y_nonneg y_inside (channels channel few)

end Threads

def enlarged : Sizes := ⟨2, 2, 3, 3, by decide, by decide, by decide, by decide⟩

theorem resized_first : Resized (fun i => BitVec.ofInt 8 i) (0 : BitVec 32).toNat enlarged
    (enlarged.wratio ℚ) (enlarged.hratio ℚ) 0 0 := by
  have x_first : intPlace 0 (enlarged.wratio ℚ) = 0 := by decide +kernel
  have y_first : intPlace 0 (enlarged.hratio ℚ) = 0 := by decide +kernel
  refine (resized_iff le_rfl (by decide) le_rfl (by decide) 0).mpr ?_
  rw [x_first, y_first]
  refine ⟨.inl (by decide), by decide, ?_, by decide⟩
  rintro row col ⟨on_y, on_x⟩
  simp only [enlarged, Sizes.byteIndex]
  omega

/-- The corner reads the first pixel when `si_2` is zero. -/
theorem last_pixel_mixed : ¬ ∀ (dImage : ℤ → BitVec 8) (word : BitVec 32) (sz : Sizes)
    (xIdx yIdx : ℤ), 0 ≤ xIdx → xIdx < sz.twidth → 0 ≤ yIdx → yIdx < sz.theight →
      Resized dImage word.toNat sz (sz.wratio ℚ) (sz.hratio ℚ) xIdx yIdx := by
  intro resized
  have last := resized (fun i => BitVec.ofInt 8 i) 0 enlarged 2 2 (by decide) (by decide)
    (by decide) (by decide)
  have x_last : intPlace 2 (enlarged.wratio ℚ) = 1 := by decide +kernel
  have y_last : intPlace 2 (enlarged.hratio ℚ) = 1 := by decide +kernel
  have word : ((0 : BitVec 32).toNat : ℤ) = enlarged.byteIndex
      (intPlace 2 (enlarged.hratio ℚ)) (intPlace 2 (enlarged.wratio ℚ)) 0 :=
    word_of_corner (by decide) (by decide) (by decide) (by decide) (by rw [x_last]; decide)
      (by rw [y_last]; decide) (last.reads 1 (by decide))
  rw [x_last, y_last] at word
  exact absurd word (by decide)

end RobocupDrone.YoloServer.Resize
