import Mathlib.Tactic.NormNum
import RobocupDrone.Library.Numerals
import RobocupDrone.PathSearching.GridIndex

/-! `basic_transform.cu`: one thread of `DLinearResize`, as `PicResize` starts it. -/

namespace RobocupDrone.YoloServer.Resize

open PathSearching (castInt)

/-- The arguments of `PicResize` but the images, as words; the source has a pixel. -/
structure Sizes where
  swidth : ℤ
  sheight : ℤ
  twidth : ℤ
  theight : ℤ
  swidth_word : 1 ≤ swidth ∧ swidth < 2 ^ 32
  sheight_word : 1 ≤ sheight ∧ sheight < 2 ^ 32
  twidth_word : 0 ≤ twidth ∧ twidth < 2 ^ 32
  theight_word : 0 ≤ theight ∧ theight < 2 ^ 32

/-- The `uint32_t` of an integer. -/
def u32 (n : ℤ) : ℤ := n % 2 ^ 32

section Direction

variable {K : Type} [Field K] [LinearOrder K] [FloorRing K] (idx : ℤ) (ratio : K)

/-- `x_float` at first, the place in the source. -/
def place : K := (idx + 0.5) * ratio - 0.5

def castPlace : ℤ := castInt (place idx ratio)

def fraction : K := place idx ratio - castPlace idx ratio

def intPlace : ℤ := if 0 > castPlace idx ratio then 0 else castPlace idx ratio

def shortTemp : ℤ := castInt ((1 - fraction idx ratio) * 2048)

def cbuf1 : ℤ := if shortTemp idx ratio > 2048 then 2048 else shortTemp idx ratio

def cbuf2 : ℤ := 2048 - cbuf1 idx ratio

end Direction

/-- One item for each of the four terms of a sum, in their order. -/
structure Terms (α : Type) where
  term1 : α
  term2 : α
  term3 : α
  term4 : α

def Terms.map {α β : Type} (f : α → β) (t : Terms α) : Terms β :=
  ⟨f t.term1, f t.term2, f t.term3, f t.term4⟩

def Terms.toList {α : Type} (t : Terms α) : List α := [t.term1, t.term2, t.term3, t.term4]

namespace Sizes

variable (sz : Sizes)

def sstep : ℤ := u32 (3 * sz.swidth)

/-- The index of a source pixel: `si_1` to `si_4`. -/
def si (row col : ℤ) : ℤ := u32 (row * sz.sstep + col * 3)

/-- The places that a channel reads, by the four cases; `si2` is what the corner finds in the
unset `si_2`. -/
def sources (si2 x y : ℤ) (channel : ℕ) : Terms ℤ :=
  let plus (s : ℤ) : ℤ := u32 (s + channel)
  if u32 x < u32 (sz.swidth - 1) ∧ u32 y < u32 (sz.sheight - 1) then
    ⟨plus (sz.si y x), plus (sz.si (y + 1) x), plus (sz.si y (x + 1)), plus (sz.si (y + 1) (x + 1))⟩
  else if u32 x ≥ u32 (sz.swidth - 1) ∧ u32 y < u32 (sz.sheight - 1) then
    ⟨plus (sz.si y x), plus (sz.si (y + 1) x), plus (sz.si y x), plus (sz.si (y + 1) x)⟩
  else if u32 x < u32 (sz.swidth - 1) ∧ u32 y ≥ u32 (sz.sheight - 1) then
    ⟨plus (sz.si y x), plus (sz.si y x), plus (sz.si y (x + 1)), plus (sz.si y (x + 1))⟩
  else if channel = 0 then ⟨plus (sz.si y x), plus (sz.si y x), plus (sz.si y x), plus (sz.si y x)⟩
  else ⟨plus (sz.si y x), plus si2, plus (sz.si y x), plus (sz.si y x)⟩

def ti (xIdx yIdx : ℤ) : ℤ :=
  if sz.twidth > sz.theight then
    let top := u32 (u32 ((sz.twidth - sz.theight) / 2) * sz.twidth * 3)
    u32 (top + yIdx * 3 * sz.twidth + xIdx * 3)
  else
    let left := u32 ((sz.theight - sz.twidth) / 2)
    u32 (yIdx * 3 * sz.theight + (xIdx + left) * 3)

end Sizes

def weightedSum (v : Terms ℤ) (x1 x2 y1 y2 : ℤ) : ℤ :=
  v.term1 * x1 * y1 + v.term2 * x1 * y2 + v.term3 * x2 * y1 + v.term4 * x2 * y2

section Thread

variable {K : Type} [Field K] [LinearOrder K] [FloorRing K] (dImage : ℤ → BitVec 8) (si2 : ℤ)
  (sz : Sizes) (wratio hratio : K) (xIdx yIdx : ℤ)

def reads (channel : ℕ) : Terms ℤ :=
  sz.sources si2 (intPlace xIdx wratio) (intPlace yIdx hratio) channel

def channelSum (channel : ℕ) : ℤ :=
  weightedSum ((reads si2 sz wratio hratio xIdx yIdx channel).map fun i => (dImage i).toNat)
    (cbuf1 xIdx wratio) (cbuf2 xIdx wratio) (cbuf1 yIdx hratio) (cbuf2 yIdx hratio)

def channelValue (channel : ℕ) : BitVec 8 :=
  BitVec.ofInt 8 (channelSum dImage si2 sz wratio hratio xIdx yIdx channel >>> (22 : ℕ))

def dLinearResize : List (ℤ × BitVec 8) :=
  if xIdx < sz.twidth ∧ yIdx < sz.theight then
    (List.range 3).map fun (channel : ℕ) =>
      (u32 (sz.ti xIdx yIdx + channel),
        channelValue dImage si2 sz wratio hratio xIdx yIdx channel)
  else []

end Thread

def Sizes.wratio (K : Type) [Field K] (sz : Sizes) : K := sz.swidth / sz.twidth

def Sizes.hratio (K : Type) [Field K] (sz : Sizes) : K := sz.sheight / sz.theight

end RobocupDrone.YoloServer.Resize
