import Mathlib.Logic.Function.Basic
import RobocupDrone.Library.Vec3

/-! Loops over ranges and boxes of integer indices, and buffers written with one value. -/

namespace Geometry

/-- The indices from `low` to `high`. -/
def span (low high : ℤ) : List ℤ :=
  (List.range (high + 1 - low).toNat).map fun (k : ℕ) => low + k

theorem mem_span_iff {low high i : ℤ} : i ∈ span low high ↔ low ≤ i ∧ i ≤ high := by
  simp only [span, List.mem_map, List.mem_range]
  constructor
  · rintro ⟨k, bound, same⟩
    omega
  · rintro ⟨above, below⟩
    exact ⟨(i - low).toNat, by omega, by omega⟩

theorem span_concat {low high : ℤ} (ordered : low ≤ high) :
    span low high = span low (high - 1) ++ [high] := by
  have longer : (high + 1 - low).toNat = (high - 1 + 1 - low).toNat + 1 := by omega
  have last : low + ((high - 1 + 1 - low).toNat : ℤ) = high := by omega
  rw [span, span, longer, List.range_succ, List.map_append, List.map_singleton, last]

/-- The first `n` indices of a loop from `low` on. -/
def strideFrom (low step : ℤ) : ℕ → List ℤ
  | 0 => []
  | n + 1 => low :: strideFrom (low + step) step n

/-- The indices of a loop that goes up by a positive `step` while they are below `high`. -/
def stride (low high step : ℤ) : List ℤ :=
  strideFrom low step ((high - low + step - 1) / step).toNat

theorem mem_strideFrom_iff {low step i : ℤ} {n : ℕ} :
    i ∈ strideFrom low step n ↔ ∃ k < n, i = low + k * step := by
  induction n generalizing low with
  | zero => simp [strideFrom]
  | succ n ih =>
      rw [strideFrom, List.mem_cons, ih]
      constructor
      · rintro (rfl | ⟨k, bound, rfl⟩)
        · exact ⟨0, Nat.succ_pos n, by simp⟩
        · refine ⟨k + 1, Nat.succ_lt_succ bound, ?_⟩
          push_cast
          ring
      · rintro ⟨k, bound, rfl⟩
        cases k with
        | zero => exact .inl (by simp)
        | succ k =>
            refine .inr ⟨k, Nat.lt_of_succ_lt_succ bound, ?_⟩
            push_cast
            ring

theorem mem_stride_iff {low high step i : ℤ} (positive : 0 < step) :
    i ∈ stride low high step ↔ i < high ∧ ∃ k : ℕ, i = low + k * step := by
  rw [stride, mem_strideFrom_iff, and_comm]
  constructor
  · rintro ⟨k, bound, rfl⟩
    refine ⟨⟨k, rfl⟩, ?_⟩
    have within : (k : ℤ) + 1 ≤ (high - low + step - 1) / step := by omega
    have room := (Int.le_ediv_iff_mul_le positive).mp within
    linarith
  · rintro ⟨⟨k, rfl⟩, below⟩
    refine ⟨k, ?_, rfl⟩
    have within : (k : ℤ) + 1 ≤ (high - low + step - 1) / step := by
      rw [Int.le_ediv_iff_mul_le positive]
      linarith
    omega

def box (low high : Vec3 ℤ) : List (Vec3 ℤ) :=
  (span low.x high.x).flatMap fun x => (span low.y high.y).flatMap fun y =>
    (span low.z high.z).map fun z => ⟨x, y, z⟩

def InBox (low high idx : Vec3 ℤ) : Prop :=
  ∀ axis, low.get axis ≤ idx.get axis ∧ idx.get axis ≤ high.get axis

instance (low high idx : Vec3 ℤ) : Decidable (InBox low high idx) :=
  inferInstanceAs (Decidable (∀ _ : Axis, _))

theorem inBox_iff {low high idx : Vec3 ℤ} : InBox low high idx ↔
    (low.x ≤ idx.x ∧ idx.x ≤ high.x) ∧ (low.y ≤ idx.y ∧ idx.y ≤ high.y) ∧
      (low.z ≤ idx.z ∧ idx.z ≤ high.z) := by
  constructor
  · intro inside
    exact ⟨inside .x, inside .y, inside .z⟩
  · rintro ⟨on_x, on_y, on_z⟩ axis
    cases axis
    · exact on_x
    · exact on_y
    · exact on_z

theorem mem_box_iff {low high idx : Vec3 ℤ} : idx ∈ box low high ↔ InBox low high idx := by
  rw [inBox_iff]
  simp only [box, List.mem_flatMap, List.mem_map, mem_span_iff]
  constructor
  · rintro ⟨x, on_x, y, on_y, z, on_z, rfl⟩
    exact ⟨on_x, on_y, on_z⟩
  · rintro ⟨on_x, on_y, on_z⟩
    exact ⟨idx.x, on_x, idx.y, on_y, idx.z, on_z, rfl⟩

section Fill

variable {α β : Type*} [DecidableEq α]

/-- The buffer with `value` written at all of the addresses. -/
def fill (value : β) (addresses : List α) (buffer : α → β) : α → β :=
  addresses.foldl (fun buffer address => Function.update buffer address value) buffer

theorem fill_apply (value : β) (addresses : List α) (buffer : α → β) (a : α) :
    fill value addresses buffer a = if a ∈ addresses then value else buffer a := by
  unfold fill
  induction addresses generalizing buffer with
  | nil => simp
  | cons address rest ih =>
      rw [List.foldl_cons, ih]
      by_cases later : a ∈ rest
      · simp [later]
      · by_cases here : a = address
        · simp [here]
        · simp [later, here]

theorem foldl_fill_apply {γ : Type*} (value : β) (addresses : γ → List α) (items : List γ)
    (buffer : α → β) (a : α) :
    items.foldl (fun buffer item => fill value (addresses item) buffer) buffer a =
      if ∃ item ∈ items, a ∈ addresses item then value else buffer a := by
  induction items generalizing buffer with
  | nil => simp
  | cons item rest ih =>
      rw [List.foldl_cons, ih, fill_apply]
      by_cases later : ∃ item ∈ rest, a ∈ addresses item
      · simp [later]
      · by_cases here : a ∈ addresses item
        · simp [here]
        · simp [later, here]

end Fill

end Geometry
