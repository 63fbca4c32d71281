import Mathlib.Algebra.Group.ModEq
import Mathlib.Algebra.Order.Field.Basic
import Mathlib.Algebra.Order.Group.Unbundled.Abs
import Mathlib.Algebra.Order.Ring.Cast
import Mathlib.Order.Interval.Set.UnorderedInterval
import Mathlib.Tactic.Linarith
import Mathlib.Tactic.Ring
import RobocupDrone.Library.Numerals

/-! The arcs of a circle. Its points are numbers, up to full turns of twice `half`. -/

namespace Circle

open AddCommGroup

variable {K : Type*} {half a b c turn part : K} [Field K]

theorem modEq_turns (n : ℤ) (same : c = a + n * (2 * half)) : a ≡ c [PMOD 2 * half] := by
  rw [modEq_iff_eq_add_zsmul]
  exact ⟨n, by rw [same, zsmul_eq_mul]⟩

theorem modEq_forward (same : c = a + 2 * half) : a ≡ c [PMOD 2 * half] :=
  modEq_turns 1 (by rw [same, Int.cast_one, one_mul])

theorem modEq_backward (same : c = a - 2 * half) : a ≡ c [PMOD 2 * half] :=
  modEq_turns (-1) (by rw [same, Int.cast_neg, Int.cast_one]; ring)

variable [LinearOrder K] [IsStrictOrderedRing K]

/-- `c` is on the shorter arc from `a` to `b`: a turn of `half` at most leads to `b`, and a part of
it to `c`. -/
def OnShorterArc (half a b c : K) : Prop :=
  ∃ turn part, |turn| ≤ half ∧ part ∈ Set.uIcc 0 turn ∧
    a + turn ≡ b [PMOD 2 * half] ∧ a + part ≡ c [PMOD 2 * half]

/-- From `a` to `c` by a turn of `reach` at most. -/
def Within (half reach a c : K) : Prop :=
  ∃ turn, |turn| ≤ reach ∧ a + turn ≡ c [PMOD 2 * half]

theorem OnShorterArc.neg (on_arc : OnShorterArc half a b c) :
    OnShorterArc half (-a) (-b) (-c) := by
  obtain ⟨turn, part, small, between, there, here⟩ := on_arc
  refine ⟨-turn, -part, by rwa [abs_neg], ?_, ?_, ?_⟩
  · rcases Set.mem_uIcc.mp between with ⟨low, high⟩ | ⟨low, high⟩
    · exact Set.mem_uIcc.mpr (.inr ⟨neg_le_neg high, neg_nonpos.mpr low⟩)
    · exact Set.mem_uIcc.mpr (.inl ⟨neg_nonneg.mpr high, neg_le_neg low⟩)
  · rw [← neg_add, neg_modEq_neg]
    exact there
  · rw [← neg_add, neg_modEq_neg]
    exact here

theorem middle_of_forward (far : half < b - a) (inside : b - a ≤ 2 * half) :
    ¬OnShorterArc half a b ((a + b) / 2) := by
  rintro ⟨turn, part, small, between, there, here⟩
  obtain ⟨m, whole⟩ := modEq_iff_zsmul.mp there
  obtain ⟨n, middle⟩ := modEq_iff_zsmul.mp here
  rw [zsmul_eq_mul] at whole middle
  obtain ⟨above, below⟩ := abs_le.mp small
  have positive : 0 < half := by linarith
  have size : 0 < 2 * half := by linarith
  have m_pos : (0 : K) < m := pos_of_mul_pos_left (by linarith) size.le
  have m_low : (m : K) < 2 := lt_of_mul_lt_mul_right (by linarith) size.le
  have m_one : m = 1 := by
    have low : 0 < m := by exact_mod_cast m_pos
    have high : m < 2 := by exact_mod_cast m_low
    omega
  rw [m_one, Int.cast_one, one_mul] at whole
  have backwards : turn ≤ 0 := by linarith
  rw [Set.uIcc_of_ge backwards] at between
  obtain ⟨low, high⟩ := between
  have n_pos : (0 : K) < n := pos_of_mul_pos_left (by linarith) size.le
  have n_low : (n : K) < 1 := lt_of_mul_lt_mul_right (by linarith) size.le
  have low : 0 < n := by exact_mod_cast n_pos
  have high : n < 1 := by exact_mod_cast n_low
  omega

theorem not_onShorterArc_middle (far : half < |b - a|) (inside : |b - a| ≤ 2 * half) :
    ¬OnShorterArc half a b ((a + b) / 2) := by
  rcases le_total 0 (b - a) with forward | backward
  · rw [abs_of_nonneg forward] at far inside
    exact middle_of_forward far inside
  · rw [abs_of_nonpos backward] at far inside
    intro on_arc
    have mirrored := on_arc.neg
    rw [show -((a + b) / 2) = (-a + -b) / 2 by ring] at mirrored
    exact middle_of_forward (by linarith) (by linarith) mirrored

end Circle
