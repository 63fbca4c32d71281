import Mathlib.Data.BitVec

/-! Counters of a fixed width: how often they come to one, and majorities read off two of them. -/

namespace Counter

/-- How often a counter of `width` bits comes to one while it counts `n` from zero. -/
def turns (width n : ℕ) : ℕ := (n + (2 ^ width - 1)) / 2 ^ width

theorem turns_zero (width : ℕ) : turns width 0 = 0 := by
  have positive := Nat.two_pow_pos width
  exact Nat.div_eq_of_lt (by omega)

theorem update_succ {α : Type} [DecidableEq α] {width : ℕ} {counter : α → BitVec width}
    {count : α → ℕ} (counted : ∀ place, counter place = BitVec.ofNat width (count place))
    (here place : α) :
    Function.update counter here (counter here + 1) place =
      BitVec.ofNat width (count place + if here = place then 1 else 0) := by
  rw [Function.update_apply]
  by_cases same : place = here
  · rw [if_pos same, if_pos same.symm, counted, same, BitVec.ofNat_add]
    rfl
  · rw [if_neg same, if_neg (Ne.symm same), counted]
    rfl

theorem ofNat_succ_eq_one_iff (width n : ℕ) :
    BitVec.ofNat width (n + 1) = 1 ↔ n % 2 ^ width = 0 := by
  have one : (1 : BitVec width) = BitVec.ofNat width 1 := rfl
  rw [one, ← BitVec.toNat_inj, BitVec.toNat_ofNat, BitVec.toNat_ofNat]
  constructor
  · intro same
    have shifted : (n + 1) ≡ (0 + 1) [MOD 2 ^ width] := same
    exact Nat.ModEq.add_right_cancel' 1 shifted
  · intro divides
    rw [Nat.add_mod, divides, zero_add, Nat.mod_mod]

theorem turns_succ (width n : ℕ) :
    turns width (n + 1) = turns width n + if BitVec.ofNat width (n + 1) = 1 then 1 else 0 := by
  have positive := Nat.two_pow_pos width
  have quotient := Nat.div_add_mod n (2 ^ width)
  have below := Nat.mod_lt n positive
  have next : turns width (n + 1) = n / 2 ^ width + 1 := by
    rw [turns, show n + 1 + (2 ^ width - 1) = n + 2 ^ width by omega, Nat.add_div_right _ positive]
  rw [next]
  by_cases divides : n % 2 ^ width = 0
  · rw [if_pos ((ofNat_succ_eq_one_iff width n).mpr divides), turns]
    congr 1
    symm
    apply Nat.div_eq_of_lt_le
    · rw [Nat.mul_comm]
      omega
    · rw [Nat.add_mul, Nat.mul_comm, one_mul]
      omega
  · have not_one := mt (ofNat_succ_eq_one_iff width n).mp divides
    rw [if_neg not_one, turns, add_zero]
    symm
    apply Nat.div_eq_of_lt_le
    · rw [Nat.add_mul, Nat.mul_comm, one_mul]
      omega
    · rw [Nat.add_mul, Nat.add_mul, Nat.mul_comm, one_mul]
      omega

theorem turns_eq_zero_iff {width n : ℕ} : turns width n = 0 ↔ n = 0 := by
  have positive := Nat.two_pow_pos width
  rw [turns, Nat.div_eq_zero_iff_lt positive]
  omega

theorem turns_eq_one_iff {width n : ℕ} : turns width n = 1 ↔ 1 ≤ n ∧ n ≤ 2 ^ width := by
  have positive := Nat.two_pow_pos width
  rw [turns, Nat.div_eq_iff positive]
  omega

section Signed

variable {v n : ℕ}

theorem toInt_ofNat_low (low : n < 2 ^ v) : (BitVec.ofNat (v + 1) n).toInt = n := by
  have same : n % 2 ^ (v + 1) = n := Nat.mod_eq_of_lt (by omega)
  rw [BitVec.toInt_eq_toNat_cond, BitVec.toNat_ofNat, same, if_pos (by omega)]

theorem toInt_ofNat_high (high : 2 ^ v ≤ n) (below : n < 2 ^ (v + 1)) :
    (BitVec.ofNat (v + 1) n).toInt = n - 2 ^ (v + 1) := by
  have same : n % 2 ^ (v + 1) = n := Nat.mod_eq_of_lt below
  rw [BitVec.toInt_eq_toNat_cond, BitVec.toNat_ofNat, same, if_neg (by omega)]
  push_cast
  rfl

theorem toInt_ofNat_full : (BitVec.ofNat (v + 1) (2 ^ (v + 1))).toInt = 0 := by
  rw [BitVec.toInt_eq_toNat_cond, BitVec.toNat_ofNat, Nat.mod_self]
  simp

/-- `hits` of `calls`, counted in signed counters of `v + 1` bits, still show the majority. -/
def Fits (v calls hits : ℕ) : Prop :=
  calls < 2 ^ v ∨ (calls < 2 ^ (v + 1) ∧ hits < 2 ^ v ∧ calls ≤ 2 * hits) ∨
    (calls = 2 ^ (v + 1) ∧ hits = 2 ^ (v + 1))

/-- The counter of the calls comes to one once and the counters show the majority exactly when
the numbers fit. -/
theorem fits_iff {calls hits : ℕ} (part : hits ≤ calls) (some_call : 1 ≤ calls) :
    Fits v calls hits ↔ turns (v + 1) calls = 1 ∧
      ((BitVec.ofNat (v + 1) hits).toInt ≥
          (BitVec.ofNat (v + 1) calls).toInt - (BitVec.ofNat (v + 1) hits).toInt ↔
        calls ≤ 2 * hits) := by
  rw [turns_eq_one_iff, Fits, and_iff_right some_call]
  have double : 2 ^ (v + 1) = 2 * 2 ^ v := pow_succ' 2 v
  have double_int : (2 : ℤ) ^ (v + 1) = 2 * 2 ^ v := pow_succ' 2 v
  have power : ((2 ^ v : ℕ) : ℤ) = 2 ^ v := Nat.cast_pow 2 v
  rcases Nat.lt_or_ge calls (2 ^ v) with low | high
  · rw [toInt_ofNat_low low, toInt_ofNat_low (part.trans_lt low)]
    omega
  rcases Nat.lt_or_ge calls (2 ^ (v + 1)) with below | above
  · rw [toInt_ofNat_high high below]
    rcases Nat.lt_or_ge hits (2 ^ v) with few | many
    · rw [toInt_ofNat_low few]
      omega
    · rw [toInt_ofNat_high many (part.trans_lt below)]
      omega
  rcases above.eq_or_lt with full | beyond
  · rw [← full, toInt_ofNat_full]
    rcases Nat.lt_or_ge hits (2 ^ v) with few | many
    · rw [toInt_ofNat_low few]
      omega
    · rcases (part.trans full.ge).eq_or_lt with all | some_miss
      · rw [all, toInt_ofNat_full]
        omega
      · rw [toInt_ofNat_high many some_miss]
        omega
  · omega

end Signed

end Counter
