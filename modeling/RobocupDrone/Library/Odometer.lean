import Mathlib.Algebra.Order.Ring.Int
import Mathlib.Algebra.Order.Ring.Nat
import RobocupDrone.Library.Numerals

/-! Counting with digits: one digit is raised, and what is full carries over. -/

namespace Odometer

/-- Raises the first digit; a full one starts again and raises the next. Beyond the last digit there
is nothing to raise. -/
def advance (base : ℤ) : List ℤ → Option (List ℤ)
  | [] => none
  | digit :: rest =>
      if digit + 1 < base then some ((digit + 1) :: rest) else (advance base rest).map (0 :: ·)

def digits (base : ℕ) : ℕ → ℕ → List ℤ
  | 0, _ => []
  | places + 1, n => (n % base : ℕ) :: digits base places (n / base)

theorem getElem?_digits {base places i : ℕ} (inside : i < places) (n : ℕ) :
    (digits base places n)[i]? = some ((n / base ^ i % base : ℕ) : ℤ) := by
  induction places generalizing i n with
  | zero => omega
  | succ places ih =>
      rw [digits]
      cases i with
      | zero => rw [List.getElem?_cons_zero, pow_zero, Nat.div_one]
      | succ i =>
          rw [List.getElem?_cons_succ, ih (by omega), Nat.div_div_eq_div_mul, pow_succ']

theorem advance_digits {base places n : ℕ} (positive : 0 < base) (room : n + 1 < base ^ places) :
    advance base (digits base places n) = some (digits base places (n + 1)) := by
  induction places generalizing n with
  | zero => simp at room
  | succ places ih =>
      have split_n := Nat.div_add_mod n base
      have low := Nat.mod_lt n positive
      rw [digits, advance, digits]
      split_ifs with more
      · have more' : n % base + 1 < base := by exact_mod_cast more
        have next : n + 1 = n % base + 1 + base * (n / base) := by omega
        rw [next, Nat.add_mul_mod_self_left, Nat.mod_eq_of_lt more',
          Nat.add_mul_div_left _ _ positive, Nat.div_eq_of_lt more', zero_add, Nat.cast_succ]
      · have full : n % base + 1 = base := by
          have not_more : ¬n % base + 1 < base := fun small => more (by exact_mod_cast small)
          omega
        have next : n + 1 = base * (n / base + 1) := by
          rw [Nat.mul_add, Nat.mul_one]
          omega
        rw [next, Nat.mul_mod_right, Nat.mul_div_cancel_left _ positive, ih, Option.map_some,
          Nat.cast_zero]
        have whole : base * (n / base + 1) < base * base ^ places := by
          rw [← next, ← pow_succ']
          exact room
        exact Nat.lt_of_mul_lt_mul_left whole

def ready (places : ℕ) : List ℤ := (-1) :: List.replicate places 0

theorem digits_zero (base places : ℕ) : digits base places 0 = List.replicate places 0 := by
  induction places with
  | zero => rfl
  | succ places ih =>
      rw [digits, Nat.zero_mod, Nat.zero_div, ih, List.replicate_succ, Nat.cast_zero]

theorem advance_ready {base : ℕ} (positive : 0 < base) (places : ℕ) :
    advance base (ready places) = some (digits base (places + 1) 0) := by
  rw [ready, advance, if_pos (by omega), digits_zero, List.replicate_succ]
  rfl

/-- A count from zero on: all the states up to the `n`-th one. -/
def count (base : ℕ) : ℕ → List ℤ → Option (List (List ℤ))
  | 0, _ => some []
  | n + 1, state => do
      let next ← advance base state
      let later ← count base n next
      some (next :: later)

theorem count_digits {base places start n : ℕ} (positive : 0 < base)
    (room : start + n + 1 ≤ base ^ places) :
    count base n (digits base places start) =
      some ((List.range' (start + 1) n).map (digits base places)) := by
  induction n generalizing start with
  | zero => rfl
  | succ n ih =>
      rw [count, advance_digits positive (by omega), Option.bind_eq_bind, Option.bind_some,
        ih (by omega)]
      rfl

theorem count_ready {base places n : ℕ} (positive : 0 < base) (room : n ≤ base ^ (places + 1)) :
    count base n (ready places) = some ((List.range n).map (digits base (places + 1))) := by
  cases n with
  | zero => rfl
  | succ n =>
      rw [count, advance_ready positive, Option.bind_eq_bind, Option.bind_some,
        count_digits positive (by omega), Option.bind_eq_bind, Option.bind_some,
        List.range_eq_range', List.range'_succ]
      rfl

end Odometer
